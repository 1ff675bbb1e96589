import NegotiateAuth.Text

/-! # Request targets

A request target in one of its forms: absolute, a path of the server asked, an authority alone, or
the asterisk. The authority is checked in one pass from the left; the host and the port are read
from one that passed.
-/

namespace NegotiateAuth

/-! ## The authority -/

namespace Uri

inductive Fault where
  | empty
  | tooLong
  | invalidCharacter
  | invalidAuthority
  | schemeTooLong
  | invalidFormat
deriving DecidableEq, Repr

def Fault.message : Fault → String
  | .empty => "empty string"
  | .tooLong => "uri too long"
  | .invalidCharacter => "invalid uri character"
  | .invalidAuthority => "invalid authority"
  | .schemeTooLong => "scheme too long"
  | .invalidFormat => "invalid format"

def endsAuthority (c : Char) : Bool :=
  c == '/' || c == '?' || c == '#'

/-- A character that may stand in an authority without having a role there. -/
def isPlain (c : Char) : Bool :=
  c.isAlphanum || "!$&'()*+,-.;=_~".toList.contains c

structure Scan where
  colons : Nat
  opened : Bool
  closed : Bool
  percent : Bool
  afterAt : Bool
deriving DecidableEq, Repr

namespace Scan

def start : Scan := ⟨0, false, false, false, false⟩

/-- Colons and percent signs count only outside user information and brackets. -/
def forget (scan : Scan) : Scan :=
  { scan with colons := 0, percent := false }

def step (scan : Scan) (c : Char) : Except Fault Scan :=
  let scan := { scan with afterAt := false }
  match c with
  | ':' =>
      if 8 ≤ scan.colons then .error .invalidAuthority
      else .ok { scan with colons := scan.colons + 1 }
  | '[' =>
      if scan.percent || scan.opened then .error .invalidAuthority
      else .ok { scan with opened := true }
  | ']' =>
      if !scan.opened || scan.closed then .error .invalidAuthority
      else .ok { scan.forget with closed := true }
  | '@' => .ok { scan.forget with afterAt := true }
  | '%' => .ok { scan with percent := true }
  | c => if isPlain c then .ok scan else .error .invalidCharacter

/-- Brackets are paired, one colon at most is left for the port, and a host follows. -/
def isFinal (scan : Scan) : Bool :=
  scan.opened == scan.closed && scan.colons ≤ 1 && !scan.percent && !scan.afterAt

end Scan

def checkAuthority (cs : List Char) : Except Fault Unit := do
  let scan ← cs.foldlM Scan.step Scan.start
  if scan.isFinal then .ok () else .error .invalidAuthority

def takeAuthority (cs : List Char) : Except Fault (List Char × List Char) := do
  if cs.isEmpty then .error .empty
  else
    let authority := cs.takeWhile (!endsAuthority ·)
    checkAuthority authority
    return (authority, cs.drop authority.length)

def authorityHost (authority : List Char) : List Char :=
  let place := Text.lastPiece '@' authority
  match place with
  | '[' :: _ => Text.firstPiece ']' place ++ [']']
  | _ => Text.firstPiece ':' place

/-- A port in decimal digits, which one plus sign may precede. -/
def portNumber? (cs : List Char) : Option UInt16 :=
  let digits :=
    match cs with
    | '+' :: rest => rest
    | _ => cs
  match Text.number? 10 digits with
  | some number => if number < 65536 then some (UInt16.ofNat number) else none
  | none => none

/-- The port of an authority: what follows its last colon, if that is a port. -/
def authorityPort? (authority : List Char) : Option UInt16 :=
  if ':' ∈ authority then portNumber? (Text.lastPiece ':' authority) else none

end Uri

/-! ## The target -/

structure Uri where
  scheme : Option String
  authority : Option String
  path : String
  query : Option String
deriving DecidableEq, Repr

namespace Uri

def isTargetChar (c : Char) : Bool :=
  0x20 < c.toNat && c.toNat != 0x7f && c != '<' && c != '>'

def isPathChar (c : Char) : Bool :=
  isTargetChar c && c != '\x60'

def isQueryChar (c : Char) : Bool :=
  isTargetChar c && c != '"'

/-- The path and the query at the front of a text; a fragment is left out. -/
def splitQuery (cs : List Char) : List Char × Option (List Char) :=
  let path := cs.takeWhile fun c => c != '?' && c != '#'
  match cs.drop path.length with
  | '?' :: rest => (path, some (rest.takeWhile (· != '#')))
  | _ => (path, none)

def ofParts (scheme authority : Option (List Char)) (cs : List Char) : Except Fault Uri :=
  let parts := splitQuery cs
  if parts.1.all isPathChar && parts.2.all (·.all isQueryChar) then
    .ok
      { scheme := scheme.map String.ofList
        authority := authority.map String.ofList
        path := if parts.1.isEmpty then "/" else String.ofList parts.1
        query := parts.2.map String.ofList }
  else .error .invalidCharacter

def ofAuthority (authority : List Char) : Uri :=
  { scheme := none, authority := some (String.ofList authority), path := "", query := none }

def isSchemeChar (c : Char) : Bool :=
  c.isAlphanum || "+-.~".toList.contains c

/-- What follows a text at the front of another one, in any case of its letters. -/
def dropFolded? (lead : String) (cs : List Char) : Option (List Char) :=
  let size := lead.length
  if (cs.take size).map Char.toLower = lead.toList then some (cs.drop size) else none

/-- Split off a scheme and the `://` after it; the two usual schemes are put in lower case. -/
def takeScheme (cs : List Char) : Except Fault (Option (List Char) × List Char) :=
  match dropFolded? "http://" cs, dropFolded? "https://" cs with
  | some rest, _ => .ok (some "http".toList, rest)
  | none, some rest => .ok (some "https".toList, rest)
  | none, none =>
      let scheme := cs.takeWhile isSchemeChar
      match cs.drop scheme.length with
      | ':' :: '/' :: '/' :: rest =>
          if scheme.isEmpty && rest.isEmpty then .ok (none, cs)
          else if 64 < scheme.length then .error .schemeTooLong
          else .ok (some scheme, rest)
      | _ => .ok (none, cs)

/-- A target that does not begin with a slash, of two characters or more. -/
def parseFull (cs : List Char) : Except Fault Uri := do
  let (scheme, rest) ← takeScheme cs
  let (authority, tail) ← takeAuthority rest
  match scheme with
  | none => if tail.isEmpty then .ok (ofAuthority authority) else .error .invalidFormat
  | some scheme =>
      if authority.isEmpty then .error .invalidFormat
      else ofParts (some scheme) (some authority) tail

/-- A target of one character: the asterisk, or an authority. -/
def parseSingle (c : Char) : Except Fault Uri :=
  if c = '*' then .ok { scheme := none, authority := none, path := "*", query := none }
  else if endsAuthority c then .error .invalidCharacter
  else do
    checkAuthority [c]
    return ofAuthority [c]

def parse (text : String) : Except Fault Uri :=
  if 65534 < text.utf8ByteSize then .error .tooLong
  else
    match text.toList with
    | [] => .error .empty
    | '/' :: rest => ofParts none none ('/' :: rest)
    | [c] => parseSingle c
    | cs => parseFull cs

def toText (uri : Uri) : String :=
  uri.scheme.elim "" (· ++ "://") ++ uri.authority.getD "" ++ uri.path ++
    uri.query.elim "" ("?" ++ ·)

def host? (uri : Uri) : Option String :=
  uri.authority.map fun authority => String.ofList (authorityHost authority.toList)

def port? (uri : Uri) : Option UInt16 :=
  uri.authority.bind fun authority => authorityPort? authority.toList

end Uri

end NegotiateAuth
