import NegotiateAuth.Address
import NegotiateAuth.DomainName
import NegotiateAuth.Uri

/-! # Hosts and URLs

A host name and a port to connect to, read off a request target or a URL, with the port that its
scheme stands for where none is written. Under the schemes of the web the name in a URL is
percent-decoded, put in lower case and may turn out to be a number, which is an IPv4 address; under
any other scheme it is kept as it is written. What follows the port of a URL is not kept, since no
service name depends on it; it cannot make a text no URL either.
-/

namespace NegotiateAuth

/-! ## The host of a URL -/

namespace Url

inductive Fault where
  | noScheme
  | emptyHost
  | invalidPort
  | invalidIpv4
  | invalidIpv6
  | invalidDomain
  | invalidHostCharacter
deriving DecidableEq, Repr

def Fault.message : Fault → String
  | .noScheme => "relative URL without a base"
  | .emptyHost => "empty host"
  | .invalidPort => "invalid port number"
  | .invalidIpv4 => "invalid IPv4 address"
  | .invalidIpv6 => "invalid IPv6 address"
  | .invalidDomain => "invalid international domain name"
  | .invalidHostCharacter => "invalid domain character"

inductive HostPart where
  | domain (name : String)
  | ipv4 (ip : Address.Ipv4)
  | ipv6 (ip : Address.Ipv6)
deriving DecidableEq, Repr

namespace HostPart

def toText : HostPart → String
  | domain name => name
  | ipv4 ip => ip.toText
  | ipv6 ip => "[" ++ ip.toGroupText ++ "]"

def percentDecode : List Char → List Char
  | '%' :: high :: low :: rest =>
      match Text.digitIn? 16 high, Text.digitIn? 16 low with
      | some h, some l => Char.ofNat (h * 16 + l) :: percentDecode rest
      | _, _ => '%' :: percentDecode (high :: low :: rest)
  | c :: rest => c :: percentDecode rest
  | [] => []

def percentEncode (c : Char) : List Char :=
  (String.utf8EncodeChar c).flatMap fun byte =>
    '%' :: (Text.padded 2 (Nat.toDigits 16 byte.toNat)).map Char.toUpper

def isForbiddenSign (c : Char) : Bool :=
  "#/:<>?@[\\]^|".toList.contains c

/-- A character of a domain: visible ASCII without the signs that delimit the parts of a URL. -/
def isDomainChar (c : Char) : Bool :=
  0x20 < c.toNat && c.toNat < 0x7f && c != '%' && !isForbiddenSign c

def isVerbatimChar (c : Char) : Bool :=
  c != '\x00' && c != '\t' && c != '\n' && c != '\r' && c != ' ' && !isForbiddenSign c

def readBracketed (cs : List Char) : Except Fault HostPart :=
  match cs.getLast?, Address.Ipv6.read? (cs.drop 1).dropLast with
  | some ']', some ip => .ok (ipv6 ip)
  | _, _ => .error .invalidIpv6

def readDomain (cs : List Char) : Except Fault (List Char) :=
  let name := (percentDecode cs).map Char.toLower
  if name.all isDomainChar && DomainName.isWritable name then .ok name
  else .error .invalidDomain

def readWeb (cs : List Char) : Except Fault HostPart :=
  if cs.head? = some '[' then readBracketed cs
  else do
    let name ← readDomain cs
    if name.isEmpty then .error .emptyHost
    else if Address.Numeric.endsInNumber name then
      match Address.Numeric.read? name with
      | some ip => .ok (ipv4 ip)
      | none => .error .invalidIpv4
    else .ok (domain (String.ofList name))

/-- The host of any other URL; control characters are percent-encoded. -/
def readVerbatim (cs : List Char) : Except Fault HostPart :=
  if cs.head? = some '[' then readBracketed cs
  else if cs.all isVerbatimChar then
    let encode := fun c => if c.toNat < 0x20 || 0x7f ≤ c.toNat then percentEncode c else [c]
    .ok (domain (String.ofList (cs.flatMap encode)))
  else .error .invalidHostCharacter

end HostPart

end Url

/-! ## URLs -/

structure Url where
  scheme : String
  host : Option Url.HostPart
  port : Option UInt16
deriving DecidableEq, Repr

namespace Url

def usualPort? (scheme : String) : Option UInt16 :=
  match scheme with
  | "http" => some 80
  | "ws" => some 80
  | "https" => some 443
  | "wss" => some 443
  | "ftp" => some 21
  | _ => none

def effectivePort? (url : Url) : Option UInt16 :=
  match url.port with
  | some port => some port
  | none => usualPort? url.scheme

def hostText? (url : Url) : Option String :=
  url.host.map HostPart.toText

/-- A text without what surrounds a URL or breaks it over lines. -/
def strip (text : String) : List Char :=
  (Text.trim (fun c => c.toNat ≤ 0x20) text.toList).filter fun c =>
    c != '\t' && c != '\n' && c != '\r'

def isSchemeChar (c : Char) : Bool :=
  c.isAlphanum || c == '+' || c == '-' || c == '.'

def takeScheme? (cs : List Char) : Option (String × List Char) :=
  let scheme := cs.takeWhile isSchemeChar
  match cs.head?, cs.drop scheme.length with
  | some first, ':' :: rest =>
      if first.isAlpha then some (String.ofList (scheme.map Char.toLower), rest) else none
  | _, _ => none

def isSlash (c : Char) : Bool :=
  c == '/' || c == '\\'

/-- A character that ends the authority; under the schemes of the web a backslash does too. -/
def endsAuthority (web : Bool) (c : Char) : Bool :=
  c == '/' || c == '?' || c == '#' || (web && c == '\\')

/-- Leave out the user information, which ends at the last at sign of the authority, and say whether
it names a user or a password. -/
def dropUser (web : Bool) (cs : List Char) : Except Fault (Bool × List Char) :=
  let authority := cs.takeWhile (!endsAuthority web ·)
  let tail := cs.drop authority.length
  if '@' ∈ authority then
    let place := Text.lastPiece '@' authority
    let user := authority.take (authority.length - place.length - 1)
    if user.isEmpty && place.isEmpty && !tail.isEmpty then .error .emptyHost
    else .ok (!user.isEmpty && user != [':'], place ++ tail)
  else .ok (false, cs)

/-- Split off the host; a colon between brackets does not end it. -/
def takeHost (web inside : Bool) : List Char → List Char × List Char
  | [] => ([], [])
  | c :: rest =>
      if (c == ':' && !inside) || endsAuthority web c then ([], c :: rest)
      else
        let parts := takeHost web (c == '[' || (inside && c != ']')) rest
        (c :: parts.1, parts.2)

/-- The port after its colon; no digits stand for no port. -/
def readPort (cs : List Char) : Except Fault (Option UInt16) :=
  let digits := cs.takeWhile (Text.isDigitIn 10)
  if (cs.drop digits.length).head?.all (endsAuthority true) then
    match Text.number? 10 digits with
    | none => .ok none
    | some number =>
        if number < 65536 then .ok (some (UInt16.ofNat number)) else .error .invalidPort
  else .error .invalidPort

def readTail (cs : List Char) : Except Fault (Option UInt16) :=
  match cs with
  | ':' :: rest => readPort rest
  | _ => .ok none

def withPort (scheme : String) (host : Option HostPart) (port : Option UInt16) : Url :=
  ⟨scheme, host, if port = usualPort? scheme then none else port⟩

/-- A URL of the web, from what follows the slashes. -/
def parseWeb (scheme : String) (cs : List Char) : Except Fault Url := do
  let (_, place) ← dropUser true cs
  let (name, tail) := takeHost true false place
  if name.isEmpty then .error .emptyHost
  else
    let host ← HostPart.readWeb name
    let port ← readTail tail
    return withPort scheme (some host) port

/-- A URL of another scheme, from what follows the two slashes; its host may be left out. -/
def parseOther (scheme : String) (cs : List Char) : Except Fault Url := do
  let (named, place) ← dropUser false cs
  let (name, tail) := takeHost false false place
  let host ← HostPart.readVerbatim name
  if name.isEmpty then
    if named || tail.head? = some ':' then .error .emptyHost else .ok ⟨scheme, none, none⟩
  else
    let port ← readTail tail
    return withPort scheme (some host) port

/-- A letter and a colon or a bar, which name a drive and no host. -/
def isDrive (cs : List Char) : Bool :=
  match cs with
  | [letter, mark] => letter.isAlpha && (mark == ':' || mark == '|')
  | _ => false

/-- A file URL, from what follows its scheme; the local machine is no host. -/
def parseFile (cs : List Char) : Except Fault Url := do
  let name := (cs.drop 2).takeWhile (!endsAuthority true ·)
  if !(cs.take 2).all isSlash || name.isEmpty || isDrive name then .ok ⟨"file", none, none⟩
  else
    let host ← HostPart.readWeb name
    return ⟨"file", if host = .domain "localhost" then none else some host, none⟩

def parse (text : String) : Except Fault Url :=
  match takeScheme? (strip text) with
  | none => .error .noScheme
  | some (scheme, rest) =>
      if scheme = "file" then parseFile rest
      else if (usualPort? scheme).isSome then parseWeb scheme (rest.dropWhile isSlash)
      else
        match rest with
        | '/' :: '/' :: place => parseOther scheme place
        | _ => .ok ⟨scheme, none, none⟩

end Url

/-! ## Hosts -/

structure Host where
  name : String
  port : UInt16
deriving DecidableEq, Repr

namespace Host

def toText (host : Host) : String :=
  s!"{host.name}:{host.port.toNat}"

/-- A name without the brackets around it, if it has both of them. -/
def stripBrackets (name : String) : String :=
  match name.toList with
  | '[' :: rest =>
      if rest.getLast? = some ']' then String.ofList rest.dropLast else name
  | _ => name

def assumedPort (uri : Uri) : UInt16 :=
  if uri.scheme = some "https" then 443 else 80

def ofUri? (uri : Uri) : Option Host :=
  uri.host?.map fun name => ⟨stripBrackets name, uri.port?.getD (assumedPort uri)⟩

/-- A URL has a host to connect to if it names one and its port is known. -/
def ofUrl? (url : Url) : Option Host :=
  match url.hostText?, url.effectivePort? with
  | some name, some port => some ⟨stripBrackets name, port⟩
  | _, _ => none

end Host

/-! ## Routes -/

structure Route where
  target : Host
  proxy : Option Host
deriving DecidableEq, Repr

namespace Route

def direct (target : Host) : Route :=
  ⟨target, none⟩

def viaProxy (target proxy : Host) : Route :=
  ⟨target, some proxy⟩

def withProxy (route : Route) (proxy : Host) : Route :=
  { route with proxy := some proxy }

def ofUri? (uri : Uri) : Option Route :=
  (Host.ofUri? uri).map direct

def ofUrl? (url : Url) : Option Route :=
  (Host.ofUrl? url).map direct

/-- The host to authenticate against: for a proxy the proxy, if there is one, else the target. -/
def authHost (route : Route) (proxy : Bool) : Host :=
  if proxy then route.proxy.getD route.target else route.target

end Route

end NegotiateAuth
