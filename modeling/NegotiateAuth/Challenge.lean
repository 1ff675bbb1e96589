import NegotiateAuth.Base64
import NegotiateAuth.Http

/-! # Challenges

Who challenges a request and in which header field, the Negotiate challenge itself, and the answer
to it. A challenge keeps its token as text; it is decoded when a session takes it.
-/

namespace NegotiateAuth

inductive Peer where
  | target
  | proxy
deriving DecidableEq, Repr

namespace Peer

def name : Peer → String
  | target => "Target"
  | proxy => "Proxy"

def challengeStatus : Peer → Http.Status
  | target => .unauthorized
  | proxy => .proxyAuthenticationRequired

def statusText : Peer → String
  | target => "401 Unauthorized"
  | proxy => "407 Proxy Authentication Required"

def ofStatus? (status : Http.Status) : Option Peer :=
  if status = target.challengeStatus then some target
  else if status = proxy.challengeStatus then some proxy
  else none

theorem ofStatus?_eq_some_iff (status : Http.Status) (peer : Peer) :
    ofStatus? status = some peer ↔ status = peer.challengeStatus := by
  unfold ofStatus?
  by_cases htarget : status = target.challengeStatus
  · rw [if_pos htarget, htarget]
    cases peer with
    | target => simp
    | proxy => decide
  · rw [if_neg htarget]
    by_cases hproxy : status = proxy.challengeStatus
    · rw [if_pos hproxy, hproxy]
      cases peer with
      | target => decide
      | proxy => simp
    · rw [if_neg hproxy]
      cases peer with
      | target => simp [htarget]
      | proxy => simp [hproxy]

def challengeField : Peer → Http.FieldName
  | target => .wwwAuthenticate
  | proxy => .proxyAuthenticate

def answerField : Peer → Http.FieldName
  | target => .authorization
  | proxy => .proxyAuthorization

end Peer

def schemeName : String :=
  "Negotiate"

structure Challenge where
  token : Option String
deriving DecidableEq, Repr

def decodeToken (text : String) : Except Base64.DecodeError (List UInt8) :=
  Base64.decode (Text.utf8 (Text.trim Text.isBlank text.toList))

def encodeToken (token : List UInt8) : String :=
  Text.ofBytes (Base64.encode token)

namespace Challenge

def ofChars (cs : List Char) : Challenge :=
  let token := Text.trim Text.isBlank cs
  ⟨if token.isEmpty then none else some (String.ofList token)⟩

/-- The challenge with a token, or the bare one if nothing but blanks is left of it. -/
def ofText (token : String) : Challenge :=
  ofChars token.toList

def namesScheme (cs : List Char) : Bool :=
  cs.map Char.toLower == schemeName.toList.map Char.toLower

def parseChars? (cs : List Char) : Option Challenge :=
  let trimmed := Text.trim Text.isBlank cs
  let scheme := trimmed.takeWhile (!Text.isBlank ·)
  if namesScheme scheme then some (ofChars (trimmed.drop scheme.length)) else none

/-- Reads one challenge, such as `Negotiate` or `Negotiate YII...`; any other scheme has none. -/
def parse? (value : String) : Option Challenge :=
  parseChars? value.toList

/-- The readable values of a peer's challenge field, cut at commas. -/
def offers (peer : Peer) (fields : Http.FieldMap) : List (List Char) :=
  ((fields.values peer.challengeField).filterMap Http.FieldValue.text?).flatMap
    fun value => Text.pieces ',' value.toList

def ofFields? (peer : Peer) (fields : Http.FieldMap) : Option Challenge :=
  (offers peer fields).findSome? parseChars?

def decode (challenge : Challenge) : Except Base64.DecodeError (List UInt8) :=
  match challenge.token with
  | some token => decodeToken token
  | none => .ok []

end Challenge

structure Answer where
  name : Http.FieldName
  value : Http.FieldValue
deriving DecidableEq, Repr

namespace Answer

/-- The answer to a peer with a token, kept out of diagnostics. -/
def negotiate (peer : Peer) (token : List UInt8) : Except Http.Fault Answer := do
  let value ← Http.FieldValue.ofText s!"{schemeName} {encodeToken token}"
  return ⟨peer.answerField, { value with sensitive := true }⟩

def debugText (answer : Answer) : String :=
  Text.record "AuthHeader"
    [("name", Text.quote answer.name.text), ("value", answer.value.debugText)]

def applyTo (answer : Answer) (fields : Http.FieldMap) : Http.FieldMap :=
  fields.insert answer.name answer.value

end Answer

end NegotiateAuth
