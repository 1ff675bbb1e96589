import NegotiateAuth.Uri

/-! # Messages

The messages that pass through a handshake, and the causes for which the parts of one are refused.
Names of fields are kept in lower case, so that equal names are equal values. The fields stay in
arrival order; what is read from them is the list of values of a name.
-/

namespace NegotiateAuth

/-! ## Tokens -/

namespace Http

def isTokenChar (c : Char) : Bool :=
  c.isAlphanum || "!#$%&'*+-.^_\x60|~".toList.contains c

inductive Fault where
  | fieldName
  | fieldValue
  | method
  | status
deriving DecidableEq, Repr

def Fault.message : Fault → String
  | .fieldName => "invalid HTTP header name"
  | .fieldValue => "failed to parse header value"
  | .method => "invalid HTTP method"
  | .status => "invalid status code"

/-! ## Fields -/

structure FieldName where
  text : String
deriving DecidableEq, Repr

namespace FieldName

/-- Reads a name of either case; it has 1 to 65535 token characters. -/
def ofText (text : String) : Except Fault FieldName :=
  let cs := text.toList
  if cs.isEmpty || 65535 < cs.length || !cs.all isTokenChar then .error .fieldName
  else .ok ⟨String.ofList (cs.map Char.toLower)⟩

def authorization : FieldName := ⟨"authorization"⟩

def proxyAuthorization : FieldName := ⟨"proxy-authorization"⟩

def wwwAuthenticate : FieldName := ⟨"www-authenticate"⟩

def proxyAuthenticate : FieldName := ⟨"proxy-authenticate"⟩

end FieldName

structure FieldValue where
  bytes : List UInt8
  sensitive : Bool
deriving DecidableEq, Repr

namespace FieldValue

def isValid (byte : UInt8) : Bool :=
  byte == 9 || (32 ≤ byte && byte != 127)

def isReadable (byte : UInt8) : Bool :=
  byte == 9 || (32 ≤ byte && byte < 127)

def ofBytes (bytes : List UInt8) : Except Fault FieldValue :=
  if bytes.all isValid then .ok ⟨bytes, false⟩ else .error .fieldValue

def ofText (text : String) : Except Fault FieldValue :=
  ofBytes (Text.utf8 text.toList)

/-- The value as text; only values readable as a whole have one. -/
def text? (value : FieldValue) : Option String :=
  if value.bytes.all isReadable then some (Text.ofBytes value.bytes) else none

def shownByte (byte : UInt8) : List Char :=
  if byte == 34 then ['\\', '"']
  else if isReadable byte then [Text.charOfByte byte]
  else ['\\', 'x'] ++ Nat.toDigits 16 byte.toNat

/-- The diagnostic text, which tells nothing of a sensitive value. -/
def debugText (value : FieldValue) : String :=
  if value.sensitive then "Sensitive"
  else String.ofList ('"' :: value.bytes.flatMap shownByte ++ ['"'])

theorem isValid_of_isReadable {byte : UInt8} (h : isReadable byte = true) :
    isValid byte = true := by
  simp only [isReadable, isValid, Bool.or_eq_true, Bool.and_eq_true, beq_iff_eq,
    decide_eq_true_eq, bne_iff_ne] at h ⊢
  rcases h with h | ⟨hlow, hhigh⟩
  · exact Or.inl h
  · refine Or.inr ⟨hlow, ?_⟩
    rintro rfl
    exact absurd hhigh (by decide)

end FieldValue

structure FieldMap where
  fields : List (FieldName × FieldValue)
deriving DecidableEq, Repr

namespace FieldMap

def empty : FieldMap := ⟨[]⟩

def values (map : FieldMap) (name : FieldName) : List FieldValue :=
  (map.fields.filter (·.1 = name)).map (·.2)

def append (map : FieldMap) (name : FieldName) (value : FieldValue) : FieldMap :=
  ⟨map.fields ++ [(name, value)]⟩

def insert (map : FieldMap) (name : FieldName) (value : FieldValue) : FieldMap :=
  ⟨map.fields.filter (·.1 ≠ name) ++ [(name, value)]⟩

@[simp] theorem values_empty (name : FieldName) : empty.values name = [] :=
  rfl

theorem values_append_of_ne (map : FieldMap) {name other : FieldName} (h : name ≠ other)
    (value : FieldValue) : (map.append name value).values other = map.values other := by
  simp [append, values, h]

theorem values_insert_self (map : FieldMap) (name : FieldName) (value : FieldValue) :
    (map.insert name value).values name = [value] := by
  simp [insert, values, List.filter_filter]

theorem values_insert_of_ne (map : FieldMap) {name other : FieldName} (h : name ≠ other)
    (value : FieldValue) : (map.insert name value).values other = map.values other := by
  have keep : ∀ field : FieldName × FieldValue,
      (decide (field.1 = other) && decide (field.1 ≠ name)) = decide (field.1 = other) := by
    intro field
    by_cases hfield : field.1 = other
    · simp [hfield, Ne.symm h]
    · simp [hfield]
  simp only [insert, values, List.filter_append, List.filter_filter, keep]
  simp [h]

end FieldMap

/-! ## Requests and responses -/

structure Method where
  text : String
deriving DecidableEq, Repr

namespace Method

def ofText (text : String) : Except Fault Method :=
  if text.isEmpty || !text.toList.all isTokenChar then .error .method else .ok ⟨text⟩

def get : Method := ⟨"GET"⟩

end Method

inductive Version where
  | http09
  | http10
  | http11
  | http2
  | http3
deriving DecidableEq, Repr

def Version.text : Version → String
  | .http09 => "HTTP/0.9"
  | .http10 => "HTTP/1.0"
  | .http11 => "HTTP/1.1"
  | .http2 => "HTTP/2.0"
  | .http3 => "HTTP/3.0"

structure Status where
  code : Nat
  three_digits : 100 ≤ code ∧ code ≤ 999
deriving DecidableEq, Repr

namespace Status

def ofCode (code : Nat) : Except Fault Status :=
  if h : 100 ≤ code ∧ code ≤ 999 then .ok ⟨code, h⟩ else .error .status

def unauthorized : Status := ⟨401, by decide⟩

def proxyAuthenticationRequired : Status := ⟨407, by decide⟩

def isSuccess (status : Status) : Bool :=
  200 ≤ status.code && status.code < 300

end Status

structure Request where
  method : Method
  uri : Uri
  version : Version
  fields : FieldMap
  body : List UInt8
  annotations : List String
deriving DecidableEq, Repr

/-- The same message to send once more; the annotations belong to the first sending. -/
def Request.replay (request : Request) : Request :=
  { request with annotations := [] }

structure Response where
  status : Status
  fields : FieldMap
  body : List UInt8
deriving DecidableEq, Repr

end Http

end NegotiateAuth
