/-! # Base64 with padding

Three bytes are written as four symbols; a last group of one or two bytes is filled up with the
padding sign. Reading reports the first fault it meets, with its offset, in a fixed order: a stray
last byte, the full groups from the left, then the last group.
-/

namespace NegotiateAuth

/-! ## The alphabet -/

namespace Base64

/-- The symbol of a six-bit value: `A`-`Z`, `a`-`z`, `0`-`9`, `+`, `/`. -/
def symbol (value : Fin 64) : UInt8 :=
  if value.val < 26 then UInt8.ofNat (65 + value.val)
  else if value.val < 52 then UInt8.ofNat (97 + (value.val - 26))
  else if value.val < 62 then UInt8.ofNat (48 + (value.val - 52))
  else if value.val = 62 then 43
  else 47

/-- The value of a symbol; no other byte has one, the padding sign included. -/
def value? (byte : UInt8) : Option (Fin 64) :=
  let n := byte.toNat
  if h : 65 ≤ n ∧ n ≤ 90 then some ⟨n - 65, by omega⟩
  else if h : 97 ≤ n ∧ n ≤ 122 then some ⟨n - 71, by omega⟩
  else if h : 48 ≤ n ∧ n ≤ 57 then some ⟨n + 4, by omega⟩
  else if n = 43 then some 62
  else if n = 47 then some 63
  else none

def pad : UInt8 :=
  61

theorem value?_symbol (value : Fin 64) : value? (symbol value) = some value := by
  revert value
  decide +kernel

theorem symbol_ne_pad (value : Fin 64) : symbol value ≠ pad := by
  revert value
  decide +kernel

theorem eq_symbol_of_value? {byte : UInt8} {value : Fin 64} (h : value? byte = some value) :
    byte = symbol value := by
  apply UInt8.toNat_inj.1
  have hbyte := byte.toNat_lt
  simp only [value?] at h
  split at h
  case isTrue range =>
      obtain rfl := Option.some.inj h
      simp only [symbol, if_pos (show byte.toNat - 65 < 26 by omega), UInt8.toNat_ofNat']
      omega
  split at h
  case isTrue range =>
      obtain rfl := Option.some.inj h
      simp only [symbol, if_neg (show ¬ byte.toNat - 71 < 26 by omega),
        if_pos (show byte.toNat - 71 < 52 by omega), UInt8.toNat_ofNat']
      omega
  split at h
  case isTrue range =>
      obtain rfl := Option.some.inj h
      simp only [symbol, if_neg (show ¬ byte.toNat + 4 < 26 by omega),
        if_neg (show ¬ byte.toNat + 4 < 52 by omega),
        if_pos (show byte.toNat + 4 < 62 by omega), UInt8.toNat_ofNat']
      omega
  split at h
  case isTrue plus =>
      obtain rfl := Option.some.inj h
      exact plus
  split at h
  case isTrue slash =>
      obtain rfl := Option.some.inj h
      exact slash
  contradiction

/-! ## Writing and reading -/

inductive DecodeError where
  | invalidByte (offset : Nat) (byte : UInt8)
  /-- The symbols end inside the first two of a group. -/
  | invalidLength (length : Nat)
  /-- The last symbol has bits beyond the last byte. -/
  | invalidLastSymbol (offset : Nat) (byte : UInt8)
  | invalidPadding
deriving DecidableEq, Repr

namespace DecodeError

def message : DecodeError → String
  | invalidByte offset byte => s!"Invalid symbol {byte.toNat}, offset {offset}."
  | invalidLength length => s!"Invalid input length: {length}"
  | invalidLastSymbol offset byte => s!"Invalid last symbol {byte.toNat}, offset {offset}."
  | invalidPadding => "Invalid padding"

def debugText : DecodeError → String
  | invalidByte offset byte => s!"InvalidByte({offset}, {byte.toNat})"
  | invalidLength length => s!"InvalidLength({length})"
  | invalidLastSymbol offset byte => s!"InvalidLastSymbol({offset}, {byte.toNat})"
  | invalidPadding => "InvalidPadding"

end DecodeError

def firstValue (a : UInt8) : Fin 64 :=
  ⟨a.toNat / 4, by have := a.toNat_lt; omega⟩

def secondValue (a b : UInt8) : Fin 64 :=
  ⟨a.toNat % 4 * 16 + b.toNat / 16, by have := b.toNat_lt; omega⟩

def thirdValue (b c : UInt8) : Fin 64 :=
  ⟨b.toNat % 16 * 4 + c.toNat / 64, by have := c.toNat_lt; omega⟩

def fourthValue (c : UInt8) : Fin 64 :=
  ⟨c.toNat % 64, by omega⟩

def encode : List UInt8 → List UInt8
  | [] => []
  | [a] => [symbol (firstValue a), symbol (secondValue a 0), pad, pad]
  | [a, b] => [symbol (firstValue a), symbol (secondValue a b), symbol (thirdValue b 0), pad]
  | a :: b :: c :: rest =>
      symbol (firstValue a) :: symbol (secondValue a b) :: symbol (thirdValue b c) ::
        symbol (fourthValue c) :: encode rest

def firstByte (w x : Fin 64) : UInt8 :=
  UInt8.ofNat (w.val * 4 + x.val / 16)

def secondByte (x y : Fin 64) : UInt8 :=
  UInt8.ofNat (x.val % 16 * 16 + y.val / 4)

def thirdByte (y z : Fin 64) : UInt8 :=
  UInt8.ofNat (y.val % 4 * 64 + z.val)

theorem firstByte_values (a b : UInt8) : firstByte (firstValue a) (secondValue a b) = a := by
  apply UInt8.toNat_inj.1
  have ha := a.toNat_lt
  have hb := b.toNat_lt
  simp only [firstByte, firstValue, secondValue, UInt8.toNat_ofNat']
  omega

theorem secondByte_values (a b c : UInt8) :
    secondByte (secondValue a b) (thirdValue b c) = b := by
  apply UInt8.toNat_inj.1
  have ha := a.toNat_lt
  have hb := b.toNat_lt
  have hc := c.toNat_lt
  simp only [secondByte, secondValue, thirdValue, UInt8.toNat_ofNat']
  omega

theorem thirdByte_values (b c : UInt8) : thirdByte (thirdValue b c) (fourthValue c) = c := by
  apply UInt8.toNat_inj.1
  have hb := b.toNat_lt
  have hc := c.toNat_lt
  simp only [thirdByte, thirdValue, fourthValue, UInt8.toNat_ofNat']
  omega

def valueAt (offset : Nat) (byte : UInt8) : Except DecodeError (Fin 64) :=
  match value? byte with
  | some value => .ok value
  | none => .error (.invalidByte offset byte)

def decodeQuad (offset : Nat) (a b c d : UInt8) : Except DecodeError (List UInt8) := do
  let w ← valueAt offset a
  let x ← valueAt (offset + 1) b
  let y ← valueAt (offset + 2) c
  let z ← valueAt (offset + 3) d
  return [firstByte w x, secondByte x y, thirdByte y z]

/-- The values of the last group, which starts at `offset`, and the number of its padding signs.
Padding may start at the third place of the group, and only padding may follow it. -/
def scanLast (offset : Nat) (place : Nat) : List UInt8 → Except DecodeError (List (Fin 64) × Nat)
  | [] => .ok ([], 0)
  | byte :: rest =>
      if byte = pad then
        if 2 ≤ place ∧ rest.all (· == pad) then .ok ([], rest.length + 1)
        else .error (.invalidByte (offset + place) pad)
      else do
        let value ← valueAt (offset + place) byte
        let (values, pads) ← scanLast offset (place + 1) rest
        return (value :: values, pads)

def closeLast (offset : Nat) (values : List (Fin 64)) (pads : Nat) :
    Except DecodeError (List UInt8) :=
  if values.length < 2 then .error (.invalidLength (offset + values.length))
  else if (values.length + pads) % 4 ≠ 0 then .error .invalidPadding
  else
    match values with
    | [w, x] =>
        if x.val % 16 = 0 then .ok [firstByte w x]
        else .error (.invalidLastSymbol (offset + 1) (symbol x))
    | [w, x, y] =>
        if y.val % 4 = 0 then .ok [firstByte w x, secondByte x y]
        else .error (.invalidLastSymbol (offset + 2) (symbol y))
    | w :: x :: y :: z :: _ => .ok [firstByte w x, secondByte x y, thirdByte y z]
    | _ => .ok []

/-- The groups from `offset` on; only the last one may be padded or short. -/
def decodeGroups (offset : Nat) : List UInt8 → Except DecodeError (List UInt8)
  | a :: b :: c :: d :: e :: rest => do
      let bytes ← decodeQuad offset a b c d
      let more ← decodeGroups (offset + 4) (e :: rest)
      return bytes ++ more
  | [] => .ok []
  | last => do
      let (values, pads) ← scanLast offset 0 last
      closeLast offset values pads

/-- One byte more than full groups hold is refused first if it cannot stand anywhere. -/
def strayLast? (text : List UInt8) : Option DecodeError :=
  match text.getLast? with
  | some byte =>
      if text.length % 4 = 1 ∧ byte ≠ pad ∧ value? byte = none then
        some (.invalidByte (text.length - 1) byte)
      else none
  | none => none

def decode (text : List UInt8) : Except DecodeError (List UInt8) :=
  match strayLast? text with
  | some error => .error error
  | none => decodeGroups 0 text

theorem encode_length (bytes : List UInt8) :
    (encode bytes).length = 4 * ((bytes.length + 2) / 3) := by
  fun_induction encode bytes with
  | case1 => rfl
  | case2 a => simp
  | case3 a b => simp
  | case4 a b c rest ih =>
      simp only [List.length_cons, ih]
      omega

end Base64

end NegotiateAuth
