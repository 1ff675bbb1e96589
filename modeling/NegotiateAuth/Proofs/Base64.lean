import NegotiateAuth.Base64

/-! # Base64 read back

Reading the text of a byte string gives it back, and a text that is read without a fault is the text
that is written for the bytes it gives. Any other text is refused with the place of its fault:
offsets count the bytes of the text.
-/

namespace NegotiateAuth

/-! ## Reading back -/

namespace Base64

theorem encode_eq_nil_iff {bytes : List UInt8} : encode bytes = [] ↔ bytes = [] := by
  have hlength := encode_length bytes
  rw [← List.length_eq_zero_iff, ← List.length_eq_zero_iff]
  omega

/-- What holds of every symbol and of the padding sign holds throughout a written text. -/
theorem forall_mem_encode {P : UInt8 → Prop} (hsymbol : ∀ value, P (symbol value)) (hpad : P pad)
    (bytes : List UInt8) : ∀ byte ∈ encode bytes, P byte := by
  fun_induction encode bytes with
  | case1 => simp
  | case2 a => simp [hsymbol, hpad]
  | case3 a b => simp [hsymbol, hpad]
  | case4 a b c rest ih => simpa [hsymbol] using ih

theorem symbol_visible (value : Fin 64) :
    33 ≤ (symbol value).toNat ∧ (symbol value).toNat < 127 ∧ symbol value ≠ 44 := by
  revert value
  decide +kernel

/-- The text of a byte string is visible ASCII without a comma. -/
theorem encode_visible (bytes : List UInt8) :
    ∀ byte ∈ encode bytes, 33 ≤ byte.toNat ∧ byte.toNat < 127 ∧ byte ≠ 44 :=
  forall_mem_encode symbol_visible (by decide) bytes

@[simp] theorem valueAt_symbol (offset : Nat) (value : Fin 64) :
    valueAt offset (symbol value) = .ok value := by
  simp only [valueAt, value?_symbol]

@[simp] theorem decodeQuad_symbols (offset : Nat) (w x y z : Fin 64) :
    decodeQuad offset (symbol w) (symbol x) (symbol y) (symbol z) =
      .ok [firstByte w x, secondByte x y, thirdByte y z] := by
  simp only [decodeQuad, valueAt_symbol]
  rfl

theorem scanLast_pads (offset : Nat) {place : Nat} (count : Nat) (h : 2 ≤ place) :
    scanLast offset place (List.replicate count pad) = .ok ([], count) := by
  cases count with
  | zero => rfl
  | succ count => simp [List.replicate_succ, scanLast, h]

/-- Symbols are scanned to their values, and padding after two of them or more is counted. -/
theorem scanLast_symbols (offset place : Nat) (values : List (Fin 64)) (count : Nat)
    (h : 2 ≤ place + values.length) :
    scanLast offset place (values.map symbol ++ List.replicate count pad) =
      .ok (values, count) := by
  induction values generalizing place with
  | nil => exact scanLast_pads offset count h
  | cons value values ih =>
      have hrest : 2 ≤ place + 1 + values.length := by
        rw [List.length_cons] at h
        omega
      rw [List.map_cons, List.cons_append, scanLast, if_neg (symbol_ne_pad value), valueAt_symbol,
        ih (place + 1) hrest]
      rfl

theorem decodeGroups_append {a b c d : UInt8} {rest : List UInt8} (h : rest ≠ []) (offset : Nat) :
    decodeGroups offset (a :: b :: c :: d :: rest) = do
      let bytes ← decodeQuad offset a b c d
      let more ← decodeGroups (offset + 4) rest
      return bytes ++ more := by
  cases rest with
  | nil => exact absurd rfl h
  | cons e rest => rfl

theorem decodeGroups_last (offset : Nat) (values : List (Fin 64)) (count : Nat)
    (h : 2 ≤ values.length) (hshort : values.length + count ≤ 4) :
    decodeGroups offset (values.map symbol ++ List.replicate count pad) =
      closeLast offset values count := by
  have hscan := scanLast_symbols offset 0 values count (by omega)
  rw [decodeGroups, hscan]
  · rfl
  · intro a b c d e rest heq
    have hlength := congrArg List.length heq
    simp only [List.length_append, List.length_map, List.length_replicate, List.length_cons]
      at hlength
    omega
  · intro heq
    have hlength := congrArg List.length heq
    simp only [List.length_append, List.length_map, List.length_nil] at hlength
    omega

theorem decodeGroups_encode (offset : Nat) (bytes : List UInt8) :
    decodeGroups offset (encode bytes) = .ok bytes := by
  fun_induction encode bytes generalizing offset with
  | case1 => rfl
  | case2 a =>
      have hlow : (secondValue a 0).val % 16 = 0 := by simp [secondValue]
      refine (decodeGroups_last offset [firstValue a, secondValue a 0] 2 (by simp)
        (by simp)).trans ?_
      simp [closeLast, hlow, firstByte_values]
  | case3 a b =>
      have hlow : (thirdValue b 0).val % 4 = 0 := by simp [thirdValue]
      refine (decodeGroups_last offset [firstValue a, secondValue a b, thirdValue b 0] 1 (by simp)
        (by simp)).trans ?_
      simp [closeLast, hlow, firstByte_values, secondByte_values]
  | case4 a b c rest ih =>
      by_cases hrest : encode rest = []
      · obtain rfl := encode_eq_nil_iff.1 hrest
        refine (decodeGroups_last offset
          [firstValue a, secondValue a b, thirdValue b c, fourthValue c] 0 (by simp)
          (by simp)).trans ?_
        simp [closeLast, firstByte_values, secondByte_values, thirdByte_values]
      · rw [decodeGroups_append hrest, decodeQuad_symbols, ih, firstByte_values,
          secondByte_values, thirdByte_values]
        rfl

theorem strayLast?_encode (bytes : List UInt8) : strayLast? (encode bytes) = none := by
  have hlength := encode_length bytes
  unfold strayLast?
  split
  · rw [if_neg]
    omega
  · rfl

theorem decode_encode (bytes : List UInt8) : decode (encode bytes) = .ok bytes := by
  unfold decode
  rw [strayLast?_encode]
  exact decodeGroups_encode 0 bytes

/-! ## One text for each byte string -/

theorem bind_eq_ok {α β : Type} {x : Except DecodeError α} {f : α → Except DecodeError β} {b : β} :
    (x >>= f) = .ok b ↔ ∃ a, x = .ok a ∧ f a = .ok b := by
  cases x with
  | error fault => simp [bind, Except.bind]
  | ok a => simp [bind, Except.bind]

theorem firstValue_firstByte (w x : Fin 64) : firstValue (firstByte w x) = w := by
  apply Fin.ext
  simp only [firstValue, firstByte, UInt8.toNat_ofNat']
  omega

theorem secondValue_bytes (w x y : Fin 64) :
    secondValue (firstByte w x) (secondByte x y) = x := by
  apply Fin.ext
  simp only [secondValue, firstByte, secondByte, UInt8.toNat_ofNat']
  omega

theorem thirdValue_bytes (x y z : Fin 64) :
    thirdValue (secondByte x y) (thirdByte y z) = y := by
  apply Fin.ext
  simp only [thirdValue, secondByte, thirdByte, UInt8.toNat_ofNat']
  omega

theorem fourthValue_thirdByte (y z : Fin 64) : fourthValue (thirdByte y z) = z := by
  apply Fin.ext
  simp only [fourthValue, thirdByte, UInt8.toNat_ofNat']
  omega

/-- The second symbol of a group of one byte has no bits beyond it. -/
theorem secondValue_last (w : Fin 64) {x : Fin 64} (h : x.val % 16 = 0) :
    secondValue (firstByte w x) 0 = x := by
  apply Fin.ext
  simp only [secondValue, firstByte, UInt8.toNat_ofNat', UInt8.toNat_zero]
  omega

/-- The third symbol of a group of two bytes has no bits beyond them. -/
theorem thirdValue_last (x : Fin 64) {y : Fin 64} (h : y.val % 4 = 0) :
    thirdValue (secondByte x y) 0 = y := by
  apply Fin.ext
  simp only [thirdValue, secondByte, UInt8.toNat_ofNat', UInt8.toNat_zero]
  omega

theorem encode_group (w x y z : Fin 64) (rest : List UInt8) :
    encode (firstByte w x :: secondByte x y :: thirdByte y z :: rest) =
      symbol w :: symbol x :: symbol y :: symbol z :: encode rest := by
  rw [encode, firstValue_firstByte, secondValue_bytes, thirdValue_bytes, fourthValue_thirdByte]

theorem valueAt_sound {offset : Nat} {byte : UInt8} {value : Fin 64}
    (h : valueAt offset byte = .ok value) : byte = symbol value := by
  unfold valueAt at h
  split at h
  case h_1 found hfound =>
      obtain rfl := Except.ok.inj h
      exact eq_symbol_of_value? hfound
  case h_2 => cases h

theorem decodeQuad_sound {offset : Nat} {a b c d : UInt8} {bytes : List UInt8}
    (h : decodeQuad offset a b c d = .ok bytes) (rest : List UInt8) :
    encode (bytes ++ rest) = a :: b :: c :: d :: encode rest := by
  unfold decodeQuad at h
  obtain ⟨w, hw, h⟩ := bind_eq_ok.1 h
  obtain ⟨x, hx, h⟩ := bind_eq_ok.1 h
  obtain ⟨y, hy, h⟩ := bind_eq_ok.1 h
  obtain ⟨z, hz, h⟩ := bind_eq_ok.1 h
  obtain rfl := Except.ok.inj h
  obtain rfl := valueAt_sound hw
  obtain rfl := valueAt_sound hx
  obtain rfl := valueAt_sound hy
  obtain rfl := valueAt_sound hz
  exact encode_group w x y z rest

theorem eq_replicate_pad {text : List UInt8} (h : text.all (· == pad) = true) :
    text = List.replicate text.length pad :=
  List.eq_replicate_of_mem fun byte hbyte => eq_of_beq (List.all_eq_true.1 h byte hbyte)

theorem scanLast_sound {offset place pads : Nat} {text : List UInt8} {values : List (Fin 64)}
    (h : scanLast offset place text = .ok (values, pads)) :
    text = values.map symbol ++ List.replicate pads pad := by
  induction text generalizing place values with
  | nil =>
      obtain ⟨rfl, rfl⟩ := Prod.mk.inj (Except.ok.inj h)
      rfl
  | cons byte rest ih =>
      unfold scanLast at h
      by_cases hpad : byte = pad
      · rw [if_pos hpad] at h
        split at h
        case isTrue hrest =>
            obtain ⟨rfl, rfl⟩ := Prod.mk.inj (Except.ok.inj h)
            rw [List.map_nil, List.nil_append, List.replicate_succ, hpad,
              ← eq_replicate_pad hrest.2]
        case isFalse hrest => cases h
      · rw [if_neg hpad] at h
        obtain ⟨value, hvalue, h⟩ := bind_eq_ok.1 h
        obtain ⟨⟨more, count⟩, hmore, h⟩ := bind_eq_ok.1 h
        obtain ⟨rfl, rfl⟩ := Prod.mk.inj (Except.ok.inj h)
        rw [valueAt_sound hvalue, ih hmore]
        rfl

theorem closeLast_sound {offset pads : Nat} {values : List (Fin 64)} {bytes : List UInt8}
    (h : closeLast offset values pads = .ok bytes) (hshort : values.length + pads ≤ 4) :
    encode bytes = values.map symbol ++ List.replicate pads pad := by
  unfold closeLast at h
  split at h
  case isTrue hfew => cases h
  case isFalse hfew =>
  split at h
  case isTrue hpads => cases h
  case isFalse hpads =>
  have hgroup : values.length + pads = 4 := by omega
  -- two values or more are left, and four at most
  rcases values with _ | ⟨w, _ | ⟨x, _ | ⟨y, _ | ⟨z, more⟩⟩⟩⟩
  · exact absurd Nat.two_pos hfew
  · exact absurd (Nat.lt_succ_self 1) hfew
  · simp only [List.length_cons, List.length_nil] at hgroup
    obtain rfl : pads = 2 := by omega
    dsimp only at h
    split at h
    case isTrue hlow =>
        obtain rfl := Except.ok.inj h
        rw [encode, firstValue_firstByte, secondValue_last w hlow]
        rfl
    case isFalse hlow => cases h
  · simp only [List.length_cons, List.length_nil] at hgroup
    obtain rfl : pads = 1 := by omega
    dsimp only at h
    split at h
    case isTrue hlow =>
        obtain rfl := Except.ok.inj h
        rw [encode, firstValue_firstByte, secondValue_bytes, thirdValue_last x hlow]
        rfl
    case isFalse hlow => cases h
  · simp only [List.length_cons] at hgroup
    obtain rfl : pads = 0 := by omega
    obtain rfl : more = [] := List.length_eq_zero_iff.1 (by omega)
    obtain rfl := Except.ok.inj h
    exact encode_group w x y z []

theorem length_le_of_last {text : List UInt8}
    (h : ∀ a b c d e rest, text = a :: b :: c :: d :: e :: rest → False) : text.length ≤ 4 := by
  match text with
  | [] | [_] | [_, _] | [_, _, _] | [_, _, _, _] => simp
  | a :: b :: c :: d :: e :: rest => exact (h a b c d e rest rfl).elim

theorem decodeGroups_sound {offset : Nat} {text bytes : List UInt8}
    (h : decodeGroups offset text = .ok bytes) : text = encode bytes := by
  fun_induction decodeGroups offset text generalizing bytes with
  | case1 offset a b c d e rest ih =>
      obtain ⟨group, hgroup, h⟩ := bind_eq_ok.1 h
      obtain ⟨more, hmore, h⟩ := bind_eq_ok.1 h
      obtain rfl := Except.ok.inj h
      rw [decodeQuad_sound hgroup, ← ih hmore]
  | case2 offset =>
      obtain rfl := Except.ok.inj h
      rfl
  | case3 offset last hlong hne =>
      obtain ⟨⟨values, pads⟩, hscan, h⟩ := bind_eq_ok.1 h
      have hlength := length_le_of_last hlong
      rw [scanLast_sound hscan] at hlength ⊢
      refine (closeLast_sound h ?_).symm
      simpa only [List.length_append, List.length_map, List.length_replicate] using hlength

/-- A text is read as bytes exactly if it is the text that is written for them. -/
theorem decode_eq_ok_iff (text bytes : List UInt8) :
    decode text = .ok bytes ↔ text = encode bytes := by
  constructor
  · intro h
    unfold decode at h
    split at h
    case h_1 fault hstray => cases h
    case h_2 hstray => exact decodeGroups_sound h
  · rintro rfl
    exact decode_encode bytes

/-! ## Where the fault is -/

/-- At an offset of a text, which starts at `start` of a longer one, the rest of it stands. -/
def StandsAt (start : Nat) (text : List UInt8) (offset : Nat) (rest : List UInt8) : Prop :=
  ∃ before, text = before ++ rest ∧ offset = start + before.length

theorem StandsAt.behind {start offset : Nat} {front text rest : List UInt8}
    (h : StandsAt (start + front.length) text offset rest) :
    StandsAt start (front ++ text) offset rest := by
  obtain ⟨before, rfl, rfl⟩ := h
  exact ⟨front ++ before, by rw [List.append_assoc], by rw [List.length_append, Nat.add_assoc]⟩

namespace DecodeError

/-- The fault is one of this text: a byte in its place, or the symbols up to a place. -/
def LocatedIn (start : Nat) (text : List UInt8) : DecodeError → Prop
  | invalidByte offset byte => ∃ rest, StandsAt start text offset (byte :: rest)
  | invalidLastSymbol offset byte => ∃ rest, StandsAt start text offset (byte :: rest)
  | invalidLength length => ∃ rest, StandsAt start text length rest
  | invalidPadding => True

theorem LocatedIn.behind {start : Nat} {text : List UInt8} {fault : DecodeError}
    (front : List UInt8) (h : fault.LocatedIn (start + front.length) text) :
    fault.LocatedIn start (front ++ text) := by
  cases fault with
  | invalidByte offset byte => exact h.imp fun _ => StandsAt.behind
  | invalidLastSymbol offset byte => exact h.imp fun _ => StandsAt.behind
  | invalidLength length => exact h.imp fun _ => StandsAt.behind
  | invalidPadding => trivial

end DecodeError

theorem bind_eq_error {α β : Type} {x : Except DecodeError α} {f : α → Except DecodeError β}
    {fault : DecodeError} :
    (x >>= f) = .error fault ↔ x = .error fault ∨ ∃ a, x = .ok a ∧ f a = .error fault := by
  cases x with
  | error other => simp [bind, Except.bind]
  | ok a => simp [bind, Except.bind]

section

variable {offset : Nat} {fault : DecodeError}

theorem valueAt_fault {byte : UInt8} (h : valueAt offset byte = .error fault) :
    fault = .invalidByte offset byte := by
  unfold valueAt at h
  split at h
  case h_1 => cases h
  case h_2 => exact (Except.error.inj h).symm

theorem decodeQuad_fault {a b c d : UInt8} (h : decodeQuad offset a b c d = .error fault)
    (rest : List UInt8) : fault.LocatedIn offset (a :: b :: c :: d :: rest) := by
  unfold decodeQuad at h
  rcases bind_eq_error.1 h with h | ⟨w, -, h⟩
  · obtain rfl := valueAt_fault h
    exact ⟨b :: c :: d :: rest, [], rfl, rfl⟩
  rcases bind_eq_error.1 h with h | ⟨x, -, h⟩
  · obtain rfl := valueAt_fault h
    exact ⟨c :: d :: rest, [a], rfl, rfl⟩
  rcases bind_eq_error.1 h with h | ⟨y, -, h⟩
  · obtain rfl := valueAt_fault h
    exact ⟨d :: rest, [a, b], rfl, rfl⟩
  rcases bind_eq_error.1 h with h | ⟨z, -, h⟩
  · obtain rfl := valueAt_fault h
    exact ⟨rest, [a, b, c], rfl, rfl⟩
  cases h

theorem scanLast_fault {place : Nat} {text : List UInt8}
    (h : scanLast offset place text = .error fault) : fault.LocatedIn (offset + place) text := by
  induction text generalizing place with
  | nil => cases h
  | cons byte rest ih =>
      unfold scanLast at h
      by_cases hpad : byte = pad
      · rw [if_pos hpad] at h
        split at h
        case isTrue => cases h
        case isFalse =>
            obtain rfl := Except.error.inj h
            exact ⟨rest, [], by rw [hpad]; rfl, rfl⟩
      · rw [if_neg hpad] at h
        rcases bind_eq_error.1 h with h | ⟨value, -, h⟩
        · obtain rfl := valueAt_fault h
          exact ⟨rest, [], rfl, rfl⟩
        rcases bind_eq_error.1 h with h | ⟨scanned, -, h⟩
        · exact DecodeError.LocatedIn.behind [byte] (ih h)
        cases h

theorem closeLast_fault {values : List (Fin 64)} {pads : Nat}
    (h : closeLast offset values pads = .error fault) (padding : List UInt8) :
    fault.LocatedIn offset (values.map symbol ++ padding) := by
  unfold closeLast at h
  split at h
  case isTrue hfew =>
      obtain rfl := Except.error.inj h
      exact ⟨padding, values.map symbol, rfl, by rw [List.length_map]⟩
  case isFalse hfew =>
  split at h
  case isTrue hpads =>
      obtain rfl := Except.error.inj h
      trivial
  case isFalse hpads =>
  -- only groups of two and of three values have bits to spare
  split at h
  case h_1 w x =>
      split at h
      case isTrue => cases h
      case isFalse =>
          obtain rfl := Except.error.inj h
          exact ⟨padding, [symbol w], rfl, rfl⟩
  case h_2 w x y =>
      split at h
      case isTrue => cases h
      case isFalse =>
          obtain rfl := Except.error.inj h
          exact ⟨padding, [symbol w, symbol x], rfl, rfl⟩
  case h_3 => cases h
  case h_4 => cases h

theorem decodeGroups_fault {text : List UInt8} (h : decodeGroups offset text = .error fault) :
    fault.LocatedIn offset text := by
  fun_induction decodeGroups offset text with
  | case1 offset a b c d e rest ih =>
      rcases bind_eq_error.1 h with h | ⟨group, -, h⟩
      · exact decodeQuad_fault h (e :: rest)
      rcases bind_eq_error.1 h with h | ⟨more, -, h⟩
      · exact DecodeError.LocatedIn.behind [a, b, c, d] (ih h)
      cases h
  | case2 offset => cases h
  | case3 offset last hlong hne =>
      rcases bind_eq_error.1 h with h | ⟨⟨values, pads⟩, hscan, h⟩
      · exact scanLast_fault h
      · rw [scanLast_sound hscan]
        exact closeLast_fault h _

end

theorem strayLast?_fault {text : List UInt8} {fault : DecodeError}
    (h : strayLast? text = some fault) : fault.LocatedIn 0 text := by
  unfold strayLast? at h
  split at h
  case h_1 byte hlast =>
      split at h
      case isTrue =>
          obtain rfl := Option.some.inj h
          obtain ⟨front, rfl⟩ := List.getLast?_eq_some_iff.1 hlast
          exact ⟨[], front, rfl, by simp⟩
      case isFalse => cases h
  case h_2 => cases h

theorem decode_fault {text : List UInt8} {fault : DecodeError} (h : decode text = .error fault) :
    fault.LocatedIn 0 text := by
  unfold decode at h
  split at h
  case h_1 error hstray =>
      obtain rfl := Except.error.inj h
      exact strayLast?_fault hstray
  case h_2 => exact decodeGroups_fault h

end Base64

end NegotiateAuth
