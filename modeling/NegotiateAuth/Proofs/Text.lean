import Mathlib.Data.List.Forall2
import NegotiateAuth.Text

/-! # Texts

What later proofs use of texts: ASCII texts and their bytes, letters in any case, trimming of joined
texts, slices at byte offsets, digits read back as the number they stand for, where the pieces
between separators stand, and numbers that stand behind a colon.
-/

namespace NegotiateAuth

/-! ## ASCII -/

namespace Text

/-- What holds of the 128 characters one by one holds of every ASCII character. -/
theorem forall_ascii {P : Char → Prop} (h : ∀ n < 128, P (Char.ofNat n)) {c : Char}
    (hc : c.toNat < 128) : P c := by
  rw [← Char.ofNat_toNat c]
  exact h c.toNat hc

theorem toList_ofBytes (bytes : List UInt8) : (ofBytes bytes).toList = bytes.map charOfByte :=
  String.toList_ofList

theorem toNat_charOfByte (byte : UInt8) : (charOfByte byte).toNat = byte.toNat := by
  have hbyte := byte.toNat_lt
  have hvalid : byte.toNat.isValidChar := Or.inl (by omega)
  unfold charOfByte Char.ofNat
  rw [dif_pos hvalid]
  rfl

theorem utf8EncodeChar_ascii {c : Char} (h : c.toNat < 128) :
    String.utf8EncodeChar c = [UInt8.ofNat c.toNat] := by
  unfold String.utf8EncodeChar
  have hc : c.val.toNat ≤ 127 := Nat.le_of_lt_succ h
  simp only [hc, if_true]
  rfl

theorem exists_mem_utf8EncodeChar {c : Char} (h : 128 ≤ c.toNat) :
    ∃ byte ∈ String.utf8EncodeChar c, 128 ≤ byte.toNat := by
  have hc : ¬ c.val.toNat ≤ 127 := Nat.not_le_of_lt h
  -- every encoding of two bytes or more ends in a byte of this form
  refine ⟨UInt8.ofNat (c.val.toNat % 64 + 128), ?_, ?_⟩
  · simp only [String.utf8EncodeChar, if_neg hc]
    split
    · simp
    · split <;> simp
  · rw [UInt8.toNat_ofNat']
    omega

theorem ascii_of_utf8 {cs : List Char} (h : ∀ byte ∈ utf8 cs, byte.toNat < 128) :
    ∀ c ∈ cs, c.toNat < 128 := by
  intro c hc
  apply Nat.lt_of_not_le
  intro hlarge
  obtain ⟨byte, hbyte, hhigh⟩ := exists_mem_utf8EncodeChar hlarge
  have hlow := h byte (List.mem_flatMap.2 ⟨c, hc, hbyte⟩)
  omega

theorem utf8_map_charOfByte {bytes : List UInt8} (h : ∀ byte ∈ bytes, byte.toNat < 128) :
    utf8 (bytes.map charOfByte) = bytes := by
  induction bytes with
  | nil => rfl
  | cons byte bytes ih =>
      have hbyte := h byte List.mem_cons_self
      rw [← toNat_charOfByte] at hbyte
      rw [List.map_cons, utf8_cons, utf8EncodeChar_ascii hbyte, toNat_charOfByte,
        UInt8.ofNat_toNat, ih fun other hother => h other (List.mem_cons_of_mem _ hother)]
      rfl

theorem map_charOfByte_utf8 {cs : List Char} (h : ∀ c ∈ cs, c.toNat < 128) :
    (utf8 cs).map charOfByte = cs := by
  induction cs with
  | nil => rfl
  | cons c cs ih =>
      have hc := h c List.mem_cons_self
      have hread : charOfByte (UInt8.ofNat c.toNat) = c := by
        rw [charOfByte, UInt8.toNat_ofNat', Nat.mod_eq_of_lt (by omega), Char.ofNat_toNat]
      rw [utf8_cons, utf8EncodeChar_ascii hc, List.map_append,
        ih fun other hother => h other (List.mem_cons_of_mem _ hother), List.map_cons, hread]
      rfl

theorem charOfByte_mem {cs : List Char} (h : ∀ c ∈ cs, c.toNat < 128) {byte : UInt8}
    (hbyte : byte ∈ utf8 cs) : charOfByte byte ∈ cs := by
  have hmem := List.mem_map_of_mem (f := charOfByte) hbyte
  rwa [map_charOfByte_utf8 h] at hmem

theorem ofBytes_utf8 {text : String} (h : ∀ c ∈ text.toList, c.toNat < 128) :
    ofBytes (utf8 text.toList) = text := by
  rw [ofBytes, map_charOfByte_utf8 h, String.ofList_toList]

/-! ## Any case -/

theorem toNat_toLower (c : Char) :
    c.toLower.toNat = if 65 ≤ c.toNat ∧ c.toNat ≤ 90 then c.toNat + 32 else c.toNat := by
  have hrange : c.val ≥ 'A'.val ∧ c.val ≤ 'Z'.val ↔ 65 ≤ c.toNat ∧ c.toNat ≤ 90 :=
    and_congr UInt32.le_iff_toNat_le UInt32.le_iff_toNat_le
  unfold Char.toLower
  by_cases h : c.val ≥ 'A'.val ∧ c.val ≤ 'Z'.val
  · have hhigh : c.val.toNat ≤ 90 := (hrange.1 h).2
    rw [dif_pos h, if_pos (hrange.1 h)]
    show (c.val + 32).toNat = c.val.toNat + 32
    rw [UInt32.toNat_add]
    exact Nat.mod_eq_of_lt (show c.val.toNat + 32 < 2 ^ 32 by omega)
  · rw [dif_neg h, if_neg (mt hrange.2 h)]

theorem toNat_toUpper (c : Char) :
    c.toUpper.toNat = if 97 ≤ c.toNat ∧ c.toNat ≤ 122 then c.toNat - 32 else c.toNat := by
  have hrange : c.val ≥ 'a'.val ∧ c.val ≤ 'z'.val ↔ 97 ≤ c.toNat ∧ c.toNat ≤ 122 :=
    and_congr UInt32.le_iff_toNat_le UInt32.le_iff_toNat_le
  unfold Char.toUpper
  by_cases h : c.val ≥ 'a'.val ∧ c.val ≤ 'z'.val
  · rw [dif_pos h, if_pos (hrange.1 h)]
    have hlow : 97 ≤ c.val.toNat := (hrange.1 h).1
    have hhigh : c.val.toNat ≤ 122 := (hrange.1 h).2
    have hshift : ('A'.val - 'a'.val).toNat = 2 ^ 32 - 32 := by decide
    show (c.val + ('A'.val - 'a'.val)).toNat = c.val.toNat - 32
    rw [UInt32.toNat_add, hshift]
    omega
  · rw [dif_neg h, if_neg (mt hrange.2 h)]

theorem isLower_iff (c : Char) : c.isLower = true ↔ 97 ≤ c.toNat ∧ c.toNat ≤ 122 :=
  Bool.and_eq_true_iff.trans <| and_congr
    (decide_eq_true_iff.trans UInt32.le_iff_toNat_le)
    (decide_eq_true_iff.trans UInt32.le_iff_toNat_le)

theorem isDigit_iff (c : Char) : c.isDigit = true ↔ 48 ≤ c.toNat ∧ c.toNat ≤ 57 :=
  Bool.and_eq_true_iff.trans <| and_congr
    (decide_eq_true_iff.trans UInt32.le_iff_toNat_le)
    (decide_eq_true_iff.trans UInt32.le_iff_toNat_le)

theorem isAlpha_iff (c : Char) :
    c.isAlpha = true ↔ (65 ≤ c.toNat ∧ c.toNat ≤ 90) ∨ (97 ≤ c.toNat ∧ c.toNat ≤ 122) := by
  have hupper : c.isUpper = true ↔ 65 ≤ c.toNat ∧ c.toNat ≤ 90 :=
    decide_eq_true_iff.trans (and_congr UInt32.le_iff_toNat_le UInt32.le_iff_toNat_le)
  exact Bool.or_eq_true_iff.trans (or_congr hupper (isLower_iff c))

theorem isAlpha_toLower (c : Char) : c.toLower.isAlpha = c.isAlpha := by
  rw [Bool.eq_iff_iff, isAlpha_iff, isAlpha_iff, toNat_toLower]
  split <;> omega

/-- A character with the lower case of a letter is that letter in one of its two cases. -/
theorem toLower_eq_toLower_iff {letter : Char} (h : letter.isAlpha = true) (c : Char) :
    c.toLower = letter.toLower ↔ c = letter.toLower ∨ c = letter.toUpper := by
  rw [isAlpha_iff] at h
  simp only [← Char.toNat_inj, toNat_toLower, toNat_toUpper]
  grind

/-- The text is the word, each of its letters in either case. -/
def InAnyCase (word cs : List Char) : Prop :=
  List.Forall₂ (fun letter c => c = letter.toLower ∨ c = letter.toUpper) word cs

theorem map_toLower_eq_iff {word : List Char} (h : ∀ c ∈ word, c.isAlpha = true) (cs : List Char) :
    cs.map Char.toLower = word.map Char.toLower ↔ InAnyCase word cs := by
  induction word generalizing cs with
  | nil => simp [InAnyCase]
  | cons letter word ih =>
      have hletter := toLower_eq_toLower_iff (h letter List.mem_cons_self)
      have hword := ih fun c hc => h c (List.mem_cons_of_mem _ hc)
      cases cs with
      | nil => simp [InAnyCase]
      | cons c cs =>
          rw [List.map_cons, List.map_cons, List.cons.injEq, hletter, hword, InAnyCase, InAnyCase,
            List.forall₂_cons]

theorem InAnyCase.letters {word cs : List Char} (h : InAnyCase word cs)
    (hword : ∀ c ∈ word, c.isAlpha = true) :
    cs.length = word.length ∧ ∀ c ∈ cs, c.isAlpha = true := by
  refine ⟨h.length_eq.symm, ?_⟩
  intro c hc
  have hlower := List.mem_map_of_mem (f := Char.toLower) hc
  rw [(map_toLower_eq_iff hword cs).2 h] at hlower
  obtain ⟨letter, hletter, heq⟩ := List.mem_map.1 hlower
  rw [← isAlpha_toLower, ← heq, isAlpha_toLower]
  exact hword letter hletter

/-! ## Trimming -/

section

variable {p : Char → Bool} {blanks : List Char}

theorem trimStart_of_all (h : ∀ c ∈ blanks, p c = true) : trimStart p blanks = [] := by
  have happend : (blanks ++ []).dropWhile p = [].dropWhile p := List.dropWhile_append_of_pos h
  rwa [List.append_nil, List.dropWhile_nil] at happend

theorem trimEnd_append_of_all (h : ∀ c ∈ blanks, p c = true) (cs : List Char) :
    trimEnd p (cs ++ blanks) = trimEnd p cs := by
  have hrev : ∀ c ∈ blanks.reverse, p c = true := by simpa using h
  rw [trimEnd, List.reverse_append, List.dropWhile_append_of_pos hrev, trimEnd]

theorem trim_of_all_append (h : ∀ c ∈ blanks, p c = true) (cs : List Char) :
    trim p (blanks ++ cs) = trim p cs := by
  rw [trim, trimStart, List.dropWhile_append_of_pos h, trim, trimStart]

theorem trim_append_of_all (h : ∀ c ∈ blanks, p c = true) (cs : List Char) :
    trim p (cs ++ blanks) = trim p cs := by
  have hblanks : blanks.dropWhile p = [] := trimStart_of_all h
  rw [trim, trimStart, List.dropWhile_append, trim, trimStart]
  split
  case isTrue hall =>
      rw [hblanks, List.isEmpty_iff.1 hall]
  case isFalse hsome =>
      rw [trimEnd_append_of_all h]

/-- Trimming cuts blanks off both ends and nothing else. -/
theorem trim_split (p : Char → Bool) (cs : List Char) :
    ∃ lead trail, cs = lead ++ (trim p cs ++ trail) ∧ (∀ c ∈ lead, p c = true) ∧
      ∀ c ∈ trail, p c = true := by
  obtain ⟨trail, hsplit, htrail⟩ := trimEnd_append_blank p (trimStart p cs)
  refine ⟨cs.takeWhile p, trail, ?_, ?_, htrail⟩
  · rw [trim, ← hsplit, trimStart, List.takeWhile_append_dropWhile]
  · exact fun c hc => List.all_eq_true.1 (List.all_takeWhile (p := p) (l := cs)) c hc

theorem trim_trimEnd (p : Char → Bool) (cs : List Char) : trim p (trimEnd p cs) = trim p cs := by
  obtain ⟨blanks, hsplit, hblanks⟩ := trimEnd_append_blank p cs
  have hcs := congrArg (trim p) hsplit
  rw [trim_append_of_all hblanks] at hcs
  exact hcs.symm

/-- A text whose last character is outside the class stops trimming from the back. -/
theorem trimEnd_append {cs : List Char} (h : ∀ c ∈ cs.getLast?, p c = false) (ds : List Char) :
    trimEnd p (cs ++ ds) = cs ++ trimEnd p ds := by
  have hcs : cs.reverse.dropWhile p = cs.reverse := trimStart_eq_self (by simpa using h)
  rw [trimEnd, List.reverse_append, List.dropWhile_append, trimEnd]
  split
  case isTrue hall =>
      rw [hcs, List.reverse_reverse, List.isEmpty_iff.1 hall, List.reverse_nil, List.append_nil]
  case isFalse hsome =>
      rw [List.reverse_append, List.reverse_reverse]

/-- What holds of the elements of a list holds of the first one, whatever follows the list. -/
theorem head?_append_of_ne_nil {α : Type} {cs : List α} {holds : α → Prop} (hne : cs ≠ [])
    (h : ∀ c ∈ cs, holds c) (ds : List α) : ∀ c ∈ (cs ++ ds).head?, holds c := by
  intro c hc
  cases cs with
  | nil => exact absurd rfl hne
  | cons first rest =>
      obtain rfl : first = c := by simpa using hc
      exact h first List.mem_cons_self

/-- A word without characters of the class is kept by trimming, whatever follows it. -/
theorem trim_word_append {word : List Char} (hne : word ≠ []) (h : ∀ c ∈ word, p c = false)
    (ds : List Char) : trim p (word ++ ds) = word ++ trimEnd p ds := by
  have hstart : trimStart p (word ++ ds) = word ++ ds := by
    apply trimStart_eq_self
    exact head?_append_of_ne_nil hne h ds
  rw [trim, hstart, trimEnd_append fun c hc => h c (List.mem_of_mem_getLast? hc)]

theorem mem_head?_trimEnd {cs : List Char} {c : Char} (h : c ∈ (trimEnd p cs).head?) :
    c ∈ cs.head? := by
  obtain ⟨blanks, hsplit, -⟩ := trimEnd_append_blank p cs
  have hhead := congrArg List.head? hsplit
  rw [List.head?_append, Option.mem_def.1 h] at hhead
  exact hhead

/-- A word is cut off at the first character of the class after it. -/
theorem takeWhile_word {word rest : List Char} (h : ∀ c ∈ word, p c = false)
    (hrest : ∀ c ∈ rest.head?, p c = true) : (word ++ rest).takeWhile (!p ·) = word := by
  rw [List.takeWhile_append_of_pos (by simpa using h)]
  cases rest with
  | nil => exact List.append_nil word
  | cons first more => simp [hrest first rfl]

theorem trim_word {word : List Char} (h : ∀ c ∈ word, p c = false) : trim p word = word :=
  trim_eq_self ⟨fun c hc => h c (List.mem_of_mem_head? hc),
    fun c hc => h c (List.mem_of_mem_getLast? hc)⟩

end

theorem isBlank_eq_false_of_visible {c : Char} (h : 33 ≤ c.toNat ∧ c.toNat < 127) :
    isBlank c = false := by
  simp only [isBlank, blankRanges, List.any_cons, List.any_nil, Bool.or_false,
    Bool.or_eq_false_iff, Bool.and_eq_false_iff, decide_eq_false_iff_not]
  omega

/-- No blank character has another case. -/
theorem isBlank_toLower (c : Char) : isBlank c.toLower = isBlank c := by
  have hlower := Text.toNat_toLower c
  by_cases h : 65 ≤ c.toNat ∧ c.toNat ≤ 90
  · rw [if_pos h] at hlower
    rw [isBlank_eq_false_of_visible ⟨by omega, by omega⟩,
      isBlank_eq_false_of_visible ⟨by omega, by omega⟩]
  · rw [if_neg h] at hlower
    rw [Char.toNat_inj.1 hlower]

/-! ## Slices -/

/-- The two parts of a text before and after a byte offset, if that is between characters. -/
def sliceAt? : List Char → Nat → Option (List Char × List Char)
  | cs, 0 => some ([], cs)
  | [], _ + 1 => none
  | c :: cs, offset + 1 =>
      if c.utf8Size ≤ offset + 1 then
        (sliceAt? cs (offset + 1 - c.utf8Size)).map fun parts => (c :: parts.1, parts.2)
      else none

def offset? (p : Char → Bool) : List Char → Option Nat
  | [] => none
  | c :: cs => if p c then some 0 else (offset? p cs).map (c.utf8Size + ·)

theorem length_utf8_cons (c : Char) (cs : List Char) :
    (utf8 (c :: cs)).length = c.utf8Size + (utf8 cs).length := by
  rw [utf8_cons, List.length_append, String.length_utf8EncodeChar]

theorem sliceAt?_zero (cs : List Char) : sliceAt? cs 0 = some ([], cs) := by
  cases cs <;> rfl

theorem sliceAt?_cons_add (c : Char) (cs : List Char) (offset : Nat) :
    sliceAt? (c :: cs) (c.utf8Size + offset) =
      (sliceAt? cs offset).map fun parts => (c :: parts.1, parts.2) := by
  obtain ⟨size, hsize⟩ := Nat.exists_eq_succ_of_ne_zero (Nat.ne_of_gt c.utf8Size_pos)
  have hoffset : c.utf8Size + offset = (size + offset) + 1 := by omega
  have hrest : (size + offset) + 1 - c.utf8Size = offset := by omega
  rw [hoffset, sliceAt?, if_pos (by omega), hrest]

/-- The slices make up the text, and the first of them has the bytes up to the offset. -/
theorem sliceAt?_eq_some_iff {cs front back : List Char} {offset : Nat} :
    sliceAt? cs offset = some (front, back) ↔
      cs = front ++ back ∧ (utf8 front).length = offset := by
  constructor
  · intro h
    induction cs generalizing offset front with
    | nil =>
        cases offset with
        | zero =>
            obtain ⟨rfl, rfl⟩ := Prod.mk.inj (Option.some.inj h)
            exact ⟨rfl, rfl⟩
        | succ offset => cases h
    | cons c cs ih =>
        cases offset with
        | zero =>
            obtain ⟨rfl, rfl⟩ := Prod.mk.inj (Option.some.inj h)
            exact ⟨rfl, rfl⟩
        | succ offset =>
            rw [sliceAt?] at h
            split at h
            case isFalse => cases h
            case isTrue hsize =>
                obtain ⟨⟨front', back'⟩, hrest, hparts⟩ := Option.map_eq_some_iff.1 h
                obtain ⟨rfl, rfl⟩ := Prod.mk.inj hparts
                obtain ⟨rfl, hlength⟩ := ih hrest
                refine ⟨rfl, ?_⟩
                rw [length_utf8_cons, hlength]
                omega
  · rintro ⟨rfl, rfl⟩
    induction front with
    | nil => exact sliceAt?_zero back
    | cons c front ih =>
        rw [length_utf8_cons, List.cons_append, sliceAt?_cons_add, ih]
        rfl

/-- The offset that a search finds is between characters. -/
theorem sliceAt?_of_offset? {p : Char → Bool} {cs : List Char} {offset : Nat}
    (h : offset? p cs = some offset) :
    sliceAt? cs offset =
      some (cs.takeWhile (!p ·), cs.drop (cs.takeWhile (!p ·)).length) := by
  rw [sliceAt?_eq_some_iff]
  refine ⟨(List.prefix_iff_eq_append.1 (List.takeWhile_prefix _)).symm, ?_⟩
  induction cs generalizing offset with
  | nil => cases h
  | cons c cs ih =>
      by_cases hc : p c = true
      · rw [offset?, if_pos hc] at h
        obtain rfl := Option.some.inj h
        simp [hc]
      · rw [offset?, if_neg hc] at h
        obtain ⟨later, hlater, rfl⟩ := Option.map_eq_some_iff.1 h
        have htake : (c :: cs).takeWhile (!p ·) = c :: cs.takeWhile (!p ·) := by simp [hc]
        rw [htake, length_utf8_cons, ih hlater]

theorem takeWhile_of_offset?_eq_none {p : Char → Bool} {cs : List Char}
    (h : offset? p cs = none) : cs.takeWhile (!p ·) = cs := by
  induction cs with
  | nil => rfl
  | cons c cs ih =>
      by_cases hc : p c = true
      · rw [offset?, if_pos hc] at h
        cases h
      · rw [offset?, if_neg hc, Option.map_eq_none_iff] at h
        simp [hc, ih h]

/-! ## Digits -/

theorem digitIn?_digitChar {base digit : Nat} (hbase : base ≤ 16) (h : digit < base) :
    digitIn? base (Nat.digitChar digit) = some digit := by
  have hvalue : ∀ digit < 16, digitValue? (Nat.digitChar digit) = some digit := by decide +kernel
  rw [digitIn?, hvalue digit (by omega)]
  simp [h]

theorem numberFrom?_append (base value : Nat) (cs ds : List Char) :
    numberFrom? base value (cs ++ ds) =
      (numberFrom? base value cs).bind fun number => numberFrom? base number ds := by
  induction cs generalizing value with
  | nil => rfl
  | cons c cs ih =>
      rw [List.cons_append, numberFrom?, numberFrom?]
      cases digitIn? base c with
      | some digit => exact ih _
      | none => rfl

/-- The induction is on the number, which loses its last digit. -/
theorem numberFrom?_toDigits {base : Nat} (hone : 1 < base) (hbase : base ≤ 16) (n : Nat) :
    numberFrom? base 0 (Nat.toDigits base n) = some n := by
  induction n using Nat.strongRecOn with
  | ind n ih =>
      by_cases hlast : n < base
      · rw [Nat.toDigits_of_lt_base hlast, numberFrom?, digitIn?_digitChar hbase hlast]
        simp [numberFrom?]
      · have hge : base ≤ n := Nat.le_of_not_lt hlast
        have hdigit : n % base < base := Nat.mod_lt n (by omega)
        have hvalue : n / base * base + n % base = n := by
          rw [Nat.mul_comm, Nat.div_add_mod]
        rw [Nat.toDigits_of_base_le hone hge, numberFrom?_append,
          ih (n / base) (Nat.div_lt_self (by omega) hone), Option.bind_some, numberFrom?,
          digitIn?_digitChar hbase hdigit]
        simp only [numberFrom?, hvalue]

theorem number?_toDigits {base : Nat} (hone : 1 < base) (hbase : base ≤ 16) (n : Nat) :
    number? base (Nat.toDigits base n) = some n := by
  rw [number?, if_neg (by simp [Nat.toDigits_ne_nil]), numberFrom?_toDigits hone hbase]

theorem isDigitIn_of_mem_toDigits {base n : Nat} (hone : 1 < base) (hbase : base ≤ 16) :
    ∀ c ∈ Nat.toDigits base n, isDigitIn base c = true :=
  isDigitIn_of_numberFrom? (numberFrom?_toDigits hone hbase n)

/-- The characters that are digits, in code points. -/
theorem range_of_digitIn? {base digit : Nat} {c : Char} (h : digitIn? base c = some digit) :
    digit < base ∧
      ((48 ≤ c.toNat ∧ c.toNat ≤ 57 ∧ digit = c.toNat - 48) ∨
        (97 ≤ c.toNat ∧ c.toNat ≤ 102 ∧ digit = c.toNat - 87) ∨
        (65 ≤ c.toNat ∧ c.toNat ≤ 70 ∧ digit = c.toNat - 55)) := by
  obtain ⟨hvalue, hlt⟩ := Option.filter_eq_some_iff.1 h
  refine ⟨of_decide_eq_true hlt, ?_⟩
  simp only [digitValue?, Char.le_def, UInt32.le_iff_toNat_le] at hvalue
  split at hvalue
  case isTrue range => exact Or.inl ⟨range.1, range.2, (Option.some.inj hvalue).symm⟩
  split at hvalue
  case isTrue range =>
      exact Or.inr (Or.inl ⟨range.1, range.2, (Option.some.inj hvalue).symm⟩)
  split at hvalue
  case isTrue range =>
      exact Or.inr (Or.inr ⟨range.1, range.2, (Option.some.inj hvalue).symm⟩)
  contradiction

theorem isAlphanum_of_isDigitIn {base : Nat} {c : Char} (h : isDigitIn base c = true) :
    c.isAlphanum = true := by
  obtain ⟨digit, hdigit⟩ := Option.isSome_iff_exists.1 h
  obtain ⟨-, hrange⟩ := range_of_digitIn? hdigit
  rw [Char.isAlphanum, Bool.or_eq_true_iff, isAlpha_iff, isDigit_iff]
  omega

theorem digitIn?_of_isDigit {c : Char} (h : c.isDigit = true) :
    digitIn? 10 c = some (c.toNat - 48) := by
  have hrange := (isDigit_iff c).1 h
  have hdigit : '0' ≤ c ∧ c ≤ '9' :=
    ⟨UInt32.le_iff_toNat_le.2 hrange.1, UInt32.le_iff_toNat_le.2 hrange.2⟩
  have hten : c.toNat - 48 < 10 := by omega
  rw [digitIn?, digitValue?, if_pos hdigit]
  simp [hten]

theorem isDigitIn_ten_iff (c : Char) : isDigitIn 10 c = true ↔ c.isDigit = true := by
  constructor
  · intro h
    obtain ⟨digit, hdigit⟩ := Option.isSome_iff_exists.1 h
    obtain ⟨hlt, hrange⟩ := range_of_digitIn? hdigit
    rw [isDigit_iff]
    omega
  · intro h
    rw [isDigitIn, digitIn?_of_isDigit h]
    rfl

/-- Decimal digits go on from a number as they do in the library. -/
theorem numberFrom?_of_isDigit {digits : List Char} (h : ∀ c ∈ digits, c.isDigit = true)
    (value : Nat) : numberFrom? 10 value digits = some (Nat.ofDigitChars 10 digits value) := by
  induction digits generalizing value with
  | nil => rfl
  | cons c digits ih =>
      have hrest := ih fun d hd => h d (List.mem_cons_of_mem _ hd)
      rw [numberFrom?, digitIn?_of_isDigit (h c List.mem_cons_self), Nat.ofDigitChars_cons]
      simp only
      rw [hrest, Nat.mul_comm]
      rfl

end Text

/-! ## Pieces -/

namespace Text

variable {sep : Char} {cs : List Char}

theorem pieces_eq_firstPiece_cons (sep : Char) (cs : List Char) :
    pieces sep cs = firstPiece sep cs :: (pieces sep cs).tail := by
  induction cs with
  | nil => rfl
  | cons c rest ih =>
      by_cases hc : c = sep
      · simp [pieces, firstPiece, hc]
      · rw [pieces, if_neg hc]
        dsimp only
        rw [ih]
        simp [firstPiece, hc]

/-- A text without a separator lengthens the first piece of what follows it. -/
theorem firstPiece_append_of_notMem (h : sep ∉ cs) (ds : List Char) :
    firstPiece sep (cs ++ ds) = cs ++ firstPiece sep ds := by
  apply List.takeWhile_append_of_pos
  intro c hc
  have hne : c ≠ sep := fun heq => h (heq ▸ hc)
  simpa using hne

theorem firstPiece_of_notMem (h : sep ∉ cs) : firstPiece sep cs = cs := by
  have hcut := pieces_eq_firstPiece_cons sep cs
  rw [pieces_of_notMem h] at hcut
  exact (List.cons.inj hcut).1.symm

theorem tail_pieces_append_of_notMem (h : sep ∉ cs) (ds : List Char) :
    (pieces sep (cs ++ ds)).tail = (pieces sep ds).tail := by
  induction cs with
  | nil => rfl
  | cons c rest ih =>
      simp only [List.mem_cons, not_or] at h
      rw [List.cons_append, pieces, if_neg (Ne.symm h.1)]
      exact ih h.2

/-- Nothing stands between the start of a text and its first piece. -/
theorem mem_head?_firstPiece {c : Char} (h : c ∈ (firstPiece sep cs).head?) :
    c ∈ cs.head? ∧ c ≠ sep := by
  cases cs with
  | nil => cases h
  | cons first rest =>
      by_cases hfirst : first = sep
      · simp [firstPiece, hfirst] at h
      · obtain rfl : first = c := by simpa [firstPiece, hfirst] using h
        exact ⟨rfl, hfirst⟩

theorem notMem_firstPiece (sep : Char) (cs : List Char) : sep ∉ firstPiece sep cs := by
  have hmem : firstPiece sep cs ∈ pieces sep cs := by
    rw [pieces_eq_firstPiece_cons]
    exact List.mem_cons_self
  exact notMem_of_mem_pieces hmem

theorem firstPiece_split (sep : Char) (cs : List Char) :
    ∃ after, cs = firstPiece sep cs ++ after ∧ ∀ c ∈ after.head?, c = sep := by
  refine ⟨cs.dropWhile (· ≠ sep), List.takeWhile_append_dropWhile.symm, ?_⟩
  intro c hc
  have hdrop := List.head?_dropWhile_not (· ≠ sep) cs
  rw [Option.mem_def.1 hc] at hdrop
  simpa using hdrop

theorem mem_pieces_append {piece : List Char} (hpiece : sep ∉ piece) {after : List Char}
    (hafter : ∀ c ∈ after.head?, c = sep) : piece ∈ pieces sep (piece ++ after) := by
  cases after with
  | nil =>
      rw [List.append_nil, pieces_of_notMem hpiece]
      exact List.mem_cons_self
  | cons first more =>
      obtain rfl : first = sep := hafter first rfl
      rw [pieces_append_sep, pieces_of_notMem hpiece]
      exact List.mem_cons_self

/-- Behind the first piece stands what has a separator before it and none in it. -/
theorem mem_tail_pieces_iff {piece : List Char} :
    piece ∈ (pieces sep cs).tail ↔
      sep ∉ piece ∧ ∃ before after, cs = before ++ sep :: (piece ++ after) ∧
        ∀ c ∈ after.head?, c = sep := by
  constructor
  · intro h
    refine ⟨notMem_of_mem_pieces (List.mem_of_mem_tail h), ?_⟩
    induction cs with
    | nil => cases h
    | cons c rest ih =>
        by_cases hc : c = sep
        · subst hc
          rw [pieces, if_pos rfl, List.tail_cons, pieces_eq_firstPiece_cons, List.mem_cons] at h
          rcases h with rfl | h
          · obtain ⟨after, hsplit, hafter⟩ := firstPiece_split c rest
            exact ⟨[], after, congrArg (c :: ·) hsplit, hafter⟩
          · obtain ⟨before, after, rfl, hafter⟩ := ih h
            exact ⟨c :: before, after, rfl, hafter⟩
        · rw [pieces, if_neg hc] at h
          obtain ⟨before, after, rfl, hafter⟩ := ih h
          exact ⟨c :: before, after, rfl, hafter⟩
  · rintro ⟨hpiece, before, after, rfl, hafter⟩
    rw [pieces_append_sep, pieces_eq_firstPiece_cons]
    exact List.mem_append_right _ (mem_pieces_append hpiece hafter)

/-- What holds of the separator and throughout the parts holds throughout the joined text. -/
theorem forall_mem_intercalate {P : Char → Prop} (hsep : P sep) {parts : List (List Char)}
    (h : ∀ part ∈ parts, ∀ c ∈ part, P c) : ∀ c ∈ [sep].intercalate parts, P c := by
  induction parts with
  | nil => simp
  | cons part parts ih =>
      have hpart := h part List.mem_cons_self
      cases parts with
      | nil => simpa using hpart
      | cons next parts =>
          have hrest := ih fun other hother => h other (List.mem_cons_of_mem _ hother)
          intro c hc
          rw [List.intercalate_cons_cons, List.append_assoc, List.singleton_append] at hc
          rcases List.mem_append.1 hc with hc | hc
          · exact hpart c hc
          · rcases List.mem_cons.1 hc with rfl | hc
            · exact hsep
            · exact hrest c hc

/-- Parts without a separator that are joined with it come apart again. -/
theorem pieces_intercalate {parts : List (List Char)} (hne : parts ≠ [])
    (h : ∀ part ∈ parts, sep ∉ part) : pieces sep ([sep].intercalate parts) = parts := by
  induction parts with
  | nil => exact absurd rfl hne
  | cons part parts ih =>
      have hpart := h part List.mem_cons_self
      cases parts with
      | nil => simp [pieces_of_notMem hpart]
      | cons next parts =>
          have hrest := ih (List.cons_ne_nil _ _) fun other hother =>
            h other (List.mem_cons_of_mem _ hother)
          rw [List.intercalate_cons_cons, List.append_assoc, List.singleton_append,
            pieces_append_sep, pieces_of_notMem hpart, hrest]
          rfl

/-- What stands before the last separator, and what stands behind it, can be told apart. -/
theorem append_sep_inj {ds es : List Char} (hds : sep ∉ ds) (hes : sep ∉ es)
    (cs bs : List Char) : cs ++ sep :: ds = bs ++ sep :: es ↔ cs = bs ∧ ds = es := by
  constructor
  · intro h
    have hcut := congrArg (pieces sep) h
    rw [pieces_append_sep, pieces_append_sep, pieces_of_notMem hds, pieces_of_notMem hes] at hcut
    obtain ⟨hbefore, hlast⟩ := List.append_inj' hcut rfl
    have hjoined := congrArg (List.intercalate [sep]) hbefore
    rw [intercalate_pieces, intercalate_pieces] at hjoined
    exact ⟨hjoined, List.singleton_inj.1 hlast⟩
  · rintro ⟨rfl, rfl⟩
    rfl

/-! ## Numbers behind a colon -/

theorem isDigit_of_mem_toString {n : Nat} {c : Char} (h : c ∈ (toString n).toList) :
    c.isDigit = true := by
  rw [Nat.toString_eq_repr, Nat.toList_repr] at h
  exact Nat.isDigit_of_mem_toDigits (by decide) (by decide) h

theorem colon_notMem_toString (n : Nat) : ':' ∉ (toString n).toList := by
  intro h
  exact absurd (isDigit_of_mem_toString h) (by decide)

theorem toList_toString_inj {m n : Nat} :
    (toString m).toList = (toString n).toList ↔ m = n := by
  constructor
  · intro h
    rw [Nat.toString_eq_repr, Nat.toString_eq_repr, Nat.toList_repr, Nat.toList_repr] at h
    have hread := congrArg (fun digits => Nat.ofDigitChars 10 digits 0) h
    simpa only [Nat.ofDigitChars_ten_toDigits] using hread
  · rintro rfl
    rfl

/-- A number behind a colon can be told from the text before the colon, whatever that text is. -/
theorem numbered_inj {name other : String} {m n : Nat} :
    s!"{name}:{m}" = s!"{other}:{n}" ↔ name = other ∧ m = n := by
  have hchars : ∀ (text : String) (number : Nat),
      s!"{text}:{number}".toList = text.toList ++ ':' :: (toString number).toList := by
    intro text number
    simp [ToString.toString]
  rw [← String.toList_inj, hchars, hchars,
    append_sep_inj (colon_notMem_toString m) (colon_notMem_toString n), String.toList_inj,
    toList_toString_inj]

end Text

end NegotiateAuth
