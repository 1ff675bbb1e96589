/-! # Texts

A text as the bytes it is sent and measured in, blank characters and the trimming of them, the
pieces between separators, digits in bases up to sixteen, and the forms in which texts and records
are shown in diagnostics.
-/

namespace NegotiateAuth

/-! ## Bytes -/

namespace Text

def utf8 (cs : List Char) : List UInt8 :=
  cs.flatMap String.utf8EncodeChar

@[simp] theorem utf8_nil : utf8 [] = [] :=
  rfl

@[simp] theorem utf8_cons (c : Char) (cs : List Char) :
    utf8 (c :: cs) = String.utf8EncodeChar c ++ utf8 cs :=
  rfl

@[simp] theorem utf8_append (cs ds : List Char) : utf8 (cs ++ ds) = utf8 cs ++ utf8 ds := by
  simp [utf8]

/-- The character a byte stands for when every byte is a character. -/
def charOfByte (byte : UInt8) : Char :=
  Char.ofNat byte.toNat

def ofBytes (bytes : List UInt8) : String :=
  String.ofList (bytes.map charOfByte)

/-! ## Blanks and trimming -/

/-- The code points with the Unicode property `White_Space`, as closed ranges. -/
def blankRanges : List (Nat × Nat) :=
  [(0x09, 0x0d), (0x20, 0x20), (0x85, 0x85), (0xa0, 0xa0), (0x1680, 0x1680), (0x2000, 0x200a),
    (0x2028, 0x2029), (0x202f, 0x202f), (0x205f, 0x205f), (0x3000, 0x3000)]

def isBlank (c : Char) : Bool :=
  blankRanges.any fun range => range.1 ≤ c.toNat && c.toNat ≤ range.2

def trimStart (p : Char → Bool) (cs : List Char) : List Char :=
  cs.dropWhile p

def trimEnd (p : Char → Bool) (cs : List Char) : List Char :=
  (cs.reverse.dropWhile p).reverse

def trim (p : Char → Bool) (cs : List Char) : List Char :=
  trimEnd p (trimStart p cs)

def IsTrimmed (p : Char → Bool) (cs : List Char) : Prop :=
  (∀ c ∈ cs.head?, p c = false) ∧ ∀ c ∈ cs.getLast?, p c = false

theorem trimStart_eq_self {p : Char → Bool} {cs : List Char}
    (h : ∀ c ∈ cs.head?, p c = false) : trimStart p cs = cs := by
  cases cs with
  | nil => rfl
  | cons c rest => simp [trimStart, h c (by simp)]

theorem trimEnd_eq_self {p : Char → Bool} {cs : List Char}
    (h : ∀ c ∈ cs.getLast?, p c = false) : trimEnd p cs = cs := by
  have hrev : ∀ c ∈ cs.reverse.head?, p c = false := by simpa using h
  have hself : cs.reverse.dropWhile p = cs.reverse := trimStart_eq_self hrev
  simp [trimEnd, hself]

theorem trim_eq_self {p : Char → Bool} {cs : List Char} (h : IsTrimmed p cs) :
    trim p cs = cs := by
  rw [trim, trimStart_eq_self h.1, trimEnd_eq_self h.2]

theorem head?_trimStart (p : Char → Bool) (cs : List Char) :
    ∀ c ∈ (trimStart p cs).head?, p c = false := by
  intro c hc
  have := List.head?_dropWhile_not p cs
  simp only [trimStart] at hc
  rw [Option.mem_def] at hc
  simpa [hc] using this

theorem getLast?_trimEnd (p : Char → Bool) (cs : List Char) :
    ∀ c ∈ (trimEnd p cs).getLast?, p c = false := by
  intro c hc
  have : c ∈ (trimStart p cs.reverse).head? := by simpa [trimEnd, trimStart] using hc
  exact head?_trimStart p cs.reverse c this

/-- Trimming the back keeps the text before it. -/
theorem trimEnd_append_blank (p : Char → Bool) (cs : List Char) :
    ∃ blanks, cs = trimEnd p cs ++ blanks ∧ ∀ c ∈ blanks, p c = true := by
  refine ⟨(cs.reverse.takeWhile p).reverse, ?_, ?_⟩
  · rw [trimEnd, ← List.reverse_append, List.takeWhile_append_dropWhile, List.reverse_reverse]
  · intro c hc
    exact List.all_eq_true.1 (List.all_takeWhile (p := p) (l := cs.reverse)) c (by simpa using hc)

theorem trim_isTrimmed (p : Char → Bool) (cs : List Char) : IsTrimmed p (trim p cs) := by
  refine ⟨?_, getLast?_trimEnd p _⟩
  intro c hc
  obtain ⟨blanks, hsplit, -⟩ := trimEnd_append_blank p (trimStart p cs)
  apply head?_trimStart p cs c
  rw [hsplit]
  rw [trim] at hc
  rw [Option.mem_def] at hc ⊢
  rw [List.head?_append, hc]
  rfl

theorem trim_trim (p : Char → Bool) (cs : List Char) : trim p (trim p cs) = trim p cs :=
  trim_eq_self (trim_isTrimmed p cs)

/-! ## Pieces -/

/-- The pieces between the separators; there is one more than there are separators. -/
def pieces (sep : Char) : List Char → List (List Char)
  | [] => [[]]
  | c :: rest =>
      if c = sep then [] :: pieces sep rest
      else
        let more := pieces sep rest
        (c :: more.headD []) :: more.tail

theorem pieces_ne_nil (sep : Char) (cs : List Char) : pieces sep cs ≠ [] := by
  cases cs with
  | nil => simp [pieces]
  | cons c rest =>
      rw [pieces]
      split <;> simp

theorem pieces_append_sep (sep : Char) (cs ds : List Char) :
    pieces sep (cs ++ sep :: ds) = pieces sep cs ++ pieces sep ds := by
  induction cs with
  | nil => simp [pieces]
  | cons c rest ih =>
      simp only [List.cons_append, pieces, ih]
      split
      · rfl
      · cases hpieces : pieces sep rest with
        | nil => exact absurd hpieces (pieces_ne_nil sep rest)
        | cons piece more => simp

theorem pieces_of_notMem {sep : Char} {cs : List Char} (h : sep ∉ cs) : pieces sep cs = [cs] := by
  induction cs with
  | nil => rfl
  | cons c rest ih =>
      simp only [List.mem_cons, not_or] at h
      rw [pieces, if_neg (Ne.symm h.1), ih h.2]
      rfl

theorem notMem_of_mem_pieces {sep : Char} {cs piece : List Char}
    (h : piece ∈ pieces sep cs) : sep ∉ piece := by
  induction cs generalizing piece with
  | nil =>
      simp only [pieces, List.mem_singleton] at h
      simp [h]
  | cons c rest ih =>
      simp only [pieces] at h
      split at h
      · rcases List.mem_cons.1 h with rfl | h
        · simp
        · exact ih h
      · rename_i hne
        cases hpieces : pieces sep rest with
        | nil => exact absurd hpieces (pieces_ne_nil sep rest)
        | cons first more =>
            rw [hpieces] at h ih
            rcases List.mem_cons.1 h with rfl | h
            · have hfirst := ih List.mem_cons_self
              simpa [Ne.symm hne] using hfirst
            · exact ih (List.mem_cons_of_mem first h)

theorem intercalate_pieces (sep : Char) (cs : List Char) :
    [sep].intercalate (pieces sep cs) = cs := by
  induction cs with
  | nil => simp [pieces]
  | cons c rest ih =>
      cases hpieces : pieces sep rest with
      | nil => exact absurd hpieces (pieces_ne_nil sep rest)
      | cons first more =>
          rw [hpieces] at ih
          by_cases hc : c = sep
          · simp only [pieces, if_pos hc, hpieces, List.intercalate_cons_cons, ih]
            simp [hc]
          · simp only [pieces, if_neg hc, hpieces, List.headD_cons, List.tail_cons]
            cases more with
            | nil => simpa using ih
            | cons second others =>
                simp only [List.intercalate_cons_cons, List.cons_append] at ih ⊢
                rw [ih]

/-- What stands after the last separator, or the whole text if there is none. -/
def lastPiece (sep : Char) (cs : List Char) : List Char :=
  (pieces sep cs).getLastD []

def firstPiece (sep : Char) (cs : List Char) : List Char :=
  cs.takeWhile (· ≠ sep)

/-! ## Digits -/

def digitValue? (c : Char) : Option Nat :=
  if '0' ≤ c ∧ c ≤ '9' then some (c.toNat - 48)
  else if 'a' ≤ c ∧ c ≤ 'f' then some (c.toNat - 87)
  else if 'A' ≤ c ∧ c ≤ 'F' then some (c.toNat - 55)
  else none

def digitIn? (base : Nat) (c : Char) : Option Nat :=
  (digitValue? c).filter (· < base)

def isDigitIn (base : Nat) (c : Char) : Bool :=
  (digitIn? base c).isSome

/-- The number that digits of a base continue; none if a character is no digit of it. -/
def numberFrom? (base : Nat) : Nat → List Char → Option Nat
  | value, [] => some value
  | value, c :: rest =>
      match digitIn? base c with
      | some digit => numberFrom? base (value * base + digit) rest
      | none => none

/-- The number written by a nonempty text of digits, leading zeros allowed. -/
def number? (base : Nat) (cs : List Char) : Option Nat :=
  if cs.isEmpty then none else numberFrom? base 0 cs

theorem isDigitIn_of_numberFrom? {base value number : Nat} {cs : List Char}
    (h : numberFrom? base value cs = some number) : ∀ c ∈ cs, isDigitIn base c = true := by
  induction cs generalizing value with
  | nil =>
      intro c hc
      cases hc
  | cons d rest ih =>
      simp only [numberFrom?] at h
      split at h
      case h_1 digit hdigit =>
          intro c hc
          rcases List.mem_cons.1 hc with rfl | hc
          · simp [isDigitIn, hdigit]
          · exact ih h c hc
      case h_2 => cases h

def padded (places : Nat) (digits : List Char) : List Char :=
  List.replicate (places - digits.length) '0' ++ digits

def hexWord (n : Nat) : String :=
  String.ofList ((padded 8 (Nat.toDigits 16 n)).map Char.toUpper)

/-! ## Quoted texts -/

/-- A control character, or a blank other than the space. -/
def isInvisible (c : Char) : Bool :=
  c.toNat < 0x20 || (0x7f ≤ c.toNat && c.toNat < 0xa0) || (isBlank c && c != ' ')

def codePointEscape (c : Char) : List Char :=
  ['\\', 'u', '\x7b'] ++ Nat.toDigits 16 c.toNat ++ ['\x7d']

def escape (c : Char) : List Char :=
  match c with
  | '"' => ['\\', '"']
  | '\\' => ['\\', '\\']
  | '\n' => ['\\', 'n']
  | '\r' => ['\\', 'r']
  | '\t' => ['\\', 't']
  | '\x00' => ['\\', '0']
  | c => if isInvisible c then codePointEscape c else [c]

def quote (text : String) : String :=
  String.ofList ('"' :: text.toList.flatMap escape ++ ['"'])

/-! ## Records -/

def record (name : String) (fields : List (String × String)) : String :=
  let shown := fields.map fun field => field.1 ++ ": " ++ field.2
  name ++ " \x7b " ++ ", ".intercalate shown ++ " \x7d"

def boolText (b : Bool) : String :=
  if b then "true" else "false"

end Text

end NegotiateAuth
