import Mathlib.Logic.Relation
import NegotiateAuth.Proofs.Challenge.Reading

/-! # Challenges in several field values

A field value is cut at every comma, wherever it stands, and the first piece that reads as a
challenge is taken. A peer may list its challenges in one value of its field or in several, and
those who pass the fields on may join values or split them; edits that keep the first challenge of
the whole list in its place keep the result.
-/

namespace NegotiateAuth

/-! ## Pieces of a text -/

namespace Challenge

/-- The first challenge that a piece of the text reads as. -/
def firstIn? (cs : List Char) : Option Challenge :=
  (Text.pieces ',' cs).findSome? parseChars?

def laterIn? (cs : List Char) : Option Challenge :=
  (Text.pieces ',' cs).tail.findSome? parseChars?

theorem findSome?_flatMap {α β γ : Type} (read : β → Option γ) (parts : α → List β) (xs : List α) :
    (xs.flatMap parts).findSome? read = xs.findSome? fun x => (parts x).findSome? read := by
  induction xs with
  | nil => rfl
  | cons x more ih =>
      rw [List.flatMap_cons, List.findSome?_append, ih, List.findSome?_cons]
      cases (parts x).findSome? read <;> rfl

theorem ofFields?_eq_findSome? (peer : Peer) (fields : Http.FieldMap) :
    ofFields? peer fields = ((fields.values peer.challengeField).filterMap
      Http.FieldValue.text?).findSome? fun value => firstIn? value.toList :=
  findSome?_flatMap _ _ _

theorem parseChars?_nil : parseChars? [] = none := by
  decide +kernel

theorem firstIn?_eq_or (cs : List Char) :
    firstIn? cs = (parseChars? (Text.firstPiece ',' cs)).or (laterIn? cs) := by
  unfold firstIn? laterIn?
  rw [Text.pieces_eq_firstPiece_cons, List.findSome?_cons, List.tail_cons]
  cases parseChars? (Text.firstPiece ',' cs) <;> rfl

theorem firstIn?_of_notMem {cs : List Char} (h : ',' ∉ cs) : firstIn? cs = parseChars? cs := by
  unfold firstIn?
  rw [Text.pieces_of_notMem h, List.findSome?_singleton]

theorem laterIn?_of_notMem {cs : List Char} (h : ',' ∉ cs) : laterIn? cs = none := by
  unfold laterIn?
  rw [Text.pieces_of_notMem h]
  rfl

theorem laterIn?_append_of_notMem {cs : List Char} (h : ',' ∉ cs) (ds : List Char) :
    laterIn? (cs ++ ds) = laterIn? ds := by
  unfold laterIn?
  rw [Text.tail_pieces_append_of_notMem h]

theorem firstIn?_append_comma (cs ds : List Char) :
    firstIn? (cs ++ ',' :: ds) = (firstIn? cs).or (firstIn? ds) := by
  unfold firstIn?
  rw [Text.pieces_append_sep, List.findSome?_append]

theorem laterIn?_append_comma (cs ds : List Char) :
    laterIn? (cs ++ ',' :: ds) = (laterIn? cs).or (firstIn? ds) := by
  unfold laterIn? firstIn?
  rw [Text.pieces_append_sep, Text.pieces_eq_firstPiece_cons, List.cons_append, List.tail_cons,
    List.findSome?_append, List.tail_cons]

theorem firstIn?_comma (cs : List Char) : firstIn? (',' :: cs) = firstIn? cs := by
  have h := firstIn?_append_comma [] cs
  rwa [List.nil_append, firstIn?_of_notMem List.not_mem_nil, parseChars?_nil, Option.none_or] at h

section

variable {blanks : List Char}

theorem comma_notMem_of_blank (h : ∀ c ∈ blanks, Text.isBlank c = true) : ',' ∉ blanks := by
  intro hmem
  have hblank := h ',' hmem
  exact absurd hblank (by decide)

theorem firstIn?_blanks_append (h : ∀ c ∈ blanks, Text.isBlank c = true) (cs : List Char) :
    firstIn? (blanks ++ cs) = firstIn? cs := by
  have hcomma := comma_notMem_of_blank h
  rw [firstIn?_eq_or, Text.firstPiece_append_of_notMem hcomma, parseChars?_blanks_append h,
    laterIn?_append_of_notMem hcomma, ← firstIn?_eq_or]

theorem firstIn?_piece_append_blanks (h : ∀ c ∈ blanks, Text.isBlank c = true)
    {piece : List Char} (hpiece : ',' ∉ piece) (cs : List Char) :
    firstIn? (piece ++ cs ++ blanks) = firstIn? (piece ++ cs) := by
  -- a comma ends the piece and starts the next one; any other character goes on with it
  induction cs generalizing piece with
  | nil =>
      have hboth : ',' ∉ piece ++ blanks := by
        simp [hpiece, comma_notMem_of_blank h]
      rw [List.append_nil, firstIn?_of_notMem hboth, firstIn?_of_notMem hpiece,
        parseChars?_append_blanks h]
  | cons c rest ih =>
      by_cases hc : c = ','
      · subst hc
        have hrest := ih List.not_mem_nil
        rw [List.nil_append] at hrest
        rw [List.append_assoc, List.cons_append, firstIn?_append_comma, firstIn?_append_comma,
          hrest]
      · have hlonger : ',' ∉ piece ++ [c] := by simp [hpiece, Ne.symm hc]
        have hrest := ih hlonger
        rwa [List.append_assoc piece [c]] at hrest

/-- Blanks at the end belong to the last piece, which is read without them. -/
theorem firstIn?_append_blanks (h : ∀ c ∈ blanks, Text.isBlank c = true) (cs : List Char) :
    firstIn? (cs ++ blanks) = firstIn? cs :=
  firstIn?_piece_append_blanks h List.not_mem_nil cs

theorem laterIn?_append_blanks (h : ∀ c ∈ blanks, Text.isBlank c = true) (cs : List Char) :
    laterIn? (cs ++ blanks) = laterIn? cs := by
  by_cases hcs : ',' ∈ cs
  · obtain ⟨before, after, rfl, -⟩ := List.append_of_mem hcs
    rw [List.append_assoc, List.cons_append, laterIn?_append_comma, laterIn?_append_comma,
      firstIn?_append_blanks h]
  · rw [laterIn?_append_of_notMem hcs, laterIn?_of_notMem (comma_notMem_of_blank h),
      laterIn?_of_notMem hcs]

end

section

variable {before after : List Char}

theorem firstIn?_filler_append (h : ∀ c ∈ after, c = ',' ∨ Text.isBlank c = true)
    (cs : List Char) : firstIn? (after ++ cs) = firstIn? cs := by
  induction after with
  | nil => rfl
  | cons first rest ih =>
      have hrest := ih fun c hc => h c (List.mem_cons_of_mem first hc)
      rcases h first List.mem_cons_self with rfl | hblank
      · rw [List.cons_append, firstIn?_comma, hrest]
      · have hfirst : ∀ c ∈ [first], Text.isBlank c = true := by simpa using hblank
        have hskip := firstIn?_blanks_append hfirst (rest ++ cs)
        rw [← hrest, ← hskip]
        rfl

theorem firstIn?_append_filler (h : ∀ c ∈ after, c = ',' ∨ Text.isBlank c = true)
    (cs : List Char) : firstIn? (cs ++ after) = firstIn? cs := by
  induction after generalizing cs with
  | nil => rw [List.append_nil]
  | cons first rest ih =>
      have hrest : ∀ c ∈ rest, c = ',' ∨ Text.isBlank c = true :=
        fun c hc => h c (List.mem_cons_of_mem first hc)
      rcases h first List.mem_cons_self with rfl | hblank
      · have hnone : firstIn? rest = none := by
          have hfiller := firstIn?_filler_append hrest []
          rwa [List.append_nil, firstIn?_of_notMem List.not_mem_nil, parseChars?_nil] at hfiller
        rw [firstIn?_append_comma, hnone, Option.or_none]
      · have hfirst : ∀ c ∈ [first], Text.isBlank c = true := by simpa using hblank
        rw [← List.singleton_append, ← List.append_assoc, ih hrest, firstIn?_append_blanks hfirst]

variable (hbefore : ∀ c ∈ before, Text.isBlank c = true)
  (hafter : ∀ c ∈ after, c = ',' ∨ Text.isBlank c = true)

include hbefore hafter

/-- Texts set off by a comma are read one after the other. -/
theorem firstIn?_append_separator (cs ds : List Char) :
    firstIn? (cs ++ (before ++ ',' :: after) ++ ds) = (firstIn? cs).or (firstIn? ds) := by
  rw [← List.append_assoc cs, List.append_assoc, List.cons_append, firstIn?_append_comma,
    firstIn?_append_blanks hbefore, firstIn?_filler_append hafter]

theorem laterIn?_append_separator (cs ds : List Char) :
    laterIn? (cs ++ (before ++ ',' :: after) ++ ds) = (laterIn? cs).or (firstIn? ds) := by
  rw [← List.append_assoc cs, List.append_assoc, List.cons_append, laterIn?_append_comma,
    laterIn?_append_blanks hbefore, firstIn?_filler_append hafter]

end

/-! ## The first word -/

section

variable {word rest : List Char} (hrest : ∀ c ∈ rest.head?, c = ',' ∨ Text.isBlank c = true)

include hrest

theorem blank_of_head?_firstPiece :
    ∀ c ∈ (Text.firstPiece ',' rest).head?, Text.isBlank c = true := by
  intro c hc
  obtain ⟨hhead, hc⟩ := Text.mem_head?_firstPiece hc
  exact (hrest c hhead).resolve_left hc

/-- Where a text starts with the name of the scheme, its first piece is taken. -/
theorem firstIn?_of_scheme (hscheme : namesScheme word = true) :
    firstIn? (word ++ rest) = some (ofChars (Text.firstPiece ',' rest)) := by
  have hcomma : ',' ∉ word := notMem_of_namesScheme hscheme (by decide +kernel)
  have hread := parseChars?_of_scheme (List.forall_mem_nil _) hscheme
    (blank_of_head?_firstPiece hrest)
  rw [List.nil_append] at hread
  rw [firstIn?_eq_or, Text.firstPiece_append_of_notMem hcomma, hread]
  rfl

/-- Where it starts with another word, only what is behind a comma counts. -/
theorem firstIn?_of_other_word (hne : word ≠ [])
    (hword : ∀ c ∈ word, Text.isBlank c = false ∧ c ≠ ',') (hother : namesScheme word = false) :
    firstIn? (word ++ rest) = laterIn? rest := by
  have hcomma : ',' ∉ word := fun hmem => (hword ',' hmem).2 rfl
  have hnone := parseChars?_word (List.forall_mem_nil _) hne (fun c hc => (hword c hc).1)
    (blank_of_head?_firstPiece hrest)
  rw [List.nil_append, hother] at hnone
  rw [firstIn?_eq_or, Text.firstPiece_append_of_notMem hcomma, hnone,
    laterIn?_append_of_notMem hcomma]
  rfl

end

def isWordChar (c : Char) : Bool :=
  !Text.isBlank c && c != ','

/-- A text is a word, which may be empty, and what sets the word off. -/
theorem word_split (cs : List Char) :
    ∃ word rest, cs = word ++ rest ∧ (∀ c ∈ word, Text.isBlank c = false ∧ c ≠ ',') ∧
      ∀ c ∈ rest.head?, c = ',' ∨ Text.isBlank c = true := by
  refine ⟨cs.takeWhile isWordChar, cs.dropWhile isWordChar,
    List.takeWhile_append_dropWhile.symm, ?_, ?_⟩
  · intro c hc
    have hin := List.all_eq_true.1 (List.all_takeWhile (p := isWordChar) (l := cs)) c hc
    simpa [isWordChar] using hin
  · intro c hc
    have hdrop := List.head?_dropWhile_not isWordChar cs
    rw [Option.mem_def.1 hc] at hdrop
    by_cases hcomma : c = ','
    · exact Or.inl hcomma
    · exact Or.inr (by simpa [isWordChar, hcomma] using hdrop)

/-- A word with a sign in it is another word than the name of the scheme, however it goes on. -/
theorem firstIn?_of_sign {word : List Char} {sign : Char} (hsign : sign ∈ word)
    (hscheme : sign.toLower ∉ schemeName.toList.map Char.toLower)
    (hword : ∀ c ∈ word, Text.isBlank c = false ∧ c ≠ ',') (cs : List Char) :
    firstIn? (word ++ cs) = laterIn? cs := by
  obtain ⟨more, rest, rfl, hmore, hrest⟩ := word_split cs
  have hwhole : ∀ c ∈ word ++ more, Text.isBlank c = false ∧ c ≠ ',' :=
    fun c hc => (List.mem_append.1 hc).elim (hword c) (hmore c)
  have hmem : sign ∈ word ++ more := List.mem_append_left _ hsign
  have hother : namesScheme (word ++ more) = false :=
    Bool.eq_false_iff.2 fun hnames => notMem_of_namesScheme hnames hscheme hmem
  have hcomma : ',' ∉ more := fun hmem => (hmore ',' hmem).2 rfl
  rw [← List.append_assoc, firstIn?_of_other_word hrest (List.ne_nil_of_mem hmem) hwhole hother,
    laterIn?_append_of_notMem hcomma]

/-! ## What is behind a comma -/

/-- Behind a comma stands the name of the scheme, with nothing but blanks before it, and set off by
a blank or another comma. -/
def HidesOffer (cs : List Char) : Prop :=
  ∃ before lead scheme rest : List Char, cs = before ++ ',' :: (lead ++ (scheme ++ rest)) ∧
    (∀ c ∈ lead, Text.isBlank c = true) ∧ namesScheme scheme = true ∧
    ∀ c ∈ rest.head?, c = ',' ∨ Text.isBlank c = true

theorem laterIn?_isSome_iff (cs : List Char) :
    (laterIn? cs).isSome = true ↔ HidesOffer cs := by
  unfold laterIn?
  rw [List.findSome?_isSome_iff]
  constructor
  · rintro ⟨piece, hpiece, hopens⟩
    obtain ⟨-, before, after, rfl, hafter⟩ := Text.mem_tail_pieces_iff.1 hpiece
    obtain ⟨lead, scheme, rest, rfl, hlead, hscheme, hrest⟩ :=
      (parseChars?_isSome_iff piece).1 hopens
    refine ⟨before, lead, scheme, rest ++ after, ?_, hlead, hscheme, ?_⟩
    · simp only [List.append_assoc]
    · intro c hc
      cases rest with
      | nil => exact Or.inl (hafter c hc)
      | cons first more => exact Or.inr (hrest c hc)
  · rintro ⟨before, lead, scheme, rest, rfl, hlead, hscheme, hrest⟩
    obtain ⟨after, hsplit, hafter⟩ := Text.firstPiece_split ',' rest
    have hcomma : ',' ∉ lead ++ (scheme ++ Text.firstPiece ',' rest) := by
      simp only [List.mem_append, not_or]
      exact ⟨comma_notMem_of_blank hlead, notMem_of_namesScheme hscheme (by decide +kernel),
        Text.notMem_firstPiece ',' rest⟩
    refine ⟨lead ++ (scheme ++ Text.firstPiece ',' rest), ?_, ?_⟩
    · refine Text.mem_tail_pieces_iff.2 ⟨hcomma, before, after, ?_, hafter⟩
      rw [List.append_assoc, List.append_assoc, ← hsplit]
    · exact (parseChars?_isSome_iff _).2
        ⟨lead, scheme, _, rfl, hlead, hscheme, blank_of_head?_firstPiece hrest⟩

instance (cs : List Char) : Decidable (HidesOffer cs) :=
  decidable_of_iff _ (laterIn?_isSome_iff cs)

/-! ## Values of a field -/

def Readable (value : Http.FieldValue) : Prop :=
  ∀ byte ∈ value.bytes, Http.FieldValue.isReadable byte = true

/-- One of the pieces between the commas of readable bytes is a challenge. -/
def Offers (bytes : List UInt8) : Prop :=
  ∃ piece ∈ Text.pieces ',' (bytes.map Text.charOfByte), (parseChars? piece).isSome = true

instance (value : Http.FieldValue) : Decidable (Readable value) :=
  List.decidableBAll _ _

instance (bytes : List UInt8) : Decidable (Offers bytes) :=
  List.decidableBEx _ _

def firstInBytes? (bytes : List UInt8) : Option Challenge :=
  firstIn? (bytes.map Text.charOfByte)

/-- The first challenge in a value, which has none unless it is readable. -/
def firstInValue? (value : Http.FieldValue) : Option Challenge :=
  value.text?.bind fun text => firstIn? text.toList

def firstAmong? (values : List Http.FieldValue) : Option Challenge :=
  values.findSome? firstInValue?

theorem ofFields?_eq_firstAmong? (peer : Peer) (fields : Http.FieldMap) :
    ofFields? peer fields = firstAmong? (fields.values peer.challengeField) := by
  rw [ofFields?_eq_findSome?, firstAmong?, ← List.head?_filterMap, List.filterMap_filterMap,
    List.head?_filterMap]
  rfl

section

variable {value : Http.FieldValue} {bytes blanks : List UInt8}

theorem firstInValue?_of_readable (h : Readable value) :
    firstInValue? value = firstInBytes? value.bytes := by
  rw [firstInValue?, Http.FieldValue.text?, if_pos (List.all_eq_true.2 h), Option.bind_some,
    Text.toList_ofBytes, firstInBytes?]

theorem firstInValue?_of_not_readable (h : ¬ Readable value) : firstInValue? value = none := by
  rw [firstInValue?, Http.FieldValue.text?, if_neg (mt List.all_eq_true.1 h), Option.bind_none]

theorem firstInBytes?_isSome_iff : (firstInBytes? bytes).isSome = true ↔ Offers bytes :=
  List.findSome?_isSome_iff

theorem firstInValue?_eq_none (h : Readable value → ¬ Offers value.bytes) :
    firstInValue? value = none := by
  by_cases readable : Readable value
  · rw [firstInValue?_of_readable readable, ← Option.not_isSome_iff_eq_none,
      firstInBytes?_isSome_iff]
    exact h readable
  · exact firstInValue?_of_not_readable readable

theorem firstInBytes?_append_comma (front back : List UInt8) :
    firstInBytes? (front ++ 44 :: back) = (firstInBytes? front).or (firstInBytes? back) := by
  unfold firstInBytes?
  rw [List.map_append, List.map_cons, show Text.charOfByte 44 = ',' from rfl,
    firstIn?_append_comma]

theorem firstInBytes?_blanks_append (h : ∀ byte ∈ blanks, byte = 32 ∨ byte = 9)
    (bytes : List UInt8) : firstInBytes? (blanks ++ bytes) = firstInBytes? bytes := by
  have hblank : ∀ c ∈ blanks.map Text.charOfByte, Text.isBlank c = true := by
    intro c hc
    obtain ⟨byte, hbyte, rfl⟩ := List.mem_map.1 hc
    rcases h byte hbyte with rfl | rfl <;> rfl
  rw [firstInBytes?, List.map_append, firstIn?_blanks_append hblank, firstInBytes?]

end

theorem firstAmong?_append (values more : List Http.FieldValue) :
    firstAmong? (values ++ more) = (firstAmong? values).or (firstAmong? more) :=
  List.findSome?_append

theorem firstAmong?_cons (value : Http.FieldValue) (values : List Http.FieldValue) :
    firstAmong? (value :: values) = (firstInValue? value).or (firstAmong? values) := by
  rw [firstAmong?, List.findSome?_cons]
  cases firstInValue? value <;> rfl

/-! ## One value in place of several -/

/-- Bytes with more behind them, each set off by a comma and perhaps by spaces and tabs. -/
def joined (first : List UInt8) (more : List (List UInt8 × Http.FieldValue)) : List UInt8 :=
  first ++ more.flatMap fun next => 44 :: (next.1 ++ next.2.bytes)

/-- The values of a joined text are read one after the other. -/
theorem firstInBytes?_joined {more : List (List UInt8 × Http.FieldValue)}
    (readable : ∀ next ∈ more, Readable next.2)
    (blank : ∀ next ∈ more, ∀ byte ∈ next.1, byte = 32 ∨ byte = 9) (first : List UInt8) :
    firstInBytes? (joined first more) =
      (firstInBytes? first).or (firstAmong? (more.map Prod.snd)) := by
  induction more generalizing first with
  | nil => rw [joined, List.flatMap_nil, List.append_nil]; exact (Option.or_none).symm
  | cons next more ih =>
      obtain ⟨blanks, value⟩ := next
      have hrest := ih (fun other hother => readable other (List.mem_cons_of_mem _ hother))
        (fun other hother => blank other (List.mem_cons_of_mem _ hother)) value.bytes
      have hsplit : joined first ((blanks, value) :: more) =
          first ++ 44 :: (blanks ++ joined value.bytes more) := by
        simp [joined]
      rw [hsplit, firstInBytes?_append_comma,
        firstInBytes?_blanks_append (blank _ List.mem_cons_self), hrest, List.map_cons,
        firstAmong?_cons, firstInValue?_of_readable (readable _ List.mem_cons_self)]

theorem joined_readable {first : List UInt8} {more : List (List UInt8 × Http.FieldValue)}
    (hfirst : ∀ byte ∈ first, Http.FieldValue.isReadable byte = true)
    (readable : ∀ next ∈ more, Readable next.2)
    (blank : ∀ next ∈ more, ∀ byte ∈ next.1, byte = 32 ∨ byte = 9) :
    ∀ byte ∈ joined first more, Http.FieldValue.isReadable byte = true := by
  intro byte hbyte
  rcases List.mem_append.1 hbyte with hbyte | hbyte
  · exact hfirst byte hbyte
  obtain ⟨next, hnext, hbyte⟩ := List.mem_flatMap.1 hbyte
  rcases List.mem_cons.1 hbyte with rfl | hbyte
  · decide
  rcases List.mem_append.1 hbyte with hbyte | hbyte
  · rcases blank next hnext byte hbyte with rfl | rfl <;> decide
  · exact readable next hnext byte hbyte

/-- What stands behind a challenge, and behind a comma, is not looked at. -/
theorem firstInBytes?_of_offers {front back : List UInt8} (offers : Offers front)
    (cut : ∀ byte ∈ back.head?, byte = 44) :
    firstInBytes? (front ++ back) = firstInBytes? front := by
  cases back with
  | nil => rw [List.append_nil]
  | cons first rest =>
      obtain rfl : first = 44 := cut first rfl
      rw [firstInBytes?_append_comma, Option.or_of_isSome (firstInBytes?_isSome_iff.2 offers)]

section

variable {first whole front back value longer : Http.FieldValue}

/-- A joined value is read as the values that it is joined from. -/
theorem firstInValue?_of_joined {more : List (List UInt8 × Http.FieldValue)}
    (readable : ∀ value ∈ first :: more.map Prod.snd, Readable value)
    (blank : ∀ next ∈ more, ∀ byte ∈ next.1, byte = 32 ∨ byte = 9)
    (bytes : whole.bytes = joined first.bytes more) :
    firstInValue? whole = firstAmong? (first :: more.map Prod.snd) := by
  have hfirst : Readable first := readable first List.mem_cons_self
  have hmore : ∀ next ∈ more, Readable next.2 := fun next hnext =>
    readable next.2 (List.mem_cons_of_mem first (List.mem_map_of_mem hnext))
  have hwhole : Readable whole := by
    rw [Readable, bytes]
    exact joined_readable hfirst hmore blank
  rw [firstInValue?_of_readable hwhole, bytes, firstInBytes?_joined hmore blank, firstAmong?_cons,
    firstInValue?_of_readable hfirst]

theorem firstInValue?_of_split (readable : Readable whole)
    (bytes : whole.bytes = front.bytes ++ 44 :: back.bytes) :
    firstInValue? whole = (firstInValue? front).or (firstInValue? back) := by
  have hfront : Readable front := fun byte hbyte =>
    readable byte (by rw [bytes]; exact List.mem_append_left _ hbyte)
  have hback : Readable back := fun byte hbyte =>
    readable byte (by rw [bytes]; exact List.mem_append_right _ (List.mem_cons_of_mem _ hbyte))
  rw [firstInValue?_of_readable readable, bytes, firstInBytes?_append_comma,
    firstInValue?_of_readable hfront, firstInValue?_of_readable hback]

/-- Readable pieces that are added behind a challenge are not looked at. -/
theorem firstInValue?_of_lengthened {front extra back : List UInt8} (readable : Readable value)
    (bytes : value.bytes = front ++ back) (offers : Offers front)
    (cut : ∀ byte ∈ back.head?, byte = 44)
    (extraReadable : ∀ byte ∈ extra, Http.FieldValue.isReadable byte = true)
    (longerBytes : longer.bytes = front ++ 44 :: (extra ++ back)) :
    firstInValue? longer = firstInValue? value := by
  have hlonger : Readable longer := by
    intro byte hbyte
    have hvalue : byte ∈ front ++ back → Http.FieldValue.isReadable byte = true :=
      fun hmem => readable byte (bytes ▸ hmem)
    rw [longerBytes] at hbyte
    simp only [List.mem_append, List.mem_cons] at hbyte hvalue
    rcases hbyte with hbyte | rfl | hbyte | hbyte
    · exact hvalue (.inl hbyte)
    · decide
    · exact extraReadable byte hbyte
    · exact hvalue (.inr hbyte)
  have hcut : ∀ byte ∈ (44 :: (extra ++ back)).head?, byte = 44 := by simp
  rw [firstInValue?_of_readable hlonger, longerBytes, firstInBytes?_of_offers offers hcut,
    firstInValue?_of_readable readable, bytes, firstInBytes?_of_offers offers cut]

theorem firstInValue?_isSome (readable : Readable value) (offers : Offers value.bytes) :
    (firstInValue? value).isSome = true := by
  rw [firstInValue?_of_readable readable]
  exact firstInBytes?_isSome_iff.2 offers

end

/-! ## Edits -/

/-- Edits of the values of a field that leave the first challenge of the list where it is. -/
inductive Edit : List Http.FieldValue → List Http.FieldValue → Prop where
  /-- Readable values that stand one after the other become one value. -/
  | join {before after : List Http.FieldValue} {first whole : Http.FieldValue}
      {more : List (List UInt8 × Http.FieldValue)}
      (readable : ∀ value ∈ first :: more.map Prod.snd, Readable value)
      (blank : ∀ next ∈ more, ∀ byte ∈ next.1, byte = 32 ∨ byte = 9)
      (bytes : whole.bytes = joined first.bytes more) :
      Edit (before ++ (first :: more.map Prod.snd) ++ after) (before ++ whole :: after)
  /-- A readable value is cut in two at a comma. -/
  | split {before after : List Http.FieldValue} {whole front back : Http.FieldValue}
      (readable : Readable whole) (bytes : whole.bytes = front.bytes ++ 44 :: back.bytes) :
      Edit (before ++ whole :: after) (before ++ front :: back :: after)
  /-- A value comes in that is not readable, or no piece of which is a challenge. -/
  | insert {before after : List Http.FieldValue} {value : Http.FieldValue}
      (nothing : Readable value → ¬ Offers value.bytes) :
      Edit (before ++ after) (before ++ value :: after)
  /-- Readable pieces come in behind a challenge of the same value. -/
  | lengthen {before after : List Http.FieldValue} {value longer : Http.FieldValue}
      {front extra back : List UInt8} (readable : Readable value)
      (bytes : value.bytes = front ++ back) (offers : Offers front)
      (cut : ∀ byte ∈ back.head?, byte = 44)
      (extraReadable : ∀ byte ∈ extra, Http.FieldValue.isReadable byte = true)
      (longerBytes : longer.bytes = front ++ 44 :: (extra ++ back)) :
      Edit (before ++ value :: after) (before ++ longer :: after)
  /-- Other values stand behind a value that has a challenge. -/
  | follow {before after after' : List Http.FieldValue} {value : Http.FieldValue}
      (readable : Readable value) (offers : Offers value.bytes) :
      Edit (before ++ value :: after) (before ++ value :: after')

/-- An edit leaves the first challenge as it is. -/
theorem firstAmong?_of_edit {values others : List Http.FieldValue} (h : Edit values others) :
    firstAmong? others = firstAmong? values := by
  cases h with
  | join readable blank bytes =>
      rw [List.append_assoc, firstAmong?_append, firstAmong?_append, firstAmong?_append,
        firstAmong?_cons, firstInValue?_of_joined readable blank bytes]
  | split readable bytes =>
      rw [firstAmong?_append, firstAmong?_append, firstAmong?_cons, firstAmong?_cons,
        firstAmong?_cons, firstInValue?_of_split readable bytes, Option.or_assoc]
  | insert nothing =>
      rw [firstAmong?_append, firstAmong?_append, firstAmong?_cons, firstInValue?_eq_none nothing,
        Option.none_or]
  | lengthen readable bytes offers cut extraReadable longerBytes =>
      rw [firstAmong?_append, firstAmong?_append, firstAmong?_cons, firstAmong?_cons,
        firstInValue?_of_lengthened readable bytes offers cut extraReadable longerBytes]
  | follow readable offers =>
      have hsome := firstInValue?_isSome readable offers
      rw [firstAmong?_append, firstAmong?_append, firstAmong?_cons, firstAmong?_cons,
        Option.or_of_isSome hsome, Option.or_of_isSome hsome]

/-- So do any number of edits, in either direction. -/
theorem firstAmong?_of_edits {values others : List Http.FieldValue}
    (h : Relation.EqvGen Edit values others) : firstAmong? others = firstAmong? values := by
  induction h with
  | rel values others edit => exact firstAmong?_of_edit edit
  | refl values => rfl
  | symm values others _ ih => exact ih.symm
  | trans values between others _ _ ih ih' => exact ih'.trans ih

/-- The first piece that is a challenge is taken, in the order of the values and of the pieces in
each of them, and nothing but the readable values of the peer's field counts. Joining values and
splitting them, adding values that offer nothing, and adding anything behind the challenge that is
taken make no difference, however often and in whichever direction that is done. -/
theorem ofFields?_of_edits (peer : Peer) :
    (∀ fields challenge, ofFields? peer fields = some challenge ↔
      ∃ before piece after, offers peer fields = before ++ piece :: after ∧
        parse? (String.ofList piece) = some challenge ∧
          ∀ earlier ∈ before, parse? (String.ofList earlier) = none) ∧
      (∀ fields, ofFields? peer fields = none ↔
        ∀ piece ∈ offers peer fields, parse? (String.ofList piece) = none) ∧
      (∀ fields other : Http.FieldMap,
        (fields.values peer.challengeField).filterMap Http.FieldValue.text? =
            (other.values peer.challengeField).filterMap Http.FieldValue.text? →
          ofFields? peer other = ofFields? peer fields) ∧
      ∀ fields other : Http.FieldMap,
        Relation.EqvGen Edit (fields.values peer.challengeField)
            (other.values peer.challengeField) →
          ofFields? peer other = ofFields? peer fields := by
  have hparse : ∀ piece : List Char, parse? (String.ofList piece) = parseChars? piece :=
    fun piece => congrArg parseChars? String.toList_ofList
  refine ⟨fun fields challenge => ?_, fun fields => ?_, fun fields other same => ?_,
    fun fields other edits => ?_⟩
  · simp only [hparse]
    exact List.findSome?_eq_some_iff
  · simp only [hparse]
    exact List.findSome?_eq_none_iff
  · rw [ofFields?_eq_findSome?, ofFields?_eq_findSome?, same]
  · rw [ofFields?_eq_firstAmong?, ofFields?_eq_firstAmong?]
    exact firstAmong?_of_edits edits

def written (text : String) : Http.FieldValue :=
  ⟨Text.utf8 text.toList, false⟩

def fieldsWritten (texts : List String) : Http.FieldMap :=
  ⟨texts.map fun text => (.wwwAuthenticate, written text)⟩

theorem ofFields?_of_edits_joined :
    let apart := fieldsWritten ["Basic", "Negotiate YII"]
    let whole := fieldsWritten ["Basic,\tNegotiate YII,Digest"]
    ofFields? .target apart = some ⟨some "YII"⟩ ∧
      ofFields? .target whole = ofFields? .target apart ∧
      ofFields? .target ⟨(.authorization, written "Negotiate") :: whole.fields⟩ =
        ofFields? .target whole ∧
      ofFields? .target (fieldsWritten ["Digest"]) = none := by
  intro apart whole
  obtain ⟨hsome, hnone, hsame, hedits⟩ := ofFields?_of_edits .target
  have joined : Edit [written "Basic", written "Negotiate YII"]
      [written "Basic,\tNegotiate YII"] :=
    @Edit.join [] [] _ _ [([9], written "Negotiate YII")] (by decide +kernel)
      (by decide +kernel) (by decide +kernel)
  have lengthened : Edit [written "Basic,\tNegotiate YII"]
      [written "Basic,\tNegotiate YII,Digest"] :=
    @Edit.lengthen [] [] _ _ (written "Basic,\tNegotiate YII").bytes (written "Digest").bytes []
      (by decide +kernel) (by decide +kernel) (by decide +kernel) (by decide +kernel)
      (by decide +kernel) (by decide +kernel)
  refine ⟨(hsome _ _).2 ⟨["Basic".toList], "Negotiate YII".toList, [], ?_, ?_, ?_⟩,
    hedits apart whole (.trans _ _ _ (.rel _ _ joined) (.rel _ _ lengthened)), ?_, ?_⟩
  · decide +kernel
  · decide +kernel
  · decide +kernel
  · exact hsame whole _ (by decide +kernel)
  · exact (hnone _).2 (by decide +kernel)

end Challenge

end NegotiateAuth
