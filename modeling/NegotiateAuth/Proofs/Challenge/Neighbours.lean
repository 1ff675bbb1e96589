import NegotiateAuth.Proofs.Challenge.Fields
import NegotiateAuth.Proofs.Challenge.Written

/-! # A challenge and its neighbours

The bytes of a field value are cut at commas, and a piece offers a challenge by what it has itself.
Yet a value is read as a whole or not at all: one byte beyond ASCII, in whichever piece it stands,
takes the challenge away that another piece of the value offers. Other values take nothing away.
-/

namespace NegotiateAuth

namespace Text

theorem charOfByte_eq_comma_iff (byte : UInt8) : charOfByte byte = ',' ↔ byte = 44 := by
  rw [← Char.toNat_inj, toNat_charOfByte, ← UInt8.toNat_inj]
  rfl

/-- Bytes are cut where their characters are. -/
theorem pieces_map_charOfByte (bytes : List UInt8) :
    pieces ',' (bytes.map charOfByte) = (bytes.splitOn 44).map (List.map charOfByte) := by
  induction bytes with
  | nil => rfl
  | cons byte rest ih =>
      rw [List.map_cons, pieces, ih, List.splitOn_cons_eq_if_modifyHead]
      by_cases hbyte : byte = 44
      · rw [if_pos ((charOfByte_eq_comma_iff byte).2 hbyte), if_pos (beq_iff_eq.2 hbyte)]
        rfl
      · rw [if_neg (mt (charOfByte_eq_comma_iff byte).1 hbyte), if_neg (mt beq_iff_eq.1 hbyte)]
        cases hrest : rest.splitOn 44 with
        | nil => exact absurd hrest (List.splitOn_ne_nil _ _)
        | cons piece more => rfl

end Text

namespace Challenge

def IsSpaceByte (byte : UInt8) : Prop :=
  byte = 32 ∨ byte = 9

/-- A piece of a field value that offers a challenge: the name of the scheme in any case, alone or
set off from a token of visible ASCII, with spaces and tabs around. -/
structure OfferedPiece where
  lead : List UInt8
  scheme : List UInt8
  gap : List UInt8
  token : List UInt8
  trail : List UInt8
  spaces : ∀ byte ∈ lead ++ gap ++ trail, IsSpaceByte byte
  named : Text.InAnyCase schemeName.toList (scheme.map Text.charOfByte)
  visible : ∀ byte ∈ token, 33 ≤ byte ∧ byte < 127
  apart : gap = [] → token = []

def OfferedPiece.bytes (piece : OfferedPiece) : List UInt8 :=
  piece.lead ++ (piece.scheme ++ (piece.gap ++ (piece.token ++ piece.trail)))

/-- The bytes start, after spaces and tabs, with the name of the scheme, set off from the rest. -/
def Opens (bytes : List UInt8) : Prop :=
  ∃ lead scheme rest : List UInt8, bytes = lead ++ (scheme ++ rest) ∧
    (∀ byte ∈ lead, IsSpaceByte byte) ∧
    Text.InAnyCase schemeName.toList (scheme.map Text.charOfByte) ∧
    ∀ byte ∈ rest.head?, IsSpaceByte byte

theorem OfferedPiece.opens (piece : OfferedPiece) : Opens piece.bytes := by
  have hspaces := piece.spaces
  simp only [List.mem_append, or_imp, forall_and] at hspaces
  obtain ⟨⟨hlead, hgap⟩, htrail⟩ := hspaces
  refine ⟨piece.lead, piece.scheme, piece.gap ++ (piece.token ++ piece.trail), rfl, hlead,
    piece.named, ?_⟩
  by_cases hnil : piece.gap = []
  · rw [hnil, piece.apart hnil]
    exact fun byte hbyte => htrail byte (List.mem_of_mem_head? hbyte)
  · exact Text.head?_append_of_ne_nil hnil hgap _

/-- A readable byte is a blank only if it is a space or a tab. -/
theorem isBlank_charOfByte_iff {byte : UInt8} (h : Http.FieldValue.isReadable byte = true) :
    Text.isBlank (Text.charOfByte byte) = true ↔ IsSpaceByte byte := by
  have hrange : byte.toNat = 9 ∨ 32 ≤ byte.toNat ∧ byte.toNat < 127 := by
    simpa [Http.FieldValue.isReadable, ← UInt8.toNat_inj, UInt8.le_iff_toNat_le,
      UInt8.lt_iff_toNat_lt] using h
  simp only [Text.isBlank, Text.blankRanges, Text.toNat_charOfByte, List.any_cons, List.any_nil,
    Bool.or_false, Bool.or_eq_true, Bool.and_eq_true, decide_eq_true_eq, IsSpaceByte,
    ← UInt8.toNat_inj]
  change _ ↔ byte.toNat = 32 ∨ byte.toNat = 9
  omega

theorem forall_blank_iff {bytes : List UInt8}
    (h : ∀ byte ∈ bytes, Http.FieldValue.isReadable byte = true) :
    (∀ c ∈ bytes.map Text.charOfByte, Text.isBlank c = true) ↔
      ∀ byte ∈ bytes, IsSpaceByte byte := by
  rw [List.forall_mem_map]
  exact forall₂_congr fun byte hbyte => isBlank_charOfByte_iff (h byte hbyte)

theorem forall_head?_blank_iff {bytes : List UInt8}
    (h : ∀ byte ∈ bytes, Http.FieldValue.isReadable byte = true) :
    (∀ c ∈ (bytes.map Text.charOfByte).head?, Text.isBlank c = true) ↔
      ∀ byte ∈ bytes.head?, IsSpaceByte byte := by
  cases bytes with
  | nil => simp
  | cons first rest => simpa using isBlank_charOfByte_iff (h first List.mem_cons_self)

/-- Readable bytes are read as a challenge if and only if they open one. -/
theorem parseChars?_isSome_iff_opens {bytes : List UInt8}
    (h : ∀ byte ∈ bytes, Http.FieldValue.isReadable byte = true) :
    (parseChars? (bytes.map Text.charOfByte)).isSome = true ↔ Opens bytes := by
  rw [parseChars?_isSome_iff]
  constructor
  · rintro ⟨lead, scheme, rest, hsplit, hlead, hscheme, hrest⟩
    obtain ⟨leadBytes, others, rfl, rfl, hothers⟩ := List.map_eq_append_iff.1 hsplit
    obtain ⟨schemeBytes, restBytes, rfl, rfl, rfl⟩ := List.map_eq_append_iff.1 hothers
    have hleadBytes := (forall_blank_iff fun byte hbyte => h byte (by simp [hbyte])).1 hlead
    have hrestBytes := (forall_head?_blank_iff fun byte hbyte => h byte (by simp [hbyte])).1 hrest
    exact ⟨leadBytes, schemeBytes, restBytes, rfl, hleadBytes, namesScheme_iff.1 hscheme,
      hrestBytes⟩
  · rintro ⟨lead, scheme, rest, rfl, hlead, named, hrest⟩
    have hleadChars := (forall_blank_iff fun byte hbyte => h byte (by simp [hbyte])).2 hlead
    have hrestChars := (forall_head?_blank_iff fun byte hbyte => h byte (by simp [hbyte])).2 hrest
    refine ⟨lead.map Text.charOfByte, _, rest.map Text.charOfByte, ?_, hleadChars,
      namesScheme_iff.2 named, hrestChars⟩
    rw [List.map_append, List.map_append]

theorem mem_intercalate {α : Type} {sep part : List α} {parts : List (List α)} (h : part ∈ parts)
    {x : α} (hx : x ∈ part) : x ∈ sep.intercalate parts := by
  induction parts with
  | nil => cases h
  | cons first more ih =>
      cases more with
      | nil => simpa [List.mem_singleton.1 h] using hx
      | cons second others =>
          rw [List.intercalate_cons_cons]
          rcases List.mem_cons.1 h with rfl | h
          · exact List.mem_append_left _ (List.mem_append_left _ hx)
          · exact List.mem_append_right _ (ih h)

/-- A value that is read offers a challenge if and only if a piece of it opens one. -/
theorem offers_iff {value : Http.FieldValue} (readable : Readable value) :
    Offers value.bytes ↔ ∃ piece ∈ value.bytes.splitOn 44, Opens piece := by
  have hpiece : ∀ piece ∈ value.bytes.splitOn 44, ∀ byte ∈ piece,
      Http.FieldValue.isReadable byte = true := by
    intro piece hpiece byte hbyte
    apply readable
    have hjoined : [44].intercalate (value.bytes.splitOn 44) = value.bytes :=
      List.intercalate_splitOn 44
    rw [← hjoined]
    exact mem_intercalate hpiece hbyte
  rw [Offers, Text.pieces_map_charOfByte]
  simp only [List.mem_map, exists_exists_and_eq_and]
  exact exists_congr fun piece => and_congr_right fun hmem =>
    parseChars?_isSome_iff_opens (hpiece piece hmem)

theorem firstInValue?_isSome_iff {value : Http.FieldValue} :
    (firstInValue? value).isSome = true ↔
      Readable value ∧ ∃ piece ∈ value.bytes.splitOn 44, Opens piece := by
  by_cases readable : Readable value
  · rw [firstInValue?_of_readable readable, firstInBytes?_isSome_iff, offers_iff readable,
      and_iff_right readable]
  · rw [firstInValue?_of_not_readable readable]
    simp [readable]

/-- A challenge is found if and only if some value is read and has a piece that opens one. -/
theorem ofFields?_isSome_iff {peer : Peer} {fields : Http.FieldMap} :
    (ofFields? peer fields).isSome = true ↔
      ∃ value ∈ fields.values peer.challengeField,
        Readable value ∧ ∃ piece ∈ value.bytes.splitOn 44, Opens piece := by
  rw [ofFields?_eq_firstAmong?, firstAmong?, List.findSome?_isSome_iff]
  simp only [firstInValue?_isSome_iff]

/-- Of the bytes that may stand in a value, those are readable that are ASCII. -/
theorem isReadable_iff_of_isValid {byte : UInt8} (h : Http.FieldValue.isValid byte = true) :
    Http.FieldValue.isReadable byte = true ↔ byte < 128 := by
  have hvalid : byte.toNat = 9 ∨ 32 ≤ byte.toNat ∧ byte.toNat ≠ 127 := by
    simpa [Http.FieldValue.isValid, ← UInt8.toNat_inj, UInt8.le_iff_toNat_le] using h
  simp only [Http.FieldValue.isReadable, Bool.or_eq_true, Bool.and_eq_true, beq_iff_eq,
    decide_eq_true_eq, ← UInt8.toNat_inj, UInt8.le_iff_toNat_le, UInt8.lt_iff_toNat_lt]
  change byte.toNat = 9 ∨ 32 ≤ byte.toNat ∧ byte.toNat < 127 ↔ byte.toNat < 128
  omega

theorem readable_iff_of_valid {value : Http.FieldValue}
    (valid : ∀ byte ∈ value.bytes, Http.FieldValue.isValid byte = true) :
    Readable value ↔ ∀ byte ∈ value.bytes, byte < 128 :=
  forall₂_congr fun byte hbyte => isReadable_iff_of_isValid (valid byte hbyte)

/-- A piece that offers a challenge is found whatever other pieces are beside it in its value and
whatever the other values hold, as long as its own value is ASCII throughout. No challenge is found
exactly if every value with a piece that opens one has a byte beyond ASCII somewhere. -/
theorem ofFields?_of_offeredPiece {peer : Peer} {fields : Http.FieldMap} {value : Http.FieldValue}
    {piece : OfferedPiece}
    (valid : ∀ value ∈ fields.values peer.challengeField,
      ∀ byte ∈ value.bytes, Http.FieldValue.isValid byte = true)
    (hvalue : value ∈ fields.values peer.challengeField)
    (hpiece : piece.bytes ∈ value.bytes.splitOn 44) :
    ((∀ byte ∈ value.bytes, byte < 128) → ∃ challenge, ofFields? peer fields = some challenge) ∧
      (ofFields? peer fields = none ↔ ∀ other ∈ fields.values peer.challengeField,
        (∃ piece ∈ other.bytes.splitOn 44, Opens piece) → ∃ byte ∈ other.bytes, 128 ≤ byte) := by
  constructor
  · intro ascii
    have readable := (readable_iff_of_valid (valid value hvalue)).2 ascii
    exact Option.isSome_iff_exists.1
      (ofFields?_isSome_iff.2 ⟨value, hvalue, readable, piece.bytes, hpiece, piece.opens⟩)
  · have hunreadable : ∀ other ∈ fields.values peer.challengeField,
        (¬ Readable other ↔ ∃ byte ∈ other.bytes, 128 ≤ byte) := by
      intro other hother
      rw [readable_iff_of_valid (valid other hother)]
      simp only [not_forall, UInt8.not_lt, exists_prop]
    rw [← Option.not_isSome_iff_eq_none, ofFields?_isSome_iff]
    constructor
    · intro hnone other hother opens
      exact (hunreadable other hother).1 fun readable => hnone ⟨other, hother, readable, opens⟩
    · rintro hbeyond ⟨other, hother, readable, opens⟩
      exact (hunreadable other hother).2 (hbeyond other hother opens) readable

def offeredPiece : OfferedPiece where
  lead := [32]
  scheme := Text.utf8 "Negotiate".toList
  gap := [32]
  token := Text.utf8 "AQI=".toList
  trail := []
  spaces := by simp [IsSpaceByte]
  named := namesScheme_iff.1 (by decide +kernel)
  visible := by decide +kernel
  apart := by decide +kernel

theorem ofFields?_of_offeredPiece_ascii :
    ∃ challenge, ofFields? .target
      (fieldsWritten ["Digest realm=\"\u00e9\"", "Basic realm=\"e\", Negotiate AQI="]) =
        some challenge := by
  have hvalue : written "Basic realm=\"e\", Negotiate AQI=" ∈
      (fieldsWritten ["Digest realm=\"\u00e9\"", "Basic realm=\"e\", Negotiate AQI="]).values
        Peer.target.challengeField := by decide +kernel
  have hpiece : offeredPiece.bytes ∈
      (written "Basic realm=\"e\", Negotiate AQI=").bytes.splitOn 44 := by decide +kernel
  obtain ⟨hfound, -⟩ := ofFields?_of_offeredPiece (by decide +kernel) hvalue hpiece
  exact hfound (by decide +kernel)

/-- A realm beyond ASCII, and a challenge of the Negotiate scheme beside it. -/
def besideUtf8 : Http.FieldValue :=
  written "Basic realm=\"\u00e9\", Negotiate AQI="

theorem ofFields?_besideUtf8 :
    (∀ byte ∈ besideUtf8.bytes, Http.FieldValue.isValid byte = true) ∧
      offeredPiece.bytes ∈ besideUtf8.bytes.splitOn 44 ∧
      ofFields? .target ⟨[(.wwwAuthenticate, besideUtf8)]⟩ = none := by
  decide +kernel

end Challenge

end NegotiateAuth
