import NegotiateAuth.AuthError
import NegotiateAuth.Challenge
import NegotiateAuth.Proofs.Base64
import NegotiateAuth.Proofs.Text

/-! # Reading a challenge

A text that starts with the name of the scheme, in any case and after any blanks, is read as a
challenge with what follows the name, and a token written after the name is read back. The value
that answers a challenge with a token is a single readable line of this form.
-/

namespace NegotiateAuth

/-! ## Tokens as text -/

section

variable (token : List UInt8)

theorem toList_encodeToken :
    (encodeToken token).toList = (Base64.encode token).map Text.charOfByte :=
  Text.toList_ofBytes (Base64.encode token)

theorem encodeToken_visible :
    ∀ c ∈ (encodeToken token).toList, 33 ≤ c.toNat ∧ c.toNat < 127 := by
  rw [toList_encodeToken]
  intro c hc
  obtain ⟨byte, hbyte, rfl⟩ := List.mem_map.1 hc
  obtain ⟨hlow, hhigh, -⟩ := Base64.encode_visible token byte hbyte
  rw [Text.toNat_charOfByte]
  exact ⟨hlow, hhigh⟩

theorem encodeToken_not_blank : ∀ c ∈ (encodeToken token).toList, Text.isBlank c = false :=
  fun c hc => Text.isBlank_eq_false_of_visible (encodeToken_visible token c hc)

theorem encodeToken_eq_nil_iff : (encodeToken token).toList = [] ↔ token = [] := by
  rw [toList_encodeToken, List.map_eq_nil_iff, Base64.encode_eq_nil_iff]

theorem encode_ascii : ∀ byte ∈ Base64.encode token, byte.toNat < 128 := by
  intro byte hbyte
  have hvisible := Base64.encode_visible token byte hbyte
  omega

theorem decodeToken_encodeToken : decodeToken (encodeToken token) = .ok token := by
  unfold decodeToken
  rw [Text.trim_word (encodeToken_not_blank token), toList_encodeToken,
    Text.utf8_map_charOfByte (encode_ascii token), Base64.decode_encode]

end

/-- A text is read as the bytes whose text is left of it when the blanks around it are dropped. -/
theorem decodeToken_eq_ok_iff (text : String) (bytes : List UInt8) :
    decodeToken text = .ok bytes ↔
      Text.trim Text.isBlank text.toList = (encodeToken bytes).toList := by
  constructor
  · intro h
    have hutf8 := (Base64.decode_eq_ok_iff _ bytes).1 h
    have hascii : ∀ c ∈ Text.trim Text.isBlank text.toList, c.toNat < 128 := by
      apply Text.ascii_of_utf8
      rw [hutf8]
      exact encode_ascii bytes
    rw [toList_encodeToken, ← hutf8, Text.map_charOfByte_utf8 hascii]
  · intro h
    unfold decodeToken
    rw [h, toList_encodeToken, Text.utf8_map_charOfByte (encode_ascii bytes), Base64.decode_encode]

/-- Reading is the inverse of writing, up to blanks around the text. A text that is read has the one
form that is written for its bytes, and every other text is refused as a malformed challenge. -/
theorem decodeToken_reads_canonical (text : String) :
    (∀ bytes, decodeToken text = .ok bytes ↔
        Text.trim Text.isBlank text.toList = (encodeToken bytes).toList) ∧
      (∀ bytes, decodeToken (encodeToken bytes) = .ok bytes) ∧
      (∀ other bytes, decodeToken text = .ok bytes → decodeToken other = .ok bytes →
        Text.trim Text.isBlank text.toList = Text.trim Text.isBlank other.toList) ∧
      ((∀ bytes, Text.trim Text.isBlank text.toList ≠ (encodeToken bytes).toList) ↔
        ∃ cause, (decodeToken text).mapError AuthError.malformedChallenge =
          .error (.malformedChallenge cause)) := by
  have hread := decodeToken_eq_ok_iff text
  refine ⟨hread, decodeToken_encodeToken, ?_, ?_⟩
  · intro other bytes htext hother
    rw [(hread bytes).1 htext, (decodeToken_eq_ok_iff other bytes).1 hother]
  · cases h : decodeToken text with
    | ok bytes =>
        constructor
        · intro hnone
          exact absurd ((hread bytes).1 h) (hnone bytes)
        · rintro ⟨cause, hcause⟩
          cases hcause
    | error cause =>
        constructor
        · intro hnone
          exact ⟨cause, rfl⟩
        · intro hcause bytes hbytes
          rw [(hread bytes).2 hbytes] at h
          cases h

namespace Answer

def text (token : List UInt8) : String :=
  s!"{schemeName} {encodeToken token}"

/-- The field value that answers with a token, kept out of diagnostics. -/
def fieldValue (token : List UInt8) : Http.FieldValue :=
  ⟨Text.utf8 (text token).toList, true⟩

section

variable (token : List UInt8)

theorem toList_text :
    (text token).toList = schemeName.toList ++ ' ' :: (encodeToken token).toList := by
  simp [text, ToString.toString]

theorem text_readable : ∀ c ∈ (text token).toList, 32 ≤ c.toNat ∧ c.toNat < 127 := by
  have hscheme : schemeName.toList.all (fun c => 32 ≤ c.toNat ∧ c.toNat < 127) = true := by
    decide +kernel
  rw [toList_text]
  intro c hc
  rcases List.mem_append.1 hc with hc | hc
  · exact of_decide_eq_true (List.all_eq_true.1 hscheme c hc)
  · rcases List.mem_cons.1 hc with rfl | hc
    · decide
    · have hvisible := encodeToken_visible token c hc
      omega

theorem text_ascii : ∀ c ∈ (text token).toList, c.toNat < 128 := by
  intro c hc
  have hreadable := text_readable token c hc
  omega

theorem fieldValue_readable : (fieldValue token).bytes.all Http.FieldValue.isReadable = true := by
  rw [List.all_eq_true]
  intro byte hbyte
  have hreadable := text_readable token _ (Text.charOfByte_mem (text_ascii token) hbyte)
  rw [Text.toNat_charOfByte] at hreadable
  have hlow : 32 ≤ byte := UInt8.le_iff_toNat_le.2 hreadable.1
  have hhigh : byte < 127 := UInt8.lt_iff_toNat_lt.2 hreadable.2
  simp only [Http.FieldValue.isReadable, hlow, hhigh, decide_true, Bool.and_self, Bool.or_true]

/-- A challenge can be answered with any token. -/
theorem negotiate_eq_ok (peer : Peer) :
    negotiate peer token = .ok ⟨peer.answerField, fieldValue token⟩ := by
  have hvalid : (Text.utf8 (text token).toList).all Http.FieldValue.isValid = true := by
    rw [List.all_eq_true]
    intro byte hbyte
    exact Http.FieldValue.isValid_of_isReadable
      (List.all_eq_true.1 (fieldValue_readable token) byte hbyte)
  unfold negotiate
  rw [← text, Http.FieldValue.ofText, Http.FieldValue.ofBytes, if_pos hvalid]
  rfl

theorem text?_fieldValue : (fieldValue token).text? = some (text token) := by
  rw [Http.FieldValue.text?, if_pos (fieldValue_readable token), fieldValue,
    Text.ofBytes_utf8 (text_ascii token)]

end

end Answer

/-! ## Challenges -/

namespace Challenge

theorem namesScheme_ne_nil {scheme : List Char} (h : namesScheme scheme = true) : scheme ≠ [] := by
  rintro rfl
  exact absurd h (by decide +kernel)

theorem namesScheme_not_blank {scheme : List Char} (h : namesScheme scheme = true) :
    ∀ c ∈ scheme, Text.isBlank c = false := by
  have hname : (schemeName.toList.map Char.toLower).all (!Text.isBlank ·) = true := by
    decide +kernel
  rw [← eq_of_beq h, List.all_eq_true] at hname
  intro c hc
  have hlower := hname c.toLower (List.mem_map_of_mem hc)
  rwa [Text.isBlank_toLower, Bool.not_eq_true'] at hlower

/-- No sign is a part of the name of the scheme. -/
theorem notMem_of_namesScheme {scheme : List Char} (h : namesScheme scheme = true) {c : Char}
    (hc : c.toLower ∉ schemeName.toList.map Char.toLower) : c ∉ scheme := by
  intro hmem
  apply hc
  rw [← eq_of_beq h]
  exact List.mem_map_of_mem hmem

theorem ofChars_trimEnd (cs : List Char) : ofChars (Text.trimEnd Text.isBlank cs) = ofChars cs := by
  unfold ofChars
  rw [Text.trim_trimEnd]

/-- A text is read by its first word alone, whatever blanks stand before it. -/
theorem parseChars?_word {lead word rest : List Char}
    (hlead : ∀ c ∈ lead, Text.isBlank c = true) (hne : word ≠ [])
    (hword : ∀ c ∈ word, Text.isBlank c = false) (hrest : ∀ c ∈ rest.head?, Text.isBlank c = true) :
    parseChars? (lead ++ (word ++ rest)) =
      if namesScheme word then some (ofChars rest) else none := by
  have htrim : Text.trim Text.isBlank (lead ++ (word ++ rest)) =
      word ++ Text.trimEnd Text.isBlank rest := by
    rw [Text.trim_of_all_append hlead, Text.trim_word_append hne hword]
  have htake : (word ++ Text.trimEnd Text.isBlank rest).takeWhile (!Text.isBlank ·) = word :=
    Text.takeWhile_word hword fun c hc => hrest c (Text.mem_head?_trimEnd hc)
  unfold parseChars?
  dsimp only
  rw [htrim, htake, List.drop_left, ofChars_trimEnd]

theorem parseChars?_of_scheme {lead scheme rest : List Char}
    (hlead : ∀ c ∈ lead, Text.isBlank c = true) (hscheme : namesScheme scheme = true)
    (hrest : ∀ c ∈ rest.head?, Text.isBlank c = true) :
    parseChars? (lead ++ (scheme ++ rest)) = some (ofChars rest) := by
  rw [parseChars?_word hlead (namesScheme_ne_nil hscheme) (namesScheme_not_blank hscheme) hrest,
    if_pos hscheme]

theorem parseChars?_blanks_append {blanks : List Char} (h : ∀ c ∈ blanks, Text.isBlank c = true)
    (cs : List Char) : parseChars? (blanks ++ cs) = parseChars? cs := by
  unfold parseChars?
  rw [Text.trim_of_all_append h]

theorem parseChars?_append_blanks {blanks : List Char} (h : ∀ c ∈ blanks, Text.isBlank c = true)
    (cs : List Char) : parseChars? (cs ++ blanks) = parseChars? cs := by
  unfold parseChars?
  rw [Text.trim_append_of_all h]

/-- The text starts, after any blanks, with the name of the scheme, set off from what follows. -/
def OpensChallenge (cs : List Char) : Prop :=
  ∃ lead scheme rest : List Char, cs = lead ++ (scheme ++ rest) ∧
    (∀ c ∈ lead, Text.isBlank c = true) ∧ namesScheme scheme = true ∧
    ∀ c ∈ rest.head?, Text.isBlank c = true

theorem parseChars?_isSome_iff (cs : List Char) :
    (parseChars? cs).isSome = true ↔ OpensChallenge cs := by
  constructor
  · intro h
    obtain ⟨lead, trail, hsplit, hlead, htrail⟩ := Text.trim_split Text.isBlank cs
    have hscheme :
        namesScheme ((Text.trim Text.isBlank cs).takeWhile (!Text.isBlank ·)) = true := by
      unfold parseChars? at h
      dsimp only at h
      split at h
      case isTrue hnames => exact hnames
      case isFalse hnames => cases h
    refine ⟨lead, _, (Text.trim Text.isBlank cs).dropWhile (!Text.isBlank ·) ++ trail, ?_, hlead,
      hscheme, ?_⟩
    · rw [← List.append_assoc, ← List.append_assoc, List.append_assoc lead,
        List.takeWhile_append_dropWhile, List.append_assoc, ← hsplit]
    · have hdrop := List.head?_dropWhile_not (!Text.isBlank ·) (Text.trim Text.isBlank cs)
      intro c hc
      cases hrest : (Text.trim Text.isBlank cs).dropWhile (!Text.isBlank ·) with
      | nil =>
          rw [hrest, List.nil_append] at hc
          exact htrail c (List.mem_of_mem_head? hc)
      | cons first more =>
          rw [hrest] at hc hdrop
          obtain rfl : first = c := by simpa using hc
          simpa using hdrop
  · rintro ⟨lead, scheme, rest, rfl, hlead, hscheme, hrest⟩
    rw [parseChars?_of_scheme hlead hscheme hrest]
    rfl

theorem ofChars_word {lead word trail : List Char} (hlead : ∀ c ∈ lead, Text.isBlank c = true)
    (hne : word ≠ []) (hword : ∀ c ∈ word, Text.isBlank c = false)
    (htrail : ∀ c ∈ trail, Text.isBlank c = true) :
    ofChars (lead ++ (word ++ trail)) = ⟨some (String.ofList word)⟩ := by
  have htrim : Text.trim Text.isBlank (lead ++ (word ++ trail)) = word := by
    rw [Text.trim_of_all_append hlead, Text.trim_append_of_all htrail, Text.trim_word hword]
  unfold ofChars
  dsimp only
  rw [htrim, List.isEmpty_eq_false_iff.2 hne]
  rfl

theorem ofChars_blanks {blanks : List Char} (h : ∀ c ∈ blanks, Text.isBlank c = true) :
    ofChars blanks = ⟨none⟩ := by
  have htrim := Text.trim_of_all_append h []
  rw [List.append_nil] at htrim
  unfold ofChars
  rw [htrim]
  rfl

/-- What stands for a token in a challenge may have blanks on either side. -/
theorem decode_ofChars {lead trail : List Char} (hlead : ∀ c ∈ lead, Text.isBlank c = true)
    (htrail : ∀ c ∈ trail, Text.isBlank c = true) (token : List UInt8) :
    (ofChars (lead ++ ((encodeToken token).toList ++ trail))).decode = .ok token := by
  by_cases htoken : token = []
  · subst htoken
    have hblanks : ∀ c ∈ lead ++ trail, Text.isBlank c = true := by
      intro c hc
      exact (List.mem_append.1 hc).elim (hlead c) (htrail c)
    rw [show (encodeToken []).toList = [] from rfl, List.nil_append, ofChars_blanks hblanks]
    rfl
  · have hne : (encodeToken token).toList ≠ [] :=
      fun hnil => htoken ((encodeToken_eq_nil_iff token).1 hnil)
    rw [ofChars_word hlead hne (encodeToken_not_blank token) htrail, String.ofList_toList]
    exact decodeToken_encodeToken token

/-- A piece of a field value that offers a token: the name of the scheme in some case, then the text
of the token set off by spaces or tabs, with spaces or tabs around them. For the empty token the
name alone will do. -/
def OffersToken (piece : List Char) (token : List UInt8) : Prop :=
  ∃ lead scheme gap trail : List Char,
    piece = lead ++ (scheme ++ (gap ++ ((encodeToken token).toList ++ trail))) ∧
      scheme.map Char.toLower = "negotiate".toList ∧
      (∀ c ∈ lead ++ gap ++ trail, c = ' ' ∨ c = '\t') ∧ (gap = [] → token = [])

theorem parseChars?_of_offersToken {piece : List Char} {token : List UInt8}
    (h : OffersToken piece token) :
    ∃ challenge, parseChars? piece = some challenge ∧ challenge.decode = .ok token := by
  obtain ⟨lead, scheme, gap, trail, rfl, hscheme, hblanks, hgap⟩ := h
  have hblank : ∀ c ∈ lead ++ gap ++ trail, Text.isBlank c = true := by
    intro c hc
    rcases hblanks c hc with rfl | rfl <;> rfl
  have hlead : ∀ c ∈ lead, Text.isBlank c = true := fun c hc => hblank c (by simp [hc])
  have hset : ∀ c ∈ gap, Text.isBlank c = true := fun c hc => hblank c (by simp [hc])
  have htrail : ∀ c ∈ trail, Text.isBlank c = true := fun c hc => hblank c (by simp [hc])
  have hnames : namesScheme scheme = true := by
    rw [namesScheme, hscheme]
    decide +kernel
  refine ⟨_, parseChars?_of_scheme hlead hnames ?_, decode_ofChars hset htrail token⟩
  by_cases hnil : gap = []
  · obtain rfl := hgap hnil
    subst hnil
    exact fun c hc => htrail c (List.mem_of_mem_head? hc)
  · exact Text.head?_append_of_ne_nil hnil hset _

theorem ofFields?_of_find? {peer : Peer} {fields : Http.FieldMap} {piece : List Char}
    (h : (offers peer fields).find? (fun piece => (parseChars? piece).isSome) = some piece) :
    ofFields? peer fields = parseChars? piece := by
  obtain ⟨hpiece, before, after, hoffers, hbefore⟩ := List.find?_eq_some_iff_append.1 h
  obtain ⟨challenge, hchallenge⟩ := Option.isSome_iff_exists.1 hpiece
  have hskip : before.findSome? parseChars? = none := by
    rw [List.findSome?_eq_none_iff]
    intro other hother
    simpa using hbefore other hother
  unfold ofFields?
  rw [hoffers, List.findSome?_append, hskip, List.findSome?_cons, hchallenge]
  rfl

end Challenge

theorem Answer.text_offersToken (token : List UInt8) :
    Challenge.OffersToken (Answer.text token).toList token := by
  refine ⟨[], schemeName.toList, [' '], [], ?_, by decide +kernel, by simp, by simp⟩
  rw [Answer.toList_text, List.append_nil]
  rfl

/-! ## The value that answers -/

def IsBase64Char (c : Char) : Prop :=
  c.isAlphanum = true ∨ c = '+' ∨ c = '/' ∨ c = '='

section

variable (token : List UInt8)

theorem encodeToken_length :
    (encodeToken token).length = 4 * ((token.length + 2) / 3) := by
  rw [← String.length_toList, toList_encodeToken, List.length_map, Base64.encode_length]

theorem isBase64Char_symbol (value : Fin 64) :
    IsBase64Char (Text.charOfByte (Base64.symbol value)) := by
  unfold IsBase64Char
  revert value
  decide +kernel

theorem encodeToken_isBase64Char : ∀ c ∈ (encodeToken token).toList, IsBase64Char c := by
  rw [toList_encodeToken]
  intro c hc
  obtain ⟨byte, hbyte, rfl⟩ := List.mem_map.1 hc
  exact Base64.forall_mem_encode (P := fun byte => IsBase64Char (Text.charOfByte byte))
    isBase64Char_symbol (Or.inr (Or.inr (Or.inr rfl))) token byte hbyte

namespace Answer

/-- The value hands the token over in this text. -/
structure Carries (token : List UInt8) (value : Http.FieldValue) (text : String) : Prop where
  sensitive : value.sensitive = true
  written : value.bytes = Text.utf8 text.toList
  readable : value.text? = some text
  groups : ∃ symbols, text = "Negotiate " ++ symbols ∧
    symbols.length = 4 * ((token.length + 2) / 3) ∧ ∀ c ∈ symbols.toList, IsBase64Char c
  visible : ∀ byte ∈ value.bytes,
    byte = 32 ∨ (33 ≤ byte.toNat ∧ byte.toNat < 127 ∧ byte ≠ 44)
  oneSpace : value.bytes.count 32 = 1
  parsed : ∃ challenge, Challenge.parse? text = some challenge ∧ challenge.decode = .ok token
  /-- A peer that is sent nothing but the value is offered the token. -/
  offered : ∀ peer fields, Http.FieldMap.values fields (Peer.challengeField peer) = [value] →
    ∃ challenge, Challenge.ofFields? peer fields = some challenge ∧ challenge.decode = .ok token

theorem bytes_fieldValue :
    (fieldValue token).bytes = Text.utf8 "Negotiate ".toList ++ Base64.encode token := by
  have hscheme : Text.utf8 (schemeName.toList ++ [' ']) = Text.utf8 "Negotiate ".toList := by
    decide +kernel
  rw [fieldValue, toList_text, List.append_cons, Text.utf8_append, hscheme, toList_encodeToken,
    Text.utf8_map_charOfByte (encode_ascii token)]

theorem fieldValue_visible : ∀ byte ∈ (fieldValue token).bytes,
    byte = 32 ∨ (33 ≤ byte.toNat ∧ byte.toNat < 127 ∧ byte ≠ 44) := by
  have hscheme : ∀ byte ∈ Text.utf8 "Negotiate ".toList,
      byte = 32 ∨ (33 ≤ byte.toNat ∧ byte.toNat < 127 ∧ byte ≠ 44) := by
    decide +kernel
  rw [bytes_fieldValue]
  intro byte hbyte
  rcases List.mem_append.1 hbyte with hbyte | hbyte
  · exact hscheme byte hbyte
  · exact Or.inr (Base64.encode_visible token byte hbyte)

theorem count_fieldValue : (fieldValue token).bytes.count 32 = 1 := by
  have hscheme : (Text.utf8 "Negotiate ".toList).count 32 = 1 := by decide +kernel
  have hencoded : (Base64.encode token).count 32 = 0 := by
    rw [List.count_eq_zero]
    intro hspace
    have hvisible := Base64.encode_visible token 32 hspace
    exact absurd hvisible.1 (by decide)
  rw [bytes_fieldValue, List.count_append, hscheme, hencoded]

theorem comma_notMem_text : ',' ∉ (text token).toList := by
  rw [toList_text]
  intro hcomma
  rcases List.mem_append.1 hcomma with hscheme | hencoded
  · exact absurd hscheme (by decide +kernel)
  · rcases List.mem_cons.1 hencoded with hspace | hencoded
    · exact absurd hspace (by decide)
    · rcases encodeToken_isBase64Char token ',' hencoded with h | h | h | h <;>
        exact absurd h (by decide)

theorem ofFields?_of_values_eq {peer : Peer} {fields : Http.FieldMap}
    (h : fields.values peer.challengeField = [fieldValue token]) :
    Challenge.ofFields? peer fields = Challenge.parse? (text token) := by
  have hoffers : Challenge.offers peer fields = [(text token).toList] := by
    simp [Challenge.offers, h, text?_fieldValue, Text.pieces_of_notMem (comma_notMem_text token)]
  unfold Challenge.ofFields?
  rw [hoffers]
  simp [Challenge.parse?]

theorem text_eq : text token = "Negotiate " ++ encodeToken token := by
  rw [← String.toList_inj, toList_text, String.toList_append]
  rfl

theorem carries_fieldValue : Carries token (fieldValue token) (text token) := by
  have hparse := Challenge.parseChars?_of_offersToken (text_offersToken token)
  exact
    { sensitive := rfl
      written := rfl
      readable := text?_fieldValue token
      groups := ⟨_, text_eq token, encodeToken_length token, encodeToken_isBase64Char token⟩
      visible := fieldValue_visible token
      oneSpace := count_fieldValue token
      parsed := hparse
      offered := by
        intro peer fields h
        rw [ofFields?_of_values_eq token h]
        exact hparse }

end Answer

end

end NegotiateAuth
