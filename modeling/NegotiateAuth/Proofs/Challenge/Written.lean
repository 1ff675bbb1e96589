import NegotiateAuth.Proofs.Challenge.Reading

/-! # How a challenge is written

The texts that are challenges are described apart from the reader: blanks, the name of the scheme in
any case, and perhaps more blanks and any text. The reader takes these texts and no others. However
a challenge is come by, its token has no blanks around it and is not empty.
-/

namespace NegotiateAuth

/-! ## Texts -/

namespace Challenge

theorem schemeName_isAlpha : ∀ c ∈ schemeName.toList, c.isAlpha = true :=
  List.all_eq_true.1 (by decide +kernel)

theorem namesScheme_iff {cs : List Char} :
    namesScheme cs = true ↔ Text.InAnyCase schemeName.toList cs := by
  rw [namesScheme, beq_iff_eq, Text.map_toLower_eq_iff schemeName_isAlpha]

/-- The texts that are challenges, and the challenges that they are. -/
inductive Written : List Char → Challenge → Prop where
  | bare {lead scheme : List Char} (blank : ∀ c ∈ lead, Text.isBlank c = true)
      (named : Text.InAnyCase schemeName.toList scheme) : Written (lead ++ scheme) ⟨none⟩
  | followed {lead scheme gap : List Char} (text : String)
      (blank : ∀ c ∈ lead, Text.isBlank c = true)
      (named : Text.InAnyCase schemeName.toList scheme) (apart : gap ≠ [])
      (gapBlank : ∀ c ∈ gap, Text.isBlank c = true) :
      Written (lead ++ (scheme ++ (gap ++ text.toList))) (ofText text)

theorem ofChars_blanks_append {blanks : List Char} (h : ∀ c ∈ blanks, Text.isBlank c = true)
    (cs : List Char) : ofChars (blanks ++ cs) = ofChars cs := by
  unfold ofChars
  rw [Text.trim_of_all_append h]

theorem parseChars?_of_written {cs : List Char} {challenge : Challenge}
    (h : Written cs challenge) : parseChars? cs = some challenge := by
  cases h with
  | @bare lead scheme blank named =>
      have hrest : ∀ c ∈ ([] : List Char).head?, Text.isBlank c = true := by simp
      have hparse := parseChars?_of_scheme blank (namesScheme_iff.2 named) hrest
      rwa [List.append_nil] at hparse
  | @followed lead scheme gap text blank named apart gapBlank =>
      have hrest := Text.head?_append_of_ne_nil apart gapBlank text.toList
      rw [parseChars?_of_scheme blank (namesScheme_iff.2 named) hrest,
        ofChars_blanks_append gapBlank, ofText]

/-- What follows the name of the scheme starts with the blanks that set it off. -/
theorem written_of_opensChallenge {cs : List Char} (h : OpensChallenge cs) :
    ∃ challenge, Written cs challenge := by
  obtain ⟨lead, scheme, rest, rfl, hlead, hscheme, hrest⟩ := h
  have named := namesScheme_iff.1 hscheme
  cases rest with
  | nil =>
      rw [List.append_nil]
      exact ⟨_, .bare hlead named⟩
  | cons first more =>
      have hgap : ∀ c ∈ [first], Text.isBlank c = true := by
        intro c hc
        obtain rfl := List.mem_singleton.1 hc
        exact hrest c rfl
      have hwritten := Written.followed (String.ofList more) hlead named (List.cons_ne_nil _ _) hgap
      rw [String.toList_ofList] at hwritten
      exact ⟨_, hwritten⟩

theorem parse?_eq_some_iff {value : String} {challenge : Challenge} :
    parse? value = some challenge ↔ Written value.toList challenge := by
  constructor
  · intro h
    have hopens := (parseChars?_isSome_iff value.toList).1 (Option.isSome_of_eq_some h)
    obtain ⟨other, hwritten⟩ := written_of_opensChallenge hopens
    have hother := parseChars?_of_written hwritten
    rw [parse?, hother] at h
    rwa [Option.some.inj h] at hwritten
  · exact parseChars?_of_written

/-- A text is no challenge if its first word is too short or too long, or has more than letters. -/
theorem parseChars?_of_other_word {lead word rest : List Char}
    (hlead : ∀ c ∈ lead, Text.isBlank c = true) (hne : word ≠ [])
    (hword : ∀ c ∈ word, Text.isBlank c = false) (hrest : ∀ c ∈ rest.head?, Text.isBlank c = true)
    (other : word.length ≠ schemeName.length ∨ ∃ c ∈ word, c.isAlpha = false) :
    parseChars? (lead ++ (word ++ rest)) = none := by
  have hnames : ¬ namesScheme word = true := by
    intro hnames
    obtain ⟨hlength, halpha⟩ := (namesScheme_iff.1 hnames).letters schemeName_isAlpha
    rcases other with hother | ⟨c, hc, hother⟩
    · exact hother hlength
    · exact absurd (halpha c hc) (Bool.eq_false_iff.1 hother)
  rw [parseChars?_word hlead hne hword hrest, if_neg hnames]

def ofParts? (parts : List Char × List Char) : Option Challenge :=
  if namesScheme parts.1 then some (ofChars parts.2) else none

/-- Reads a challenge by slices at the offset of the first blank; none where it cannot be sliced. -/
def parseSliced? (value : String) : Option (Option Challenge) :=
  let trimmed := Text.trim Text.isBlank value.toList
  match Text.offset? Text.isBlank trimmed with
  | some offset => (Text.sliceAt? trimmed offset).map ofParts?
  | none => some (ofParts? (trimmed, []))

theorem parse?_eq_ofParts? (value : String) :
    let trimmed := Text.trim Text.isBlank value.toList
    let scheme := trimmed.takeWhile (!Text.isBlank ·)
    parse? value = ofParts? (scheme, trimmed.drop scheme.length) :=
  rfl

/-- A challenge is read by slices that are never inside of a character. -/
theorem parseSliced?_eq (value : String) : parseSliced? value = some (parse? value) := by
  rw [parse?_eq_ofParts?, parseSliced?]
  cases h : Text.offset? Text.isBlank (Text.trim Text.isBlank value.toList) with
  | some offset => simp only [Text.sliceAt?_of_offset? h, Option.map_some]
  | none => simp only [Text.takeWhile_of_offset?_eq_none h, List.drop_length]

/-- A text is read as a challenge if and only if it is written as one, and read as that challenge.
What stands behind the blanks after the name of the scheme is the text of the token, whichever
blanks these are; a first word that is longer than the name, or has a character that is no ASCII
letter, names another scheme. -/
theorem parse?_reads_written :
    (∀ value challenge, parse? value = some challenge ↔ Written value.toList challenge) ∧
      (∀ (lead scheme gap : List Char) (text : String),
        (∀ c ∈ lead, Text.isBlank c = true) → Text.InAnyCase schemeName.toList scheme →
          gap ≠ [] → (∀ c ∈ gap, Text.isBlank c = true) →
            parse? (String.ofList (lead ++ (scheme ++ gap)) ++ text) = some (ofText text)) ∧
      (∀ text : String, (∀ c ∈ text.toList, Text.isBlank c = true) → ofText text = ⟨none⟩) ∧
      (∀ lead word rest : List Char,
        (∀ c ∈ lead, Text.isBlank c = true) → word ≠ [] →
          (∀ c ∈ word, Text.isBlank c = false) → (∀ c ∈ rest.head?, Text.isBlank c = true) →
            (word.length ≠ schemeName.length ∨ ∃ c ∈ word, c.isAlpha = false) →
              parse? (String.ofList (lead ++ (word ++ rest))) = none) ∧
      ∀ value, parseSliced? value = some (parse? value) := by
  refine ⟨fun value challenge => parse?_eq_some_iff, ?_, fun text => ofChars_blanks, ?_,
    parseSliced?_eq⟩
  · intro lead scheme gap text blank named apart gapBlank
    rw [parse?_eq_some_iff, String.toList_append, String.toList_ofList, List.append_assoc,
      List.append_assoc]
    exact .followed text blank named apart gapBlank
  · intro lead word rest hlead hne hword hrest other
    rw [parse?, String.toList_ofList]
    exact parseChars?_of_other_word hlead hne hword hrest other

theorem parse?_reads_written_ideographicSpace :
    parse? (String.ofList (['\u3000'] ++ ("nEgOtIaTe".toList ++ ['\u2028'])) ++ "YII") =
        some (ofText "YII") ∧
      ofText "\u00a0 " = ⟨none⟩ ∧
      parse? (String.ofList "Negotiated now".toList) = none ∧
      parse? (String.ofList "Negot\u0131ate".toList) = none := by
  obtain ⟨-, hfollowed, hblanks, hother, -⟩ := parse?_reads_written
  have hnames : Text.InAnyCase schemeName.toList "nEgOtIaTe".toList :=
    namesScheme_iff.1 (by decide +kernel)
  have hlonger : ∀ c ∈ "Negotiated".toList, Text.isBlank c = false := by
    simpa using (by decide +kernel : "Negotiated".toList.any Text.isBlank = false)
  have halike : ∀ c ∈ "Negot\u0131ate".toList, Text.isBlank c = false := by
    simpa using (by decide +kernel : "Negot\u0131ate".toList.any Text.isBlank = false)
  refine ⟨?_, ?_, ?_, ?_⟩
  · exact hfollowed ['\u3000'] _ ['\u2028'] "YII" (List.all_eq_true.1 rfl) hnames
      (List.cons_ne_nil _ _) (List.all_eq_true.1 rfl)
  · exact hblanks _ (List.all_eq_true.1 rfl)
  · exact hother [] "Negotiated".toList " now".toList (List.forall_mem_nil _) (by decide +kernel)
      hlonger (by rintro _ ⟨⟩; rfl) (.inl (by decide +kernel))
  · exact hother [] "Negot\u0131ate".toList [] (List.forall_mem_nil _) (by decide +kernel) halike
      (by simp) (.inr ⟨'\u0131', by decide +kernel, by decide +kernel⟩)

/-! ## The form of a challenge -/

inductive Obtained : Challenge → Prop where
  | ofText (text : String) : Obtained (ofText text)
  | parsed {value : String} {challenge : Challenge} (read : parse? value = some challenge) :
      Obtained challenge
  | found {peer : Peer} {fields : Http.FieldMap} {challenge : Challenge}
      (read : ofFields? peer fields = some challenge) : Obtained challenge

/-- The token, if there is one, is not empty, and there are no blanks around it. -/
def Normal (challenge : Challenge) : Prop :=
  ∀ token, challenge.token = some token → token ≠ "" ∧ Text.IsTrimmed Text.isBlank token.toList

theorem ofChars_of_parseChars? {cs : List Char} {challenge : Challenge}
    (h : parseChars? cs = some challenge) : ∃ token, challenge = ofChars token := by
  unfold parseChars? at h
  dsimp only at h
  split at h
  case isTrue => exact ⟨_, (Option.some.inj h).symm⟩
  case isFalse => cases h

theorem Obtained.ofChars {challenge : Challenge} (h : Obtained challenge) :
    ∃ token, challenge = ofChars token := by
  cases h with
  | ofText text => exact ⟨text.toList, rfl⟩
  | parsed read => exact ofChars_of_parseChars? read
  | found read =>
      obtain ⟨piece, -, hpiece⟩ := List.exists_of_findSome?_eq_some read
      exact ofChars_of_parseChars? hpiece

section

variable (cs : List Char)

/-- The text of the token, which is empty for a bare challenge. -/
theorem getD_token_ofChars :
    (ofChars cs).token.getD "" = String.ofList (Text.trim Text.isBlank cs) := by
  unfold Challenge.ofChars
  cases Text.trim Text.isBlank cs with
  | nil => rfl
  | cons first rest => rfl

theorem ofChars_trim : ofChars (Text.trim Text.isBlank cs) = ofChars cs := by
  unfold Challenge.ofChars
  rw [Text.trim_trim]

theorem ofText_getD_token : ofText ((ofChars cs).token.getD "") = ofChars cs := by
  rw [getD_token_ofChars, ofText, String.toList_ofList, ofChars_trim]

theorem normal_ofChars : (ofChars cs).Normal := by
  intro token htoken
  have htrimmed := Text.trim_isTrimmed Text.isBlank cs
  unfold Challenge.ofChars at htoken
  cases htrim : Text.trim Text.isBlank cs with
  | nil =>
      rw [htrim] at htoken
      cases htoken
  | cons first rest =>
      rw [htrim] at htoken htrimmed
      obtain rfl : String.ofList (first :: rest) = token := Option.some.inj htoken
      rw [String.toList_ofList]
      exact ⟨by simp, htrimmed⟩

end

/-- Two texts make one challenge exactly if they differ in the blanks around them alone. -/
theorem ofText_eq_iff (text other : String) : ofText text = ofText other ↔
    Text.trim Text.isBlank text.toList = Text.trim Text.isBlank other.toList := by
  constructor
  · intro h
    have htoken := congrArg (fun challenge : Challenge => challenge.token.getD "") h
    dsimp only [ofText] at htoken
    rwa [getD_token_ofChars, getD_token_ofChars, String.ofList_inj] at htoken
  · intro h
    rw [ofText, ← ofChars_trim, h, ofChars_trim, ofText]

theorem decodeToken_congr {text other : String}
    (h : Text.trim Text.isBlank text.toList = Text.trim Text.isBlank other.toList) :
    decodeToken text = decodeToken other := by
  unfold decodeToken
  rw [h]

theorem decode_eq_decodeToken (challenge : Challenge) :
    challenge.decode = decodeToken (challenge.token.getD "") := by
  obtain ⟨_ | token⟩ := challenge
  · rfl
  · rfl

/-- A text is decoded as the challenge that is made of it. -/
theorem decode_ofText (text : String) : (ofText text).decode = decodeToken text := by
  rw [decode_eq_decodeToken, ofText, getD_token_ofChars]
  apply decodeToken_congr
  rw [String.toList_ofList, Text.trim_trim]

section

variable {lead scheme blanks : List Char} (hlead : ∀ c ∈ lead, Text.isBlank c = true)
  (named : Text.InAnyCase schemeName.toList scheme) (hblanks : ∀ c ∈ blanks, Text.isBlank c = true)

include hlead named hblanks

/-- Blanks alone behind the name of the scheme are no token. -/
theorem parseChars?_of_blanks : parseChars? (lead ++ (scheme ++ blanks)) = some ⟨none⟩ := by
  rw [parseChars?_of_scheme hlead (namesScheme_iff.2 named)
    fun c hc => hblanks c (List.mem_of_mem_head? hc), ofChars_blanks hblanks]

end

/-- A challenge is kept in one form, however it is come by: made again of its token, it is the same.
A text gives the same bytes, or the same fault at the same place of what is left of it without the
blanks around it, whether it is decoded as it is or kept in a challenge first; texts that differ in
these blanks alone come to the same, and a text of nothing but blanks is no token, wherever it
stands. -/
theorem obtained_normal :
    (∀ challenge, Obtained challenge →
        challenge.Normal ∧ ofText (challenge.token.getD "") = challenge) ∧
      (∀ text, (ofText text).decode = decodeToken text) ∧
      (∀ text fault, decodeToken text = .error fault →
        fault.LocatedIn 0 (Text.utf8 (Text.trim Text.isBlank text.toList))) ∧
      (∀ text other : String,
        (ofText text = ofText other ↔
          Text.trim Text.isBlank text.toList = Text.trim Text.isBlank other.toList) ∧
        (ofText text = ofText other → decodeToken text = decodeToken other)) ∧
      ∀ blanks : String, (∀ c ∈ blanks.toList, Text.isBlank c = true) →
        ofText blanks = ⟨none⟩ ∧ decodeToken blanks = (⟨none⟩ : Challenge).decode ∧
          ∀ lead scheme : List Char, (∀ c ∈ lead, Text.isBlank c = true) →
            Text.InAnyCase schemeName.toList scheme →
              parse? (String.ofList (lead ++ scheme) ++ blanks) = some ⟨none⟩ ∧
              ∀ peer fields, (offers peer fields).find? (fun piece => (parseChars? piece).isSome) =
                  some (lead ++ (scheme ++ blanks.toList)) →
                ofFields? peer fields = some ⟨none⟩ := by
  refine ⟨?_, decode_ofText, fun text fault => Base64.decode_fault, ?_, ?_⟩
  · intro challenge obtained
    obtain ⟨token, rfl⟩ := obtained.ofChars
    exact ⟨normal_ofChars token, ofText_getD_token token⟩
  · intro text other
    exact ⟨ofText_eq_iff text other,
      fun same => decodeToken_congr ((ofText_eq_iff text other).1 same)⟩
  · intro blanks hblanks
    have hbare : ofText blanks = ⟨none⟩ := ofChars_blanks hblanks
    refine ⟨hbare, ?_, ?_⟩
    · rw [← decode_ofText, hbare]
    · intro lead scheme hlead named
      have hread := parseChars?_of_blanks hlead named hblanks
      constructor
      · rw [parse?, String.toList_append, String.toList_ofList, List.append_assoc, hread]
      · intro peer fields first
        rw [ofFields?_of_find? first, hread]

theorem obtained_normal_spaced :
    (⟨some "AQI="⟩ : Challenge).Normal ∧ ofText "AQI=" = ⟨some "AQI="⟩ ∧
      (Base64.DecodeError.invalidByte 1 42).LocatedIn 0 (Text.utf8 "A*==".toList) ∧
      decodeToken "\u2028 A*==" = decodeToken "A*==\u00a0" ∧
      parse? (String.ofList ("\t".toList ++ "negotiate".toList) ++ "\u3000 ") = some ⟨none⟩ ∧
      ofFields? .proxy ⟨[(.proxyAuthenticate, ⟨Text.utf8 "Basic,\tnegotiate \t".toList, false⟩)]⟩ =
        some ⟨none⟩ := by
  obtain ⟨hform, -, hfault, hsame, hblanks⟩ := obtained_normal
  have obtained : Obtained ⟨some "AQI="⟩ :=
    .parsed (show parse? "\u3000negotiate\u00a0 AQI=\u2028" = _ by decide +kernel)
  have hlead : ∀ c ∈ "\t".toList, Text.isBlank c = true := List.all_eq_true.1 (by decide +kernel)
  have named : Text.InAnyCase schemeName.toList "negotiate".toList :=
    namesScheme_iff.1 (by decide +kernel)
  obtain ⟨-, -, hwide⟩ := hblanks "\u3000 " (List.all_eq_true.1 (by decide +kernel))
  obtain ⟨-, -, hplain⟩ := hblanks " \t" (List.all_eq_true.1 (by decide +kernel))
  refine ⟨(hform _ obtained).1, (hform _ obtained).2, ?_, ?_, (hwide _ _ hlead named).1,
    (hplain _ _ hlead named).2 _ _ (by decide +kernel)⟩
  · exact hfault " A*==\u3000" _ (by decide +kernel)
  · exact (hsame _ _).2 ((hsame _ _).1.2 (by decide +kernel))

end Challenge

end NegotiateAuth
