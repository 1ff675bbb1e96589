import NegotiateAuth.Proofs.Challenge.Fields

/-! # Lists of challenges

What the value of a challenge field may say, as a syntax tree that carries its own well-formedness:
challenges set off by commas, each of them the name of a scheme, alone, with a token, or with
parameters that are set off by commas in turn. Since a value is cut at all of its commas, a
parameter of another scheme can mislead in two ways; where none does, the first Negotiate challenge
is found, with its token.
-/

namespace NegotiateAuth

/-! ## Syntax -/

namespace Http

structure Run (p : Char → Bool) where
  chars : List Char
  all : chars.all p = true

structure Word (p : Char → Bool) extends Run p where
  nonempty : chars ≠ []

def isSpace (c : Char) : Bool :=
  c == ' ' || c == '\t'

/-- Elements of a list may be empty, so that there may be more commas than elements. -/
def isFiller (c : Char) : Bool :=
  c == ',' || isSpace c

abbrev Spaces := Run isSpace

abbrev Filler := Run isFiller

abbrev Gap := Word (· == ' ')

abbrev Token := Word isTokenChar

theorem isBlank_of_isSpace {c : Char} (h : isSpace c = true) : Text.isBlank c = true := by
  simp only [isSpace, Bool.or_eq_true, beq_iff_eq] at h
  rcases h with rfl | rfl <;> rfl

theorem Spaces.isBlank (spaces : Spaces) : ∀ c ∈ spaces.chars, Text.isBlank c = true :=
  fun c hc => isBlank_of_isSpace (List.all_eq_true.1 spaces.all c hc)

theorem Filler.comma_or_blank (filler : Filler) :
    ∀ c ∈ filler.chars, c = ',' ∨ Text.isBlank c = true := by
  intro c hc
  have hfiller := List.all_eq_true.1 filler.all c hc
  simp only [isFiller, Bool.or_eq_true, beq_iff_eq] at hfiller
  exact hfiller.imp_right isBlank_of_isSpace

theorem Gap.isBlank (gap : Gap) : ∀ c ∈ gap.chars, Text.isBlank c = true := by
  intro c hc
  obtain rfl : c = ' ' := by simpa using List.all_eq_true.1 gap.all c hc
  rfl

theorem visible_of_isAlphanum {c : Char} (h : c.isAlphanum = true) :
    48 ≤ c.toNat ∧ c.toNat ≤ 122 := by
  have hvalue : c.val.toNat = c.toNat := rfl
  delta Char.isAlphanum Char.isAlpha Char.isUpper Char.isLower Char.isDigit at h
  simp only [Bool.or_eq_true, Bool.and_eq_true, decide_eq_true_eq, ge_iff_le,
    UInt32.le_iff_toNat_le, UInt32.reduceToNat, Char.reduceVal] at h
  omega

/-- Letters, digits, and signs that are neither blanks nor commas. -/
theorem not_blank_of_signs {signs : List Char}
    (hsigns : signs.all (fun c => !Text.isBlank c && c != ',') = true) {c : Char}
    (h : (c.isAlphanum || signs.contains c) = true) : Text.isBlank c = false ∧ c ≠ ',' := by
  rw [Bool.or_eq_true, List.contains_iff_mem] at h
  rcases h with halphanum | hmem
  · have hvisible := visible_of_isAlphanum halphanum
    refine ⟨Text.isBlank_eq_false_of_visible ⟨by omega, by omega⟩, ?_⟩
    rintro rfl
    exact absurd hvisible.1 (by decide)
  · have hsign := List.all_eq_true.1 hsigns c hmem
    simpa using hsign

theorem Token.not_blank (token : Token) :
    ∀ c ∈ token.chars, Text.isBlank c = false ∧ c ≠ ',' :=
  fun c hc => not_blank_of_signs (by decide +kernel) (List.all_eq_true.1 token.all c hc)

structure Separator where
  before : Spaces
  after : Filler

def Separator.chars (separator : Separator) : List Char :=
  separator.before.chars ++ ',' :: separator.after.chars

structure Separated (α : Type) where
  first : α
  more : List (Separator × α)

namespace Separated

variable {α : Type}

def later (list : Separated α) : List α :=
  list.more.map (·.2)

def elements (list : Separated α) : List α :=
  list.first :: list.later

def chars (write : α → List Char) (list : Separated α) : List Char :=
  write list.first ++ list.more.flatMap fun next => next.1.chars ++ write next.2

end Separated

def isToken68Char (c : Char) : Bool :=
  c.isAlphanum || "-._~+/".toList.contains c

structure Token68 where
  body : Word isToken68Char
  pads : Nat

namespace Token68

def chars (token : Token68) : List Char :=
  token.body.chars ++ List.replicate token.pads '='

theorem chars_ne_nil (token : Token68) : token.chars ≠ [] :=
  List.append_ne_nil_of_left_ne_nil token.body.nonempty _

theorem not_blank (token : Token68) : ∀ c ∈ token.chars, Text.isBlank c = false ∧ c ≠ ',' := by
  intro c hc
  rcases List.mem_append.1 hc with hbody | hpad
  · exact not_blank_of_signs (by decide +kernel) (List.all_eq_true.1 token.body.all c hbody)
  · obtain rfl := List.eq_of_mem_replicate hpad
    decide

end Token68

def isQuotable (c : Char) : Bool :=
  c == '\t' || (32 ≤ c.toNat && c.toNat < 127)

/-- The text has no bare quote in it; a backslash takes the character behind it along. -/
def isQuoted : List Char → Bool
  | [] => true
  | ['\\'] => false
  | '\\' :: c :: rest => isQuotable c && isQuoted rest
  | c :: rest => c != '"' && isQuotable c && isQuoted rest

structure QuotedText where
  inner : List Char
  quoted : isQuoted inner = true

inductive ParamValue where
  | token (word : Token)
  | quoted (text : QuotedText)

def ParamValue.chars : ParamValue → List Char
  | .token word => word.chars
  | .quoted text => '"' :: text.inner ++ ['"']

structure Param where
  name : Token
  before : Spaces
  after : Spaces
  value : ParamValue

def Param.chars (param : Param) : List Char :=
  param.name.chars ++ (param.before.chars ++ '=' :: (param.after.chars ++ param.value.chars))

inductive Detail where
  | bare
  | token (gap : Gap) (text : Token68)
  | params (gap : Gap) (empties : Option Separator) (list : Separated Param)

namespace Detail

def chars : Detail → List Char
  | bare => []
  | token gap text => gap.chars ++ text.chars
  | params gap empties list =>
      gap.chars ++ (empties.elim [] Separator.chars ++ list.chars Param.chars)

def token? : Detail → Option String
  | token _ text => some (String.ofList text.chars)
  | _ => none

def listed : Detail → List Param
  | params _ _ list => list.elements
  | _ => []

/-- The parameters that stand behind a comma. -/
def setOff : Detail → List Param
  | params _ none list => list.later
  | params _ (some _) list => list.elements
  | _ => []

end Detail

structure ListedChallenge where
  scheme : Token
  detail : Detail
  negotiate : Challenge.namesScheme scheme.chars = true → detail.listed = []

namespace ListedChallenge

def chars (challenge : ListedChallenge) : List Char :=
  challenge.scheme.chars ++ challenge.detail.chars

/-- What a challenge of the Negotiate scheme says. -/
def negotiate? (challenge : ListedChallenge) : Option Challenge :=
  if Challenge.namesScheme challenge.scheme.chars then some ⟨challenge.detail.token?⟩ else none

end ListedChallenge

structure ChallengeList where
  lead : Filler
  challenges : Separated ListedChallenge
  trail : Filler

namespace ChallengeList

def chars (list : ChallengeList) : List Char :=
  list.lead.chars ++ list.challenges.chars ListedChallenge.chars ++ list.trail.chars

def text (list : ChallengeList) : String :=
  String.ofList list.chars

end ChallengeList

/-! ## Elements of a list -/

section

variable {α : Type} (write : α → List Char)

theorem firstIn?_append_more (cs : List Char) (more : List (Separator × α)) :
    Challenge.firstIn? (cs ++ more.flatMap fun next => next.1.chars ++ write next.2) =
      (Challenge.firstIn? cs).or
        ((more.map (·.2)).findSome? fun x => Challenge.firstIn? (write x)) := by
  induction more generalizing cs with
  | nil => rw [List.flatMap_nil, List.append_nil, List.map_nil, List.findSome?_nil, Option.or_none]
  | cons next more ih =>
      obtain ⟨separator, x⟩ := next
      rw [List.flatMap_cons, List.append_assoc, ← List.append_assoc, Separator.chars,
        Challenge.firstIn?_append_separator separator.before.isBlank
          separator.after.comma_or_blank,
        ih, List.map_cons, List.findSome?_cons]
      cases Challenge.firstIn? (write x) <;> rfl

theorem Separated.firstIn?_chars (list : Separated α) :
    Challenge.firstIn? (list.chars write) =
      list.elements.findSome? fun x => Challenge.firstIn? (write x) := by
  rw [Separated.chars, firstIn?_append_more, Separated.elements, List.findSome?_cons]
  cases Challenge.firstIn? (write list.first) <;> rfl

theorem Separated.laterIn?_chars (list : Separated α) :
    Challenge.laterIn? (list.chars write) = (Challenge.laterIn? (write list.first)).or
      (list.later.findSome? fun x => Challenge.firstIn? (write x)) := by
  obtain ⟨first, more⟩ := list
  cases more with
  | nil => simp [Separated.chars, Separated.later]
  | cons next more =>
      obtain ⟨separator, x⟩ := next
      simp only [Separated.chars, Separated.later, List.flatMap_cons, List.append_assoc]
      rw [← List.append_assoc, Separator.chars,
        Challenge.laterIn?_append_separator separator.before.isBlank separator.after.comma_or_blank,
        firstIn?_append_more, List.map_cons, List.findSome?_cons]
      cases Challenge.firstIn? (write x) <;> rfl

end

/-! ## Parameters -/

theorem head?_append_of_blank {blanks : List Char} (hne : blanks ≠ [])
    (h : ∀ c ∈ blanks, Text.isBlank c = true) (rest : List Char) :
    ∀ c ∈ (blanks ++ rest).head?, c = ',' ∨ Text.isBlank c = true :=
  Text.head?_append_of_ne_nil hne (fun c hc => Or.inr (h c hc)) rest

theorem Token.comma_notMem (token : Token) : ',' ∉ token.chars :=
  fun hmem => (token.not_blank ',' hmem).2 rfl

namespace Param

/-- The parameter has the name of the scheme, and stands off from its sign. -/
def LooksOffered (param : Param) : Prop :=
  param.before.chars ≠ [] ∧ Challenge.namesScheme param.name.chars = true

instance (param : Param) : Decidable param.LooksOffered :=
  inferInstanceAs (Decidable (_ ∧ _))

variable (param : Param)

theorem laterIn?_chars : Challenge.laterIn? param.chars = Challenge.laterIn? param.value.chars := by
  have hbefore := Challenge.comma_notMem_of_blank param.before.isBlank
  have hafter := Challenge.comma_notMem_of_blank param.after.isBlank
  rw [Param.chars, Challenge.laterIn?_append_of_notMem param.name.comma_notMem,
    Challenge.laterIn?_append_of_notMem hbefore, ← List.singleton_append,
    Challenge.laterIn?_append_of_notMem (by decide), Challenge.laterIn?_append_of_notMem hafter]

theorem firstIn?_isSome_of_looksOffered (h : param.LooksOffered) :
    (Challenge.firstIn? param.chars).isSome = true := by
  have hrest := head?_append_of_blank h.1 param.before.isBlank
    ('=' :: (param.after.chars ++ param.value.chars))
  rw [Param.chars, Challenge.firstIn?_of_scheme hrest h.2]
  rfl

theorem firstIn?_of_not_looksOffered (h : ¬ param.LooksOffered) :
    Challenge.firstIn? param.chars = Challenge.laterIn? param.value.chars := by
  rw [← param.laterIn?_chars]
  by_cases hbefore : param.before.chars = []
  · have hsign : ∀ c ∈ param.name.chars ++ ['='], Text.isBlank c = false ∧ c ≠ ',' := by
      intro c hc
      rcases List.mem_append.1 hc with hname | hlast
      · exact param.name.not_blank c hname
      · obtain rfl := List.mem_singleton.1 hlast
        decide
    have hchars : param.chars =
        param.name.chars ++ ['='] ++ (param.after.chars ++ param.value.chars) := by
      rw [Param.chars, hbefore, List.append_assoc]
      rfl
    have hcomma : ',' ∉ param.name.chars ++ ['='] := fun hmem => (hsign ',' hmem).2 rfl
    rw [hchars, Challenge.firstIn?_of_sign (List.mem_append_right _ List.mem_cons_self)
      (by decide +kernel) hsign, Challenge.laterIn?_append_of_notMem hcomma]
  · have hother : Challenge.namesScheme param.name.chars = false :=
      Bool.eq_false_iff.2 fun hname => h ⟨hbefore, hname⟩
    have hrest := head?_append_of_blank hbefore param.before.isBlank
      ('=' :: (param.after.chars ++ param.value.chars))
    rw [Param.chars, Challenge.firstIn?_of_other_word hrest
      param.name.nonempty param.name.not_blank hother,
      Challenge.laterIn?_append_of_notMem param.name.comma_notMem]

/-- A parameter is taken for a challenge by its own name, or by what its value hides. -/
theorem firstIn?_isSome_iff : (Challenge.firstIn? param.chars).isSome = true ↔
    param.LooksOffered ∨ Challenge.HidesOffer param.value.chars := by
  by_cases h : param.LooksOffered
  · simp [h, param.firstIn?_isSome_of_looksOffered h]
  · rw [param.firstIn?_of_not_looksOffered h, Challenge.laterIn?_isSome_iff]
    simp [h]

end Param

theorem Separated.firstIn?_isSome_iff (list : Separated Param) :
    (Challenge.firstIn? (list.chars Param.chars)).isSome = true ↔
      ∃ param ∈ list.elements, param.LooksOffered ∨ Challenge.HidesOffer param.value.chars := by
  rw [list.firstIn?_chars, List.findSome?_isSome_iff]
  simp only [Param.firstIn?_isSome_iff]

theorem Separated.laterIn?_isSome_iff (list : Separated Param) :
    (Challenge.laterIn? (list.chars Param.chars)).isSome = true ↔
      Challenge.HidesOffer list.first.value.chars ∨
        ∃ param ∈ list.later, param.LooksOffered ∨ Challenge.HidesOffer param.value.chars := by
  rw [list.laterIn?_chars, Option.isSome_or, Bool.or_eq_true, Param.laterIn?_chars,
    Challenge.laterIn?_isSome_iff, List.findSome?_isSome_iff]
  simp only [Param.firstIn?_isSome_iff]

/-! ## Challenges -/

namespace Detail

variable (detail : Detail)

theorem head?_chars : ∀ c ∈ detail.chars.head?, c = ',' ∨ Text.isBlank c = true := by
  cases detail with
  | bare => exact fun c hc => nomatch hc
  | token gap text => exact head?_append_of_blank gap.nonempty gap.isBlank _
  | params gap empties list => exact head?_append_of_blank gap.nonempty gap.isBlank _

theorem comma_notMem_of_token (gap : Gap) (text : Token68) :
    ',' ∉ (token gap text).chars := by
  intro hmem
  rcases List.mem_append.1 hmem with hgap | htext
  · exact Challenge.comma_notMem_of_blank gap.isBlank hgap
  · exact (text.not_blank ',' htext).2 rfl

/-- What stands behind a comma is taken for a challenge in a parameter, or not at all. -/
theorem laterIn?_isSome_iff :
    (Challenge.laterIn? detail.chars).isSome = true ↔
      (∃ param ∈ detail.listed, Challenge.HidesOffer param.value.chars) ∨
        ∃ param ∈ detail.setOff, param.LooksOffered := by
  cases detail with
  | bare => simp [chars, listed, setOff, Challenge.laterIn?_of_notMem]
  | token gap text =>
      simp [listed, setOff, Challenge.laterIn?_of_notMem (comma_notMem_of_token gap text)]
  | params gap empties list =>
      have hgap := Challenge.comma_notMem_of_blank gap.isBlank
      rw [chars, Challenge.laterIn?_append_of_notMem hgap]
      cases empties with
      | none =>
          rw [Option.elim_none, List.nil_append, list.laterIn?_isSome_iff]
          simp only [listed, setOff, Separated.elements, List.mem_cons, exists_eq_or_imp,
            and_or_left, exists_or, or_comm]
          exact or_left_comm
      | some separator =>
          have hread := Challenge.laterIn?_append_separator separator.before.isBlank
            separator.after.comma_or_blank [] (list.chars Param.chars)
          rw [List.nil_append, ← Separator.chars] at hread
          rw [Option.elim_some, hread, Challenge.laterIn?_of_notMem List.not_mem_nil,
            Option.none_or, list.firstIn?_isSome_iff]
          simp only [listed, setOff, and_or_left, exists_or, or_comm]

/-- A challenge without parameters says nothing but its token. -/
theorem ofChars_chars (h : detail.listed = []) :
    Challenge.ofChars (Text.firstPiece ',' detail.chars) = ⟨detail.token?⟩ := by
  cases detail with
  | bare => rfl
  | token gap text =>
      have hword : ∀ c ∈ text.chars, Text.isBlank c = false := fun c hc => (text.not_blank c hc).1
      have hread := Challenge.ofChars_word gap.isBlank text.chars_ne_nil hword
        (List.forall_mem_nil _)
      rw [List.append_nil] at hread
      rw [Text.firstPiece_of_notMem (comma_notMem_of_token gap text)]
      exact hread
  | params gap empties list => cases h

end Detail

namespace ListedChallenge

/-- A part of a parameter looks like a Negotiate challenge. -/
def Misleads (challenge : ListedChallenge) : Prop :=
  (∃ param ∈ challenge.detail.listed, Challenge.HidesOffer param.value.chars) ∨
    ∃ param ∈ challenge.detail.setOff, param.LooksOffered

instance (challenge : ListedChallenge) : Decidable challenge.Misleads :=
  inferInstanceAs (Decidable (_ ∨ _))

variable (challenge : ListedChallenge)

theorem firstIn?_of_negotiate (h : Challenge.namesScheme challenge.scheme.chars = true) :
    Challenge.firstIn? challenge.chars = challenge.negotiate? := by
  rw [chars, Challenge.firstIn?_of_scheme challenge.detail.head?_chars h,
    challenge.detail.ofChars_chars (challenge.negotiate h), negotiate?, if_pos h]

theorem firstIn?_isSome_iff_of_other (h : Challenge.namesScheme challenge.scheme.chars = false) :
    (Challenge.firstIn? challenge.chars).isSome = true ↔ challenge.Misleads := by
  rw [chars, Challenge.firstIn?_of_other_word challenge.detail.head?_chars
    challenge.scheme.nonempty challenge.scheme.not_blank h, challenge.detail.laterIn?_isSome_iff,
    Misleads]

theorem firstIn?_eq_negotiate? (h : ¬ challenge.Misleads) :
    Challenge.firstIn? challenge.chars = challenge.negotiate? := by
  cases hscheme : Challenge.namesScheme challenge.scheme.chars with
  | true => exact challenge.firstIn?_of_negotiate hscheme
  | false =>
      have hread := mt (challenge.firstIn?_isSome_iff_of_other hscheme).1 h
      rw [Option.not_isSome_iff_eq_none.1 hread, negotiate?, hscheme]
      rfl

theorem firstIn?_eq_of_negotiate? {answer : Challenge} (h : challenge.negotiate? = some answer) :
    Challenge.firstIn? challenge.chars = some answer := by
  cases hscheme : Challenge.namesScheme challenge.scheme.chars with
  | true => rw [challenge.firstIn?_of_negotiate hscheme, h]
  | false => simp [negotiate?, hscheme] at h

end ListedChallenge

/-! ## Lists -/

theorem ChallengeList.firstIn?_chars (list : ChallengeList) :
    Challenge.firstIn? list.chars = list.challenges.elements.findSome? fun challenge =>
      Challenge.firstIn? challenge.chars := by
  rw [ChallengeList.chars, Challenge.firstIn?_append_filler list.trail.comma_or_blank,
    Challenge.firstIn?_filler_append list.lead.comma_or_blank, Separated.firstIn?_chars]

def listed (lists : List ChallengeList) : List ListedChallenge :=
  lists.flatMap fun list => list.challenges.elements

end Http

namespace Challenge

open Http

/-- Only what stands before the first answer can keep it from being found. -/
theorem findSome?_eq_of_takeWhile {α β : Type} {read answer : α → Option β} {xs : List α}
    (hsome : ∀ x y, answer x = some y → read x = some y)
    (hnone : ∀ x ∈ xs.takeWhile fun x => (answer x).isNone, read x = answer x) :
    xs.findSome? read = xs.findSome? answer := by
  induction xs with
  | nil => rfl
  | cons x more ih =>
      rw [List.findSome?_cons, List.findSome?_cons]
      cases hanswer : answer x with
      | some y => rw [hsome x y hanswer]
      | none =>
          have htake : (x :: more).takeWhile (fun x => (answer x).isNone) =
              x :: more.takeWhile fun x => (answer x).isNone :=
            List.takeWhile_cons_of_pos (by rw [hanswer]; rfl)
          rw [htake] at hnone
          rw [hnone x List.mem_cons_self, hanswer]
          exact ih fun y hy => hnone y (List.mem_cons_of_mem x hy)

section

variable {peer : Peer} {fields : FieldMap} {lists : List ChallengeList}
  (hlists : (fields.values peer.challengeField).map FieldValue.text? =
    lists.map fun list => some list.text)

include hlists

theorem ofFields?_eq_findSome?_listed :
    ofFields? peer fields = (listed lists).findSome? fun challenge => firstIn? challenge.chars := by
  have htexts : (fields.values peer.challengeField).filterMap FieldValue.text? =
      lists.map ChallengeList.text := by
    have hfilter := congrArg (List.filterMap id) hlists
    simpa [List.filterMap_map, Function.comp_def] using hfilter
  rw [ofFields?_eq_findSome?, htexts, listed, findSome?_flatMap, List.findSome?_map]
  congr 1
  funext list
  rw [Function.comp_apply, ChallengeList.text, String.toList_ofList, list.firstIn?_chars]

/-- The values of the challenge field are lists of challenges. Where no challenge before the first
of the Negotiate scheme misleads, that one is found, with its token; and none is found where there
is none. -/
theorem ofFields?_of_lists
    (hplain : ∀ challenge ∈ (listed lists).takeWhile fun challenge => challenge.negotiate?.isNone,
      ¬ challenge.Misleads) :
    ofFields? peer fields = (listed lists).findSome? ListedChallenge.negotiate? := by
  rw [ofFields?_eq_findSome?_listed hlists]
  apply findSome?_eq_of_takeWhile
  · intro challenge answer hanswer
    exact challenge.firstIn?_eq_of_negotiate? hanswer
  · intro challenge hmem
    exact challenge.firstIn?_eq_negotiate? (hplain challenge hmem)

end

def basic (realm : QuotedText) : ListedChallenge where
  scheme := ⟨⟨"Basic".toList, by decide +kernel⟩, by decide +kernel⟩
  detail := .params ⟨⟨[' '], rfl⟩, by decide⟩ none
    ⟨⟨⟨⟨"realm".toList, by decide +kernel⟩, by decide +kernel⟩, ⟨[], rfl⟩, ⟨[], rfl⟩,
      .quoted realm⟩, []⟩
  negotiate := fun h => absurd h (by decide +kernel)

def offer : ListedChallenge where
  scheme := ⟨⟨"NEGOTIATE".toList, by decide +kernel⟩, by decide +kernel⟩
  detail := .token ⟨⟨[' '], rfl⟩, by decide⟩
    ⟨⟨⟨"YWJj".toList, by decide +kernel⟩, by decide +kernel⟩, 0⟩
  negotiate := fun _ => rfl

def fieldsOf (list : ChallengeList) : FieldMap :=
  FieldMap.empty.append .wwwAuthenticate ⟨Text.utf8 list.chars, false⟩

def commaInRealm : ChallengeList where
  lead := ⟨[], rfl⟩
  challenges := ⟨basic ⟨"a, b".toList, by decide +kernel⟩, [(⟨⟨[], rfl⟩, ⟨[' '], rfl⟩⟩, offer)]⟩
  trail := ⟨[], rfl⟩

theorem ofFields?_commaInRealm :
    commaInRealm.text = "Basic realm=\"a, b\", NEGOTIATE YWJj" ∧
      ofFields? .target (fieldsOf commaInRealm) = some ⟨some "YWJj"⟩ := by
  have hlists : ((fieldsOf commaInRealm).values Peer.target.challengeField).map FieldValue.text? =
      [commaInRealm].map fun list => some list.text := by decide +kernel
  refine ⟨by decide +kernel, ?_⟩
  rw [ofFields?_of_lists hlists (by decide +kernel)]
  decide +kernel

/-- The only challenge of this list is of the Basic scheme. -/
def offerInRealm : ChallengeList where
  lead := ⟨[], rfl⟩
  challenges := ⟨basic ⟨"a, negotiate b".toList, by decide +kernel⟩, []⟩
  trail := ⟨[], rfl⟩

theorem ofFields?_offerInRealm :
    offerInRealm.text = "Basic realm=\"a, negotiate b\"" ∧
      ((fieldsOf offerInRealm).values Peer.target.challengeField).map FieldValue.text? =
        [some offerInRealm.text] ∧
      (listed [offerInRealm]).findSome? ListedChallenge.negotiate? = none ∧
      ofFields? .target (fieldsOf offerInRealm) = some ⟨some "b\""⟩ := by
  decide +kernel

end Challenge

end NegotiateAuth
