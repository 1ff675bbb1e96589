import Mathlib.Data.Nat.Bitwise
import NegotiateAuth.AuthError

/-! # What a provider reports

What a provider reports decides the kind of its error, which is one of three. A GSS major status
says in one of its fields which routine error there was, and in two of its supplementary bits what
was wrong with a token; the kind that it comes to is told here by these bits alone.
-/

namespace NegotiateAuth

theorem ErrorKind.ofFailure_cases (failure : Failure) :
    ofFailure failure = .invalidCredentials ∨ ofFailure failure = .protocol ∨
      ofFailure failure = .failed := by
  cases failure <;> simp [ofFailure]

namespace AuthError

/-- A provider's error has no other kind than these three. -/
theorem kind_refused_ne {kind : ErrorKind} (cause : ProviderError)
    (hcredentials : kind ≠ .invalidCredentials) (hprotocol : kind ≠ .protocol)
    (hfailed : kind ≠ .failed) : (refused cause).kind ≠ kind := by
  rintro rfl
  rcases ErrorKind.ofFailure_cases cause.failure with h | h | h
  · exact hcredentials h
  · exact hprotocol h
  · exact hfailed h

end AuthError

namespace Failure

/-! ## Fields of a status -/

def routineField (major : UInt32) : UInt32 :=
  (major >>> 16) &&& 0xff

def duplicateBit : UInt32 :=
  (1 : UInt32) <<< 1

def oldBit : UInt32 :=
  (1 : UInt32) <<< 2

theorem toNat_routineField (major : UInt32) : (routineField major).toNat = routineError major := by
  have hmask : (255 : UInt32).toNat = 2 ^ 8 - 1 := rfl
  have hshift : (16 : UInt32).toNat % 32 = 16 := rfl
  rw [routineField, UInt32.toNat_and, UInt32.toNat_shiftRight, hmask, hshift,
    Nat.and_two_pow_sub_one_eq_mod, Nat.shiftRight_eq_div_pow]
  rfl

theorem routineField_eq_iff (major : UInt32) (code : UInt32) :
    routineField major = code ↔ routineError major = code.toNat := by
  rw [← UInt32.toNat_inj, toNat_routineField]

theorem masked_eq_zero_iff (major : UInt32) (i : Nat) {mask : UInt32} (h : mask.toNat = 2 ^ i) :
    major &&& mask = 0 ↔ major.toNat.testBit i = false := by
  rw [← UInt32.toNat_inj, UInt32.toNat_and, h, Nat.and_two_pow]
  cases major.toNat.testBit i <;> simp

theorem duplicateBit_clear_iff (major : UInt32) :
    major &&& duplicateBit = 0 ↔ major.toNat.testBit 1 = false :=
  masked_eq_zero_iff major 1 rfl

theorem oldBit_clear_iff (major : UInt32) :
    major &&& oldBit = 0 ↔ major.toNat.testBit 2 = false :=
  masked_eq_zero_iff major 2 rfl

/-- Two statuses with the same bits in the field have the same routine error. -/
theorem routineError_congr {one other : UInt32}
    (h : ∀ i < 24, 16 ≤ i → one.toNat.testBit i = other.toNat.testBit i) :
    routineError one = routineError other := by
  have hfield : ∀ major : UInt32, routineError major = major.toNat / 2 ^ 16 % 2 ^ 8 := fun _ => rfl
  rw [hfield, hfield]
  apply Nat.eq_of_testBit_eq
  intro i
  rw [Nat.testBit_mod_two_pow, Nat.testBit_mod_two_pow, Nat.testBit_div_two_pow,
    Nat.testBit_div_two_pow]
  by_cases hi : i < 8
  · rw [h (i + 16) (by omega) (by omega)]
  · simp [hi]

/-! ## Categories -/

/-- Some category of its own is meant by the status. -/
def Named (major : UInt32) : Prop :=
  routineField major ∈ [1, 2, 3, 7, 9, 10, 11] ∨
    routineField major = 0 ∧ (major &&& duplicateBit ≠ 0 ∨ major &&& oldBit ≠ 0)

instance (major : UInt32) : Decidable (Named major) :=
  inferInstanceAs (Decidable (_ ∨ _))

inductive Means (major : UInt32) : Failure → Prop where
  | badMechanism (routine : routineField major = 1) : Means major .badMechanism
  | badName (routine : routineField major = 2) : Means major .badName
  | badNameType (routine : routineField major = 3) : Means major .badName
  | noCredential (routine : routineField major = 7) : Means major .noCredential
  | defectiveToken (routine : routineField major = 9) : Means major .defectiveToken
  | defectiveCredential (routine : routineField major = 10) : Means major .defectiveCredential
  | credentialsExpired (routine : routineField major = 11) : Means major .credentialsExpired
  | duplicateToken (routine : routineField major = 0) (duplicate : major &&& duplicateBit ≠ 0) :
      Means major .duplicateToken
  | oldToken (routine : routineField major = 0) (single : major &&& duplicateBit = 0)
      (old : major &&& oldBit ≠ 0) : Means major .oldToken
  | other (unnamed : ¬ Named major) : Means major (.other major)

theorem means_ofMajorStatus (major : UInt32) : Means major (ofMajorStatus major) := by
  have hroutine : ∀ code : UInt32, routineError major = code.toNat → routineField major = code :=
    fun code => (routineField_eq_iff major code).2
  unfold ofMajorStatus
  split
  case h_1 h => exact .badMechanism (hroutine 1 h)
  case h_2 h => exact .badName (hroutine 2 h)
  case h_3 h => exact .badNameType (hroutine 3 h)
  case h_4 h => exact .noCredential (hroutine 7 h)
  case h_5 h => exact .defectiveToken (hroutine 9 h)
  case h_6 h => exact .defectiveCredential (hroutine 10 h)
  case h_7 h => exact .credentialsExpired (hroutine 11 h)
  case h_8 h =>
      have hnone := hroutine 0 h
      split
      case isTrue duplicate =>
          exact .duplicateToken hnone fun hclear =>
            absurd ((duplicateBit_clear_iff major).1 hclear) (by simp [duplicate])
      case isFalse single =>
          have hsingle := (duplicateBit_clear_iff major).2 (Bool.eq_false_iff.2 single)
          split
          case isTrue old =>
              exact .oldToken hnone hsingle fun hclear =>
                absurd ((oldBit_clear_iff major).1 hclear) (by simp [old])
          case isFalse fresh =>
              have hfresh := (oldBit_clear_iff major).2 (Bool.eq_false_iff.2 fresh)
              exact .other (by simp [Named, hnone, hsingle, hfresh])
  case h_9 h1 h2 h3 h7 h9 h10 h11 h0 =>
      refine .other ?_
      simp only [Named, List.mem_cons, List.not_mem_nil, routineField_eq_iff, or_false]
      rintro ((h | h | h | h | h | h | h) | ⟨h, -⟩)
      exacts [h1 h, h2 h, h3 h, h7 h, h9 h, h10 h, h11 h, h0 h]

/-- A status is of one category: no two of the conditions hold together. -/
theorem ofMajorStatus_eq_iff (major : UInt32) (category : Failure) :
    ofMajorStatus major = category ↔ Means major category := by
  constructor
  · rintro rfl
    exact means_ofMajorStatus major
  · intro h
    have hreal := means_ofMajorStatus major
    generalize ofMajorStatus major = real at hreal ⊢
    -- two conditions that differ are about different values of the field, or of a bit
    cases h <;> cases hreal <;> simp_all [Named]

theorem ofMajorStatus_eq_duplicateToken_iff (major : UInt32) :
    ofMajorStatus major = .duplicateToken ↔
      routineField major = 0 ∧ major &&& duplicateBit ≠ 0 := by
  rw [ofMajorStatus_eq_iff]
  constructor
  · intro h
    cases h with
    | duplicateToken routine duplicate => exact ⟨routine, duplicate⟩
  · rintro ⟨routine, duplicate⟩
    exact .duplicateToken routine duplicate

theorem ofMajorStatus_eq_oldToken_iff (major : UInt32) :
    ofMajorStatus major = .oldToken ↔
      routineField major = 0 ∧ major &&& duplicateBit = 0 ∧ major &&& oldBit ≠ 0 := by
  rw [ofMajorStatus_eq_iff]
  constructor
  · intro h
    cases h with
    | oldToken routine single old => exact ⟨routine, single, old⟩
  · rintro ⟨routine, single, old⟩
    exact .oldToken routine single old

theorem ofMajorStatus_eq_other_iff (major code : UInt32) :
    ofMajorStatus major = .other code ↔ code = major ∧ ¬ Named major := by
  rw [ofMajorStatus_eq_iff]
  constructor
  · intro h
    cases h with
    | other unnamed => exact ⟨rfl, unnamed⟩
  · rintro ⟨rfl, unnamed⟩
    exact .other unnamed

/-! ## Kinds -/

def statusKind (major : UInt32) : ErrorKind :=
  .ofFailure (ofMajorStatus major)

theorem statusKind_of_means (major : UInt32) :
    ∃ category, Means major category ∧ statusKind major = .ofFailure category :=
  ⟨_, means_ofMajorStatus major, rfl⟩

theorem statusKind_eq_invalidCredentials_iff (major : UInt32) :
    statusKind major = .invalidCredentials ↔
      routineField major = 7 ∨ routineField major = 10 ∨ routineField major = 11 := by
  obtain ⟨category, hmeans, hkind⟩ := statusKind_of_means major
  rw [hkind]
  cases hmeans <;> simp_all [ErrorKind.ofFailure, Named]

theorem statusKind_eq_protocol_iff (major : UInt32) :
    statusKind major = .protocol ↔ routineField major = 9 ∨
      routineField major = 0 ∧ (major &&& duplicateBit ≠ 0 ∨ major &&& oldBit ≠ 0) := by
  obtain ⟨category, hmeans, hkind⟩ := statusKind_of_means major
  rw [hkind]
  cases hmeans <;> simp_all [ErrorKind.ofFailure, Named]

/-- The bits that two statuses of one kind agree in: the field, and two more where it is empty. -/
structure Agree (one other : UInt32) : Prop where
  routine : ∀ i < 24, 16 ≤ i → one.toNat.testBit i = other.toNat.testBit i
  token : (∀ i < 24, 16 ≤ i → one.toNat.testBit i = false) →
    one.toNat.testBit 1 = other.toNat.testBit 1 ∧ one.toNat.testBit 2 = other.toNat.testBit 2

theorem Agree.routineField_eq {one other : UInt32} (h : Agree one other) :
    routineField one = routineField other := by
  rw [← UInt32.toNat_inj, toNat_routineField, toNat_routineField, routineError_congr h.routine]

theorem bits_of_routineField_eq_zero {major : UInt32} (h : routineField major = 0) :
    ∀ i < 24, 16 ≤ i → major.toNat.testBit i = false := by
  intro i hhigh hlow
  have hfield : major.toNat / 2 ^ 16 % 2 ^ 8 = 0 := (routineField_eq_iff major 0).1 h
  have hbit := congrArg (Nat.testBit · (i - 16)) hfield
  rwa [Nat.testBit_mod_two_pow, Nat.testBit_div_two_pow, Nat.zero_testBit, Nat.sub_add_cancel hlow,
    decide_eq_true (by omega), Bool.true_and] at hbit

/-- What the bits outside of the field and of the two are makes no difference to the kind. -/
theorem statusKind_congr {one other : UInt32} (h : Agree one other) :
    statusKind one = statusKind other := by
  have hfield := h.routineField_eq
  have hcredentials :
      statusKind one = .invalidCredentials ↔ statusKind other = .invalidCredentials := by
    rw [statusKind_eq_invalidCredentials_iff, statusKind_eq_invalidCredentials_iff, hfield]
  have hprotocol : statusKind one = .protocol ↔ statusKind other = .protocol := by
    rw [statusKind_eq_protocol_iff, statusKind_eq_protocol_iff, hfield]
    refine or_congr_right (and_congr_right fun hnone => ?_)
    obtain ⟨hduplicate, hold⟩ := h.token (bits_of_routineField_eq_zero (hfield.trans hnone))
    rw [Ne, Ne, duplicateBit_clear_iff, oldBit_clear_iff, hduplicate, hold,
      ← duplicateBit_clear_iff, ← oldBit_clear_iff]
  rcases ErrorKind.ofFailure_cases (ofMajorStatus one) with hone | hone | hone
  · exact hone.trans (hcredentials.1 hone).symm
  · exact hone.trans (hprotocol.1 hone).symm
  · rcases ErrorKind.ofFailure_cases (ofMajorStatus other) with hother | hother | hother
    · exact (hcredentials.2 hother).trans hother.symm
    · exact (hprotocol.2 hother).trans hother.symm
    · exact hone.trans hother.symm

/-- A mask has none of the bits that the kind goes by. -/
theorem agree_xor {mask : UInt32} (h : mask &&& 0x00ff0006 = 0) (major : UInt32) :
    Agree (major ^^^ mask) major := by
  have hkept : ∀ i, (0x00ff0006 : UInt32).toNat.testBit i = true →
      (major ^^^ mask).toNat.testBit i = major.toNat.testBit i := by
    intro i hi
    have hclear := congrArg (fun word : UInt32 => word.toNat.testBit i) h
    simp only [UInt32.toNat_and, Nat.testBit_and, hi, Bool.and_true, UInt32.toNat_zero,
      Nat.zero_testBit] at hclear
    rw [UInt32.toNat_xor, Nat.testBit_xor, hclear, Bool.xor_false]
  have hfield : ∀ i < 24, 16 ≤ i → (0x00ff0006 : UInt32).toNat.testBit i = true := by decide
  exact ⟨fun i hhigh hlow => hkept i (hfield i hhigh hlow), fun _ => ⟨hkept 1 rfl, hkept 2 rfl⟩⟩

/-- The kind of error that a status comes to is told by its routine error and, where there is none,
by the two bits about tokens, in whatever words it is reported; no other bit makes a difference. A
token that is both a duplicate and old is a duplicate, and a status without a category of its own is
carried as it is, so that no two of these are taken for one another. -/
theorem majorStatus_classified (major : UInt32) (message : String) (source : Option String) :
    let category := ofMajorStatus major
    let kind := (AuthError.refused ⟨category, message, source⟩).kind
    let credentials := routineField major = 7 ∨ routineField major = 10 ∨ routineField major = 11
    let token := routineField major = 9 ∨
      routineField major = 0 ∧ (major &&& duplicateBit ≠ 0 ∨ major &&& oldBit ≠ 0)
    (kind = .invalidCredentials ↔ credentials) ∧ (kind = .protocol ↔ token) ∧
      (kind = .failed ↔ ¬ credentials ∧ ¬ token) ∧
      (category = .duplicateToken ↔ routineField major = 0 ∧ major &&& duplicateBit ≠ 0) ∧
      (category = .oldToken ↔
        routineField major = 0 ∧ major &&& duplicateBit = 0 ∧ major &&& oldBit ≠ 0) ∧
      (∀ code, category = .other code ↔ code = major ∧ ¬ Named major) ∧
      (∀ other, ¬ Named major → other ≠ major → ofMajorStatus other ≠ category) ∧
      (∀ other message' source', Agree major other →
        (AuthError.refused ⟨ofMajorStatus other, message', source'⟩).kind = kind) ∧
      ∀ mask message' source', mask &&& 0x00ff0006 = 0 →
        (AuthError.refused ⟨ofMajorStatus (major ^^^ mask), message', source'⟩).kind = kind := by
  intro category kind credentials token
  have hcredentials : kind = .invalidCredentials ↔ credentials :=
    statusKind_eq_invalidCredentials_iff major
  have htoken : kind = .protocol ↔ token := statusKind_eq_protocol_iff major
  refine ⟨hcredentials, htoken, ?_, ofMajorStatus_eq_duplicateToken_iff major,
    ofMajorStatus_eq_oldToken_iff major, ofMajorStatus_eq_other_iff major, ?_, ?_, ?_⟩
  · rw [← hcredentials, ← htoken]
    rcases ErrorKind.ofFailure_cases category with h | h | h
    all_goals simp [kind, AuthError.kind, h]
  · intro other unnamed hne heq
    have hmajor := (ofMajorStatus_eq_other_iff major major).2 ⟨rfl, unnamed⟩
    have hother := (ofMajorStatus_eq_other_iff other major).1 (heq.trans hmajor)
    exact hne hother.1.symm
  · intro other message' source' agree
    exact (statusKind_congr agree).symm
  · intro mask message' source' clear
    exact statusKind_congr (agree_xor clear major)

theorem majorStatus_classified_expired :
    let words := "ticket expired"
    (AuthError.refused ⟨ofMajorStatus 0x830b0026, words, none⟩).kind =
        (AuthError.refused ⟨ofMajorStatus 0x000b0000, words, none⟩).kind ∧
      (AuthError.refused ⟨ofMajorStatus (0x00000004 ^^^ 0xff00fff9), words, none⟩).kind =
        (AuthError.refused ⟨ofMajorStatus 0x00000004, words, none⟩).kind ∧
      ofMajorStatus 0x000d0001 ≠ ofMajorStatus 0x000d0000 := by
  intro words
  have agree : Agree 0x000b0000 0x830b0026 := by
    refine ⟨by decide, fun empty => ?_⟩
    exact absurd (empty 16 (by decide) (by decide)) (by decide)
  obtain ⟨-, -, -, -, -, -, -, hagree, -⟩ := majorStatus_classified 0x000b0000 words none
  obtain ⟨-, -, -, -, -, -, -, -, hmask⟩ := majorStatus_classified 0x00000004 words none
  obtain ⟨-, -, -, -, -, -, hother, -, -⟩ := majorStatus_classified 0x000d0000 words none
  exact ⟨hagree _ words none agree, hmask _ words none (by decide),
    hother _ (by decide) (by decide)⟩

end Failure

end NegotiateAuth
