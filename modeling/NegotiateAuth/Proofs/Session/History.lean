import NegotiateAuth.Proofs.Session.Run

/-! # Histories of calls

How a list of calls opens: with no challenge at all, or with a first challenge and what follows it
up to the first call that has to be answered by the provider or that fails the session. Every list
opens in one of five ways, from which the state after a run and its provider calls are known.
-/

namespace NegotiateAuth

/-! ## How a list of calls opens -/

namespace Session

variable {σ κ χ : Type}

def isReceive : Call κ → Bool
  | .receive _ _ => true
  | .authenticate _ _ => false

def isRouted : Call κ → Bool
  | .receive _ _ => false
  | .authenticate _ route => route.isSome

def challengeCount (calls : List (Call κ)) : Nat :=
  calls.countP isReceive

theorem challengeCount_eq_zero {calls : List (Call κ)} :
    challengeCount calls = 0 ↔ ∀ call ∈ calls, isReceive call = false := by
  simp [challengeCount, List.countP_eq_zero]

theorem challengeCount_split (before after : List (Call κ)) (peer : Peer) (challenge : Challenge) :
    challengeCount (before ++ .receive peer challenge :: after) =
      challengeCount before + challengeCount after + 1 := by
  simp only [challengeCount, List.countP_append, List.countP_cons, isReceive, if_true]
  omega

structure FirstChallenge (calls : List (Call κ)) where
  before : List (Call κ)
  peer : Peer
  challenge : Challenge
  after : List (Call κ)
  calls_eq : calls = before ++ .receive peer challenge :: after
  unchallenged : ∀ call ∈ before, isReceive call = false

/-- A first challenge that decodes, and the first call after it that asks for an answer with a
route, if no other challenge comes between the two. -/
structure Attempt (calls : List (Call κ)) extends FirstChallenge calls where
  bytes : List UInt8
  waiting : List (Call κ)
  credentials : Credentials κ
  route : Route
  rest : List (Call κ)
  decoded : challenge.decode = .ok bytes
  after_eq : after = waiting ++ .authenticate credentials (some route) :: rest
  idle : ∀ call ∈ waiting, isReceive call = false ∧ isRouted call = false

namespace Attempt

variable {calls : List (Call κ)}

/-- The calls before the one that asks for an answer. -/
def opening (attempt : Attempt calls) : List (Call κ) :=
  attempt.before ++ .receive attempt.peer attempt.challenge :: attempt.waiting

def call (attempt : Attempt calls) : Call κ :=
  .authenticate attempt.credentials (some attempt.route)

theorem split (attempt : Attempt calls) :
    calls = attempt.opening ++ attempt.call :: attempt.rest := by
  refine attempt.calls_eq.trans ?_
  rw [attempt.after_eq, opening, call, List.append_assoc, List.cons_append]

end Attempt

inductive Opening (calls : List (Call κ)) : Prop where
  | unchallenged (h : ∀ call ∈ calls, isReceive call = false)
  | malformed (first : FirstChallenge calls) {cause : Base64.DecodeError}
      (undecoded : first.challenge.decode = .error cause)
  | waiting (first : FirstChallenge calls) {bytes : List UInt8}
      (decoded : first.challenge.decode = .ok bytes)
      (idle : ∀ call ∈ first.after, isReceive call = false ∧ isRouted call = false)
  | rechallenged (first : FirstChallenge calls) {waiting rest : List (Call κ)} {peer : Peer}
      {challenge : Challenge} {bytes : List UInt8}
      (decoded : first.challenge.decode = .ok bytes)
      (after_eq : first.after = waiting ++ .receive peer challenge :: rest)
      (idle : ∀ call ∈ waiting, isReceive call = false ∧ isRouted call = false)
  | attempted (attempt : Attempt calls)

/-- Split a list at the first call with a property, if there is one. -/
theorem forall_or_split (p : Call κ → Bool) (calls : List (Call κ)) :
    (∀ call ∈ calls, p call = false) ∨
      ∃ before call after, calls = before ++ call :: after ∧ p call = true ∧
        ∀ other ∈ before, p other = false := by
  cases hfind : calls.find? p with
  | none =>
      left
      simpa using List.find?_eq_none.1 hfind
  | some call =>
      right
      obtain ⟨hcall, before, after, heq, hbefore⟩ := List.find?_eq_some_iff_append.1 hfind
      exact ⟨before, call, after, heq, hcall, by simpa using hbefore⟩

theorem opening_cases (calls : List (Call κ)) : Opening calls := by
  rcases forall_or_split isReceive calls with h | ⟨before, call, after, calls_eq, hcall, hbefore⟩
  · exact .unchallenged h
  cases call with
  | authenticate credentials route => cases hcall
  | receive peer challenge =>
      let first : FirstChallenge calls := ⟨before, peer, challenge, after, calls_eq, hbefore⟩
      cases decoded : challenge.decode with
      | error cause => exact .malformed first decoded
      | ok bytes =>
          rcases forall_or_split (fun call => isReceive call || isRouted call) after with
            h | ⟨waiting, call, rest, after_eq, hcall, hwaiting⟩
          · exact .waiting first decoded (by simpa using h)
          · have idle : ∀ call ∈ waiting, isReceive call = false ∧ isRouted call = false := by
              simpa using hwaiting
            cases call with
            | receive peer challenge => exact .rechallenged first decoded after_eq idle
            | authenticate credentials route =>
                cases route with
                | none => cases hcall
                | some route =>
                    exact .attempted { first with
                      bytes, waiting, credentials, route, rest, decoded, after_eq, idle }

/-- A session that has no challenge to answer answers all calls but challenges on its own. -/
theorem isIdle_of_unchallenged {calls : List (Call κ)} {phase : Phase}
    (settled : ∀ bytes, phase ≠ .challengeReceived bytes)
    (h : ∀ call ∈ calls, isReceive call = false) : ∀ call ∈ calls, isIdle phase call = true := by
  intro call hcall
  cases call with
  | receive peer challenge => cases h _ hcall
  | authenticate credentials route =>
      cases phase with
      | challengeReceived bytes => exact absurd rfl (settled bytes)
      | uninitiated => rfl
      | tokenGenerated token => rfl
      | failed => rfl

theorem isIdle_of_unrouted {calls : List (Call κ)}
    (h : ∀ call ∈ calls, isReceive call = false ∧ isRouted call = false) (bytes : List UInt8) :
    ∀ call ∈ calls, isIdle (.challengeReceived bytes) call = true := by
  intro call hcall
  cases call with
  | receive peer challenge => cases (h _ hcall).1
  | authenticate credentials route =>
      cases route with
      | none => rfl
      | some route => cases (h _ hcall).2

section

variable (env : Environment σ κ χ) (config : Config) (world : σ) {calls : List (Call κ)}

theorem run_unchallenged (h : ∀ call ∈ calls, isReceive call = false) :
    ∃ replies, run env (start config) calls world = ⟨(replies, start config), world, []⟩ :=
  run_of_isIdle env config (isIdle_of_unchallenged (fun _ => Phase.noConfusion) h) world

theorem run_malformed (first : FirstChallenge calls) {cause : Base64.DecodeError}
    (undecoded : first.challenge.decode = .error cause) :
    let later := run env ⟨config, .failed⟩ first.after world
    (run env (start config) calls world).result.2 = later.result.2 ∧
      (run env (start config) calls world).world = later.world ∧
      (run env (start config) calls world).events = later.events := by
  obtain ⟨before, peer, challenge, after, rfl, unchallenged⟩ := first
  obtain ⟨replies, hbefore⟩ := run_unchallenged env config world unchallenged
  simp only [start] at hbefore undecoded ⊢
  simp only [run_append, run_cons, hbefore, perform_receive, receive_of_malformed undecoded,
    List.nil_append, and_self]

theorem run_decoded (first : FirstChallenge calls) {bytes : List UInt8}
    (decoded : first.challenge.decode = .ok bytes) (rest : List (Call κ)) :
    let outcome := run env (start config)
      (first.before ++ .receive first.peer first.challenge :: rest) world
    let later := run env ⟨config, .challengeReceived bytes⟩ rest world
    outcome.result.2 = later.result.2 ∧ outcome.world = later.world ∧
      outcome.events =
        challengeRecords config first.peer first.challenge bytes.length ++ later.events := by
  obtain ⟨replies, hbefore⟩ := run_unchallenged env config world first.unchallenged
  simp only [start] at hbefore ⊢
  simp only [run_append, run_cons, hbefore, perform_receive, receive_of_decode decoded,
    List.nil_append, and_self]

/-- A run that is left waiting has done nothing but take the first challenge. -/
theorem run_waiting (first : FirstChallenge calls) {bytes : List UInt8}
    (decoded : first.challenge.decode = .ok bytes)
    (idle : ∀ call ∈ first.after, isReceive call = false ∧ isRouted call = false) :
    let outcome := run env (start config) calls world
    outcome.result.2 = ⟨config, .challengeReceived bytes⟩ ∧ outcome.world = world ∧
      outcome.events = challengeRecords config first.peer first.challenge bytes.length := by
  have hrun := run_decoded env config world first decoded first.after
  obtain ⟨replies, hafter⟩ := run_of_isIdle env config (isIdle_of_unrouted idle bytes) world
  simp only [← first.calls_eq, hafter, List.append_nil] at hrun
  exact hrun

theorem run_rechallenged (first : FirstChallenge calls) {waiting rest : List (Call κ)}
    {peer : Peer} {challenge : Challenge} {bytes : List UInt8}
    (decoded : first.challenge.decode = .ok bytes)
    (after_eq : first.after = waiting ++ .receive peer challenge :: rest)
    (idle : ∀ call ∈ waiting, isReceive call = false ∧ isRouted call = false) :
    let outcome := run env (start config) calls world
    let later := run env ⟨config, .failed⟩ rest world
    outcome.result.2 = later.result.2 ∧ outcome.world = later.world ∧
      outcome.events = challengeRecords config first.peer first.challenge bytes.length ++
        .debug "Negotiate authentication already attempted" :: later.events := by
  have hrun := run_decoded env config world first decoded first.after
  obtain ⟨replies, hwaiting⟩ := run_of_isIdle env config (isIdle_of_unrouted idle bytes) world
  have started : Phase.challengeReceived bytes ≠ .uninitiated := Phase.noConfusion
  have hagain := perform_receive_again env config started peer challenge world
  rw [← first.calls_eq, after_eq] at hrun
  simp only [run_append, run_cons, hwaiting, hagain, List.nil_append, List.singleton_append]
    at hrun
  exact hrun

/-- Up to the call that asks for an answer, nothing has happened but the first challenge. -/
theorem run_opening (attempt : Attempt calls) :
    let outcome := run env (start config) attempt.opening world
    outcome.result.2 = ⟨config, .challengeReceived attempt.bytes⟩ ∧ outcome.world = world ∧
      outcome.events =
        challengeRecords config attempt.peer attempt.challenge attempt.bytes.length := by
  let first : FirstChallenge attempt.opening :=
    ⟨attempt.before, attempt.peer, attempt.challenge, attempt.waiting, rfl, attempt.unchallenged⟩
  exact run_waiting env config world first attempt.decoded attempt.idle

/-- A run is known up to the call that asks for an answer, and goes on from there. -/
theorem run_attempt (attempt : Attempt calls) :
    let made := perform env ⟨config, .challengeReceived attempt.bytes⟩ attempt.call world
    let later := run env made.result.2 attempt.rest made.world
    (run env (start config) calls world).result.2 = later.result.2 ∧
      (run env (start config) calls world).world = later.world ∧
      (run env (start config) calls world).events =
        challengeRecords config attempt.peer attempt.challenge attempt.bytes.length ++
          (made.events ++ later.events) := by
  obtain ⟨hsession, hworld, hevents⟩ := run_opening env config world attempt
  have hsplit := congrArg (fun calls => run env (start config) calls world) attempt.split
  simp only [run_append, run_cons, hsession, hworld, hevents] at hsplit
  rw [hsplit]
  exact ⟨rfl, rfl, rfl⟩

end

/-! ## The state after a run -/

namespace Attempt

variable {calls : List (Call κ)}

/-- The provider gives a token when it is asked, in the world that the calls before have left. -/
def Granted (attempt : Attempt calls) (env : Environment σ κ χ) (config : Config) (world : σ)
    (token : List UInt8) : Prop :=
  Grants env config attempt.credentials attempt.route attempt.bytes
    (run env (start config) attempt.opening world).world token

def Refused (attempt : Attempt calls) (env : Environment σ κ χ) (config : Config) (world : σ)
    (cause : ProviderError) : Prop :=
  Refuses env config attempt.credentials attempt.route attempt.bytes
    (run env (start config) attempt.opening world).world cause

theorem granted_or_refused (attempt : Attempt calls) (env : Environment σ κ χ) (config : Config)
    (world : σ) :
    (∃ token, attempt.Granted env config world token) ∨
      ∃ cause, attempt.Refused env config world cause := by
  simp only [Granted, Refused, ← respond_ok_iff, ← respond_error_iff]
  cases (respond env config attempt.credentials attempt.route attempt.bytes
    (run env (start config) attempt.opening world).world).result with
  | ok token => exact Or.inl ⟨token, rfl⟩
  | error cause => exact Or.inr ⟨cause, rfl⟩

end Attempt

/-- One challenge, which decodes, and no call with a route after it. -/
def Awaiting (calls : List (Call κ)) : Prop :=
  challengeCount calls = 1 ∧ ∃ first : FirstChallenge calls,
    (∃ bytes, first.challenge.decode = .ok bytes) ∧ ∀ call ∈ first.after, isRouted call = false

/-- One challenge, which decodes, and the provider answers it at the first call with a route. -/
def Answering (env : Environment σ κ χ) (config : Config) (world : σ) (calls : List (Call κ)) :
    Prop :=
  challengeCount calls = 1 ∧ ∃ (attempt : Attempt calls) (token : List UInt8),
    attempt.Granted env config world token

/-- Two challenges, or a first challenge that does not decode, or one that the provider refuses to
answer at the first call with a route. -/
def Failing (env : Environment σ κ χ) (config : Config) (world : σ) (calls : List (Call κ)) :
    Prop :=
  2 ≤ challengeCount calls ∨
    (∃ (first : FirstChallenge calls) (cause : Base64.DecodeError),
      first.challenge.decode = .error cause) ∨
    ∃ (attempt : Attempt calls) (cause : ProviderError), attempt.Refused env config world cause

section

variable (env : Environment σ κ χ) (config : Config) (world : σ) {calls : List (Call κ)}

theorem state_of_unchallenged (h : challengeCount calls = 0) :
    (run env (start config) calls world).result.2.state = .uninitiated := by
  obtain ⟨replies, hrun⟩ := run_unchallenged env config world (challengeCount_eq_zero.1 h)
  rw [hrun]
  rfl

/-- The one challenge among calls is the last one. -/
theorem unchallenged_after (first : FirstChallenge calls) (h : challengeCount calls = 1) :
    ∀ call ∈ first.after, isReceive call = false := by
  obtain ⟨before, peer, challenge, after, rfl, unchallenged⟩ := first
  dsimp only
  rw [challengeCount_split, challengeCount_eq_zero.2 unchallenged] at h
  exact challengeCount_eq_zero.1 (by omega)

theorem state_of_waiting (first : FirstChallenge calls) {bytes : List UInt8}
    (decoded : first.challenge.decode = .ok bytes)
    (idle : ∀ call ∈ first.after, isReceive call = false ∧ isRouted call = false) :
    (run env (start config) calls world).result.2.state = .challengeReceived := by
  obtain ⟨hsession, -, -⟩ := run_waiting env config world first decoded idle
  rw [hsession]
  rfl

theorem session_of_granted (attempt : Attempt calls) {token : List UInt8}
    (granted : attempt.Granted env config world token)
    (answering : ∀ call ∈ attempt.rest, isReceive call = false) :
    (run env (start config) calls world).result.2 = ⟨config, .tokenGenerated token⟩ := by
  obtain ⟨hsession, -, -⟩ := run_attempt env config world attempt
  rw [Attempt.Granted, (run_opening env config world attempt).2.1, ← respond_ok_iff] at granted
  have hmade := authenticate_of_ok env config attempt.credentials attempt.route attempt.bytes
    world granted
  rw [hsession, Attempt.call, perform_authenticate, hmade]
  have idle : ∀ call ∈ attempt.rest, isIdle (.tokenGenerated token) call = true :=
    isIdle_of_unchallenged (fun _ => Phase.noConfusion) answering
  obtain ⟨replies, hrest⟩ := run_of_isIdle env config idle
    (respond env config attempt.credentials attempt.route attempt.bytes world).world
  rw [hrest]

theorem state_of_refused (attempt : Attempt calls) {cause : ProviderError}
    (refused : attempt.Refused env config world cause) :
    (run env (start config) calls world).result.2.state = .failed := by
  obtain ⟨hsession, -, -⟩ := run_attempt env config world attempt
  rw [Attempt.Refused, (run_opening env config world attempt).2.1, ← respond_error_iff] at refused
  have hmade := authenticate_of_error env config attempt.credentials attempt.route attempt.bytes
    world refused
  rw [hsession, Attempt.call, perform_authenticate, hmade]
  exact failed_run env rfl attempt.rest _

theorem state_of_malformed (first : FirstChallenge calls) {cause : Base64.DecodeError}
    (undecoded : first.challenge.decode = .error cause) :
    (run env (start config) calls world).result.2.state = .failed := by
  obtain ⟨hsession, -, -⟩ := run_malformed env config world first undecoded
  rw [hsession]
  exact failed_run env rfl first.after world

theorem state_of_rechallenged (h : 2 ≤ challengeCount calls) :
    (run env (start config) calls world).result.2.state = .failed := by
  rcases forall_or_split isReceive calls with hnone | ⟨before, call, after, rfl, hcall, hbefore⟩
  · rw [challengeCount_eq_zero.2 hnone] at h
    omega
  cases call with
  | authenticate credentials route => cases hcall
  | receive peer challenge =>
      rcases forall_or_split isReceive after with hafter | ⟨waiting, call, rest, rfl, hcall, -⟩
      · rw [challengeCount_split, challengeCount_eq_zero.2 hbefore,
          challengeCount_eq_zero.2 hafter] at h
        omega
      · cases call with
        | authenticate credentials route => cases hcall
        | receive peer' challenge' =>
            simp only [run_append env (start config) before, run_cons]
            exact failed_run_of_receive env (one_le_rank_perform_receive env _ peer challenge _)
              waiting rest peer' challenge' _

theorem state_of_awaiting (h : Awaiting calls) :
    (run env (start config) calls world).result.2.state = .challengeReceived := by
  obtain ⟨hcount, first, ⟨bytes, decoded⟩, unrouted⟩ := h
  exact state_of_waiting env config world first decoded fun call hcall =>
    ⟨unchallenged_after first hcount call hcall, unrouted call hcall⟩

theorem session_of_answering (hcount : challengeCount calls = 1) (attempt : Attempt calls)
    {token : List UInt8} (granted : attempt.Granted env config world token) :
    (run env (start config) calls world).result.2 = ⟨config, .tokenGenerated token⟩ := by
  refine session_of_granted env config world attempt granted fun call hcall => ?_
  apply unchallenged_after attempt.toFirstChallenge hcount
  rw [attempt.after_eq]
  exact List.mem_append_right _ (List.mem_cons_of_mem _ hcall)

theorem state_of_answering (h : Answering env config world calls) :
    (run env (start config) calls world).result.2.state = .tokenGenerated := by
  obtain ⟨hcount, attempt, token, granted⟩ := h
  rw [session_of_answering env config world hcount attempt granted]
  rfl

theorem state_of_failing (h : Failing env config world calls) :
    (run env (start config) calls world).result.2.state = .failed := by
  rcases h with h | ⟨first, cause, undecoded⟩ | ⟨attempt, cause, refused⟩
  · exact state_of_rechallenged env config world h
  · exact state_of_malformed env config world first undecoded
  · exact state_of_refused env config world attempt refused

/-- Every run ends in one of the four ways. -/
theorem ending_cases (calls : List (Call κ)) :
    challengeCount calls = 0 ∨ Awaiting calls ∨ Answering env config world calls ∨
      Failing env config world calls := by
  rcases Nat.lt_or_ge (challengeCount calls) 2 with hcount | hcount
  · have hone : ∀ first : FirstChallenge calls, challengeCount calls = 1 := by
      rintro ⟨before, peer, challenge, after, rfl, -⟩
      rw [challengeCount_split] at hcount ⊢
      omega
    cases opening_cases calls with
    | unchallenged h => exact Or.inl (challengeCount_eq_zero.2 h)
    | malformed first undecoded =>
        exact Or.inr (Or.inr (Or.inr (Or.inr (Or.inl ⟨first, _, undecoded⟩))))
    | waiting first decoded idle =>
        exact Or.inr (Or.inl ⟨hone first, first, ⟨_, decoded⟩, fun call hcall =>
          (idle call hcall).2⟩)
    | rechallenged first decoded after_eq idle =>
        have hafter := unchallenged_after first (hone first)
        rw [after_eq] at hafter
        cases hafter _ (List.mem_append_right _ List.mem_cons_self)
    | attempted attempt =>
        rcases attempt.granted_or_refused env config world with ⟨token, h⟩ | ⟨cause, h⟩
        · exact Or.inr (Or.inr (Or.inl ⟨hone attempt.toFirstChallenge, attempt, token, h⟩))
        · exact Or.inr (Or.inr (Or.inr (Or.inr (Or.inr ⟨attempt, cause, h⟩))))
  · exact Or.inr (Or.inr (Or.inr (Or.inl hcount)))

end

/-- The state after a run of a new session, by its calls. A session that is over stays over, and one
that has failed stays failed, however the run goes on. -/
theorem state_run_iff (env : Environment σ κ χ) (config : Config) (calls : List (Call κ))
    (world : σ) :
    let session := (run env (start config) calls world).result.2
    (session.state = .uninitiated ↔ challengeCount calls = 0) ∧
      (session.state = .challengeReceived ↔ Awaiting calls) ∧
      (session.state = .tokenGenerated ↔ Answering env config world calls) ∧
      (session.state = .failed ↔ Failing env config world calls) ∧
      ∀ more : List (Call κ),
        let extended := (run env (start config) (calls ++ more) world).result.2
        (session.isComplete = true → extended.isComplete = true) ∧
          (session.state = .failed → extended.state = .failed) := by
  intro session
  have hunchallenged : challengeCount calls = 0 → session.state = .uninitiated :=
    state_of_unchallenged env config world
  have hawaiting : Awaiting calls → session.state = .challengeReceived :=
    state_of_awaiting env config world
  have hanswering : Answering env config world calls → session.state = .tokenGenerated :=
    state_of_answering env config world
  have hfailing : Failing env config world calls → session.state = .failed :=
    state_of_failing env config world
  -- every run ends in one of four ways, and each of them leads to a state of its own
  have hcases := ending_cases env config world calls
  refine ⟨by grind, by grind, by grind, by grind, ?_⟩
  intro more extended
  have hextended : extended =
      (run env session more (run env (start config) calls world).world).result.2 := by
    simp only [extended, run_append, session]
  rw [hextended]
  exact ⟨fun h => isComplete_run env h more _, fun h => failed_run env h more _⟩

/-! ## Provider calls -/

section

variable (env : Environment σ κ χ) (config : Config) (world : σ) {calls : List (Call κ)}

theorem providerCalls_of_unattempted (h : ¬ Nonempty (Attempt calls)) :
    providerCalls (run env (start config) calls world).events = [] := by
  have hfailed : ∀ rest : List (Call κ),
      providerCalls (run env ⟨config, .failed⟩ rest world).events = [] :=
    fun rest => (views_of_records (run_of_isComplete env rfl rest world).2).1
  cases opening_cases calls with
  | unchallenged unchallenged =>
      obtain ⟨replies, hrun⟩ := run_unchallenged env config world unchallenged
      rw [hrun]
      rfl
  | malformed first undecoded =>
      obtain ⟨-, -, hevents⟩ := run_malformed env config world first undecoded
      rw [hevents]
      exact hfailed first.after
  | waiting first decoded idle =>
      obtain ⟨-, -, hevents⟩ := run_waiting env config world first decoded idle
      rw [hevents]
      exact (views_challengeRecords config _ _ _).1
  | rechallenged first decoded after_eq idle =>
      obtain ⟨-, -, hevents⟩ := run_rechallenged env config world first decoded after_eq idle
      rw [hevents]
      simp [(views_challengeRecords config first.peer first.challenge _).1, hfailed]
  | attempted attempt => exact absurd ⟨attempt⟩ h

/-- The call that has the provider answer completes the session and makes no other such call. -/
theorem perform_attempt (bytes : List UInt8) (credentials : Credentials κ) (route : Route) :
    let asked := perform env ⟨config, .challengeReceived bytes⟩
      (.authenticate credentials (some route)) world
    asked.result.2.isComplete = true ∧
      providerCalls asked.events =
        providerCalls (respond env config credentials route bytes world).events := by
  intro asked
  have hstep := perform_step env config (.challengeReceived bytes)
    (.authenticate credentials (some route)) world
  cases hstep with
  | idle quiet outcome => cases quiet
  | granted grants outcome => exact ⟨by simp only [asked, outcome]; rfl, by simp [asked, outcome]⟩
  | refused refuses outcome => exact ⟨by simp only [asked, outcome]; rfl, by simp [asked, outcome]⟩

theorem providerCalls_attempt (attempt : Attempt calls) :
    let before := run env (start config) attempt.opening world
    let asked := perform env before.result.2 attempt.call before.world
    let after := run env asked.result.2 attempt.rest asked.world
    (run env (start config) calls world).events =
        before.events ++ (asked.events ++ after.events) ∧
      providerCalls before.events = [] ∧ providerCalls after.events = [] ∧
      providerCalls asked.events =
        .created (service env config attempt.route before.world).result config.mechanism
            attempt.credentials.handle? ::
          match (creation env config attempt.credentials attempt.route before.world).1 with
          | .ok context => [.advanced context attempt.bytes]
          | .error _ => [] := by
  intro before asked after
  obtain ⟨hsession, -, hevents⟩ := run_opening env config world attempt
  obtain ⟨hcomplete, hcalls⟩ := perform_attempt env config before.world attempt.bytes
    attempt.credentials attempt.route
  rw [← hsession] at hcomplete hcalls
  refine ⟨?_, ?_, ?_, hcalls.trans (providerCalls_respond ..)⟩
  · have hsplit := congrArg (fun calls => run env (start config) calls world) attempt.split
    simp only [run_append, run_cons] at hsplit
    rw [hsplit]
  · rw [show before.events = _ from hevents]
    exact (views_challengeRecords config _ _ _).1
  · exact (views_of_records (run_of_isComplete env hcomplete attempt.rest asked.world).2).1

end

end Session

end NegotiateAuth
