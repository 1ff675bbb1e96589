import NegotiateAuth.Proofs.Challenge.Reading
import NegotiateAuth.Proofs.Session.Provider

/-! # Calls and runs

Everything that one call can do to a session: most calls leave it as it is, the others move it
forward, and only the one that has the provider answer a challenge reaches the world outside. What a
single call keeps, a whole run keeps, and so does each of its transitions.
-/

namespace NegotiateAuth

/-! ## Single calls -/

namespace Session

variable {σ κ χ : Type}

/-- The calls that a session in a phase answers on its own, without any effect. -/
def isIdle : Phase → Call κ → Bool
  | _, .receive _ _ => false
  | .challengeReceived _, .authenticate _ route => route.isNone
  | .uninitiated, .authenticate _ _ => true
  | .tokenGenerated _, .authenticate _ _ => true
  | .failed, .authenticate _ _ => true

def standingReply (config : Config) : Phase → Except AuthError Answer
  | .uninitiated => .error .notInitiated
  | .challengeReceived _ => .error .routeUnavailable
  | .tokenGenerated token => answer config token
  | .failed => .error .alreadyFailed

theorem answer_eq_ok (config : Config) (token : List UInt8) :
    answer config token = .ok ⟨config.peer.answerField, Answer.fieldValue token⟩ := by
  unfold answer
  rw [Answer.negotiate_eq_ok]
  rfl

theorem challengeRecords_records (config : Config) (peer : Peer) (challenge : Challenge)
    (size : Nat) :
    ∀ event ∈ (challengeRecords config peer challenge size : List (Event κ χ)),
      ∃ level text, event = .logged level text := by
  simp only [challengeRecords]
  split <;> simp

theorem views_challengeRecords (config : Config) (peer : Peer) (challenge : Challenge)
    (size : Nat) :
    providerCalls (challengeRecords config peer challenge size : List (Event κ χ)) = [] ∧
      requestsSent (challengeRecords config peer challenge size : List (Event κ χ)) = [] :=
  views_of_records (challengeRecords_records config peer challenge size)

theorem perform_receive (env : Environment σ κ χ) (session : Session) (peer : Peer)
    (challenge : Challenge) (world : σ) :
    perform env session (.receive peer challenge) world =
      let taken : Outcome σ (Event κ χ) _ := session.receive peer challenge world
      ⟨(.received taken.result.1, taken.result.2), taken.world, taken.events⟩ := by
  simp only [perform, Action.bind_apply, Action.pure_apply, List.append_nil]

theorem perform_receive_again (env : Environment σ κ χ) (config : Config) {phase : Phase}
    (started : phase ≠ .uninitiated) (peer : Peer) (challenge : Challenge) (world : σ) :
    perform env ⟨config, phase⟩ (.receive peer challenge) world =
      ⟨(.received (.ok ()), ⟨config, .failed⟩), world,
        [.debug "Negotiate authentication already attempted"]⟩ := by
  rw [perform_receive, receive_again started]
  rfl

theorem perform_authenticate (env : Environment σ κ χ) (session : Session)
    (credentials : Credentials κ) (route : Option Route) (world : σ) :
    perform env session (.authenticate credentials route) world =
      let answered := session.authenticate env credentials route world
      ⟨(.answered answered.result.1, answered.result.2), answered.world, answered.events⟩ := by
  simp only [perform, Action.bind_apply, Action.pure_apply, List.append_nil]

theorem perform_of_isIdle (env : Environment σ κ χ) (config : Config) {phase : Phase}
    {call : Call κ} (h : isIdle phase call = true) (world : σ) :
    perform env ⟨config, phase⟩ call world =
      ⟨(.answered (standingReply config phase), ⟨config, phase⟩), world, []⟩ := by
  cases call with
  | receive peer challenge => cases phase <;> cases h
  | authenticate credentials route =>
      rw [perform_authenticate]
      cases phase with
      | uninitiated => rw [authenticate_uninitiated]; rfl
      | challengeReceived challenge =>
          cases route with
          | none => rw [authenticate_without_route]; rfl
          | some route => cases h
      | tokenGenerated token => rw [authenticate_again]; rfl
      | failed => rw [authenticate_failed]; rfl

section

variable (env : Environment σ κ χ) (config : Config) (credentials : Credentials κ)
  (route : Route) (challenge : List UInt8) (world : σ)

theorem authenticate_of_ok {token : List UInt8}
    (h : (respond env config credentials route challenge world).result = .ok token) :
    authenticate env ⟨config, .challengeReceived challenge⟩ credentials (some route) world =
      let responded := respond env config credentials route challenge world
      ⟨(answer config token, ⟨config, .tokenGenerated token⟩), responded.world,
        responded.events⟩ := by
  simp only [authenticate, Action.bind_apply, h, Action.pure_apply, List.append_nil, enter]

theorem authenticate_of_error {cause : ProviderError}
    (h : (respond env config credentials route challenge world).result = .error cause) :
    authenticate env ⟨config, .challengeReceived challenge⟩ credentials (some route) world =
      let responded := respond env config credentials route challenge world
      ⟨(.error (.refused cause), ⟨config, .failed⟩), responded.world,
        responded.events ++ [.debug s!"Negotiate token generation failed: {cause.text}"]⟩ := by
  simp only [authenticate, Action.bind_apply, h, Action.emit_apply, Action.pure_apply,
    List.append_nil, enter]

end

inductive Step (env : Environment σ κ χ) (config : Config) (world : σ) :
    Phase → Call κ → Prop where
  | idle {phase : Phase} {call : Call κ} (quiet : isIdle phase call = true)
      (outcome : perform env ⟨config, phase⟩ call world =
        ⟨(.answered (standingReply config phase), ⟨config, phase⟩), world, []⟩) :
      Step env config world phase call
  | accepted {peer : Peer} {challenge : Challenge} {bytes : List UInt8}
      (decoded : challenge.decode = .ok bytes)
      (outcome : perform env ⟨config, .uninitiated⟩ (.receive peer challenge) world =
        ⟨(.received (.ok ()), ⟨config, .challengeReceived bytes⟩), world,
          challengeRecords config peer challenge bytes.length⟩) :
      Step env config world .uninitiated (.receive peer challenge)
  | malformed {peer : Peer} {challenge : Challenge} {cause : Base64.DecodeError}
      (undecoded : challenge.decode = .error cause)
      (outcome : perform env ⟨config, .uninitiated⟩ (.receive peer challenge) world =
        ⟨(.received (.error (.malformedChallenge cause)), ⟨config, .failed⟩), world, []⟩) :
      Step env config world .uninitiated (.receive peer challenge)
  | rejected {phase : Phase} {peer : Peer} {challenge : Challenge}
      (started : phase ≠ .uninitiated)
      (outcome : perform env ⟨config, phase⟩ (.receive peer challenge) world =
        ⟨(.received (.ok ()), ⟨config, .failed⟩), world,
          [.debug "Negotiate authentication already attempted"]⟩) :
      Step env config world phase (.receive peer challenge)
  | granted {challenge token : List UInt8} {credentials : Credentials κ} {route : Route}
      (grants : (respond env config credentials route challenge world).result = .ok token)
      (outcome : perform env ⟨config, .challengeReceived challenge⟩
          (.authenticate credentials (some route)) world =
        let responded := respond env config credentials route challenge world
        ⟨(.answered (answer config token), ⟨config, .tokenGenerated token⟩), responded.world,
          responded.events⟩) :
      Step env config world (.challengeReceived challenge) (.authenticate credentials (some route))
  | refused {challenge : List UInt8} {cause : ProviderError} {credentials : Credentials κ}
      {route : Route}
      (refuses : (respond env config credentials route challenge world).result = .error cause)
      (outcome : perform env ⟨config, .challengeReceived challenge⟩
          (.authenticate credentials (some route)) world =
        let responded := respond env config credentials route challenge world
        ⟨(.answered (.error (.refused cause)), ⟨config, .failed⟩), responded.world,
          responded.events ++ [.debug s!"Negotiate token generation failed: {cause.text}"]⟩) :
      Step env config world (.challengeReceived challenge) (.authenticate credentials (some route))

theorem perform_step (env : Environment σ κ χ) (config : Config) (phase : Phase) (call : Call κ)
    (world : σ) : Step env config world phase call := by
  by_cases quiet : isIdle phase call = true
  · exact .idle quiet (perform_of_isIdle env config quiet world)
  cases call with
  | receive peer challenge =>
      by_cases started : phase = .uninitiated
      · subst started
        cases decoded : challenge.decode with
        | ok bytes =>
            exact .accepted decoded (by rw [perform_receive, receive_of_decode decoded])
        | error cause =>
            exact .malformed decoded (by rw [perform_receive, receive_of_malformed decoded])
      · exact .rejected started (perform_receive_again env config started peer challenge world)
  | authenticate credentials route =>
      cases phase with
      | challengeReceived challenge =>
          cases route with
          | none => exact absurd rfl quiet
          | some route =>
              cases h : (respond env config credentials route challenge world).result with
              | ok token =>
                  exact .granted h (by rw [perform_authenticate, authenticate_of_ok _ _ _ _ _ _ h])
              | error cause =>
                  exact .refused h
                    (by rw [perform_authenticate, authenticate_of_error _ _ _ _ _ _ h])
      | uninitiated => exact absurd rfl quiet
      | tokenGenerated token => exact absurd rfl quiet
      | failed => exact absurd rfl quiet

theorem config_perform (env : Environment σ κ χ) (session : Session) (call : Call κ) (world : σ) :
    (perform env session call world).result.2.config = session.config := by
  obtain ⟨config, phase⟩ := session
  cases perform_step env config phase call world with
  | idle quiet outcome => rw [outcome]
  | accepted decoded outcome => rw [outcome]
  | malformed undecoded outcome => rw [outcome]
  | rejected started outcome => rw [outcome]
  | granted grants outcome => rw [outcome]
  | refused refuses outcome => rw [outcome]

/-- How far a session has come. -/
def rank : State → Nat
  | .uninitiated => 0
  | .challengeReceived => 1
  | .tokenGenerated => 2
  | .failed => 3

theorem rank_le_failed (state : State) : rank state ≤ rank .failed := by
  cases state <;> decide

/-- A call never takes a session back. -/
theorem rank_le_perform (env : Environment σ κ χ) (session : Session) (call : Call κ) (world : σ) :
    rank session.state ≤ rank (perform env session call world).result.2.state := by
  obtain ⟨config, phase⟩ := session
  cases perform_step env config phase call world with
  | idle quiet outcome => exact Nat.le_of_eq (by rw [outcome])
  | accepted decoded outcome => rw [outcome]; exact Nat.zero_le _
  | malformed undecoded outcome => rw [outcome]; exact rank_le_failed _
  | rejected started outcome => rw [outcome]; exact rank_le_failed _
  | granted grants outcome => rw [outcome]; exact Nat.le_succ 1
  | refused refuses outcome => rw [outcome]; exact rank_le_failed _

theorem isComplete_iff_rank (session : Session) :
    session.isComplete = true ↔ 2 ≤ rank session.state := by
  obtain ⟨config, phase⟩ := session
  cases phase <;> simp [isComplete, state, Phase.state, rank]

theorem failed_iff_rank (session : Session) : session.state = .failed ↔ 3 ≤ rank session.state := by
  cases session.state <;> simp [rank]

theorem one_le_rank_perform_receive (env : Environment σ κ χ) (session : Session) (peer : Peer)
    (challenge : Challenge) (world : σ) :
    1 ≤ rank (perform env session (.receive peer challenge) world).result.2.state := by
  obtain ⟨config, phase⟩ := session
  cases perform_step env config phase (.receive peer challenge) world with
  | idle quiet outcome => cases phase <;> cases quiet
  | accepted decoded outcome => rw [outcome]; exact Nat.le_refl _
  | malformed undecoded outcome => rw [outcome]; exact Nat.le_add_left _ _
  | rejected started outcome => rw [outcome]; exact Nat.le_add_left _ _

theorem failed_perform_receive (env : Environment σ κ χ) {session : Session}
    (h : 1 ≤ rank session.state) (peer : Peer) (challenge : Challenge) (world : σ) :
    (perform env session (.receive peer challenge) world).result.2.state = .failed := by
  obtain ⟨config, phase⟩ := session
  have started : phase ≠ .uninitiated := by
    rintro rfl
    exact absurd h (Nat.not_succ_le_zero 0)
  rw [perform_receive_again env config started]
  rfl

/-- A session that is over leaves records at most. -/
theorem perform_of_isComplete (env : Environment σ κ χ) {session : Session}
    (h : session.isComplete = true) (call : Call κ) (world : σ) :
    (perform env session call world).world = world ∧
      ∀ event ∈ (perform env session call world).events,
        ∃ level text, event = .logged level text := by
  obtain ⟨config, phase⟩ := session
  cases perform_step env config phase call world with
  | idle quiet outcome => simp [outcome]
  | accepted decoded outcome => cases h
  | malformed undecoded outcome => cases h
  | rejected started outcome => simp [outcome]
  | granted grants outcome => cases h
  | refused refuses outcome => cases h

/-! ## Runs -/

theorem run_cons (env : Environment σ κ χ) (session : Session) (call : Call κ)
    (calls : List (Call κ)) (world : σ) :
    run env session (call :: calls) world =
      let first := perform env session call world
      let rest := run env first.result.2 calls first.world
      ⟨(first.result.1 :: rest.result.1, rest.result.2), rest.world,
        first.events ++ rest.events⟩ := by
  simp only [run, Action.bind_apply, Action.pure_apply, List.append_nil]

/-- Split a run at any call; what comes after sees the session and the world left before. -/
theorem run_append (env : Environment σ κ χ) (session : Session) (calls more : List (Call κ))
    (world : σ) :
    run env session (calls ++ more) world =
      let first := run env session calls world
      let second := run env first.result.2 more first.world
      ⟨(first.result.1 ++ second.result.1, second.result.2), second.world,
        first.events ++ second.events⟩ := by
  induction calls generalizing session world with
  | nil => rfl
  | cons call calls ih =>
      simp only [List.cons_append, run_cons, ih, List.append_assoc]

theorem run_of_isIdle (env : Environment σ κ χ) (config : Config) {phase : Phase}
    {calls : List (Call κ)} (h : ∀ call ∈ calls, isIdle phase call = true) (world : σ) :
    ∃ replies, run env ⟨config, phase⟩ calls world =
      ⟨(replies, ⟨config, phase⟩), world, []⟩ := by
  induction calls with
  | nil => exact ⟨[], rfl⟩
  | cons call calls ih =>
      obtain ⟨replies, hrest⟩ := ih fun other hother => h other (List.mem_cons_of_mem _ hother)
      have hcall := perform_of_isIdle env config (h call List.mem_cons_self) world
      refine ⟨.answered (standingReply config phase) :: replies, ?_⟩
      simp only [run_cons, hcall, hrest, List.append_nil]

theorem config_run (env : Environment σ κ χ) (session : Session) (calls : List (Call κ))
    (world : σ) : (run env session calls world).result.2.config = session.config := by
  induction calls generalizing session world with
  | nil => rfl
  | cons call calls ih =>
      rw [run_cons]
      exact (ih _ _).trans (config_perform env session call world)

theorem rank_le_run (env : Environment σ κ χ) (session : Session) (calls : List (Call κ))
    (world : σ) : rank session.state ≤ rank (run env session calls world).result.2.state := by
  induction calls generalizing session world with
  | nil => exact Nat.le_refl _
  | cons call calls ih =>
      rw [run_cons]
      exact Nat.le_trans (rank_le_perform env session call world) (ih _ _)

theorem isComplete_run (env : Environment σ κ χ) {session : Session}
    (h : session.isComplete = true) (calls : List (Call κ)) (world : σ) :
    (run env session calls world).result.2.isComplete = true := by
  rw [isComplete_iff_rank] at h ⊢
  exact Nat.le_trans h (rank_le_run env session calls world)

theorem failed_run (env : Environment σ κ χ) {session : Session} (h : session.state = .failed)
    (calls : List (Call κ)) (world : σ) :
    (run env session calls world).result.2.state = .failed := by
  rw [failed_iff_rank] at h ⊢
  exact Nat.le_trans h (rank_le_run env session calls world)

theorem run_of_isComplete (env : Environment σ κ χ) {session : Session}
    (h : session.isComplete = true) (calls : List (Call κ)) (world : σ) :
    (run env session calls world).world = world ∧
      ∀ event ∈ (run env session calls world).events,
        ∃ level text, event = .logged level text := by
  induction calls generalizing session world with
  | nil => exact ⟨rfl, fun event hevent => absurd hevent List.not_mem_nil⟩
  | cons call calls ih =>
      obtain ⟨hworld, hrecords⟩ := perform_of_isComplete env h call world
      have hnext : (perform env session call world).result.2.isComplete = true := by
        rw [isComplete_iff_rank] at h ⊢
        exact Nat.le_trans h (rank_le_perform env session call world)
      obtain ⟨hworld', hrecords'⟩ := ih hnext (perform env session call world).world
      rw [run_cons]
      refine ⟨hworld'.trans hworld, ?_⟩
      intro event hevent
      rcases List.mem_append.1 hevent with hevent | hevent
      · exact hrecords event hevent
      · exact hrecords' event hevent

/-- A challenge that comes when a session has started fails it, whatever comes before and after. -/
theorem failed_run_of_receive (env : Environment σ κ χ) {session : Session}
    (h : 1 ≤ rank session.state) (before after : List (Call κ)) (peer : Peer)
    (challenge : Challenge) (world : σ) :
    (run env session (before ++ .receive peer challenge :: after) world).result.2.state =
      .failed := by
  simp only [run_append, run_cons]
  apply failed_run
  apply failed_perform_receive
  exact Nat.le_trans h (rank_le_run env session before world)

/-! ## Transitions -/

structure Transition (κ : Type) where
  before : Session
  call : Call κ
  reply : Reply
  after : Session

def transition (env : Environment σ κ χ) (session : Session) (call : Call κ) (world : σ) :
    Transition κ :=
  let made := perform env session call world
  ⟨session, call, made.result.1, made.result.2⟩

def transitions (env : Environment σ κ χ) : Session → List (Call κ) → σ → List (Transition κ)
  | _, [], _ => []
  | session, call :: calls, world =>
      let made := perform env session call world
      transition env session call world :: transitions env made.result.2 calls made.world

section

variable (env : Environment σ κ χ) (session : Session) (calls : List (Call κ)) (world : σ)

theorem map_call_transitions :
    (transitions env session calls world).map Transition.call = calls := by
  induction calls generalizing session world with
  | nil => rfl
  | cons call calls ih =>
      rw [transitions, List.map_cons, ih]
      rfl

theorem map_reply_transitions :
    (transitions env session calls world).map Transition.reply =
      (run env session calls world).result.1 := by
  induction calls generalizing session world with
  | nil => rfl
  | cons call calls ih =>
      rw [transitions, List.map_cons, ih, run_cons]
      rfl

theorem mem_transitions {env : Environment σ κ χ} {session : Session} {calls : List (Call κ)}
    {world : σ} {made : Transition κ} (h : made ∈ transitions env session calls world) :
    ∃ world, made = transition env made.before made.call world := by
  induction calls generalizing session world with
  | nil => cases h
  | cons call calls ih =>
      rcases List.mem_cons.1 h with rfl | h
      · exact ⟨world, rfl⟩
      · exact ih h

theorem transitions_append (more : List (Call κ)) :
    transitions env session (calls ++ more) world =
      let first := run env session calls world
      transitions env session calls world ++ transitions env first.result.2 more first.world := by
  induction calls generalizing session world with
  | nil => rfl
  | cons call calls ih =>
      simp only [List.cons_append, transitions, ih, run_cons]

/-- What every call keeps holds of the session before each transition. -/
theorem before_of_perform {env : Environment σ κ χ} {session : Session} {calls : List (Call κ)}
    {world : σ} {holds : Session → Prop}
    (keep : ∀ session call world, holds session → holds (perform env session call world).result.2)
    (h : holds session) : ∀ made ∈ transitions env session calls world, holds made.before := by
  induction calls generalizing session world with
  | nil =>
      intro made hmade
      cases hmade
  | cons call calls ih =>
      intro made hmade
      rcases List.mem_cons.1 hmade with rfl | hmade
      · exact h
      · exact ih (keep _ _ _ h) made hmade

/-- A transition of a run is made where the calls before it have led, and the rest follows on it. -/
theorem transitions_split {env : Environment σ κ χ} {session : Session} {calls : List (Call κ)}
    {world : σ} {earlier later : List (Transition κ)} {made : Transition κ}
    (h : transitions env session calls world = earlier ++ made :: later) :
    let first := run env session (earlier.map Transition.call) world
    let step := perform env first.result.2 made.call first.world
    calls = earlier.map Transition.call ++ made.call :: later.map Transition.call ∧
      made = transition env first.result.2 made.call first.world ∧
      later = transitions env step.result.2 (later.map Transition.call) step.world := by
  intro first step
  have hcalls := map_call_transitions env session calls world
  rw [h, List.map_append, List.map_cons] at hcalls
  have hlength := congrArg List.length
    (map_call_transitions env session (earlier.map Transition.call) world)
  rw [List.length_map, List.length_map] at hlength
  simp only [← hcalls, transitions_append, transitions] at h
  obtain ⟨-, htail⟩ := List.append_inj h hlength
  injection htail with hmade hlater
  exact ⟨hcalls.symm, hmade.symm, hlater.symm⟩

end

end Session

end NegotiateAuth
