import NegotiateAuth.Proofs.Provider
import NegotiateAuth.Proofs.Session.Answers
import NegotiateAuth.Proofs.Session.Naming
import NegotiateAuth.Proofs.Session.Records

/-! # What a session passes on

A session that was granted a token always answers, in a field that any peer reads the token from. A
refusal of the provider is passed on as it is by the call that hears it, under the kind that its
category decides; the session has failed by then, so that nothing is refused a second time.
-/

namespace NegotiateAuth

/-! ## Tokens -/

namespace Session

variable {σ κ χ : Type}

/-- The reply is an answer that carries the token, which the session holds from then on. -/
def AnswersWith (token : List UInt8) (made : Reply × Session) : Prop :=
  ∃ given text, made.1 = .answered (.ok given) ∧ made.2.phase = .tokenGenerated token ∧
    given.name = made.2.config.peer.answerField ∧ Answer.Carries token given.value text

theorem answersWith_answer (config : Config) (token : List UInt8) :
    AnswersWith token (.answered (answer config token), ⟨config, .tokenGenerated token⟩) := by
  rw [answer_eq_ok]
  exact ⟨_, _, rfl, rfl, rfl, Answer.carries_fieldValue token⟩

theorem standingReply_ne_unwritable (config : Config) (phase : Phase) (fault : Http.Fault) :
    standingReply config phase ≠ .error (.unwritable fault) := by
  cases phase with
  | tokenGenerated token =>
      rw [standingReply, answer_eq_ok]
      rintro ⟨⟩
  | uninitiated => simp [standingReply]
  | challengeReceived challenge => simp [standingReply]
  | failed => simp [standingReply]

/-- No call fails because its answer cannot be written. -/
theorem perform_ne_unwritable (env : Environment σ κ χ) (session : Session) (call : Call κ)
    (world : σ) (fault : Http.Fault) :
    (perform env session call world).result.1 ≠ .answered (.error (.unwritable fault)) := by
  obtain ⟨config, phase⟩ := session
  intro h
  cases perform_step env config phase call world with
  | idle quiet outcome =>
      rw [outcome] at h
      injection h with h
      exact standingReply_ne_unwritable config phase fault h
  | accepted decoded outcome => rw [outcome] at h; cases h
  | malformed undecoded outcome => rw [outcome] at h; cases h
  | rejected started outcome => rw [outcome] at h; cases h
  | granted grants outcome => rw [outcome, answer_eq_ok] at h; cases h
  | refused refuses outcome => rw [outcome] at h; cases h

section

variable {env : Environment σ κ χ} {session : Session} {world : σ}

theorem answersWith_of_token {token : List UInt8} (h : session.phase = .tokenGenerated token)
    (credentials : Credentials κ) (route : Option Route) :
    AnswersWith token (perform env session (.authenticate credentials route) world).result := by
  obtain ⟨config, phase⟩ := session
  obtain rfl : phase = .tokenGenerated token := h
  rw [perform_authenticate, authenticate_again]
  exact answersWith_answer config token

/-- When the provider is heard to advance a context to a token, the answer carries the token. -/
theorem answersWith_of_heard {level : Level} {call : Call κ} {size : Nat}
    (h : .advanced (.ok size) ∈ (perform (env.noted level) session call).heard world) :
    ∃ token, level.sizeTold token = size ∧
      AnswersWith token (perform env session call world).result := by
  obtain ⟨config, phase⟩ := session
  cases perform_step env config phase call world with
  | idle quiet outcome =>
      rw [heard_of_isIdle quiet] at h
      cases h
  | accepted decoded outcome =>
      rw [heard_receive] at h
      cases h
  | malformed undecoded outcome =>
      rw [heard_receive] at h
      cases h
  | rejected started outcome =>
      rw [heard_receive] at h
      cases h
  | granted grants outcome =>
      obtain ⟨answers, told, verdict, heard, -⟩ := respond_verdict level env config _ _ _ world
      rw [grants] at verdict
      cases verdict
      rw [heard_answer, heard] at h
      rw [outcome]
      refine ⟨_, ?_, answersWith_answer config _⟩
      rcases List.mem_append.1 h with hnamed | hanswers
      · obtain ⟨found, hfound⟩ := named_of_heardService hnamed
        cases hfound
      · simpa [eq_comm] using hanswers
  | refused refuses outcome =>
      obtain ⟨answers, told, verdict, heard, -⟩ := respond_verdict level env config _ _ _ world
      rw [refuses] at verdict
      rw [heard_answer, heard] at h
      rcases List.mem_append.1 h with hnamed | hanswers
      · obtain ⟨found, hfound⟩ := named_of_heardService hnamed
        cases hfound
      · cases verdict <;> simp at hanswers

end

/-- Every token can be handed over. The field that answers with it is always written, in a single
line of visible ASCII that any peer reads the token from. No call fails for want of it: wherever a
run has led, once the provider has advanced a context to a token the reply is an answer that carries
the token, and so is every later reply from it. -/
theorem answer_wellFormed (env : Environment σ κ χ) (session : Session) (world : σ) :
    (∀ peer token, ∃ value text,
        Answer.negotiate peer token = .ok ⟨peer.answerField, value⟩ ∧
          Answer.Carries token value text) ∧
      ∀ (earlier : List (Call κ)) (call : Call κ),
        let before := run env session earlier world
        let made := perform env before.result.2 call before.world
        (∀ fault, made.result.1 ≠ .answered (.error (.unwritable fault))) ∧
        (∀ level size,
          .advanced (.ok size) ∈
              (perform (env.noted level) before.result.2 call).heard before.world →
            ∃ token, level.sizeTold token = size ∧ AnswersWith token made.result) ∧
        ∀ token credentials route, before.result.2.phase = .tokenGenerated token →
          call = .authenticate credentials route → AnswersWith token made.result := by
  refine ⟨?_, ?_⟩
  · intro peer token
    exact ⟨_, _, Answer.negotiate_eq_ok token peer, Answer.carries_fieldValue token⟩
  · intro earlier call before made
    refine ⟨?_, ?_, ?_⟩
    · exact perform_ne_unwritable env before.result.2 call before.world
    · intro level size h
      exact answersWith_of_heard h
    · rintro token credentials route hphase rfl
      exact answersWith_of_token hphase credentials route

theorem answer_wellFormed_throughProxy :
    let received := Call.receive .proxy ⟨none⟩
    let asked := Call.authenticate .currentUser
      (some (.viaProxy ⟨"a.example", 443⟩ ⟨"proxy.example", 3128⟩))
    let before := run addressesOnly (start .viaProxy) [received] (0, 0)
    let made := perform addressesOnly before.result.2 asked before.world
    .advanced (.ok 1) ∈
        (perform (addressesOnly.noted .trace) before.result.2 asked).heard before.world ∧
      ∃ token, token.length = 1 ∧ AnswersWith token made.result := by
  intro received asked before made
  have heard : .advanced (.ok 1) ∈
      (perform (addressesOnly.noted .trace) before.result.2 asked).heard before.world := by
    exact List.mem_cons_of_mem _ (List.mem_cons_of_mem _ List.mem_cons_self)
  obtain ⟨-, hcalls⟩ := answer_wellFormed addressesOnly (start .viaProxy) (0, 0)
  obtain ⟨-, hgranted, -⟩ := hcalls [received] asked
  exact ⟨heard, hgranted .trace 1 heard⟩

end Session

/-! ## Refusals -/

/-- The error of a provider that is answered with, if it is one. -/
def Heard.refusal? : Heard → Option ProviderError
  | .created (.error cause) => some cause
  | .advanced (.error cause) => some cause
  | .named _ => none
  | .created (.ok _) => none
  | .advanced (.ok _) => none
  | .responded _ => none

namespace AuthError

def provider? : AuthError → Option ProviderError
  | refused cause => some cause
  | malformedChallenge _ => none
  | notInitiated => none
  | alreadyFailed => none
  | unwritable _ => none
  | routeUnavailable => none
  | request _ => none

structure PassesOn (cause : ProviderError) (error : AuthError) : Prop where
  provider : error.provider? = some cause
  source : error.source? = some cause.text
  credentials : error.kind = .invalidCredentials ↔
    cause.failure ∈ [.defectiveCredential, .credentialsExpired, .noCredential]
  protocol : error.kind = .protocol ↔
    cause.failure ∈ [.defectiveToken, .duplicateToken, .oldToken]
  failed : error.kind = .failed ↔
    cause.failure = .badMechanism ∨ cause.failure = .badName ∨ ∃ code, cause.failure = .other code
  text : error.message = error.kind.text ++ ": " ++ cause.text

theorem refused_passesOn (cause : ProviderError) : PassesOn cause (refused cause) := by
  obtain ⟨failure, message, source⟩ := cause
  exact
    { provider := rfl
      source := rfl
      credentials := by cases failure <;> simp [kind, ErrorKind.ofFailure]
      protocol := by cases failure <;> simp [kind, ErrorKind.ofFailure]
      failed := by cases failure <;> simp [kind, ErrorKind.ofFailure]
      text := by rw [String.append_assoc]; rfl }

end AuthError

namespace Session

variable {σ κ χ : Type}

def Reply.error? : Reply → Option AuthError
  | .received (.error error) => some error
  | .answered (.error error) => some error
  | .received (.ok _) => none
  | .answered (.ok _) => none

/-- The error of the provider that a reply passes on. -/
def Reply.refusal? (reply : Reply) : Option ProviderError :=
  reply.error?.bind AuthError.provider?

theorem refusal?_standingReply (config : Config) (phase : Phase) :
    (Reply.answered (standingReply config phase)).refusal? = none := by
  cases phase with
  | uninitiated => rfl
  | challengeReceived challenge => rfl
  | tokenGenerated token => rw [standingReply, answer_eq_ok]; rfl
  | failed => rfl

section

variable {level : Level} {env : Environment σ κ χ} {config : Config} {route : Route} {world : σ}

theorem refusals_heardService :
    (heardService level env config route world).filterMap Heard.refusal? = [] := by
  rw [List.filterMap_eq_nil_iff]
  intro answer h
  obtain ⟨found, rfl⟩ := named_of_heardService h
  rfl

theorem refusals_of_granted {answers : List Heard} {size : Nat} {told : List (Level × String)}
    (verdict : Verdict level answers (.ok size) told) :
    answers.filterMap Heard.refusal? = [] := by
  cases verdict with
  | granted size => rfl

theorem refusals_of_refused {answers : List Heard} {cause : ProviderError}
    {told : List (Level × String)} (verdict : Verdict level answers (.error cause) told) :
    answers.filterMap Heard.refusal? = [cause] := by
  cases verdict with
  | uncreated cause => rfl
  | unadvanced cause => rfl

/-- A call passes on the refusal that it hears, and no other. -/
theorem refusals_perform (level : Level) (env : Environment σ κ χ) (session : Session)
    (call : Call κ) (world : σ) :
    ((perform (env.noted level) session call).heard world).filterMap Heard.refusal? =
      (perform env session call world).result.1.refusal?.toList := by
  obtain ⟨config, phase⟩ := session
  cases perform_step env config phase call world with
  | idle quiet outcome =>
      rw [outcome, heard_of_isIdle quiet, refusal?_standingReply]
      rfl
  | accepted decoded outcome =>
      rw [outcome, heard_receive]
      rfl
  | malformed undecoded outcome =>
      rw [outcome, heard_receive]
      rfl
  | rejected started outcome =>
      rw [outcome, heard_receive]
      rfl
  | granted grants outcome =>
      obtain ⟨answers, told, verdict, heard, -⟩ := respond_verdict level env config _ _ _ world
      rw [grants] at verdict
      rw [outcome, heard_answer, heard, List.filterMap_append, refusals_heardService,
        refusals_of_granted verdict, answer_eq_ok]
      rfl
  | refused refuses outcome =>
      obtain ⟨answers, told, verdict, heard, -⟩ := respond_verdict level env config _ _ _ world
      rw [refuses] at verdict
      rw [outcome, heard_answer, heard, List.filterMap_append, refusals_heardService,
        refusals_of_refused verdict]
      rfl

/-- The replies of a run pass on the refusals that are heard in it, in order. -/
theorem refusals_run (level : Level) (env : Environment σ κ χ) (session : Session)
    (calls : List (Call κ)) (world : σ) :
    ((run (env.noted level) session calls).heard world).filterMap Heard.refusal? =
      (run env session calls world).result.1.filterMap Reply.refusal? := by
  induction calls generalizing session world with
  | nil => rfl
  | cons call calls ih =>
      rw [heard_run_cons, run_cons]
      simp only [List.filterMap_append, refusals_perform, ih, List.filterMap_cons]
      cases (perform env session call world).result.1.refusal? <;> rfl

/-- A refusal is passed on by a session that waits with its challenge, and that has failed then. -/
theorem perform_of_refusal {session : Session} {call : Call κ} {cause : ProviderError}
    (h : (perform env session call world).result.1.refusal? = some cause) :
    session.state = .challengeReceived ∧
      (perform env session call world).result =
        (.answered (.error (.refused cause)), ⟨session.config, .failed⟩) := by
  obtain ⟨config, phase⟩ := session
  cases perform_step env config phase call world with
  | idle quiet outcome =>
      rw [outcome, refusal?_standingReply] at h
      cases h
  | accepted decoded outcome => rw [outcome] at h; cases h
  | malformed undecoded outcome => rw [outcome] at h; cases h
  | rejected started outcome => rw [outcome] at h; cases h
  | granted grants outcome =>
      rw [outcome, answer_eq_ok] at h
      cases h
  | refused refuses outcome =>
      rw [outcome] at h ⊢
      obtain rfl := Option.some.inj h
      exact ⟨rfl, rfl⟩

theorem refusals_of_failed {session : Session} (hfailed : session.state = .failed)
    (calls : List (Call κ)) (world : σ) :
    (run env session calls world).result.1.filterMap Reply.refusal? = [] := by
  induction calls generalizing session world with
  | nil => rfl
  | cons call calls ih =>
      have hreply : (perform env session call world).result.1.refusal? = none := by
        rw [Option.eq_none_iff_forall_ne_some]
        intro cause hcause
        rw [(perform_of_refusal hcause).1] at hfailed
        cases hfailed
      rw [run_cons, List.filterMap_cons, hreply]
      exact ih (failed_perform hfailed) _

/-- There is one refusal at most in a run. -/
theorem refusals_length_le_one (env : Environment σ κ χ) (session : Session)
    (calls : List (Call κ)) (world : σ) :
    ((run env session calls world).result.1.filterMap Reply.refusal?).length ≤ 1 := by
  induction calls generalizing session world with
  | nil => exact Nat.zero_le 1
  | cons call calls ih =>
      rw [run_cons, List.filterMap_cons]
      cases hcause : (perform env session call world).result.1.refusal? with
      | none => exact ih _ _
      | some cause =>
          have hfailed : (perform env session call world).result.2.state = .failed := by
            rw [(perform_of_refusal hcause).2]
            rfl
          simp only [refusals_of_failed hfailed]
          exact Nat.le_refl 1

theorem reply_of_failed {session : Session} (hfailed : session.state = .failed)
    (credentials : Credentials κ) (route : Option Route) (world : σ) :
    (perform env session (.authenticate credentials route) world).result.1 =
      .answered (.error .alreadyFailed) := by
  obtain ⟨config, phase⟩ := session
  cases phase with
  | failed => rw [perform_authenticate, authenticate_failed]
  | uninitiated => cases hfailed
  | challengeReceived challenge => cases hfailed
  | tokenGenerated token => cases hfailed

theorem reply_of_failed_run {session : Session} (hfailed : session.state = .failed)
    {calls : List (Call κ)} {made : Transition κ} (h : made ∈ transitions env session calls world)
    {credentials : Credentials κ} {route : Option Route}
    (hcall : made.call = .authenticate credentials route) :
    made.reply = .answered (.error .alreadyFailed) := by
  have hbefore := failed_before hfailed made h
  obtain ⟨world, hmade⟩ := mem_transitions h
  rw [hmade, hcall]
  exact reply_of_failed hbefore credentials route world

end

/-- Each refusal of the provider is reported once, as it is. The refusals that the replies of a run
pass on are those that are heard in it, and there is one at most. The call that hears it replies
with an error that passes it on, and leaves the session failed; from then on the provider is left
alone, and whatever else is called, every request for an answer is told of a failure with nothing
beneath it. -/
theorem refusals_reported (env : Environment σ κ χ) (session : Session) (calls : List (Call κ))
    (world : σ) :
    let outcome := run env session calls world
    (∀ level, outcome.result.1.filterMap Reply.refusal? =
        ((run (env.noted level) session calls).heard world).filterMap Heard.refusal?) ∧
      (outcome.result.1.filterMap Reply.refusal?).length ≤ 1 ∧
      ∀ earlier call later, calls = earlier ++ call :: later →
        let before := run env session earlier world
        let made := perform env before.result.2 call before.world
        let after := run env made.result.2 later made.world
        ∀ level cause,
          (.created (.error cause) ∈
              (perform (env.noted level) before.result.2 call).heard before.world ∨
            .advanced (.error cause) ∈
              (perform (env.noted level) before.result.2 call).heard before.world) →
          (∃ error, made.result.1 = .answered (.error error) ∧ error.PassesOn cause) ∧
            outcome.result.1.filterMap Reply.refusal? = [cause] ∧
            made.result.2.state = .failed ∧ after.result.2.state = .failed ∧
            providerCalls after.events = [] ∧
            ∀ next ∈ transitions env made.result.2 later made.world, ∀ credentials route,
              next.call = .authenticate credentials route →
                ∃ error, next.reply = .answered (.error error) ∧ error.kind = .failed ∧
                  error.source? = none ∧ error.provider? = none := by
  intro outcome
  refine ⟨fun level => (refusals_run level env session calls world).symm,
    refusals_length_le_one env session calls world, ?_⟩
  rintro earlier call later rfl before made after level cause heard
  have hrefusal : made.result.1.refusal? = some cause := by
    have hmem : cause ∈ ((perform (env.noted level) before.result.2 call).heard
        before.world).filterMap Heard.refusal? := by
      rw [List.mem_filterMap]
      rcases heard with heard | heard
      · exact ⟨_, heard, rfl⟩
      · exact ⟨_, heard, rfl⟩
    rw [refusals_perform] at hmem
    exact Option.mem_toList.1 hmem
  obtain ⟨-, hmade⟩ := perform_of_refusal hrefusal
  have hfailed : made.result.2.state = .failed := by
    rw [hmade]
    rfl
  have hreply : made.result.1 = .answered (.error (.refused cause)) := by
    rw [hmade]
  have hcomplete : made.result.2.isComplete = true := by
    rw [hmade]
    rfl
  refine ⟨⟨_, hreply, AuthError.refused_passesOn cause⟩, ?_, hfailed,
    failed_run env hfailed later made.world,
    (views_of_records (run_of_isComplete env hcomplete later made.world).2).1, ?_⟩
  · -- The refusals before and after this one would be too many.
    have hall : outcome.result.1.filterMap Reply.refusal? =
        before.result.1.filterMap Reply.refusal? ++ [cause] := by
      have hafter : after.result.1.filterMap Reply.refusal? = [] :=
        refusals_of_failed hfailed later made.world
      simp only [outcome, run_append, run_cons, List.filterMap_append, List.filterMap_cons]
      rw [hrefusal, hafter]
    have hone := refusals_length_le_one env session (earlier ++ call :: later) world
    rw [hall, List.length_append] at hone
    have hbefore : before.result.1.filterMap Reply.refusal? = [] := by
      rw [← List.length_eq_zero_iff]
      simpa using hone
    rw [hall, hbefore, List.nil_append]
  · intro next hnext credentials route hcall
    exact ⟨_, reply_of_failed_run hfailed hnext hcall, rfl, rfl, rfl⟩

def refusing (cause : ProviderError) : Environment Unit Unit Unit where
  createContext _ _ _ world := (.ok (), world)
  advance _ _ world := (.error cause, world)
  canonicalize _ world := (.error "no such name", world)

theorem refusals_reported_expired :
    let cause : ProviderError := ⟨.credentialsExpired, "ticket", some "clock"⟩
    let received := Call.receive .target ⟨none⟩
    let asked := Call.authenticate .currentUser (some (.direct ⟨"a.example", 443⟩))
    let outcome := run (refusing cause) (start .target) [received, asked, received, asked] ()
    outcome.result.1.filterMap Reply.refusal? = [cause] ∧
      outcome.result.2.state = .failed ∧
      ∃ error ∈ outcome.result.1.filterMap Reply.error?,
        error.PassesOn cause ∧
          error.message = "invalid credentials: ticket (credentials expired)" := by
  intro cause received asked outcome
  obtain ⟨-, -, hreports⟩ :=
    refusals_reported (refusing cause) (start .target) [received, asked, received, asked] ()
  have heard : .advanced (.error cause) ∈
      (perform ((refusing cause).noted .debug) ⟨.target, .challengeReceived []⟩ asked).heard () :=
    List.mem_cons_of_mem _ (List.mem_cons_of_mem _ List.mem_cons_self)
  obtain ⟨⟨error, hreply, hpasses⟩, hone, -, hfailed, -⟩ :=
    hreports [received] asked [received, asked] rfl .debug cause (Or.inr heard)
  injection hreply with hreply
  injection hreply with hreply
  refine ⟨hone, hfailed, error, ?_, hpasses, ?_⟩
  · rw [← hreply]
    exact List.mem_cons_self
  · rw [← hreply]
    rfl

end Session

end NegotiateAuth
