import NegotiateAuth.Proofs.Session.History

/-! # The one answer of a session

All answers that a session gives are one and the same. The token that the provider grants is kept
from the first answer on, each later answer is written from it again, and the next challenge ends
the giving of answers for good.
-/

namespace NegotiateAuth

namespace Session

variable {σ κ χ : Type}

def Transition.Answers (made : Transition κ) (given : Answer) : Prop :=
  made.reply = .answered (.ok given)

/-- The session gives this answer from now on, or none any more. -/
def Settled (session : Session) (given : Answer) : Prop :=
  session.state = .failed ∨
    ∃ token, session.phase = .tokenGenerated token ∧ answer session.config token = .ok given

section

variable {env : Environment σ κ χ} {session : Session} {call : Call κ} {world : σ}
  {given again : Answer}

/-- An answer is written from the token that the session holds afterwards. -/
theorem token_of_answers (h : (transition env session call world).Answers given) :
    ∃ token, (perform env session call world).result.2 = ⟨session.config, .tokenGenerated token⟩ ∧
      answer session.config token = .ok given ∧
      (session.phase = .tokenGenerated token ∨ session.state = .challengeReceived) := by
  obtain ⟨config, phase⟩ := session
  simp only [Transition.Answers, transition] at h
  cases perform_step env config phase call world with
  | idle quiet outcome =>
      rw [outcome] at h ⊢
      injection h with h
      cases phase with
      | tokenGenerated token => exact ⟨token, rfl, h, Or.inl rfl⟩
      | uninitiated => cases h
      | challengeReceived challenge => cases h
      | failed => cases h
  | accepted decoded outcome => rw [outcome] at h; cases h
  | malformed undecoded outcome => rw [outcome] at h; cases h
  | rejected started outcome => rw [outcome] at h; cases h
  | granted grants outcome =>
      rw [outcome] at h ⊢
      injection h with h
      exact ⟨_, rfl, h, Or.inr rfl⟩
  | refused refuses outcome => rw [outcome] at h; cases h

theorem failed_perform (h : session.state = .failed) :
    (perform env session call world).result.2.state = .failed := by
  rw [failed_iff_rank] at h ⊢
  exact Nat.le_trans h (rank_le_perform env session call world)

theorem settled_perform (h : session.Settled given) :
    (perform env session call world).result.2.Settled given := by
  rcases h with h | ⟨token, hphase, hanswer⟩
  · exact Or.inl (failed_perform h)
  obtain ⟨config, phase⟩ := session
  obtain rfl : phase = .tokenGenerated token := hphase
  cases perform_step env config (.tokenGenerated token) call world with
  | idle quiet outcome => rw [outcome]; exact Or.inr ⟨token, rfl, hanswer⟩
  | rejected started outcome => rw [outcome]; exact Or.inl rfl

theorem settled_of_answers (h : (transition env session call world).Answers given) :
    (perform env session call world).result.2.Settled given := by
  obtain ⟨token, hnext, hanswer, -⟩ := token_of_answers h
  rw [hnext]
  exact Or.inr ⟨token, rfl, hanswer⟩

theorem not_answers_of_failed (hfailed : session.state = .failed) :
    ¬ (transition env session call world).Answers given := by
  intro h
  obtain ⟨token, -, -, hphase | hwaiting⟩ := token_of_answers h
  · rw [state, hphase] at hfailed
    cases hfailed
  · rw [hwaiting] at hfailed
    cases hfailed

theorem eq_of_settled (hsettled : session.Settled given)
    (h : (transition env session call world).Answers again) : again = given := by
  rcases hsettled with hfailed | ⟨token, hphase, hanswer⟩
  · exact absurd h (not_answers_of_failed hfailed)
  obtain ⟨held, -, hagain, hheld | hwaiting⟩ := token_of_answers h
  · rw [hphase] at hheld
    obtain rfl := Phase.tokenGenerated.inj hheld
    rw [hanswer] at hagain
    exact (Except.ok.inj hagain).symm
  · rw [state, hphase] at hwaiting
    cases hwaiting

end

section

variable {env : Environment σ κ χ} {session : Session} {calls : List (Call κ)} {world : σ}
  {made : Transition κ} {given : Answer}

theorem failed_before (hfailed : session.state = .failed) :
    ∀ made ∈ transitions env session calls world, made.before.state = .failed := by
  have keep : ∀ session call world, session.state = .failed →
      (perform env session call world).result.2.state = .failed :=
    fun _ _ _ => failed_perform
  exact before_of_perform keep hfailed

theorem not_answers_of_failed_run (hfailed : session.state = .failed)
    (hmade : made ∈ transitions env session calls world) : ¬ made.Answers given := by
  obtain ⟨world, hmade'⟩ := mem_transitions hmade
  rw [hmade']
  exact not_answers_of_failed (failed_before hfailed made hmade)

theorem eq_of_settled_run {again : Answer} (hsettled : session.Settled given)
    (hmade : made ∈ transitions env session calls world) (h : made.Answers again) :
    again = given := by
  obtain ⟨world, hmade'⟩ := mem_transitions hmade
  rw [hmade'] at h
  have keep : ∀ session call world, session.Settled given →
      (perform env session call world).result.2.Settled given :=
    fun _ _ _ => settled_perform
  exact eq_of_settled (before_of_perform keep hsettled made hmade) h

/-- Whatever is asked of a session, and however often, it has one answer. -/
theorem answers_agree {other : Transition κ} {again : Answer}
    (hmade : made ∈ transitions env session calls world)
    (hother : other ∈ transitions env session calls world)
    (hgiven : made.Answers given) (hagain : other.Answers again) : given = again := by
  induction calls generalizing session world with
  | nil => cases hmade
  | cons call calls ih =>
      rcases List.mem_cons.1 hmade with rfl | hmade
      · rcases List.mem_cons.1 hother with rfl | hother
        · injection hgiven.symm.trans hagain with h
          injection h
        · exact (eq_of_settled_run (settled_of_answers hgiven) hother hagain).symm
      · rcases List.mem_cons.1 hother with rfl | hother
        · exact eq_of_settled_run (settled_of_answers hagain) hmade hgiven
        · exact ih hmade hother

/-- Up to the next challenge a session with a token repeats its answer, and then gives none. -/
theorem answers_until_challenged {config : Config} {token : List UInt8}
    {between later : List (Transition κ)} {next : Transition κ}
    (h : transitions env ⟨config, .tokenGenerated token⟩ calls world = between ++ next :: later)
    (hbetween : ∀ made ∈ between, isReceive made.call = false) :
    (isReceive next.call = false →
        next.Answers ⟨config.peer.answerField, Answer.fieldValue token⟩) ∧
      (isReceive next.call = true → ∀ made ∈ later, ∀ given, ¬ made.Answers given) := by
  obtain ⟨-, hnext, hlater⟩ := transitions_split h
  have hcalls : ∀ call ∈ between.map Transition.call, isReceive call = false := by
    intro call hcall
    obtain ⟨made, hmade, rfl⟩ := List.mem_map.1 hcall
    exact hbetween made hmade
  have idle : ∀ call ∈ between.map Transition.call, isIdle (.tokenGenerated token) call = true :=
    isIdle_of_unchallenged (fun _ => Phase.noConfusion) hcalls
  obtain ⟨replies, hrun⟩ := run_of_isIdle env config idle world
  rw [hrun] at hnext hlater
  cases hcall : next.call with
  | authenticate credentials route =>
      have quiet : isIdle (.tokenGenerated token) (Call.authenticate credentials route) = true :=
        rfl
      refine ⟨fun _ => ?_, fun hreceive => absurd hreceive Bool.false_ne_true⟩
      rw [hnext, hcall, Transition.Answers, transition, perform_of_isIdle env config quiet,
        standingReply, answer_eq_ok]
  | receive peer challenge =>
      refine ⟨fun hreceive => absurd hreceive.symm Bool.false_ne_true, ?_⟩
      intro _ made hmade given
      have started : Phase.tokenGenerated token ≠ .uninitiated := Phase.noConfusion
      rw [hlater, hcall, perform_receive_again env config started] at hmade
      exact not_answers_of_failed_run rfl hmade

end

def Attempt.extend {calls whole more : List (Call κ)} (attempt : Attempt calls)
    (h : whole = calls ++ more) : Attempt whole :=
  { attempt with
    after := attempt.after ++ more
    rest := attempt.rest ++ more
    calls_eq := by rw [h, ← List.cons_append, ← List.append_assoc, ← attempt.calls_eq]
    after_eq := by rw [attempt.after_eq, List.append_assoc, List.cons_append] }

section

variable {env : Environment σ κ χ} {config : Config} {calls : List (Call κ)} {world : σ}

/-- A session with a token has it from the provider. -/
theorem granted_of_token {token : List UInt8}
    (h : (run env (start config) calls world).result.2 = ⟨config, .tokenGenerated token⟩) :
    ∃ attempt : Attempt calls, attempt.Granted env config world token := by
  have hstate := congrArg state h
  rcases ending_cases env config world calls with hnone | hawaiting | hanswering | hfailing
  · rw [state_of_unchallenged env config world hnone] at hstate
    cases hstate
  · rw [state_of_awaiting env config world hawaiting] at hstate
    cases hstate
  · obtain ⟨hcount, attempt, held, granted⟩ := hanswering
    rw [session_of_answering env config world hcount attempt granted] at h
    injection h with _ hphase
    injection hphase with hheld
    exact ⟨attempt, hheld ▸ granted⟩
  · rw [state_of_failing env config world hfailing] at hstate
    cases hstate

/-- An answer is written from the token that the provider grants in the run. -/
theorem granted_of_answers {made : Transition κ} {given : Answer}
    (hmade : made ∈ transitions env (start config) calls world) (h : made.Answers given) :
    ∃ (attempt : Attempt calls) (token : List UInt8), attempt.Granted env config world token ∧
      given = ⟨config.peer.answerField, Answer.fieldValue token⟩ := by
  obtain ⟨earlier, later, hsplit⟩ := List.append_of_mem hmade
  obtain ⟨hcalls, hmade', -⟩ := transitions_split hsplit
  rw [hmade'] at h
  obtain ⟨token, hsession, hanswer, -⟩ := token_of_answers h
  rw [config_run] at hsession hanswer
  rw [answer_eq_ok] at hanswer
  have hupto :
      (run env (start config) (earlier.map Transition.call ++ [made.call]) world).result.2 =
        ⟨config, .tokenGenerated token⟩ := by
    rw [run_append]
    exact hsession
  obtain ⟨attempt, granted⟩ := granted_of_token hupto
  have hwhole : calls =
      (earlier.map Transition.call ++ [made.call]) ++ later.map Transition.call := by
    rw [List.append_assoc]
    exact hcalls
  exact ⟨attempt.extend hwhole, token, granted, (Except.ok.inj hanswer).symm⟩

/-- The call that the provider grants a token for has the answer that is written from it. -/
theorem answers_of_granted (attempt : Attempt calls) {token : List UInt8}
    (granted : attempt.Granted env config world token) :
    ∃ earlier made later, transitions env (start config) calls world = earlier ++ made :: later ∧
      earlier.map Transition.call = attempt.opening ∧ made.call = attempt.call ∧
      made.Answers ⟨config.peer.answerField, Answer.fieldValue token⟩ := by
  obtain ⟨hsession, hworld, -⟩ := run_opening env config world attempt
  have hsplit := congrArg (fun calls => transitions env (start config) calls world) attempt.split
  simp only [transitions_append, transitions, hsession, hworld] at hsplit
  refine ⟨_, _, _, hsplit, map_call_transitions .., rfl, ?_⟩
  rw [Attempt.Granted, hworld, ← respond_ok_iff] at granted
  rw [Transition.Answers, transition, Attempt.call, perform_authenticate,
    authenticate_of_ok env config attempt.credentials attempt.route attempt.bytes world granted,
    answer_eq_ok]

theorem providerCalls_of_granted (attempt : Attempt calls) {token : List UInt8}
    (granted : attempt.Granted env config world token) :
    let before := run env (start config) attempt.opening world
    ∃ context between,
      creation env config attempt.credentials attempt.route before.world = (.ok context, between) ∧
        (env.advance context attempt.bytes between).1 = .ok token ∧
        providerCalls (run env (start config) calls world).events =
          [.created (service env config attempt.route before.world).result config.mechanism
              attempt.credentials.handle?,
            .advanced context attempt.bytes] := by
  obtain ⟨context, created, advanced⟩ := granted
  obtain ⟨hevents, hbefore, hafter, hasked⟩ := providerCalls_attempt env config world attempt
  rw [created] at hasked
  refine ⟨context, _, Prod.ext created rfl, advanced, ?_⟩
  rw [hevents, providerCalls_append, providerCalls_append, hbefore, hafter, hasked,
    List.nil_append, List.append_nil]

end

/-- The answers of a run. All of them are the same field: its name goes by the configured peer, and
its value by the token of the one context that the provider advanced. From the first answer to the
next challenge each call for an answer has it, and after that challenge none has any. -/
theorem answers_run (env : Environment σ κ χ) (config : Config) (calls : List (Call κ))
    (world : σ) :
    let made := transitions env (start config) calls world
    (∀ one ∈ made, ∀ other ∈ made, ∀ given again,
        one.Answers given → other.Answers again → given = again) ∧
      (∀ one ∈ made, ∀ given, one.Answers given →
        given.name = (if config.proxy then .proxyAuthorization else .authorization) ∧
          given.value.sensitive = true ∧
          ∃ attempt : Attempt calls,
            let before := run env (start config) attempt.opening world
            ∃ context between token,
              creation env config attempt.credentials attempt.route before.world =
                  (.ok context, between) ∧
                (env.advance context attempt.bytes between).1 = .ok token ∧
                providerCalls (run env (start config) calls world).events =
                  [.created (service env config attempt.route before.world).result
                      config.mechanism attempt.credentials.handle?,
                    .advanced context attempt.bytes] ∧
                given.value.bytes = Text.utf8 ("Negotiate " ++ encodeToken token).toList ∧
                Answer.Carries token given.value ("Negotiate " ++ encodeToken token) ∧
                decodeToken (encodeToken token) = .ok token) ∧
      (∀ (attempt : Attempt calls) (token : List UInt8),
        attempt.Granted env config world token →
          ∃ earlier one later, made = earlier ++ one :: later ∧
            earlier.map Transition.call = attempt.opening ∧ one.call = attempt.call ∧
            one.Answers ⟨config.peer.answerField, Answer.fieldValue token⟩) ∧
      ∀ earlier one between next later, made = earlier ++ one :: (between ++ next :: later) →
        (∀ skipped ∈ between, isReceive skipped.call = false) →
        ∀ given, one.Answers given →
          (isReceive next.call = false → next.Answers given) ∧
            (isReceive next.call = true → ∀ late ∈ later, ∀ again, ¬ late.Answers again) := by
  intro made
  refine ⟨fun one hone other hother given again => answers_agree hone hother, ?_,
    fun attempt token => answers_of_granted attempt, ?_⟩
  · intro one hone given hgiven
    obtain ⟨attempt, token, granted, rfl⟩ := granted_of_answers hone hgiven
    obtain ⟨context, between, created, advanced, hcalls⟩ := providerCalls_of_granted attempt granted
    refine ⟨config.answerField_peer, rfl, attempt, context, between, token, created, advanced,
      hcalls, ?_⟩
    rw [← Answer.text_eq]
    exact ⟨rfl, Answer.carries_fieldValue token, decodeToken_encodeToken token⟩
  · intro earlier one between next later hsplit hbetween given hgiven
    obtain ⟨-, hone, hlater⟩ := transitions_split hsplit
    rw [hone] at hgiven
    obtain ⟨token, hsession, hanswer, -⟩ := token_of_answers hgiven
    rw [hsession] at hlater
    rw [answer_eq_ok] at hanswer
    obtain rfl := Except.ok.inj hanswer
    exact answers_until_challenged hlater.symm hbetween

end Session

end NegotiateAuth
