import Mathlib.Data.List.Forall2
import NegotiateAuth.Proofs.Exchange.Requests
import NegotiateAuth.Proofs.Session.Answers
import NegotiateAuth.Proofs.Session.Records

/-! # What an exchange keeps to itself

Of the credentials that a call brings, the provider is given a delegated handle and nothing else, so
that neither a user name nor a password makes a difference. The tokens that the provider generates
do not show in the records of an exchange beyond their sizes, nor in a diagnostic text.
-/

namespace NegotiateAuth

/-! ## Credentials -/

/-- Explicit credentials give way to any others of their kind, or to those of the current user. -/
inductive Credentials.Replaces {κ : Type} : Credentials κ → Credentials κ → Prop where
  | unchanged (credentials : Credentials κ) : Replaces credentials credentials
  | explicit (username password username' password' : String) :
      Replaces (.explicit username password) (.explicit username' password')
  | currentUser (username password : String) : Replaces (.explicit username password) .currentUser

theorem Credentials.Replaces.handle?_eq {κ : Type} {credentials others : Credentials κ}
    (h : credentials.Replaces others) : others.handle? = credentials.handle? := by
  cases h with
  | unchanged => rfl
  | explicit => rfl
  | currentUser => rfl

namespace Session

variable {σ κ χ : Type}

inductive Call.Replaces : Call κ → Call κ → Prop where
  | receive (peer : Peer) (challenge : Challenge) :
      Replaces (.receive peer challenge) (.receive peer challenge)
  | authenticate {credentials others : Credentials κ} (replaced : credentials.Replaces others)
      (route : Option Route) :
      Replaces (.authenticate credentials route) (.authenticate others route)

/-- What a transition shows of itself: the sessions before and after it, and the reply. -/
def Transition.LooksLike (one other : Transition κ) : Prop :=
  other.before = one.before ∧ other.reply = one.reply ∧ other.after = one.after

/-- The handle is all that a call for an answer takes of its credentials. -/
theorem authenticate_of_handle?_eq {credentials others : Credentials κ}
    (h : others.handle? = credentials.handle?) (env : Environment σ κ χ) (session : Session)
    (route : Option Route) :
    authenticate env session others route = authenticate env session credentials route := by
  simp only [authenticate, respond, h]

theorem perform_replaces {call other : Call κ} (h : call.Replaces other)
    (env : Environment σ κ χ) (session : Session) :
    perform env session other = perform env session call := by
  cases h with
  | receive peer challenge => rfl
  | authenticate replaced route =>
      simp only [perform, authenticate_of_handle?_eq replaced.handle?_eq]

theorem run_replaces {calls others : List (Call κ)} (h : List.Forall₂ Call.Replaces calls others)
    (env : Environment σ κ χ) (session : Session) (world : σ) :
    run env session others world = run env session calls world := by
  induction h generalizing session world with
  | nil => rfl
  | cons hcall hcalls ih => simp only [run_cons, perform_replaces hcall, ih]

theorem transitions_replaces {calls others : List (Call κ)}
    (h : List.Forall₂ Call.Replaces calls others) (env : Environment σ κ χ) (session : Session)
    (world : σ) :
    List.Forall₂ Transition.LooksLike (transitions env session calls world)
      (transitions env session others world) := by
  induction h generalizing session world with
  | nil => exact .nil
  | cons hcall hcalls ih =>
      simp only [transitions, transition, perform_replaces hcall]
      exact .cons ⟨rfl, rfl, rfl⟩ (ih _ _)

/-- No credential is passed on from a call that brings explicit ones. -/
theorem uncredentialed_of_explicit {env : Environment σ κ χ} {session : Session}
    {username password : String} {route : Option Route} {world : σ} {service : String}
    {mechanism : Mechanism} {credential : Option κ}
    (h : .created service mechanism credential ∈
      (perform env session (.authenticate (.explicit username password) route) world).events) :
    credential = none := by
  obtain ⟨config, phase⟩ := session
  cases perform_step env config phase (.authenticate (.explicit username password) route) world with
  | idle quiet outcome =>
      rw [outcome] at h
      cases h
  | granted grants outcome =>
      rw [outcome] at h
      exact handle?_of_created _ _ _ _ _ _ (mem_providerCalls.2 ⟨h, rfl⟩)
  | refused refuses outcome =>
      rw [outcome] at h
      rcases List.mem_append.1 h with h | h
      · exact handle?_of_created _ _ _ _ _ _ (mem_providerCalls.2 ⟨h, rfl⟩)
      · cases List.mem_singleton.1 h

end Session

namespace Exchange

variable {σ κ χ : Type}

theorem run_replaces {exchange : Exchange σ κ χ} {credentials : Credentials κ}
    (h : exchange.credentials.Replaces credentials) (request : Http.Request) (world : σ) :
    { exchange with credentials }.run request world = exchange.run request world := by
  have hretry : ∀ (request : Http.Request) (challenge : Challenge),
      { exchange with credentials }.retry request challenge = exchange.retry request challenge := by
    intro request challenge
    simp only [retry, Session.authenticate_of_handle?_eq h.handle?_eq]
    rfl
  simp only [run, hretry]

theorem uncredentialed_of_explicit {exchange : Exchange σ κ χ} {request : Http.Request} {world : σ}
    {username password : String} (explicit : exchange.credentials = .explicit username password)
    {service : String} {mechanism : Mechanism} {credential : Option κ}
    (h : .created service mechanism credential ∈ (exchange.run request world).events) :
    credential = none := by
  have hcall := mem_providerCalls.2 ⟨h, rfl⟩
  rcases providerCalls_cases exchange request world with hnone | ⟨host, bytes, after, hresponded⟩
  · rw [hnone] at hcall
    cases hcall
  · rw [hresponded, responded, explicit] at hcall
    exact Session.handle?_of_created _ _ _ _ _ _ hcall

end Exchange

/-- Explicit credentials are without effect. Others of their kind, or those of the current user, may
take their place at each call on its own: the run of a session and the run of an exchange stay the
same in every result, state, event and in the world they leave. No credential is passed on for
explicit ones, and what is shown of them is the same for every password. -/
theorem Credentials.explicit_unobserved {σ κ χ : Type} (env : Environment σ κ χ)
    (session : Session) (exchange : Exchange σ κ χ) (request : Http.Request) (world : σ) :
    (∀ calls others : List (Session.Call κ), List.Forall₂ Session.Call.Replaces calls others →
        Session.run env session others world = Session.run env session calls world ∧
          List.Forall₂ Session.Transition.LooksLike
            (Session.transitions env session calls world)
            (Session.transitions env session others world)) ∧
      (∀ credentials, exchange.credentials.Replaces credentials →
        { exchange with credentials }.run request world = exchange.run request world) ∧
      (∀ username password route service mechanism credential,
        .created service mechanism credential ∈ (Session.perform env session
            (.authenticate (.explicit username password) route) world).events →
          credential = none) ∧
      (∀ username password service mechanism credential,
        exchange.credentials = .explicit username password →
          .created service mechanism credential ∈ (exchange.run request world).events →
            credential = none) ∧
      ∀ (handleText : κ → String) (username password other : String),
        (Credentials.explicit username password).debugText handleText =
          (Credentials.explicit username other).debugText handleText := by
  refine ⟨?_, ?_, ?_, ?_, fun _ _ _ _ => rfl⟩
  · intro calls others h
    exact ⟨Session.run_replaces h env session world,
      Session.transitions_replaces h env session world⟩
  · intro credentials h
    exact Exchange.run_replaces h request world
  · intro username password route service mechanism credential
    exact Session.uncredentialed_of_explicit
  · intro username password service mechanism credential explicit
    exact Exchange.uncredentialed_of_explicit explicit

/-! ## Tokens -/

inductive Http.AlikeAt (level : Level) (peer : Peer) :
    Except String Http.Response → Except String Http.Response → Prop where
  | error (cause cause' : String) : AlikeAt level peer (.error cause) (.error cause')
  | unchallenged {response response' : Http.Response} (status : response.status = response'.status)
      (found : Challenge.ofFields? peer response.fields = none)
      (found' : Challenge.ofFields? peer response'.fields = none) :
      AlikeAt level peer (.ok response) (.ok response')
  | challenged {response response' : Http.Response} {challenge challenge' : Challenge}
      (status : response.status = response'.status)
      (found : Challenge.ofFields? peer response.fields = some challenge)
      (found' : Challenge.ofFields? peer response'.fields = some challenge')
      (alike : challenge.AlikeAt level challenge') :
      AlikeAt level peer (.ok response) (.ok response')

namespace Exchange

variable {σ σ' κ κ' χ χ' : Type} {level : Level}

/-- The exchange with notes taken of all that is heard in it. -/
def noted (level : Level) (exchange : Exchange σ κ χ) : Exchange (σ × List Heard) κ χ :=
  exchange.movedTo (exchange.env.noted level) exchange.transport.noted

section

variable (level : Level) (exchange : Exchange σ κ χ) (request : Http.Request) (world : σ)

theorem noted_transport (earlier : List Heard) :
    (exchange.noted level).transport request (world, earlier) =
      let sent := exchange.transport request world
      (sent.1, sent.2, earlier ++ [.responded sent.1]) :=
  rfl

theorem retry_noted (challenge : Challenge) (earlier : List Heard) :
    (exchange.noted level).retry request challenge (world, earlier) =
      let made := exchange.retry request challenge world
      ⟨made.result,
        (made.world, earlier ++ ((exchange.noted level).retry request challenge).heard world),
        made.events⟩ := by
  have beside : Action.InStep Beside ((exchange.noted level).retry request challenge)
      (exchange.retry request challenge) :=
    retry_inStep (exchange.env.noted_beside level) (fun _ => noting_beside _ _) request challenge
  have since : ∀ earlier, Action.InStep (Since earlier)
      ((exchange.noted level).retry request challenge)
      ((exchange.noted level).retry request challenge) := fun earlier =>
    retry_inStep (exchange.env.noted_since level earlier) (fun _ => noting_since _ _ _) request
      challenge
  exact Action.noted_apply beside since world earlier

/-- Listening to an exchange changes nothing that it does. -/
theorem run_noted :
    ((exchange.noted level).run request (world, [])).events =
      (exchange.run request world).events := by
  have hrun : ((exchange.noted level).run request (world, [])).Matches Beside
      (exchange.run request world) :=
    run_inStep (exchange.env.noted_beside level) (fun _ => noting_beside _ _) request rfl
  exact hrun.events.symm

theorem heard_conclude (earlier : List Heard) :
    ((exchange.noted level).conclude request (world, earlier)).world.2 =
      earlier ++ [.responded (exchange.transport request world).1] := by
  rw [conclude_apply, noted_transport]
  rcases exchange.transport request world with ⟨cause | response, after⟩
  · rfl
  · rfl

end

section

variable {exchange : Exchange σ κ χ} {request : Http.Request} {world after : σ}

theorem heard_of_challenged {response : Http.Response} {challenge : Challenge}
    (challenged : Challenged exchange request world response challenge after) :
    ((exchange.noted level).run request).heard world =
      .responded (.ok response) ::
        ((exchange.noted level).retry request.replay challenge).heard after := by
  obtain ⟨sent, status, found⟩ := challenged
  have hsent := noted_transport level exchange request world []
  rw [sent] at hsent
  rw [Action.heard, run_of_challenged ⟨hsent, status, found⟩, retry_noted]
  rfl

theorem heard_first (level : Level) (exchange : Exchange σ κ χ) (request : Http.Request)
    (world : σ) :
    ∃ later, ((exchange.noted level).run request).heard world =
      .responded (exchange.transport request world).1 :: later := by
  have hsent := noted_transport level exchange request world []
  rcases sent : exchange.transport request world with ⟨cause | response, after⟩
  · rw [sent] at hsent
    exact ⟨[], by rw [Action.heard, run_of_unsent hsent]; rfl⟩
  by_cases status : response.status = exchange.config.peer.challengeStatus
  · cases found : Challenge.ofFields? exchange.config.peer response.fields with
    | none =>
        rw [sent] at hsent
        exact ⟨[], by rw [Action.heard, run_of_unchallenged hsent status found]; rfl⟩
    | some challenge => exact ⟨_, heard_of_challenged ⟨sent, status, found⟩⟩
  · rw [sent] at hsent
    exact ⟨[], by rw [Action.heard, run_of_undemanding hsent status]; rfl⟩

theorem first_of_heard {answer first : Except String Http.Response} {rest : List Heard}
    (sent : exchange.transport request world = (answer, after))
    (h : ((exchange.noted level).run request).heard world = .responded first :: rest) :
    answer = first := by
  obtain ⟨later, hfirst⟩ := heard_first level exchange request world
  rw [sent, h] at hfirst
  injection hfirst with hfirst
  injection hfirst with hfirst
  exact hfirst.symm

def heardResponded (level : Level) (exchange : Exchange σ κ χ) (host : Host) (bytes : List UInt8)
    (world : σ) : List Heard :=
  (Session.respond (exchange.env.noted level) exchange.config exchange.credentials
    ⟨host, exchange.proxy⟩ bytes).heard world

theorem responded_noted (level : Level) (exchange : Exchange σ κ χ) (host : Host)
    (bytes : List UInt8) (world : σ) :
    (exchange.noted level).responded host bytes (world, []) =
      let made := exchange.responded host bytes world
      ⟨made.result, (made.world, heardResponded level exchange host bytes world), made.events⟩ :=
  Session.respond_noted level exchange.env exchange.config exchange.credentials
    ⟨host, exchange.proxy⟩ bytes world []

/-- After the provider nothing is heard but the response to the answer, if there is one. -/
theorem heard_of_hosted {challenge : Challenge} {bytes : List UInt8} {host : Host}
    (decoded : challenge.decode = .ok bytes) (hosted : Host.ofUri? request.uri = some host) :
    let made := exchange.responded host bytes world
    ((exchange.noted level).retry request challenge).heard world =
      heardResponded level exchange host bytes world ++
        match made.result with
        | .error _ => []
        | .ok token =>
            [.responded (exchange.transport (exchange.answered request token) made.world).1] := by
  intro made
  have hnoted := responded_noted level exchange host bytes world
  cases result : made.result with
  | error cause =>
      rw [Action.heard, retry_of_refused decoded hosted (by rw [hnoted]; exact result), hnoted]
      exact (List.append_nil _).symm
  | ok token =>
      rw [Action.heard, retry_of_granted decoded hosted (by rw [hnoted]; exact result), hnoted]
      exact heard_conclude ..

end

theorem records_outcomeRecords (config : Config) (response : Http.Response) :
    records level (outcomeRecords config response : List (Event κ χ)) =
      records level (outcomeRecords config response : List (Event κ' χ')) := by
  unfold outcomeRecords
  split
  · simp
  · split
    · split <;> simp
    · rfl

theorem records_conclude {exchange : Exchange σ κ χ} {other : Exchange σ' κ' χ'}
    (config : exchange.config = other.config) {request request' : Http.Request} {world : σ}
    {world' : σ'} (h : (exchange.transport request world).1 = (other.transport request' world').1) :
    records level (exchange.conclude request world).events =
      records level (other.conclude request' world').events := by
  rw [conclude_apply, conclude_apply]
  rcases sent : exchange.transport request world with ⟨answer, after⟩
  rcases sent' : other.transport request' world' with ⟨answer', after'⟩
  rw [sent, sent'] at h
  obtain rfl : answer = answer' := h
  cases answer with
  | error cause => rfl
  | ok response =>
      have hrecords : records level (outcomeRecords other.config response : List (Event κ χ)) =
          records level (outcomeRecords other.config response : List (Event κ' χ')) :=
        records_outcomeRecords other.config response
      simp [config, hrecords]

section

variable {exchange : Exchange σ κ χ} {other : Exchange σ' κ' χ'} {request : Http.Request}
  {world : σ} {world' : σ'}

theorem responded_told (config : exchange.config = other.config)
    (proxy : exchange.proxy = other.proxy) {host : Host} {bytes bytes' : List UInt8}
    {rest rest' : List Heard}
    (h : heardResponded level exchange host bytes world ++ rest =
      heardResponded level other host bytes' world' ++ rest') :
    let made := exchange.responded host bytes world
    let made' := other.responded host bytes' world'
    rest = rest' ∧ made.result.map level.sizeTold = made'.result.map level.sizeTold ∧
      records level made.events = records level made'.events := by
  unfold heardResponded at h
  unfold responded
  rw [config, proxy] at h ⊢
  exact Session.respond_told h

theorem retry_told (config : exchange.config = other.config)
    (proxy : exchange.proxy = other.proxy) {challenge challenge' : Challenge}
    (alike : challenge.AlikeAt level challenge')
    (h : ((exchange.noted level).retry request challenge).heard world =
      ((other.noted level).retry request challenge').heard world') :
    records level (exchange.retry request challenge world).events =
      records level (other.retry request challenge' world').events := by
  rcases alike.decode_cases with ⟨cause, cause', undecoded, undecoded'⟩ |
    ⟨bytes, bytes', decoded, decoded', hsize, htrace⟩
  · rw [retry_of_malformed undecoded, retry_of_malformed undecoded']
    rfl
  have hreceived : records level (Session.challengeRecords exchange.config exchange.config.peer
        challenge bytes.length : List (Event κ χ)) =
      records level (Session.challengeRecords other.config other.config.peer challenge'
        bytes'.length : List (Event κ' χ')) := by
    rw [config, hsize]
    exact Session.records_challengeRecords htrace _ _ _
  cases hosted : Host.ofUri? request.uri with
  | none =>
      rw [retry_of_unrouted decoded hosted, retry_of_unrouted decoded' hosted]
      exact hreceived
  | some host =>
      -- The provider comes to the same on both sides, so that both or none go on to a response.
      rw [heard_of_hosted decoded hosted, heard_of_hosted decoded' hosted] at h
      obtain ⟨hanswer, hresult, hrecords⟩ := responded_told config proxy h
      cases made : (exchange.responded host bytes world).result with
      | error cause =>
          cases made' : (other.responded host bytes' world').result with
          | error cause' =>
              rw [made, made'] at hresult
              injection hresult with hcause
              rw [retry_of_refused decoded hosted made, retry_of_refused decoded' hosted made']
              simp [hreceived, hrecords, hcause]
          | ok token' =>
              rw [made, made'] at hresult
              cases hresult
      | ok token =>
          cases made' : (other.responded host bytes' world').result with
          | error cause' =>
              rw [made, made'] at hresult
              cases hresult
          | ok token' =>
              rw [made, made'] at hanswer
              injection hanswer with hanswer
              injection hanswer with hanswer
              rw [retry_of_granted decoded hosted made, retry_of_granted decoded' hosted made']
              simp [hreceived, hrecords, records_conclude config hanswer]

theorem run_told_of_undemanding (config : exchange.config = other.config)
    {response response' : Http.Response} {after : σ} {after' : σ'}
    (sent : exchange.transport request world = (.ok response, after))
    (sent' : other.transport request world' = (.ok response', after'))
    (status : response.status = response'.status)
    (undemanding : response.status ≠ exchange.config.peer.challengeStatus) :
    records level (exchange.run request world).events =
      records level (other.run request world').events := by
  have undemanding' : response'.status ≠ other.config.peer.challengeStatus := by
    rw [← status, ← config]
    exact undemanding
  rw [run_of_undemanding sent undemanding, run_of_undemanding sent' undemanding']
  rfl

/-- The first answers may differ where records make no difference; then the same is heard. -/
theorem run_told (config : exchange.config = other.config) (proxy : exchange.proxy = other.proxy)
    {first first' : Except String Http.Response} {rest : List Heard}
    (h : ((exchange.noted level).run request).heard world = .responded first :: rest)
    (h' : ((other.noted level).run request).heard world' = .responded first' :: rest)
    (alike : Http.AlikeAt level exchange.config.peer first first') :
    records level (exchange.run request world).events =
      records level (other.run request world').events := by
  rcases sent : exchange.transport request world with ⟨answer, after⟩
  rcases sent' : other.transport request world' with ⟨answer', after'⟩
  obtain rfl : answer = first := first_of_heard sent h
  obtain rfl : answer' = first' := first_of_heard sent' h'
  cases alike with
  | error cause cause' =>
      rw [run_of_unsent sent, run_of_unsent sent']
      rfl
  | @unchallenged response response' status found found' =>
      by_cases demanded : response.status = exchange.config.peer.challengeStatus
      · have demanded' : response'.status = other.config.peer.challengeStatus := by
          rw [← status, demanded, config]
        rw [run_of_unchallenged sent demanded found,
          run_of_unchallenged sent' demanded' (config ▸ found'), config]
        rfl
      · exact run_told_of_undemanding config sent sent' status demanded
  | @challenged response response' challenge challenge' status found found' alike =>
      by_cases demanded : response.status = exchange.config.peer.challengeStatus
      · have demanded' : response'.status = other.config.peer.challengeStatus := by
          rw [← status, demanded, config]
        have challenged : Challenged exchange request world response challenge after :=
          ⟨sent, demanded, found⟩
        have challenged' : Challenged other request world' response' challenge' after' :=
          ⟨sent', demanded', config ▸ found'⟩
        rw [heard_of_challenged challenged] at h
        rw [heard_of_challenged challenged'] at h'
        injection h with _ h
        injection h' with _ h'
        rw [run_of_challenged challenged, run_of_challenged challenged']
        simpa using retry_told config proxy alike (h.trans h'.symm)
      · exact run_told_of_undemanding config sent sent' status demanded

end

end Exchange

namespace Session

variable {σ σ' κ κ' χ χ' : Type}

/-- The diagnostic text of an answer has the place of the token, and not the token. -/
theorem debugText_of_answer {config : Config} {token : List UInt8} {given : Answer}
    (h : answer config token = .ok given) :
    given.debugText = Text.record "AuthHeader"
      [("name", Text.quote config.peer.answerField.text), ("value", "Sensitive")] := by
  rw [answer_eq_ok] at h
  obtain rfl := Except.ok.inj h
  rfl

theorem debugText_of_answered {env : Environment σ κ χ} {session : Session} {calls : List (Call κ)}
    {world : σ} {given : Answer}
    (h : Reply.answered (.ok given) ∈ (run env session calls world).result.1) :
    given.debugText = Text.record "AuthHeader"
      [("name", Text.quote session.config.peer.answerField.text), ("value", "Sensitive")] := by
  rw [← map_reply_transitions] at h
  obtain ⟨made, hmade, hreply⟩ := List.mem_map.1 h
  have keep : ∀ (before : Session) (call : Call κ) (world : σ),
      before.config = session.config →
        (perform env before call world).result.2.config = session.config :=
    fun before call world h => (config_perform env before call world).trans h
  have hconfig : made.before.config = session.config := before_of_perform keep rfl made hmade
  obtain ⟨world, hstep⟩ := mem_transitions hmade
  have hgiven : (transition env made.before made.call world).Answers given := hstep ▸ hreply
  obtain ⟨token, -, hanswer, -⟩ := token_of_answers hgiven
  rw [debugText_of_answer hanswer, hconfig]

end Session

/-- Tokens stay out of the records and out of the diagnostic texts. Two sessions, or two exchanges,
that hear the same tell the same, whatever the tokens are: at the level of traces the challenges are
the same and the tokens that the provider generates have equal sizes, and without traces the
challenges have equal sizes and the tokens any. A session is shown by its configuration and its
state, and an answer by the name of its field. -/
theorem tokens_untold {σ σ' κ κ' χ χ' : Type} (level : Level) (env : Environment σ κ χ)
    (env' : Environment σ' κ' χ') (session session' : Session) (exchange : Exchange σ κ χ)
    (other : Exchange σ' κ' χ') (request : Http.Request) (world : σ) (world' : σ') :
    (∀ calls calls', session.config = session'.config → session.state = session'.state →
        List.Forall₂ (Session.Call.AlikeAt level) calls calls' →
        (Session.run (env.noted level) session calls).heard world =
            (Session.run (env'.noted level) session' calls').heard world' →
          records level (Session.run env session calls world).events =
            records level (Session.run env' session' calls' world').events) ∧
      (∀ first first' rest, exchange.config = other.config → exchange.proxy = other.proxy →
        ((exchange.noted level).run request).heard world = .responded first :: rest →
        ((other.noted level).run request).heard world' = .responded first' :: rest →
        Http.AlikeAt level exchange.config.peer first first' →
          records level (exchange.run request world).events =
            records level (other.run request world').events) ∧
      (session.config = session'.config → session.state = session'.state →
        session.debugText = session'.debugText) ∧
      ∀ calls given, .answered (.ok given) ∈ (Session.run env session calls world).result.1 →
        given.debugText = Text.record "AuthHeader"
          [("name", Text.quote session.config.peer.answerField.text), ("value", "Sensitive")] := by
  refine ⟨?_, ?_, ?_, fun calls given => Session.debugText_of_answered⟩
  · intro calls calls' hconfig hstate alike heard
    obtain ⟨config, phase⟩ := session
    obtain ⟨config', phase'⟩ := session'
    obtain rfl : config = config' := hconfig
    have phases := (Phase.alikeShown_iff phase phase').2 hstate
    have heard : _ ++ [] = _ ++ [] := congrArg (· ++ []) heard
    exact (Session.run_told phases alike heard).2
  · intro first first' rest config proxy h h' alike
    exact Exchange.run_told config proxy h h' alike
  · intro hconfig hstate
    rw [Session.debugText, Session.debugText, hconfig, hstate]

def answeringCalls (token : String) : List (Session.Call Unit) :=
  [.receive .target ⟨some token⟩, .authenticate .currentUser (some ⟨⟨"a.example", 80⟩, none⟩)]

theorem heard_answeringCalls {token : String} {bytes : List UInt8}
    (decoded : (⟨some token⟩ : Challenge).decode = .ok bytes) :
    (Session.run (Exchange.echo.env.noted .debug) (Session.start .target)
        (answeringCalls token)).heard () =
      Session.heardService .debug Exchange.echo.env .target ⟨⟨"a.example", 80⟩, none⟩ () ++
        [.created (.ok ()), .advanced (.ok 0)] := by
  have received : (Session.perform Exchange.echo.env (Session.start .target)
      (.receive .target ⟨some token⟩) ()).result.2 = ⟨.target, .challengeReceived bytes⟩ := by
    rw [Session.perform_receive, Session.start, Session.receive_of_decode decoded]
  rw [answeringCalls, Session.heard_run_cons, Session.heard_receive]
  dsimp only
  rw [received]
  rw [Session.heard_run_cons, Session.heard_answer, Session.heard_of_granted rfl rfl]
  rfl

theorem tokens_untold_echo :
    let session := Session.start .target
    records .debug (Session.run Exchange.echo.env session (answeringCalls "YWJj") ()).events =
      records .debug (Session.run Exchange.echo.env session (answeringCalls "eHl6") ()).events := by
  intro session
  have decoded : (⟨some "YWJj"⟩ : Challenge).decode = .ok [97, 98, 99] := by decide +kernel
  have decoded' : (⟨some "eHl6"⟩ : Challenge).decode = .ok [120, 121, 122] := by decide +kernel
  have alike : List.Forall₂ (Session.Call.AlikeAt .debug) (answeringCalls "YWJj")
      (answeringCalls "eHl6") :=
    .cons (.receive _ (.decoded decoded decoded' rfl)) (.cons (.authenticate _ _ _) .nil)
  obtain ⟨hsessions, -, -, -⟩ := tokens_untold .debug Exchange.echo.env Exchange.echo.env session
    session Exchange.echo Exchange.echo Exchange.echoRequest () ()
  exact hsessions _ _ rfl rfl alike
    ((heard_answeringCalls decoded).trans (heard_answeringCalls decoded').symm)

end NegotiateAuth
