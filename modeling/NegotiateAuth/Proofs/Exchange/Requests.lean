import NegotiateAuth.Proofs.Session.Run
import NegotiateAuth.Session.Exchange

/-! # The course of an exchange

Where an exchange ends and what it has sent by then. It sends its request as it is, and once more if
it can answer the challenge in the response; whether it goes on depends on the response, on the
challenge found in it, on the request target and on the provider, in this order.
-/

namespace NegotiateAuth

/-! ## The course -/

theorem Transport.send_apply {σ κ χ : Type} (transport : Transport σ) (request : Http.Request)
    (world : σ) :
    (transport.send request : Action σ (Event κ χ) _) world =
      ⟨(transport request world).1, (transport request world).2, [.sent request]⟩ :=
  rfl

namespace Exchange

variable {σ κ χ : Type}

/-- The first response demands authentication of the configured peer, and brings a challenge. -/
structure Challenged (exchange : Exchange σ κ χ) (request : Http.Request) (world : σ)
    (response : Http.Response) (challenge : Challenge) (after : σ) : Prop where
  sent : exchange.transport request world = (.ok response, after)
  status : response.status = exchange.config.peer.challengeStatus
  found : Challenge.ofFields? exchange.config.peer response.fields = some challenge

/-- What the provider makes of a challenge to a request for a host. -/
def responded (exchange : Exchange σ κ χ) (host : Host) (challenge : List UInt8) (world : σ) :
    Outcome σ (Event κ χ) (Except ProviderError (List UInt8)) :=
  Session.respond exchange.env exchange.config exchange.credentials ⟨host, exchange.proxy⟩
    challenge world

def answered (exchange : Exchange σ κ χ) (request : Http.Request) (token : List UInt8) :
    Http.Request :=
  { request with
    fields := request.fields.insert exchange.config.peer.answerField (Answer.fieldValue token) }

section

variable {exchange : Exchange σ κ χ} {request : Http.Request} {world after : σ}

theorem route?_of_host {host : Host} (hosted : Host.ofUri? request.uri = some host) :
    exchange.route? request = some ⟨host, exchange.proxy⟩ := by
  unfold route? Route.ofUri?
  rw [hosted]
  cases exchange.proxy with
  | none => rfl
  | some proxy => rfl

theorem route?_of_hostless (hostless : Host.ofUri? request.uri = none) :
    exchange.route? request = none := by
  unfold route? Route.ofUri?
  rw [hostless]
  rfl

theorem run_of_unsent {cause : String}
    (sent : exchange.transport request world = (.error cause, after)) :
    exchange.run request world = ⟨.error (.request cause), after, [.sent request]⟩ := by
  simp only [run, Action.bind_apply, Transport.send_apply, sent, Action.pure_apply,
    List.append_nil]

theorem run_of_undemanding {response : Http.Response}
    (sent : exchange.transport request world = (.ok response, after))
    (status : response.status ≠ exchange.config.peer.challengeStatus) :
    exchange.run request world = ⟨.ok response, after, [.sent request]⟩ := by
  have hstatus : Peer.ofStatus? response.status ≠ some exchange.config.peer := by
    rwa [Ne, Peer.ofStatus?_eq_some_iff]
  simp only [run, Action.bind_apply, Transport.send_apply, sent, if_pos hstatus,
    Action.pure_apply, List.append_nil]

theorem run_of_unchallenged {response : Http.Response}
    (sent : exchange.transport request world = (.ok response, after))
    (status : response.status = exchange.config.peer.challengeStatus)
    (found : Challenge.ofFields? exchange.config.peer response.fields = none) :
    exchange.run request world = ⟨.ok response, after, [.sent request,
      .debug s!"{exchange.config.peer.statusText} without a Negotiate challenge"]⟩ := by
  have hstatus := (Peer.ofStatus?_eq_some_iff response.status exchange.config.peer).2 status
  simp only [run, Action.bind_apply, Transport.send_apply, sent, hstatus, ne_eq,
    not_true_eq_false, if_false, found, Action.emit_apply, Action.pure_apply,
    List.singleton_append]

theorem run_of_challenged {response : Http.Response} {challenge : Challenge}
    (challenged : Challenged exchange request world response challenge after) :
    exchange.run request world =
      let retried := exchange.retry request.replay challenge after
      ⟨retried.result, retried.world, .sent request :: retried.events⟩ := by
  obtain ⟨sent, status, found⟩ := challenged
  have hstatus := (Peer.ofStatus?_eq_some_iff response.status exchange.config.peer).2 status
  simp only [run, Action.bind_apply, Transport.send_apply, sent, hstatus, ne_eq,
    not_true_eq_false, if_false, found, List.singleton_append]

theorem conclude_apply (exchange : Exchange σ κ χ) (request : Http.Request) (world : σ) :
    exchange.conclude request world =
      match exchange.transport request world with
      | (.error cause, after) => ⟨.error (.request cause), after, [.sent request]⟩
      | (.ok response, after) =>
          ⟨.ok response, after, .sent request :: outcomeRecords exchange.config response⟩ := by
  simp only [conclude, Action.bind_apply, Transport.send_apply]
  rcases exchange.transport request world with ⟨cause | response, after⟩
  · rfl
  · simp only [Action.bind_apply, Action.emitAll_apply, Action.pure_apply, List.append_nil,
      List.singleton_append]

section

variable {challenge : Challenge} {bytes : List UInt8} {host : Host}

theorem retry_of_malformed {cause : Base64.DecodeError}
    (undecoded : challenge.decode = .error cause) :
    exchange.retry request challenge world = ⟨.error (.malformedChallenge cause), world, []⟩ := by
  simp only [retry, Session.start, Action.bind_apply, Session.receive_of_malformed undecoded,
    Action.pure_apply, List.append_nil]

theorem retry_of_unrouted (decoded : challenge.decode = .ok bytes)
    (hostless : Host.ofUri? request.uri = none) :
    exchange.retry request challenge world =
      ⟨.error .routeUnavailable, world,
        Session.challengeRecords exchange.config exchange.config.peer challenge bytes.length⟩ := by
  simp only [retry, Session.start, Action.bind_apply, Session.receive_of_decode decoded,
    route?_of_hostless hostless, Session.authenticate_without_route, Action.pure_apply,
    List.append_nil]

theorem retry_of_refused {cause : ProviderError} (decoded : challenge.decode = .ok bytes)
    (hosted : Host.ofUri? request.uri = some host)
    (refused : (exchange.responded host bytes world).result = .error cause) :
    exchange.retry request challenge world =
      let responded := exchange.responded host bytes world
      ⟨.error (.refused cause), responded.world,
        Session.challengeRecords exchange.config exchange.config.peer challenge bytes.length ++
          (responded.events ++ [.debug s!"Negotiate token generation failed: {cause.text}"])⟩ := by
  simp only [retry, Session.start, Action.bind_apply, Session.receive_of_decode decoded,
    route?_of_host hosted, Session.authenticate_of_error _ _ _ _ _ _ refused, Action.pure_apply,
    List.append_nil]
  rfl

theorem retry_of_granted {token : List UInt8} (decoded : challenge.decode = .ok bytes)
    (hosted : Host.ofUri? request.uri = some host)
    (granted : (exchange.responded host bytes world).result = .ok token) :
    exchange.retry request challenge world =
      let responded := exchange.responded host bytes world
      let concluded := exchange.conclude (exchange.answered request token) responded.world
      ⟨concluded.result, concluded.world,
        Session.challengeRecords exchange.config exchange.config.peer challenge bytes.length ++
          (responded.events ++ concluded.events)⟩ := by
  simp only [retry, Session.start, Action.bind_apply, Session.receive_of_decode decoded,
    route?_of_host hosted, Session.authenticate_of_ok _ _ _ _ _ _ granted,
    Session.answer_eq_ok]
  rfl

end

section

variable {response : Http.Response} {challenge : Challenge} {bytes : List UInt8} {host : Host}

theorem run_of_malformed {cause : Base64.DecodeError}
    (challenged : Challenged exchange request world response challenge after)
    (undecoded : challenge.decode = .error cause) :
    exchange.run request world = ⟨.error (.malformedChallenge cause), after, [.sent request]⟩ := by
  rw [run_of_challenged challenged, retry_of_malformed undecoded]

theorem run_of_unrouted (challenged : Challenged exchange request world response challenge after)
    (decoded : challenge.decode = .ok bytes) (hostless : Host.ofUri? request.uri = none) :
    exchange.run request world = ⟨.error .routeUnavailable, after, .sent request ::
      Session.challengeRecords exchange.config exchange.config.peer challenge bytes.length⟩ := by
  have hostless : Host.ofUri? request.replay.uri = none := hostless
  rw [run_of_challenged challenged, retry_of_unrouted decoded hostless]

theorem run_of_refused {cause : ProviderError}
    (challenged : Challenged exchange request world response challenge after)
    (decoded : challenge.decode = .ok bytes) (hosted : Host.ofUri? request.uri = some host)
    (refused : (exchange.responded host bytes after).result = .error cause) :
    exchange.run request world =
      let responded := exchange.responded host bytes after
      ⟨.error (.refused cause), responded.world, .sent request ::
        (Session.challengeRecords exchange.config exchange.config.peer challenge bytes.length ++
          (responded.events ++ [.debug s!"Negotiate token generation failed: {cause.text}"]))⟩ := by
  have hosted : Host.ofUri? request.replay.uri = some host := hosted
  rw [run_of_challenged challenged, retry_of_refused decoded hosted refused]

theorem run_of_granted {token : List UInt8}
    (challenged : Challenged exchange request world response challenge after)
    (decoded : challenge.decode = .ok bytes) (hosted : Host.ofUri? request.uri = some host)
    (granted : (exchange.responded host bytes after).result = .ok token) :
    exchange.run request world =
      let responded := exchange.responded host bytes after
      let concluded := exchange.conclude (exchange.answered request.replay token) responded.world
      ⟨concluded.result, concluded.world, .sent request ::
        (Session.challengeRecords exchange.config exchange.config.peer challenge bytes.length ++
          (responded.events ++ concluded.events))⟩ := by
  have hosted : Host.ofUri? request.replay.uri = some host := hosted
  rw [run_of_challenged challenged, retry_of_granted decoded hosted granted]

end

end

inductive Course (exchange : Exchange σ κ χ) (request : Http.Request) (world : σ) : Prop where
  | unsent {cause : String} {after : σ}
      (sent : exchange.transport request world = (.error cause, after))
      (outcome : exchange.run request world = ⟨.error (.request cause), after, [.sent request]⟩)
  | undemanding {response : Http.Response} {after : σ}
      (sent : exchange.transport request world = (.ok response, after))
      (status : response.status ≠ exchange.config.peer.challengeStatus)
      (outcome : exchange.run request world = ⟨.ok response, after, [.sent request]⟩)
  | unchallenged {response : Http.Response} {after : σ}
      (sent : exchange.transport request world = (.ok response, after))
      (status : response.status = exchange.config.peer.challengeStatus)
      (found : Challenge.ofFields? exchange.config.peer response.fields = none)
      (outcome : exchange.run request world = ⟨.ok response, after, [.sent request,
        .debug s!"{exchange.config.peer.statusText} without a Negotiate challenge"]⟩)
  | malformed {response : Http.Response} {challenge : Challenge} {after : σ}
      {cause : Base64.DecodeError}
      (challenged : Challenged exchange request world response challenge after)
      (undecoded : challenge.decode = .error cause)
      (outcome : exchange.run request world =
        ⟨.error (.malformedChallenge cause), after, [.sent request]⟩)
  | unrouted {response : Http.Response} {challenge : Challenge} {after : σ} {bytes : List UInt8}
      (challenged : Challenged exchange request world response challenge after)
      (decoded : challenge.decode = .ok bytes) (hostless : Host.ofUri? request.uri = none)
      (outcome : exchange.run request world = ⟨.error .routeUnavailable, after, .sent request ::
        Session.challengeRecords exchange.config exchange.config.peer challenge bytes.length⟩)
  | refused {response : Http.Response} {challenge : Challenge} {after : σ} {bytes : List UInt8}
      {host : Host} {cause : ProviderError}
      (challenged : Challenged exchange request world response challenge after)
      (decoded : challenge.decode = .ok bytes) (hosted : Host.ofUri? request.uri = some host)
      (refused : (exchange.responded host bytes after).result = .error cause)
      (outcome : exchange.run request world =
        let responded := exchange.responded host bytes after
        ⟨.error (.refused cause), responded.world, .sent request ::
          (Session.challengeRecords exchange.config exchange.config.peer challenge bytes.length ++
            (responded.events ++ [.debug s!"Negotiate token generation failed: {cause.text}"]))⟩)
  | granted {response : Http.Response} {challenge : Challenge} {after : σ} {bytes : List UInt8}
      {host : Host} {token : List UInt8}
      (challenged : Challenged exchange request world response challenge after)
      (decoded : challenge.decode = .ok bytes) (hosted : Host.ofUri? request.uri = some host)
      (granted : (exchange.responded host bytes after).result = .ok token)
      (outcome : exchange.run request world =
        let responded := exchange.responded host bytes after
        let concluded :=
          exchange.conclude (exchange.answered request.replay token) responded.world
        ⟨concluded.result, concluded.world, .sent request ::
          (Session.challengeRecords exchange.config exchange.config.peer challenge bytes.length ++
            (responded.events ++ concluded.events))⟩)

theorem run_course (exchange : Exchange σ κ χ) (request : Http.Request) (world : σ) :
    Course exchange request world := by
  rcases sent : exchange.transport request world with ⟨cause | response, after⟩
  · exact .unsent sent (run_of_unsent sent)
  by_cases status : response.status = exchange.config.peer.challengeStatus
  · cases found : Challenge.ofFields? exchange.config.peer response.fields with
    | none => exact .unchallenged sent status found (run_of_unchallenged sent status found)
    | some challenge =>
        have challenged : Challenged exchange request world response challenge after :=
          ⟨sent, status, found⟩
        cases decoded : challenge.decode with
        | error cause =>
            exact .malformed challenged decoded (run_of_malformed challenged decoded)
        | ok bytes =>
            cases hosted : Host.ofUri? request.uri with
            | none =>
                exact .unrouted challenged decoded hosted
                  (run_of_unrouted challenged decoded hosted)
            | some host =>
                cases made : (exchange.responded host bytes after).result with
                | error cause =>
                    exact .refused challenged decoded hosted made
                      (run_of_refused challenged decoded hosted made)
                | ok token =>
                    exact .granted challenged decoded hosted made
                      (run_of_granted challenged decoded hosted made)
  · exact .undemanding sent status (run_of_undemanding sent status)

theorem outcomeRecords_records (config : Config) (response : Http.Response) :
    ∀ event ∈ (outcomeRecords config response : List (Event κ χ)),
      ∃ level text, event = .logged level text := by
  unfold outcomeRecords
  split
  · simp
  · split
    · split <;> simp
    · simp

theorem views_outcomeRecords (config : Config) (response : Http.Response) :
    providerCalls (outcomeRecords config response : List (Event κ χ)) = [] ∧
      requestsSent (outcomeRecords config response : List (Event κ χ)) = [] :=
  views_of_records (outcomeRecords_records config response)

theorem views_conclude (exchange : Exchange σ κ χ) (request : Http.Request) (world : σ) :
    providerCalls (exchange.conclude request world).events = [] ∧
      requestsSent (exchange.conclude request world).events = [request] := by
  rw [conclude_apply]
  rcases exchange.transport request world with ⟨cause | response, after⟩
  · simp
  · simp [(views_outcomeRecords exchange.config response).1,
      (views_outcomeRecords exchange.config response).2]

theorem deeds_conclude (exchange : Exchange σ κ χ) (request : Http.Request) (world : σ) :
    deeds (exchange.conclude request world).events = [.sent request] := by
  rw [conclude_apply]
  rcases exchange.transport request world with ⟨cause | response, after⟩
  · rfl
  · simp [deeds_of_records (outcomeRecords_records exchange.config response)]

section

variable {exchange : Exchange σ κ χ} {request : Http.Request} {world after : σ}
  {response : Http.Response} {challenge : Challenge} {bytes : List UInt8} {host : Host}

theorem deeds_of_refused {cause : ProviderError}
    (challenged : Challenged exchange request world response challenge after)
    (decoded : challenge.decode = .ok bytes) (hosted : Host.ofUri? request.uri = some host)
    (refused : (exchange.responded host bytes after).result = .error cause) :
    deeds (exchange.run request world).events =
      .sent request :: deeds (exchange.responded host bytes after).events := by
  rw [run_of_refused challenged decoded hosted refused]
  simp [deeds_of_records (Session.challengeRecords_records exchange.config _ challenge _)]

theorem deeds_of_granted {token : List UInt8}
    (challenged : Challenged exchange request world response challenge after)
    (decoded : challenge.decode = .ok bytes) (hosted : Host.ofUri? request.uri = some host)
    (granted : (exchange.responded host bytes after).result = .ok token) :
    deeds (exchange.run request world).events =
      .sent request :: (deeds (exchange.responded host bytes after).events ++
        [.sent (exchange.answered request.replay token)]) := by
  rw [run_of_granted challenged decoded hosted granted]
  simp [deeds_of_records (Session.challengeRecords_records exchange.config _ challenge _),
    deeds_conclude]

end

/-- All provider calls of an exchange are made while the challenge is answered. -/
theorem providerCalls_of_challenged {exchange : Exchange σ κ χ} {request : Http.Request}
    {world after : σ} {response : Http.Response} {challenge : Challenge} {bytes : List UInt8}
    {host : Host} (challenged : Challenged exchange request world response challenge after)
    (decoded : challenge.decode = .ok bytes) (hosted : Host.ofUri? request.uri = some host) :
    providerCalls (exchange.run request world).events =
      providerCalls (exchange.responded host bytes after).events := by
  cases made : (exchange.responded host bytes after).result with
  | error cause =>
      rw [run_of_refused challenged decoded hosted made]
      simp [(Session.views_challengeRecords exchange.config _ challenge _).1]
  | ok token =>
      rw [run_of_granted challenged decoded hosted made]
      simp [(Session.views_challengeRecords exchange.config _ challenge _).1,
        (views_conclude exchange _ _).1]

/-- The provider calls of an exchange are those of the answer to a challenge, if there are any. -/
theorem providerCalls_cases (exchange : Exchange σ κ χ) (request : Http.Request) (world : σ) :
    providerCalls (exchange.run request world).events = [] ∨
      ∃ host bytes after, providerCalls (exchange.run request world).events =
        providerCalls (exchange.responded host bytes after).events := by
  cases run_course exchange request world with
  | unsent sent outcome => exact Or.inl (by rw [outcome]; rfl)
  | undemanding sent status outcome => exact Or.inl (by rw [outcome]; rfl)
  | unchallenged sent status found outcome => exact Or.inl (by rw [outcome]; rfl)
  | malformed challenged undecoded outcome => exact Or.inl (by rw [outcome]; rfl)
  | unrouted challenged decoded hostless outcome =>
      exact Or.inl (by rw [outcome]; simp [(Session.views_challengeRecords ..).1])
  | refused challenged decoded hosted refused outcome =>
      exact Or.inr ⟨_, _, _, providerCalls_of_challenged challenged decoded hosted⟩
  | granted challenged decoded hosted granted outcome =>
      exact Or.inr ⟨_, _, _, providerCalls_of_challenged challenged decoded hosted⟩

/-! ## Requests -/

/-- An exchange can answer its first response with a token: a challenge of the configured peer is
found in it and decodes, the request target has a host, and the provider grants the token for it. -/
def Answers (exchange : Exchange σ κ χ) (request : Http.Request) (world : σ)
    (token : List UInt8) : Prop :=
  ∃ response challenge after bytes host,
    Challenged exchange request world response challenge after ∧
      challenge.decode = .ok bytes ∧ Host.ofUri? request.uri = some host ∧
      Session.Grants exchange.env exchange.config exchange.credentials ⟨host, exchange.proxy⟩
        bytes after token

theorem first_sent (exchange : Exchange σ κ χ) (request : Http.Request) (world : σ) :
    ∃ later, (exchange.run request world).events = .sent request :: later := by
  cases run_course exchange request world with
  | unsent sent outcome => exact ⟨_, by rw [outcome]⟩
  | undemanding sent status outcome => exact ⟨_, by rw [outcome]⟩
  | unchallenged sent status found outcome => exact ⟨_, by rw [outcome]⟩
  | malformed challenged undecoded outcome => exact ⟨_, by rw [outcome]⟩
  | unrouted challenged decoded hostless outcome => exact ⟨_, by rw [outcome]⟩
  | refused challenged decoded hosted refused outcome => exact ⟨_, by rw [outcome]⟩
  | granted challenged decoded hosted granted outcome => exact ⟨_, by rw [outcome]⟩

section

variable {exchange : Exchange σ κ χ} {request : Http.Request} {world : σ}

theorem requestsSent_of_answers {token : List UInt8} (h : Answers exchange request world token) :
    requestsSent (exchange.run request world).events =
      [request, exchange.answered request.replay token] := by
  obtain ⟨response, challenge, after, bytes, host, challenged, decoded, hosted, grants⟩ := h
  have granted : (exchange.responded host bytes after).result = .ok token :=
    (Session.respond_ok_iff ..).2 grants
  have hresponded : requestsSent (exchange.responded host bytes after).events = [] :=
    Session.requestsSent_respond ..
  rw [run_of_granted challenged decoded hosted granted]
  simp only [requestsSent_cons, requestsSent_append, hresponded,
    (Session.views_challengeRecords ..).2, (views_conclude ..).2]
  rfl

theorem requestsSent_of_unanswered (h : ¬ ∃ token, Answers exchange request world token) :
    requestsSent (exchange.run request world).events = [request] := by
  cases run_course exchange request world with
  | unsent sent outcome => rw [outcome]; rfl
  | undemanding sent status outcome => rw [outcome]; rfl
  | unchallenged sent status found outcome => rw [outcome]; rfl
  | malformed challenged undecoded outcome => rw [outcome]; rfl
  | unrouted challenged decoded hostless outcome =>
      rw [outcome]
      simp only [requestsSent_cons, (Session.views_challengeRecords ..).2]
      rfl
  | @refused response challenge after bytes host cause challenged decoded hosted refused outcome =>
      have hresponded : requestsSent (exchange.responded host bytes after).events = [] :=
        Session.requestsSent_respond ..
      rw [outcome]
      simp only [requestsSent_cons, requestsSent_append, hresponded,
        (Session.views_challengeRecords ..).2]
      rfl
  | @granted response challenge after bytes host token challenged decoded hosted granted outcome =>
      exact absurd ⟨token, response, challenge, after, bytes, host, challenged, decoded, hosted,
        (Session.respond_ok_iff ..).1 granted⟩ h

/-- The second request, if there is one, is the first with an answer to its response. -/
theorem answered_of_requestsSent {second : Http.Request}
    (h : requestsSent (exchange.run request world).events = [request, second]) :
    ∃ token, Answers exchange request world token ∧
      second = exchange.answered request.replay token := by
  by_cases answers : ∃ token, Answers exchange request world token
  · obtain ⟨token, answers⟩ := answers
    rw [requestsSent_of_answers answers] at h
    injection h with _ htail
    injection htail with hsecond
    exact ⟨token, answers, hsecond.symm⟩
  · rw [requestsSent_of_unanswered answers] at h
    cases h

/-- A challenge is found where the configuration says: under the status and in the field of the
proxy, or under those of the target. -/
theorem challenged_iff {response : Http.Response} {challenge : Challenge} {after : σ} :
    Challenged exchange request world response challenge after ↔
      exchange.transport request world = (.ok response, after) ∧
        response.status.code = (if exchange.config.proxy then 407 else 401) ∧
        Challenge.ofFields? (if exchange.config.proxy then .proxy else .target) response.fields =
          some challenge := by
  have hstatus := exchange.config.challengeStatus_peer_iff response.status
  constructor
  · rintro ⟨sent, status, found⟩
    exact ⟨sent, hstatus.1 status, found⟩
  · rintro ⟨sent, status, found⟩
    exact ⟨sent, hstatus.2 status, found⟩

end

/-- What an exchange sends. Its request goes out first, before anything else is done, and a second
one follows if and only if the first response is one that the exchange can answer. The second is the
first with the answer in place of all values of its name, and without the annotations. -/
theorem requestsSent_run (exchange : Exchange σ κ χ) (request : Http.Request) (world : σ) :
    let outcome := exchange.run request world
    let proxied := exchange.config.proxy
    let name : Http.FieldName := if proxied then .proxyAuthorization else .authorization
    (∃ later, outcome.events = .sent request :: later) ∧
      (requestsSent outcome.events = [request] ∨
        ∃ second, requestsSent outcome.events = [request, second]) ∧
      ((∃ second, requestsSent outcome.events = [request, second]) ↔
        ∃ token, Answers exchange request world token) ∧
      (∀ response challenge after, Challenged exchange request world response challenge after ↔
        exchange.transport request world = (.ok response, after) ∧
          response.status.code = (if proxied then 407 else 401) ∧
          Challenge.ofFields? (if proxied then .proxy else .target) response.fields =
            some challenge) ∧
      ∀ second, requestsSent outcome.events = [request, second] →
        ∃ token, Answers exchange request world token ∧
          second.method = request.method ∧ second.uri = request.uri ∧
          second.version = request.version ∧ second.body = request.body ∧
          second.annotations = [] ∧
          second.fields.values name = [Answer.fieldValue token] ∧
          Answer.Carries token (Answer.fieldValue token) ("Negotiate " ++ encodeToken token) ∧
          ∀ other, other ≠ name → second.fields.values other = request.fields.values other := by
  intro outcome proxied name
  have hname : exchange.config.peer.answerField = name := exchange.config.answerField_peer
  refine ⟨first_sent exchange request world, ?_, ?_, fun _ _ _ => challenged_iff, ?_⟩
  · by_cases h : ∃ token, Answers exchange request world token
    · obtain ⟨token, answers⟩ := h
      exact Or.inr ⟨_, requestsSent_of_answers answers⟩
    · exact Or.inl (requestsSent_of_unanswered h)
  · constructor
    · rintro ⟨second, hsecond⟩
      obtain ⟨token, answers, -⟩ := answered_of_requestsSent hsecond
      exact ⟨token, answers⟩
    · rintro ⟨token, answers⟩
      exact ⟨_, requestsSent_of_answers answers⟩
  · intro second hsecond
    obtain ⟨token, answers, rfl⟩ := answered_of_requestsSent hsecond
    refine ⟨token, answers, rfl, rfl, rfl, rfl, rfl, ?_, ?_, ?_⟩
    · rw [← hname]
      exact Http.FieldMap.values_insert_self _ _ _
    · rw [← Answer.text_eq]
      exact Answer.carries_fieldValue token
    · intro other hother
      rw [← hname] at hother
      exact Http.FieldMap.values_insert_of_ne _ (Ne.symm hother) _

/-! ## Tokens end to end -/

/-- What is read from the value that an exchange answers with is the token of the answer. -/
theorem answer_read {exchange : Exchange σ κ χ} {request : Http.Request} {world : σ}
    {token : List UInt8} (answers : Answers exchange request world token) :
    ∃ second value text answer,
      requestsSent (exchange.run request world).events = [request, second] ∧
        second.fields.values exchange.config.peer.answerField = [value] ∧
        value.text? = some text ∧ Challenge.parse? text = some answer ∧
        answer.decode = .ok token := by
  obtain ⟨answer, hparse, hdecode⟩ :=
    Challenge.parseChars?_of_offersToken (Answer.text_offersToken token)
  exact ⟨exchange.answered request.replay token, Answer.fieldValue token, Answer.text token,
    answer, requestsSent_of_answers answers, Http.FieldMap.values_insert_self _ _ _,
    Answer.text?_fieldValue token, hparse, hdecode⟩

/-- The first piece that is read as a challenge offers a token. The provider is given that token,
and whatever it makes of it is read from the one value that the second request answers with. -/
theorem token_integrity (exchange : Exchange σ κ χ) (request : Http.Request) (world : σ)
    {after between : σ} {response : Http.Response} {piece : List Char} {challenge : List UInt8}
    {host : Host} {context : χ}
    (sent : exchange.transport request world = (.ok response, after))
    (status : response.status.code = if exchange.config.proxy then 407 else 401)
    (first : (Challenge.offers (if exchange.config.proxy then .proxy else .target)
      response.fields).find? (fun piece => (Challenge.parseChars? piece).isSome) = some piece)
    (offered : Challenge.OffersToken piece challenge)
    (hosted : Host.ofUri? request.uri = some host)
    (created : Session.creation exchange.env exchange.config exchange.credentials
      ⟨host, exchange.proxy⟩ after = (.ok context, between)) :
    let outcome := exchange.run request world
    let service := Session.service exchange.env exchange.config ⟨host, exchange.proxy⟩ after
    let name : Http.FieldName :=
      if exchange.config.proxy then .proxyAuthorization else .authorization
    providerCalls outcome.events =
        [.created service.result exchange.config.mechanism exchange.credentials.handle?,
          .advanced context challenge] ∧
      ∀ token, (exchange.env.advance context challenge between).1 = .ok token →
        ∃ second value text answer,
          requestsSent outcome.events = [request, second] ∧
            second.fields.values name = [value] ∧
            value.text? = some text ∧ Challenge.parse? text = some answer ∧
            answer.decode = .ok token := by
  intro outcome service name
  have hname : exchange.config.peer.answerField = name := exchange.config.answerField_peer
  obtain ⟨found, hparse, decoded⟩ := Challenge.parseChars?_of_offersToken offered
  have challenged : Challenged exchange request world response found after :=
    challenged_iff.2 ⟨sent, status, (Challenge.ofFields?_of_find? first).trans hparse⟩
  constructor
  · have hcalls := providerCalls_of_challenged challenged decoded hosted
    unfold responded at hcalls
    rw [Session.providerCalls_respond, created] at hcalls
    exact hcalls
  · intro token advanced
    have grants : Session.Grants exchange.env exchange.config exchange.credentials
        ⟨host, exchange.proxy⟩ challenge after token := by
      refine ⟨context, ?_, ?_⟩
      · rw [created]
      · rw [created]
        exact advanced
    rw [← hname]
    exact answer_read ⟨response, found, after, challenge, host, challenged, decoded, hosted, grants⟩

/-- An exchange whose server offers the same token each time, and whose provider echoes it. -/
def echo : Exchange Unit Unit Unit where
  config := .target
  env :=
    { createContext := fun _ _ _ world => (.ok (), world)
      advance := fun _ input world => (.ok input, world)
      canonicalize := fun _ world => (.error "no such name", world) }
  transport := fun _ world =>
    let value := Text.utf8 "Basic realm=a, NEGOTIATE\tYWJj ".toList
    (.ok ⟨.unauthorized, ⟨[(.wwwAuthenticate, ⟨value, false⟩)]⟩, []⟩, world)
  credentials := .currentUser
  proxy := none

def echoRequest : Http.Request where
  method := .get
  uri := ⟨some "http", some "a.example", "/", none⟩
  version := .http11
  fields := .empty
  body := []
  annotations := []

theorem token_integrity_echo :
    (∃ service, providerCalls (echo.run echoRequest ()).events =
        [.created service .spnego none, .advanced () [97, 98, 99]]) ∧
      ∃ second value text answer,
        requestsSent (echo.run echoRequest ()).events = [echoRequest, second] ∧
          second.fields.values .authorization = [value] ∧ value.text? = some text ∧
          Challenge.parse? text = some answer ∧ answer.decode = .ok [97, 98, 99] := by
  have offered : Challenge.OffersToken " NEGOTIATE\tYWJj ".toList [97, 98, 99] :=
    ⟨[' '], "NEGOTIATE".toList, ['\t'], [' '], by decide +kernel, by decide +kernel, by simp,
      by simp⟩
  have hosted : Host.ofUri? echoRequest.uri = some ⟨"a.example", 80⟩ := by decide +kernel
  obtain ⟨hcalls, hanswer⟩ :=
    token_integrity echo echoRequest () rfl rfl (by decide +kernel) offered hosted rfl
  exact ⟨⟨_, hcalls⟩, hanswer [97, 98, 99] rfl⟩

end Exchange

end NegotiateAuth
