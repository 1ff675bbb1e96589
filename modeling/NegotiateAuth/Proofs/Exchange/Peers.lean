import NegotiateAuth.Proofs.Exchange.Results
import NegotiateAuth.Proofs.Lockstep

/-! # Target and proxy apart

An exchange authenticates against the target or against the proxy. What the other of the two
demands, and what it is answered, plays no part: two exchanges whose responses differ in the
challenges of the other peer alone go the same way.
-/

namespace NegotiateAuth

namespace Http

structure Response.AgreeBut (name : FieldName) (one other : Response) : Prop where
  status : other.status = one.status
  body : other.body = one.body
  values : ∀ field, field ≠ name → other.fields.values field = one.fields.values field

inductive AgreeBut {ε : Type} (name : FieldName) :
    Except ε Response → Except ε Response → Prop where
  | error (cause : ε) : AgreeBut name (.error cause) (.error cause)
  | ok {one other : Response} (agree : one.AgreeBut name other) :
      AgreeBut name (.ok one) (.ok other)

end Http

/-- The challenge of a peer is read from its own field. -/
theorem Challenge.ofFields?_of_agreeBut {peer : Peer} {name : Http.FieldName}
    {one other : Http.Response} (apart : name ≠ peer.challengeField)
    (agree : one.AgreeBut name other) :
    ofFields? peer other.fields = ofFields? peer one.fields := by
  unfold ofFields? offers
  rw [agree.values _ apart.symm]

namespace Exchange

variable {σ σ' κ χ : Type}

/-- Two runs of an exchange with capabilities that answer alike. The responses may differ in the
values of one field. -/
structure Counterparts (R : σ → σ' → Prop) (name : Http.FieldName) (exchange : Exchange σ κ χ)
    (env : Environment σ' κ χ) (transport : Transport σ') (request : Http.Request) (world : σ)
    (world' : σ') : Prop where
  alike : exchange.env.InStep R env
  first : Http.AgreeBut name (exchange.transport request world).1 (transport request world').1
  between : R (exchange.transport request world).2 (transport request world').2
  second : ∀ {second : Http.Request} {before : σ} {before' : σ'},
    Resends exchange request world second before →
      Resends (exchange.movedTo env transport) request world' second before' → R before before' →
        Http.AgreeBut name (exchange.transport second before).1 (transport second before').1

/-- Two exchanges end alike: with the same error, or with the same one of their responses. -/
inductive EndAlike (name : Http.FieldName) (one : Exchange σ κ χ) (other : Exchange σ' κ χ)
    (request : Http.Request) (world : σ) (world' : σ') : Prop where
  | fail {error : AuthError} (fails : (one.run request world).result = .error error)
      (failsToo : (other.run request world').result = .error error)
  | stand {response response' : Http.Response} (stands : Stands one request world response)
      (standsToo : Stands other request world' response')
      (agree : response.AgreeBut name response')
  | conclude {second : Http.Request} {response response' : Http.Response}
      (concludes : Concludes one request world second response)
      (concludesToo : Concludes other request world' second response')
      (agree : response.AgreeBut name response')

section

variable {R : σ → σ' → Prop} {name : Http.FieldName} {exchange : Exchange σ κ χ}
  {env : Environment σ' κ χ} {transport : Transport σ'} {request : Http.Request} {world : σ}
  {world' : σ'}

/-- Whatever is made of the values of the field on the way, the runs are counterparts. -/
theorem counterparts_of_edit (edit : Http.Response → Http.Response)
    (agree : ∀ response : Http.Response, response.AgreeBut name (edit response)) :
    Counterparts Eq name exchange exchange.env
      (fun request world =>
        ((exchange.transport request world).1.map edit, (exchange.transport request world).2))
      request world world := by
  have edited : ∀ result : Except String Http.Response,
      Http.AgreeBut name result (result.map edit) := by
    intro result
    cases result with
    | error cause => exact .error cause
    | ok response => exact .ok (agree response)
  refine ⟨Environment.InStep.refl exchange.env, edited _, rfl, ?_⟩
  rintro second before _ resends resendsToo rfl
  exact edited _

theorem responded_matches (h : exchange.env.InStep R env) (transport : Transport σ') {after : σ}
    {after' : σ'} (between : R after after') (host : Host) (bytes : List UInt8) :
    (exchange.responded host bytes after).Matches R
      ((exchange.movedTo env transport).responded host bytes after') :=
  Session.respond_inStep h exchange.config exchange.credentials ⟨host, exchange.proxy⟩ bytes between

theorem Counterparts.unsent (h : Counterparts R name exchange env transport request world world')
    {cause : String} {after : σ} (sent : exchange.transport request world = (.error cause, after)) :
    ∃ after', transport request world' = (.error cause, after') := by
  have first := h.first
  rw [sent] at first
  rcases sent' : transport request world' with ⟨response', after'⟩
  rw [sent'] at first
  cases first
  exact ⟨after', rfl⟩

theorem Counterparts.received (h : Counterparts R name exchange env transport request world world')
    {response : Http.Response} {after : σ}
    (sent : exchange.transport request world = (.ok response, after)) :
    ∃ response' after', transport request world' = (.ok response', after') ∧
      response.AgreeBut name response' ∧ R after after' := by
  have first := h.first
  have between := h.between
  rw [sent] at first between
  rcases sent' : transport request world' with ⟨response', after'⟩
  rw [sent'] at first between
  cases first with
  | ok agree => exact ⟨_, after', rfl, agree, between⟩

theorem Counterparts.challenged
    (h : Counterparts R name exchange env transport request world world')
    (apart : name ≠ exchange.config.peer.challengeField) {response : Http.Response}
    {challenge : Challenge} {after : σ}
    (challenged : Challenged exchange request world response challenge after) :
    ∃ response' after',
      Challenged (exchange.movedTo env transport) request world' response' challenge after' ∧
        R after after' := by
  obtain ⟨response', after', sent', agree, between⟩ := h.received challenged.sent
  refine ⟨response', after', ⟨sent', ?_, ?_⟩, between⟩
  · exact agree.status.trans challenged.status
  · exact (Challenge.ofFields?_of_agreeBut apart agree).trans challenged.found

/-- Both exchanges send the same second request, and the responses to it agree. -/
theorem Counterparts.concluded (h : Counterparts R name exchange env transport request world world')
    {second : Http.Request} {before : σ} {before' : σ'}
    (resends : Resends exchange request world second before)
    (resendsToo : Resends (exchange.movedTo env transport) request world' second before')
    (between : R before before') :
    EndAlike name exchange (exchange.movedTo env transport) request world world' := by
  have agree := h.second resends resendsToo between
  rcases sent : exchange.transport second before with ⟨response, after⟩
  rcases sent' : transport second before' with ⟨response', after'⟩
  rw [sent, sent'] at agree
  cases agree with
  | error cause =>
      exact .fail (result_of_unsendable (Or.inr ⟨second, before, after, resends, sent⟩))
        (result_of_unsendable (Or.inr ⟨second, before', after', resendsToo, sent'⟩))
  | ok agree =>
      exact .conclude ⟨before, after, resends, sent⟩ ⟨before', after', resendsToo, sent'⟩ agree

theorem run_of_counterparts (h : Counterparts R name exchange env transport request world world')
    (apart : name ≠ exchange.config.peer.challengeField) :
    let other := exchange.movedTo env transport
    deeds (other.run request world').events = deeds (exchange.run request world).events ∧
      EndAlike name exchange other request world world' := by
  intro other
  -- Whatever course the one exchange takes, what decides on it is the same for the other.
  cases run_course exchange request world with
  | unsent sent outcome =>
      obtain ⟨after', sent'⟩ := h.unsent sent
      have outcome' : other.run request world' = _ := run_of_unsent sent'
      rw [outcome, outcome']
      exact ⟨rfl, .fail (by rw [outcome]) (by rw [outcome'])⟩
  | undemanding sent status outcome =>
      obtain ⟨response', after', sent', agree, between⟩ := h.received sent
      have status' : response'.status ≠ other.config.peer.challengeStatus := agree.status ▸ status
      have outcome' : other.run request world' = _ := run_of_undemanding sent' status'
      rw [outcome, outcome']
      exact ⟨rfl, .stand ⟨_, sent, Or.inl status⟩ ⟨after', sent', Or.inl status'⟩ agree⟩
  | unchallenged sent status found outcome =>
      obtain ⟨response', after', sent', agree, between⟩ := h.received sent
      have status' := agree.status.trans status
      have found' := (Challenge.ofFields?_of_agreeBut apart agree).trans found
      have outcome' : other.run request world' = _ := run_of_unchallenged sent' status' found'
      rw [outcome, outcome']
      exact ⟨rfl, .stand ⟨_, sent, Or.inr found⟩ ⟨after', sent', Or.inr found'⟩ agree⟩
  | malformed challenged undecoded outcome =>
      obtain ⟨response', after', challenged', between⟩ := h.challenged apart challenged
      have outcome' : other.run request world' = _ := run_of_malformed challenged' undecoded
      rw [outcome, outcome']
      exact ⟨rfl, .fail (by rw [outcome]) (by rw [outcome'])⟩
  | unrouted challenged decoded hostless outcome =>
      obtain ⟨response', after', challenged', between⟩ := h.challenged apart challenged
      have outcome' : other.run request world' = _ :=
        run_of_unrouted challenged' decoded hostless
      rw [outcome, outcome']
      exact ⟨rfl, .fail (by rw [outcome]) (by rw [outcome'])⟩
  | @refused response challenge after bytes host cause challenged decoded hosted refused outcome =>
      obtain ⟨response', after', challenged', between⟩ := h.challenged apart challenged
      obtain ⟨hresult, hevents, -⟩ := responded_matches h.alike transport between host bytes
      have refused' := hresult.trans refused
      have outcome' := run_of_refused challenged' decoded hosted refused'
      refine ⟨?_, .fail (by rw [outcome]) (by rw [outcome'])⟩
      rw [deeds_of_refused challenged decoded hosted refused,
        deeds_of_refused challenged' decoded hosted refused', hevents]
  | @granted response challenge after bytes host token challenged decoded hosted granted outcome =>
      obtain ⟨response', after', challenged', between⟩ := h.challenged apart challenged
      obtain ⟨hresult, hevents, hworld⟩ := responded_matches h.alike transport between host bytes
      have granted' := hresult.trans granted
      refine ⟨?_, h.concluded (resends_of_granted challenged decoded hosted granted)
        (resends_of_granted challenged' decoded hosted granted') hworld⟩
      rw [deeds_of_granted challenged decoded hosted granted,
        deeds_of_granted challenged' decoded hosted granted', hevents]
      rfl

end

/-- The peer that an exchange does not authenticate against has no part in it. Whatever it writes in
its challenges, the requests sent, the provider calls and the look-ups stay the same, and so does
what the exchange ends with; its demand for authentication is returned as it is, without a provider
call; and no answer to it is added to a request or taken from it. -/
theorem peers_apart (exchange : Exchange σ κ χ) (request : Http.Request) (world : σ) :
    let proxied := exchange.config.proxy
    let challengeField : Http.FieldName :=
      if proxied then .wwwAuthenticate else .proxyAuthenticate
    let answerField : Http.FieldName := if proxied then .authorization else .proxyAuthorization
    (∀ {σ' : Type} (R : σ → σ' → Prop) (env : Environment σ' κ χ) (transport : Transport σ')
        (world' : σ'),
      Counterparts R challengeField exchange env transport request world world' →
        let other := exchange.movedTo env transport
        deeds (other.run request world').events = deeds (exchange.run request world).events ∧
          EndAlike challengeField exchange other request world world') ∧
      (∀ response after, exchange.transport request world = (.ok response, after) →
        response.status.code = (if proxied then 401 else 407) →
          exchange.run request world = ⟨.ok response, after, [.sent request]⟩) ∧
      ∀ second, requestsSent (exchange.run request world).events = [request, second] →
        second.fields.values answerField = request.fields.values answerField := by
  intro proxied challengeField answerField
  have hfield : challengeField ≠ exchange.config.peer.challengeField := by
    rw [exchange.config.challengeField_peer]
    unfold challengeField proxied
    cases exchange.config.proxy <;> decide
  have hanswer : exchange.config.peer.answerField ≠ answerField := by
    rw [exchange.config.answerField_peer]
    unfold answerField proxied
    cases exchange.config.proxy <;> decide
  refine ⟨fun R env transport world' h => run_of_counterparts h hfield, ?_, ?_⟩
  · intro response after sent status
    refine run_of_undemanding sent ?_
    rw [Ne, exchange.config.challengeStatus_peer_iff, status]
    unfold proxied
    cases exchange.config.proxy <;> decide
  · intro second hsent
    obtain ⟨token, -, rfl⟩ := answered_of_requestsSent hsent
    exact Http.FieldMap.values_insert_of_ne _ hanswer _

def withProxyChallenge (response : Http.Response) : Http.Response :=
  { response with
    fields := response.fields.append .proxyAuthenticate
      ⟨Text.utf8 "Negotiate eHl6".toList, false⟩ }

theorem peers_apart_withProxyChallenge :
    let other := echo.movedTo echo.env
      fun request world => ((echo.transport request world).1.map withProxyChallenge, ())
    deeds (other.run echoRequest ()).events = deeds (echo.run echoRequest ()).events := by
  have agree : ∀ response : Http.Response,
      response.AgreeBut .proxyAuthenticate (withProxyChallenge response) := by
    intro response
    exact ⟨rfl, rfl, fun _ h => Http.FieldMap.values_append_of_ne response.fields (Ne.symm h) _⟩
  obtain ⟨hother, -, -⟩ := peers_apart echo echoRequest ()
  exact (hother Eq _ _ () (counterparts_of_edit _ agree)).1

end Exchange

end NegotiateAuth
