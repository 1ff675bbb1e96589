import NegotiateAuth.Proofs.Exchange.Requests
import NegotiateAuth.Proofs.Provider

/-! # The results of an exchange

What an exchange returns: the first response as it is, the second one as it is, or an error that
names what went wrong. Every exchange ends in one of six ways, told apart by the transport, the
first response, the request target and the provider, and each way has a result of its own.
-/

namespace NegotiateAuth

namespace Exchange

variable {σ κ χ : Type}

section

variable (exchange : Exchange σ κ χ) (request : Http.Request) (world : σ)

/-- A second request is sent, in the world that the provider leaves when it grants the token. -/
def Resends (second : Http.Request) (before : σ) : Prop :=
  ∃ response challenge after bytes host context between token,
    Challenged exchange request world response challenge after ∧
      challenge.decode = .ok bytes ∧ Host.ofUri? request.uri = some host ∧
      Session.creation exchange.env exchange.config exchange.credentials ⟨host, exchange.proxy⟩
        after = (.ok context, between) ∧
      exchange.env.advance context bytes between = (.ok token, before) ∧
      second = exchange.answered request.replay token

def Unsendable (cause : String) : Prop :=
  (∃ after, exchange.transport request world = (.error cause, after)) ∨
    ∃ second before after, Resends exchange request world second before ∧
      exchange.transport second before = (.error cause, after)

/-- The first response stands: it demands no authentication of the peer, or brings no challenge. -/
def Stands (response : Http.Response) : Prop :=
  ∃ after, exchange.transport request world = (.ok response, after) ∧
    (response.status ≠ exchange.config.peer.challengeStatus ∨
      Challenge.ofFields? exchange.config.peer response.fields = none)

/-- The provider is shown the challenge and gives no token. -/
def Refused (cause : ProviderError) : Prop :=
  ∃ response challenge after bytes host,
    Challenged exchange request world response challenge after ∧
      challenge.decode = .ok bytes ∧ Host.ofUri? request.uri = some host ∧
      Session.Refuses exchange.env exchange.config exchange.credentials ⟨host, exchange.proxy⟩
        bytes after cause

/-- The second request is sent, and this is the response to it. -/
def Concludes (second : Http.Request) (response : Http.Response) : Prop :=
  ∃ before after, Resends exchange request world second before ∧
    exchange.transport second before = (.ok response, after)

end

section

variable {exchange : Exchange σ κ χ} {request : Http.Request} {world : σ}

/-- A second request is sent where the provider grants the token that it answers with. -/
theorem granted_of_resends {second : Http.Request} {before : σ}
    (h : Resends exchange request world second before) :
    ∃ response challenge after bytes host token,
      Challenged exchange request world response challenge after ∧
        challenge.decode = .ok bytes ∧ Host.ofUri? request.uri = some host ∧
        (exchange.responded host bytes after).result = .ok token ∧
        (exchange.responded host bytes after).world = before ∧
        second = exchange.answered request.replay token := by
  obtain ⟨response, challenge, after, bytes, host, context, between, token, challenged, decoded,
    hosted, created, advanced, second_eq⟩ := h
  have responded : exchange.responded host bytes after = _ :=
    Session.respond_of_granted created advanced
  exact ⟨response, challenge, after, bytes, host, token, challenged, decoded, hosted,
    by rw [responded], by rw [responded], second_eq⟩

theorem resends_of_granted {response : Http.Response} {challenge : Challenge} {after : σ}
    {bytes : List UInt8} {host : Host} {token : List UInt8}
    (challenged : Challenged exchange request world response challenge after)
    (decoded : challenge.decode = .ok bytes) (hosted : Host.ofUri? request.uri = some host)
    (granted : (exchange.responded host bytes after).result = .ok token) :
    Resends exchange request world (exchange.answered request.replay token)
      (exchange.responded host bytes after).world := by
  obtain ⟨context, created, advanced⟩ := (Session.respond_ok_iff ..).1 granted
  have hresponded : exchange.responded host bytes after = _ :=
    Session.respond_of_granted (Prod.ext created rfl) (Prod.ext advanced rfl)
  rw [hresponded]
  exact ⟨response, challenge, after, bytes, host, context, _, token, challenged, decoded, hosted,
    Prod.ext created rfl, Prod.ext advanced rfl, rfl⟩

/-- From the second request on, an exchange is its conclusion. -/
theorem result_of_resends {second : Http.Request} {before : σ}
    (h : Resends exchange request world second before) :
    (exchange.run request world).result = (exchange.conclude second before).result := by
  obtain ⟨response, challenge, after, bytes, host, token, challenged, decoded, hosted, granted, rfl,
    rfl⟩ := granted_of_resends h
  rw [run_of_granted challenged decoded hosted granted]

theorem result_of_unsendable {cause : String}
    (h : Unsendable exchange request world cause) :
    (exchange.run request world).result = .error (.request cause) := by
  rcases h with ⟨after, sent⟩ | ⟨second, before, after, resends, sent⟩
  · rw [run_of_unsent sent]
  · rw [result_of_resends resends, conclude_apply, sent]

end

section

variable (exchange : Exchange σ κ χ) (request : Http.Request) (world : σ)

end

end Exchange

end NegotiateAuth
