import NegotiateAuth.Session.Run

/-! # Exchanges

A request driven through one session: it is sent, a Negotiate challenge of the configured peer is
answered once, and the request is sent again with the answer. Any other response is the result as it
is.
-/

namespace NegotiateAuth

structure Exchange (σ κ χ : Type) where
  config : Config
  env : Environment σ κ χ
  transport : Transport σ
  credentials : Credentials κ
  proxy : Option Host

namespace Exchange

variable {σ κ χ : Type}

/-- The route of a request; without a host in the target there is none, proxy or not. -/
def route? (exchange : Exchange σ κ χ) (request : Http.Request) : Option Route :=
  (Route.ofUri? request.uri).map fun route => exchange.proxy.elim route route.withProxy

def outcomeRecords (config : Config) (response : Http.Response) : List (Event κ χ) :=
  if Peer.ofStatus? response.status = some config.peer then
    [.debug s!"Negotiate token rejected with {config.peer.statusText}"]
  else if response.status.isSuccess then
    match (Challenge.ofFields? .target response.fields).bind (·.token) with
    | some token =>
        [.debug "mutual authentication token received from server",
          .trace s!"server token: {token}"]
    | none => []
  else []

def conclude (exchange : Exchange σ κ χ) (request : Http.Request) :
    Action σ (Event κ χ) (Except AuthError Http.Response) := do
  match ← exchange.transport.send request with
  | .error cause => return .error (.request cause)
  | .ok response =>
      .emitAll (outcomeRecords exchange.config response)
      return .ok response

def retry (exchange : Exchange σ κ χ) (request : Http.Request) (challenge : Challenge) :
    Action σ (Event κ χ) (Except AuthError Http.Response) := do
  let session := Session.start exchange.config
  let (received, session) ← session.receive exchange.config.peer challenge
  match received with
  | .error cause => return .error cause
  | .ok () =>
      let (answered, _) ←
        session.authenticate exchange.env exchange.credentials (exchange.route? request)
      match answered with
      | .error cause => return .error cause
      | .ok answer => exchange.conclude { request with fields := answer.applyTo request.fields }

def run (exchange : Exchange σ κ χ) (request : Http.Request) :
    Action σ (Event κ χ) (Except AuthError Http.Response) := do
  match ← exchange.transport.send request with
  | .error cause => return .error (.request cause)
  | .ok response =>
      if Peer.ofStatus? response.status ≠ some exchange.config.peer then return .ok response
      else
        match Challenge.ofFields? exchange.config.peer response.fields with
        | none =>
            .emit (.debug s!"{exchange.config.peer.statusText} without a Negotiate challenge")
            return .ok response
        | some challenge => exchange.retry request.replay challenge

end Exchange

end NegotiateAuth
