import NegotiateAuth.Session.Resolver

/-! # Sessions

One authentication attempt against one host. A session takes a single challenge, has the provider
generate a single token for it, and answers with that token from then on. Once failed it stays
failed; a new attempt needs a new session.
-/

namespace NegotiateAuth

/-! ## Single calls -/

inductive Phase where
  | uninitiated
  | challengeReceived (challenge : List UInt8)
  | tokenGenerated (token : List UInt8)
  | failed
deriving DecidableEq, Repr

inductive State where
  | uninitiated
  | challengeReceived
  | tokenGenerated
  | failed
deriving DecidableEq, Repr

def Phase.state : Phase → State
  | uninitiated => .uninitiated
  | challengeReceived _ => .challengeReceived
  | tokenGenerated _ => .tokenGenerated
  | failed => .failed

def State.name : State → String
  | uninitiated => "Uninitiated"
  | challengeReceived => "ChallengeReceived"
  | tokenGenerated => "TokenGenerated"
  | failed => "Failed"

structure Session where
  config : Config
  phase : Phase
deriving DecidableEq, Repr

namespace Session

variable {σ κ χ : Type}

def start (config : Config) : Session :=
  ⟨config, .uninitiated⟩

def state (session : Session) : State :=
  session.phase.state

def isComplete (session : Session) : Bool :=
  match session.phase with
  | .uninitiated => false
  | .challengeReceived _ => false
  | .tokenGenerated _ => true
  | .failed => true

def enter (session : Session) (phase : Phase) : Session :=
  { session with phase }

def debugText (session : Session) : String :=
  Text.record "NegotiateScheme"
    [("config", session.config.debugText), ("state", session.state.name)]

/-- The records of a challenge that was decoded; only the last one holds its token. -/
def challengeRecords (config : Config) (peer : Peer) (challenge : Challenge) (size : Nat) :
    List (Event κ χ) :=
  let mismatch :=
    if peer = config.peer then []
    else [.debug s!"{peer.name} challenge answered as configured for {config.peer.name}"]
  let token := challenge.token.elim "None" fun token => s!"Some({Text.quote token})"
  [.debug s!"received {peer.name} Negotiate challenge ({size} bytes)"] ++ mismatch ++
    [.trace s!"challenge token: {token}"]

/-- Take a challenge. The first one is decoded and kept; any later one means that the answer was
rejected, and fails the session without an error. The peer that issued it is recorded and has no
other effect. -/
def receive (session : Session) (peer : Peer) (challenge : Challenge) :
    Action σ (Event κ χ) (Except AuthError Unit × Session) := do
  match session.phase with
  | .uninitiated =>
      match challenge.decode with
      | .ok bytes =>
          .emitAll (challengeRecords session.config peer challenge bytes.length)
          return (.ok (), session.enter (.challengeReceived bytes))
      | .error cause => return (.error (.malformedChallenge cause), session.enter .failed)
  | _ =>
      .emit (.debug "Negotiate authentication already attempted")
      return (.ok (), session.enter .failed)

def respond (env : Environment σ κ χ) (config : Config) (credentials : Credentials κ)
    (route : Route) (challenge : List UInt8) :
    Action σ (Event κ χ) (Except ProviderError (List UInt8)) := do
  let service ← ServiceName.ofHost env config (route.authHost config.proxy)
  .emit (.debug s!"init {service} ({config.mechanism.name})")
  match ← env.create service config.mechanism credentials.handle? with
  | .error cause => return .error cause
  | .ok context =>
      match ← env.feed context challenge with
      | .error cause => return .error cause
      | .ok token =>
          .emit (.trace s!"generated {token.length} byte Negotiate token")
          return .ok token

def answer (config : Config) (token : List UInt8) : Except AuthError Answer :=
  (Answer.negotiate config.peer token).mapError AuthError.unwritable

/-- The answer to the challenge. The first call with a route generates the token; every later call
answers with the same one. -/
def authenticate (env : Environment σ κ χ) (session : Session) (credentials : Credentials κ)
    (route : Option Route) : Action σ (Event κ χ) (Except AuthError Answer × Session) := do
  match session.phase, route with
  | .uninitiated, _ => return (.error .notInitiated, session)
  | .failed, _ => return (.error .alreadyFailed, session)
  | .tokenGenerated token, _ => return (answer session.config token, session)
  | .challengeReceived _, none => return (.error .routeUnavailable, session)
  | .challengeReceived challenge, some route =>
      match ← respond env session.config credentials route challenge with
      | .ok token => return (answer session.config token, session.enter (.tokenGenerated token))
      | .error cause =>
          .emit (.debug s!"Negotiate token generation failed: {cause.text}")
          return (.error (.refused cause), session.enter .failed)

theorem receive_of_decode {challenge : Challenge} {bytes : List UInt8}
    (h : challenge.decode = .ok bytes) (config : Config) (peer : Peer) (world : σ) :
    (receive ⟨config, .uninitiated⟩ peer challenge : Action σ (Event κ χ) _) world =
      ⟨(.ok (), ⟨config, .challengeReceived bytes⟩), world,
        challengeRecords config peer challenge bytes.length⟩ := by
  simp only [receive, h, Action.bind_apply, Action.emitAll_apply, Action.pure_apply,
    List.append_nil]
  rfl

theorem receive_of_malformed {challenge : Challenge} {cause : Base64.DecodeError}
    (h : challenge.decode = .error cause) (config : Config) (peer : Peer) (world : σ) :
    (receive ⟨config, .uninitiated⟩ peer challenge : Action σ (Event κ χ) _) world =
      ⟨(.error (.malformedChallenge cause), ⟨config, .failed⟩), world, []⟩ := by
  simp only [receive, h]
  rfl

theorem receive_again {phase : Phase} (h : phase ≠ .uninitiated) (config : Config) (peer : Peer)
    (challenge : Challenge) (world : σ) :
    (receive ⟨config, phase⟩ peer challenge : Action σ (Event κ χ) _) world =
      ⟨(.ok (), ⟨config, .failed⟩), world,
        [.logged .debug "Negotiate authentication already attempted"]⟩ := by
  cases phase with
  | uninitiated => contradiction
  | challengeReceived bytes => rfl
  | tokenGenerated token => rfl
  | failed => rfl

theorem authenticate_uninitiated (env : Environment σ κ χ) (config : Config)
    (credentials : Credentials κ) (route : Option Route) (world : σ) :
    authenticate env ⟨config, .uninitiated⟩ credentials route world =
      ⟨(.error .notInitiated, ⟨config, .uninitiated⟩), world, []⟩ :=
  rfl

theorem authenticate_failed (env : Environment σ κ χ) (config : Config)
    (credentials : Credentials κ) (route : Option Route) (world : σ) :
    authenticate env ⟨config, .failed⟩ credentials route world =
      ⟨(.error .alreadyFailed, ⟨config, .failed⟩), world, []⟩ :=
  rfl

theorem authenticate_again (env : Environment σ κ χ) (config : Config) (token : List UInt8)
    (credentials : Credentials κ) (route : Option Route) (world : σ) :
    authenticate env ⟨config, .tokenGenerated token⟩ credentials route world =
      ⟨(answer config token, ⟨config, .tokenGenerated token⟩), world, []⟩ :=
  rfl

theorem authenticate_without_route (env : Environment σ κ χ) (config : Config)
    (challenge : List UInt8) (credentials : Credentials κ) (world : σ) :
    authenticate env ⟨config, .challengeReceived challenge⟩ credentials none world =
      ⟨(.error .routeUnavailable, ⟨config, .challengeReceived challenge⟩), world, []⟩ :=
  rfl

end Session

/-! ## Runs -/

namespace Session

inductive Call (κ : Type) where
  | receive (peer : Peer) (challenge : Challenge)
  | authenticate (credentials : Credentials κ) (route : Option Route)
deriving DecidableEq, Repr

inductive Reply where
  | received (result : Except AuthError Unit)
  | answered (result : Except AuthError Answer)

variable {σ κ χ : Type}

def perform (env : Environment σ κ χ) (session : Session) (call : Call κ) :
    Action σ (Event κ χ) (Reply × Session) := do
  match call with
  | .receive peer challenge =>
      let (result, session) ← session.receive peer challenge
      return (.received result, session)
  | .authenticate credentials route =>
      let (result, session) ← session.authenticate env credentials route
      return (.answered result, session)

def run (env : Environment σ κ χ) (session : Session) :
    List (Call κ) → Action σ (Event κ χ) (List Reply × Session)
  | [] => return ([], session)
  | call :: calls => do
      let (reply, session) ← perform env session call
      let (replies, session) ← run env session calls
      return (reply :: replies, session)

end Session

end NegotiateAuth
