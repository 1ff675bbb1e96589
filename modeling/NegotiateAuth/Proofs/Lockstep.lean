import NegotiateAuth.Proofs.Session.Provider
import NegotiateAuth.Session.Exchange

/-! # Actions in step

A relation says which worlds belong together. Two actions are in step if from worlds that belong
together they come to the same result by the same events and leave worlds that belong together.
Environments that answer alike keep sessions and exchanges in step; one of them notes the answers
that it hears, of a token only its size, and nothing at all if traces are off.
-/

namespace NegotiateAuth

/-! ## Actions and sessions -/

section

variable {σ σ' ε α β : Type} {R : σ → σ' → Prop}

structure Outcome.Matches (R : σ → σ' → Prop) (one : Outcome σ ε α) (other : Outcome σ' ε α) :
    Prop where
  result : other.result = one.result
  events : other.events = one.events
  world : R one.world other.world

/-- Two questions have the same answer in worlds that belong together, and keep them together. -/
def AnsweredAlike (R : σ → σ' → Prop) (one : σ → α × σ) (other : σ' → α × σ') : Prop :=
  ∀ ⦃world world'⦄, R world world' →
    (other world').1 = (one world).1 ∧ R (one world).2 (other world').2

namespace Action

def InStep (R : σ → σ' → Prop) (one : Action σ ε α) (other : Action σ' ε α) : Prop :=
  ∀ ⦃world world'⦄, R world world' → (one world).Matches R (other world')

namespace InStep

theorem pure (a : α) : InStep R (Pure.pure a : Action σ ε α) (Pure.pure a) :=
  fun _ _ h => ⟨rfl, rfl, h⟩

theorem bind {one : Action σ ε α} {other : Action σ' ε α} {next : α → Action σ ε β}
    {next' : α → Action σ' ε β} (first : InStep R one other)
    (rest : ∀ a, InStep R (next a) (next' a)) : InStep R (one >>= next) (other >>= next') := by
  intro world world' h
  obtain ⟨hresult, hevents, hworld⟩ := first h
  obtain ⟨hresult', hevents', hworld'⟩ := rest (one world).result hworld
  rw [bind_apply, bind_apply, hresult, hevents]
  exact ⟨hresult', by rw [hevents'], hworld'⟩

theorem emit (event : ε) : InStep R (Action.emit event : Action σ ε Unit) (Action.emit event) :=
  fun _ _ h => ⟨rfl, rfl, h⟩

theorem emitAll (events : List ε) :
    InStep R (Action.emitAll events : Action σ ε Unit) (Action.emitAll events) :=
  fun _ _ h => ⟨rfl, rfl, h⟩

theorem ask {one : σ → α × σ} {other : σ' → α × σ'} (answered : AnsweredAlike R one other) :
    InStep R (Action.ask one : Action σ ε α) (Action.ask other) :=
  fun _ _ h => ⟨(answered h).1, rfl, (answered h).2⟩

theorem ite {c : Prop} [Decidable c] {one one' : Action σ ε α} {other other' : Action σ' ε α}
    (holds : InStep R one other) (fails : InStep R one' other') :
    InStep R (if c then one else one') (if c then other else other') := by
  by_cases h : c
  · rw [if_pos h, if_pos h]
    exact holds
  · rw [if_neg h, if_neg h]
    exact fails

end InStep

end Action

end

section

variable {σ σ' κ χ : Type} {R : σ → σ' → Prop}

structure Environment.InStep (R : σ → σ' → Prop) (env : Environment σ κ χ)
    (env' : Environment σ' κ χ) : Prop where
  createContext : ∀ service mechanism credential, AnsweredAlike R
    (env.createContext service mechanism credential)
    (env'.createContext service mechanism credential)
  advance : ∀ context input,
    AnsweredAlike R (env.advance context input) (env'.advance context input)
  canonicalize : ∀ host, AnsweredAlike R (env.canonicalize host) (env'.canonicalize host)

theorem Environment.InStep.refl (env : Environment σ κ χ) : env.InStep Eq env where
  createContext _ _ _ := by rintro world _ rfl; exact ⟨rfl, rfl⟩
  advance _ _ := by rintro world _ rfl; exact ⟨rfl, rfl⟩
  canonicalize _ := by rintro world _ rfl; exact ⟨rfl, rfl⟩

variable {env : Environment σ κ χ} {env' : Environment σ' κ χ} (alike : env.InStep R env')

include alike

theorem ServiceName.ofHost_inStep (config : Config) (host : Host) :
    Action.InStep R (ofHost env config host) (ofHost env' config host) := by
  refine .bind (.ite ?_ (.pure _)) fun name => .pure _
  refine .bind (.bind (.emit _) fun _ => .ask (alike.canonicalize host.name)) fun answer => ?_
  cases answer with
  | error cause => exact .bind (.emit _) fun _ => .pure _
  | ok canonical => exact .ite (.pure _) (.bind (.emit _) fun _ => .pure _)

namespace Session

/-- What is left of an answer once the service is named. -/
def respondAs (env : Environment σ κ χ) (mechanism : Mechanism) (credentials : Credentials κ)
    (challenge : List UInt8) (service : String) :
    Action σ (Event κ χ) (Except ProviderError (List UInt8)) := do
  .emit (.debug s!"init {service} ({mechanism.name})")
  match ← env.create service mechanism credentials.handle? with
  | .error cause => return .error cause
  | .ok context =>
      match ← env.feed context challenge with
      | .error cause => return .error cause
      | .ok token =>
          .emit (.trace s!"generated {token.length} byte Negotiate token")
          return .ok token

omit alike in
theorem respond_eq_bind (env : Environment σ κ χ) (config : Config) (credentials : Credentials κ)
    (route : Route) (challenge : List UInt8) :
    respond env config credentials route challenge =
      ServiceName.ofHost env config (route.authHost config.proxy) >>=
        respondAs env config.mechanism credentials challenge :=
  rfl

omit alike in
/-- Once the service is named, the provider is all that an answer depends on. -/
theorem respondAs_inStep
    (creates : ∀ service mechanism credential, AnsweredAlike R
      (env.createContext service mechanism credential)
      (env'.createContext service mechanism credential))
    (advances : ∀ context input,
      AnsweredAlike R (env.advance context input) (env'.advance context input))
    (mechanism : Mechanism) (credentials : Credentials κ) (challenge : List UInt8)
    (service : String) :
    Action.InStep R (respondAs env mechanism credentials challenge service)
      (respondAs env' mechanism credentials challenge service) := by
  refine .bind (.emit _) fun _ => ?_
  refine .bind (.bind (.emit _) fun _ => .ask (creates ..)) fun created => ?_
  cases created with
  | error cause => exact .pure _
  | ok context =>
      refine .bind (.bind (.emit _) fun _ => .ask (advances ..)) fun advanced => ?_
      cases advanced with
      | error cause => exact .pure _
      | ok token => exact .bind (.emit _) fun _ => .pure _

theorem respond_inStep (config : Config) (credentials : Credentials κ) (route : Route)
    (challenge : List UInt8) :
    Action.InStep R (respond env config credentials route challenge)
      (respond env' config credentials route challenge) := by
  rw [respond_eq_bind, respond_eq_bind]
  refine .bind (ServiceName.ofHost_inStep alike config _) fun service => ?_
  exact respondAs_inStep alike.createContext alike.advance _ _ _ service

theorem authenticate_inStep (session : Session) (credentials : Credentials κ)
    (route : Option Route) :
    Action.InStep R (authenticate env session credentials route)
      (authenticate env' session credentials route) := by
  obtain ⟨config, phase⟩ := session
  cases phase with
  | uninitiated => exact .pure _
  | failed => exact .pure _
  | tokenGenerated token => exact .pure _
  | challengeReceived challenge =>
      cases route with
      | none => exact .pure _
      | some route =>
          refine .bind (respond_inStep alike config credentials route challenge) fun responded => ?_
          cases responded with
          | ok token => exact .pure _
          | error cause => exact .bind (.emit _) fun _ => .pure _

omit alike in
theorem receive_inStep (session : Session) (peer : Peer) (challenge : Challenge) :
    Action.InStep R (session.receive peer challenge : Action σ (Event κ χ) _)
      (session.receive peer challenge) := by
  obtain ⟨config, phase⟩ := session
  cases phase with
  | uninitiated =>
      unfold receive
      dsimp only
      split
      · exact .bind (.emitAll _) fun _ => .pure _
      · exact .pure _
  | challengeReceived bytes => exact .bind (.emit _) fun _ => .pure _
  | tokenGenerated token => exact .bind (.emit _) fun _ => .pure _
  | failed => exact .bind (.emit _) fun _ => .pure _

theorem perform_inStep (session : Session) (call : Call κ) :
    Action.InStep R (perform env session call) (perform env' session call) := by
  cases call with
  | receive peer challenge =>
      exact .bind (receive_inStep session peer challenge) fun _ => .pure _
  | authenticate credentials route =>
      exact .bind (authenticate_inStep alike session credentials route) fun _ => .pure _

theorem run_inStep (session : Session) (calls : List (Call κ)) :
    Action.InStep R (run env session calls) (run env' session calls) := by
  induction calls generalizing session with
  | nil => exact .pure _
  | cons call calls ih =>
      refine .bind (perform_inStep alike session call) fun performed => ?_
      exact .bind (ih performed.2) fun _ => .pure _

end Session

end

/-! ## Exchanges -/

namespace Exchange

variable {σ σ' κ χ : Type} {R : σ → σ' → Prop}

def movedTo (exchange : Exchange σ κ χ) (env : Environment σ' κ χ) (transport : Transport σ') :
    Exchange σ' κ χ :=
  ⟨exchange.config, env, transport, exchange.credentials, exchange.proxy⟩

variable {exchange : Exchange σ κ χ} {env : Environment σ' κ χ} {transport : Transport σ'}

theorem conclude_inStep
    (sends : ∀ request, AnsweredAlike R (exchange.transport request) (transport request))
    (request : Http.Request) :
    Action.InStep R (exchange.conclude request)
      ((exchange.movedTo env transport).conclude request) := by
  refine .bind (.bind (.emit _) fun _ => .ask (sends request)) fun sent => ?_
  cases sent with
  | error cause => exact .pure _
  | ok response => exact .bind (.emitAll _) fun _ => .pure _

theorem retry_inStep (alike : exchange.env.InStep R env)
    (sends : ∀ request, AnsweredAlike R (exchange.transport request) (transport request))
    (request : Http.Request) (challenge : Challenge) :
    Action.InStep R (exchange.retry request challenge)
      ((exchange.movedTo env transport).retry request challenge) := by
  refine .bind (Session.receive_inStep _ _ _) fun received => ?_
  obtain ⟨received, session⟩ := received
  cases received with
  | error cause => exact .pure _
  | ok _ =>
      refine .bind (Session.authenticate_inStep alike session _ _) fun answered => ?_
      obtain ⟨answered, _⟩ := answered
      cases answered with
      | error cause => exact .pure _
      | ok answer => exact conclude_inStep sends _

theorem run_inStep (alike : exchange.env.InStep R env)
    (sends : ∀ request, AnsweredAlike R (exchange.transport request) (transport request))
    (request : Http.Request) :
    Action.InStep R (exchange.run request) ((exchange.movedTo env transport).run request) := by
  refine .bind (.bind (.emit _) fun _ => .ask (sends request)) fun sent => ?_
  cases sent with
  | error cause => exact .pure _
  | ok response =>
      refine .ite (.pure _) ?_
      cases h : Challenge.ofFields? exchange.config.peer response.fields with
      | none =>
          simp only [movedTo, h]
          exact .bind (.emit _) fun _ => .pure _
      | some challenge =>
          simp only [movedTo, h]
          exact retry_inStep alike sends _ _

end Exchange

/-! ## What is heard -/

/-- An answer of a capability, without the bytes of a token. -/
inductive Heard where
  | named (answer : Except String Canonical)
  | created (answer : Except ProviderError Unit)
  | advanced (answer : Except ProviderError Nat)
  | responded (answer : Except String Http.Response)

/-- What records down to a level may tell of a token. -/
def Level.sizeTold : Level → List UInt8 → Nat
  | .debug, _ => 0
  | .trace, token => token.length

section

variable {σ κ χ ε α : Type}

def noting (note : α → Heard) (question : σ → α × σ) (world : σ × List Heard) :
    α × σ × List Heard :=
  let answer := question world.1
  (answer.1, answer.2, world.2 ++ [note answer.1])

def Environment.noted (level : Level) (env : Environment σ κ χ) :
    Environment (σ × List Heard) κ χ where
  createContext service mechanism credential :=
    noting (fun created => .created (created.map fun _ => ()))
      (env.createContext service mechanism credential)
  advance context input :=
    noting (fun advanced => .advanced (advanced.map level.sizeTold)) (env.advance context input)
  canonicalize host := noting .named (env.canonicalize host)

def Transport.noted (transport : Transport σ) : Transport (σ × List Heard) :=
  fun request => noting .responded (transport request)

/-- All that an action hears, in order. -/
def Action.heard (action : Action (σ × List Heard) ε α) (world : σ) : List Heard :=
  (action (world, [])).world.2

/-- A world with a list, and the world alone. -/
def Beside (noted : σ × List Heard) (world : σ) : Prop :=
  world = noted.1

/-- A world with a list, and the world with a list that begins earlier. -/
def Since (earlier : List Heard) (one other : σ × List Heard) : Prop :=
  other = (one.1, earlier ++ one.2)

theorem noting_beside (note : α → Heard) (question : σ → α × σ) :
    AnsweredAlike Beside (noting note question) question := by
  rintro world _ rfl
  exact ⟨rfl, rfl⟩

theorem noting_since (note : α → Heard) (question : σ → α × σ) (earlier : List Heard) :
    AnsweredAlike (Since earlier) (noting note question) (noting note question) := by
  rintro world _ rfl
  refine ⟨rfl, ?_⟩
  simp [Since, noting]

theorem Environment.noted_beside (level : Level) (env : Environment σ κ χ) :
    (env.noted level).InStep Beside env where
  createContext _ _ _ := noting_beside _ _
  advance _ _ := noting_beside _ _
  canonicalize _ := noting_beside _ _

theorem Environment.noted_since (level : Level) (env : Environment σ κ χ)
    (earlier : List Heard) : (env.noted level).InStep (Since earlier) (env.noted level) where
  createContext _ _ _ := noting_since _ _ _
  advance _ _ := noting_since _ _ _
  canonicalize _ := noting_since _ _ _

/-- An action that takes notes does what it does without them. -/
theorem Action.noted_apply {noted : Action (σ × List Heard) ε α} {plain : Action σ ε α}
    (beside : InStep Beside noted plain) (since : ∀ earlier, InStep (Since earlier) noted noted)
    (world : σ) (earlier : List Heard) :
    noted (world, earlier) =
      ⟨(plain world).result, ((plain world).world, earlier ++ noted.heard world),
        (plain world).events⟩ := by
  -- The notes may be left out, or begin earlier; the run from the empty list is in between.
  have hnoted : (noted (world, [])).Matches Beside (plain world) := beside rfl
  have hsince : (noted (world, [])).Matches (Since earlier) (noted (world, earlier)) :=
    since earlier (by simp [Since])
  rcases hone : noted (world, earlier) with ⟨result, world', events⟩
  rw [hone] at hsince
  obtain ⟨hresult, hevents, hworld⟩ := hsince
  obtain ⟨hresult', hevents', hworld'⟩ := hnoted
  simp only at hresult hevents hworld
  rw [hresult', hevents', hresult, hevents, hworld', hworld]
  rfl

end

namespace ServiceName

variable {σ σ' κ κ' χ χ' : Type} {level : Level} {env : Environment σ κ χ}
  {env' : Environment σ' κ' χ'} {config : Config} {host : Host}

theorem ofHost_noted (level : Level) (env : Environment σ κ χ) (config : Config) (host : Host)
    (world : σ) (earlier : List Heard) :
    ofHost (env.noted level) config host (world, earlier) =
      let named := ofHost env config host world
      ⟨named.result, (named.world, earlier ++ (ofHost (env.noted level) config host).heard world),
        named.events⟩ :=
  Action.noted_apply (ofHost_inStep (env.noted_beside level) config host)
    (fun earlier => ofHost_inStep (env.noted_since level earlier) config host) world earlier

theorem canonicalName_heard (level : Level) (env : Environment σ κ χ) (name : String)
    (world : σ) :
    (canonicalName (env.noted level) name).heard world =
      [.named (env.canonicalize name world).1] := by
  rw [Action.heard, canonicalName_apply]
  simp only [Environment.noted, noting, List.nil_append]
  rcases env.canonicalize name world with ⟨cause | canonical, after⟩
  · rfl
  · dsimp only
    split <;> rfl

/-- The name of a service, and what is told of it, depend on what is heard alone. -/
theorem ofHost_told {world : σ} {world' : σ'} {rest rest' : List Heard}
    (h : (ofHost (env.noted level) config host).heard world ++ rest =
      (ofHost (env'.noted level) config host).heard world' ++ rest') :
    rest = rest' ∧
      (ofHost env config host world).result = (ofHost env' config host world').result ∧
      records level (ofHost env config host world).events =
        records level (ofHost env' config host world').events := by
  by_cases canonical : config.useCanonicalHostname = true
  · have heard : (canonicalName (env.noted level) host.name).heard world ++ rest =
        (canonicalName (env'.noted level) host.name).heard world' ++ rest' := by
      simpa only [Action.heard, ofHost_of_canonical canonical] using h
    rw [canonicalName_heard, canonicalName_heard] at heard
    injection heard with hanswer hrest
    injection hanswer with hanswer
    refine ⟨hrest, ?_⟩
    rw [ofHost_of_canonical canonical, ofHost_of_canonical canonical, canonicalName_apply,
      canonicalName_apply]
    rcases hnamed : env.canonicalize host.name world with ⟨answer, after⟩
    rcases hnamed' : env'.canonicalize host.name world' with ⟨answer', after'⟩
    rw [hnamed, hnamed'] at hanswer
    obtain rfl : answer = answer' := hanswer
    cases answer with
    | error cause => exact ⟨rfl, rfl⟩
    | ok canonical =>
        dsimp only
        split <;> exact ⟨rfl, rfl⟩
  · have hrest : [] ++ rest = [] ++ rest' := by
      simpa only [Action.heard, ofHost_of_given canonical] using h
    rw [ofHost_of_given canonical, ofHost_of_given canonical]
    exact ⟨hrest, rfl, rfl⟩

end ServiceName

namespace Session

variable {σ κ χ : Type} {level : Level} {env : Environment σ κ χ} {config : Config}
  {credentials : Credentials κ} {route : Route} {challenge : List UInt8}

theorem respond_noted (level : Level) (env : Environment σ κ χ) (config : Config)
    (credentials : Credentials κ) (route : Route) (challenge : List UInt8) (world : σ)
    (earlier : List Heard) :
    respond (env.noted level) config credentials route challenge (world, earlier) =
      let made := respond env config credentials route challenge world
      ⟨made.result, (made.world, earlier ++
        (respond (env.noted level) config credentials route challenge).heard world),
        made.events⟩ :=
  Action.noted_apply (respond_inStep (env.noted_beside level) config credentials route challenge)
    (fun earlier =>
      respond_inStep (env.noted_since level earlier) config credentials route challenge)
    world earlier

section

variable {world between after : σ} {context : χ}

def heardService (level : Level) (env : Environment σ κ χ) (config : Config) (route : Route)
    (world : σ) : List Heard :=
  (ServiceName.ofHost (env.noted level) config (route.authHost config.proxy)).heard world

theorem named_of_heardService {answer : Heard}
    (h : answer ∈ heardService level env config route world) : ∃ found, answer = .named found := by
  rw [heardService, Action.heard] at h
  by_cases canonical : config.useCanonicalHostname = true
  · rw [ServiceName.ofHost_of_canonical canonical, ← Action.heard,
      ServiceName.canonicalName_heard] at h
    exact ⟨_, List.mem_singleton.1 h⟩
  · rw [ServiceName.ofHost_of_given canonical] at h
    cases h

theorem creation_noted (level : Level) (env : Environment σ κ χ) (config : Config)
    (credentials : Credentials κ) (route : Route) (world : σ) :
    creation (env.noted level) config credentials route (world, []) =
      let created := creation env config credentials route world
      (created.1, created.2, heardService level env config route world ++
        [.created (created.1.map fun _ => ())]) := by
  simp only [creation, service, ServiceName.ofHost_noted, List.nil_append]
  rfl

theorem heard_of_uncreated {cause : ProviderError}
    (created : creation env config credentials route world = (.error cause, after)) :
    (respond (env.noted level) config credentials route challenge).heard world =
      heardService level env config route world ++ [.created (.error cause)] := by
  have created' := creation_noted level env config credentials route world
  rw [created] at created'
  rw [Action.heard, respond_of_uncreated created']
  rfl

theorem heard_of_unadvanced {cause : ProviderError}
    (created : creation env config credentials route world = (.ok context, between))
    (advanced : env.advance context challenge between = (.error cause, after)) :
    (respond (env.noted level) config credentials route challenge).heard world =
      heardService level env config route world ++
        [.created (.ok ()), .advanced (.error cause)] := by
  have created' := creation_noted level env config credentials route world
  rw [created] at created'
  rw [Action.heard, respond_of_unadvanced created' (by
    simp only [Environment.noted, noting, advanced]
    rfl)]
  exact List.append_assoc _ _ _

theorem heard_of_granted {token : List UInt8}
    (created : creation env config credentials route world = (.ok context, between))
    (advanced : env.advance context challenge between = (.ok token, after)) :
    (respond (env.noted level) config credentials route challenge).heard world =
      heardService level env config route world ++
        [.created (.ok ()), .advanced (.ok (level.sizeTold token))] := by
  have created' := creation_noted level env config credentials route world
  rw [created] at created'
  rw [Action.heard, respond_of_granted created' (by
    simp only [Environment.noted, noting, advanced]
    rfl)]
  exact List.append_assoc _ _ _

end

end Session

end NegotiateAuth
