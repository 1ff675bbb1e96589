import Mathlib.Data.List.Forall2
import NegotiateAuth.Proofs.Lockstep
import NegotiateAuth.Proofs.Session.History

/-! # The service of a session

A session names one service, after the host that it authenticates against, and looks up one host
name at most. Where no name is found, the session goes as if none had been looked up; and of a route
the host to authenticate against is all that makes a difference.
-/

namespace NegotiateAuth

/-! ## Runs that go alike -/

namespace Session

variable {σ κ χ : Type}

structure Transition.GoesLike (one other : Transition κ) : Prop where
  call : other.call = one.call
  reply : other.reply = one.reply
  before : other.before.phase = one.before.phase
  after : other.after.phase = one.after.phase

structure RunAlike (env : Environment σ κ χ) (calls : List (Call κ)) (one other : Session)
    (world world' : σ) : Prop where
  steps : List.Forall₂ Transition.GoesLike (transitions env one calls world)
    (transitions env other calls world')
  asked : providerCalls (run env other calls world').events =
    providerCalls (run env one calls world).events

namespace RunAlike

variable {env : Environment σ κ χ} {one other : Session} {world world' : σ}

theorem refl (env : Environment σ κ χ) (calls : List (Call κ)) (session : Session) (world : σ) :
    RunAlike env calls session session world world where
  steps := List.forall₂_same.2 fun _ _ => ⟨rfl, rfl, rfl, rfl⟩
  asked := rfl

theorem append {calls more : List (Call κ)} (first : RunAlike env calls one other world world')
    (second : RunAlike env more (run env one calls world).result.2
      (run env other calls world').result.2 (run env one calls world).world
      (run env other calls world').world) :
    RunAlike env (calls ++ more) one other world world' where
  steps := by
    rw [transitions_append, transitions_append]
    exact List.rel_append first.steps second.steps
  asked := by
    simp only [run_append, providerCalls_append, first.asked, second.asked]

/-- A call that goes alike, and then a run that does. -/
theorem cons {call : Call κ} {calls : List (Call κ)}
    (made : (transition env one call world).GoesLike (transition env other call world'))
    (asked : providerCalls (perform env other call world').events =
      providerCalls (perform env one call world).events)
    (rest : RunAlike env calls (perform env one call world).result.2
      (perform env other call world').result.2 (perform env one call world).world
      (perform env other call world').world) :
    RunAlike env (call :: calls) one other world world' where
  steps := .cons made rest.steps
  asked := by
    simp only [run_cons, providerCalls_append, asked, rest.asked]

end RunAlike

theorem standingReply_of_peer_eq {config other : Config} (same : other.peer = config.peer)
    (phase : Phase) : standingReply other phase = standingReply config phase := by
  cases phase with
  | uninitiated => rfl
  | challengeReceived challenge => rfl
  | tokenGenerated token => simp only [standingReply, answer_eq_ok, same]
  | failed => rfl

section

variable {env : Environment σ κ χ} {config other : Config} {phase : Phase} {world : σ}

/-- A call that asks nothing of the provider is dealt with by the peer's settings alone. -/
theorem perform_of_uncalled {call : Call κ}
    (quiet : providerCalls (perform env ⟨config, phase⟩ call world).events = [])
    (same : other.peer = config.peer) (world' : σ) :
    ∃ reply next events,
      perform env ⟨config, phase⟩ call world = ⟨(reply, ⟨config, next⟩), world, events⟩ ∧
        perform env ⟨other, phase⟩ call world' = ⟨(reply, ⟨other, next⟩), world', events⟩ ∧
        ∀ event ∈ events, ∃ level text, event = .logged level text := by
  cases perform_step env config phase call world with
  | idle idle outcome =>
      refine ⟨_, _, _, outcome, ?_, by simp⟩
      rw [perform_of_isIdle env other idle, standingReply_of_peer_eq same]
  | @accepted peer challenge bytes decoded outcome =>
      refine ⟨_, _, _, outcome, ?_, challengeRecords_records config peer challenge _⟩
      rw [perform_receive, receive_of_decode decoded]
      simp only [challengeRecords, same]
  | malformed undecoded outcome =>
      refine ⟨_, _, _, outcome, ?_, by simp⟩
      rw [perform_receive, receive_of_malformed undecoded]
  | rejected started outcome =>
      exact ⟨_, _, _, outcome, perform_receive_again env other started _ _ world', by simp⟩
  | granted grants outcome =>
      rw [outcome, providerCalls_respond] at quiet
      cases quiet
  | refused refuses outcome =>
      rw [outcome, providerCalls_append, providerCalls_respond] at quiet
      cases quiet

theorem records_of_uncalled {calls : List (Call κ)}
    (quiet : providerCalls (run env ⟨config, phase⟩ calls world).events = []) :
    ∀ event ∈ (run env ⟨config, phase⟩ calls world).events,
      ∃ level text, event = .logged level text := by
  induction calls generalizing phase with
  | nil => exact List.forall_mem_nil _
  | cons call calls ih =>
      rw [run_cons, providerCalls_append, List.append_eq_nil_iff] at quiet
      obtain ⟨hquiet, hrest⟩ := quiet
      obtain ⟨reply, next, events, hmade, -, hrecords⟩ := perform_of_uncalled hquiet rfl world
      rw [hmade] at hrest
      rw [run_cons, hmade]
      intro event hevent
      rcases List.mem_append.1 hevent with hevent | hevent
      · exact hrecords event hevent
      · exact ih hrest event hevent

theorem runAlike_of_uncalled {calls : List (Call κ)}
    (quiet : providerCalls (run env ⟨config, phase⟩ calls world).events = [])
    (same : other.peer = config.peer) (world' : σ) :
    RunAlike env calls ⟨config, phase⟩ ⟨other, phase⟩ world world' := by
  induction calls generalizing phase with
  | nil => exact ⟨.nil, rfl⟩
  | cons call calls ih =>
      rw [run_cons, providerCalls_append, List.append_eq_nil_iff] at quiet
      obtain ⟨hquiet, hrest⟩ := quiet
      obtain ⟨reply, next, events, hmade, hmade', -⟩ := perform_of_uncalled hquiet same world'
      rw [hmade] at hrest
      refine .cons ?_ ?_ ?_
      · simp only [transition, hmade, hmade']
        exact ⟨rfl, rfl, rfl, rfl⟩
      · rw [hmade, hmade']
      · rw [hmade, hmade']
        exact ih hrest

end

end Session

/-! ## The service -/

def Config.asGiven (config : Config) : Config :=
  { config with useCanonicalHostname := false }

theorem Config.asGiven_of_given {config : Config} (given : ¬ config.useCanonicalHostname = true) :
    config.asGiven = config := by
  rw [asGiven, ← Bool.eq_false_iff.2 given]

structure Environment.ProviderInStep {σ κ χ : Type} (R : σ → σ → Prop)
    (env : Environment σ κ χ) : Prop where
  creates : ∀ service mechanism credential, AnsweredAlike R
    (env.createContext service mechanism credential)
    (env.createContext service mechanism credential)
  advances : ∀ context input, AnsweredAlike R (env.advance context input)
    (env.advance context input)

structure Environment.LookUpsUnnoticed {σ κ χ : Type} (R : σ → σ → Prop)
    (env : Environment σ κ χ) : Prop extends env.ProviderInStep R where
  lookedUp : ∀ host world, R (env.canonicalize host world).2 world

theorem Environment.ProviderInStep.refl {σ κ χ : Type} (env : Environment σ κ χ) :
    env.ProviderInStep Eq where
  creates := (Environment.InStep.refl env).createContext
  advances := (Environment.InStep.refl env).advance

namespace Session

variable {σ κ χ : Type}

/-- What is found out about the host to authenticate against. -/
def Attempt.lookUp {calls : List (Call κ)} (attempt : Attempt calls) (env : Environment σ κ χ)
    (config : Config) (world : σ) : Except String Canonical × σ :=
  env.canonicalize (attempt.route.authHost config.proxy).name world

section

variable {env : Environment σ κ χ} {config : Config} {credentials : Credentials κ} {route : Route}
  {challenge : List UInt8} {world : σ}

theorem service_eq (env : Environment σ κ χ) (config : Config) (route : Route) (world : σ) :
    (service env config route world).result =
      let host := route.authHost config.proxy
      "HTTP@" ++ (ServiceName.hostName env config host.name world).result ++
        if config.stripPort then "" else ":" ++ toString host.port.toNat := by
  rw [service, ServiceName.ofHost_apply]
  exact ServiceName.format_eq _ _ _

theorem respond_apply (env : Environment σ κ χ) (config : Config) (credentials : Credentials κ)
    (route : Route) (challenge : List UInt8) (world : σ) :
    respond env config credentials route challenge world =
      let named := service env config route world
      let answered :=
        respondAs env config.mechanism credentials challenge named.result named.world
      ⟨answered.result, answered.world, named.events ++ answered.events⟩ := by
  rw [respond_eq_bind, Action.bind_apply]
  rfl

theorem lookUps_respond :
    lookUps (respond env config credentials route challenge world).events =
      if config.useCanonicalHostname then [(route.authHost config.proxy).name] else [] := by
  have hnamed : lookUps (requesting env config credentials route world) =
      if config.useCanonicalHostname then [(route.authHost config.proxy).name] else [] := by
    have hhost := ServiceName.lookUps_hostName env config (route.authHost config.proxy).name world
    simp [requesting, service, ServiceName.ofHost_apply, hhost]
  cases respond_response env config credentials route challenge world with
  | uncreated created outcome => rw [outcome, hnamed]
  | unadvanced created advanced outcome => rw [outcome, lookUps_append, hnamed]; simp
  | granted created advanced outcome => rw [outcome, lookUps_append, hnamed]; simp

theorem lookUps_perform_attempt :
    lookUps (perform env ⟨config, .challengeReceived challenge⟩
        (.authenticate credentials (some route)) world).events =
      if config.useCanonicalHostname then [(route.authHost config.proxy).name] else [] := by
  cases perform_step env config (.challengeReceived challenge)
    (.authenticate credentials (some route)) world with
  | idle idle outcome => cases idle
  | granted grants outcome => rw [outcome, lookUps_respond]
  | refused refuses outcome => rw [outcome, lookUps_append, lookUps_respond]; simp

/-- Where nothing but the address is found out, an answer is the one that is given for the name as
it is, in any world that belongs with the one after the look-up. -/
theorem respond_of_unnamed {R : σ → σ → Prop} (alike : env.ProviderInStep R)
    (on : config.useCanonicalHostname = true)
    (bare : ServiceName.Unnamed (env.canonicalize (route.authHost config.proxy).name world).1)
    {world' : σ} (kept : R (env.canonicalize (route.authHost config.proxy).name world).2 world')
    (credentials : Credentials κ) (challenge : List UInt8) :
    let made := respond env config credentials route challenge world
    let plain := respond env config.asGiven credentials route challenge world'
    plain.result = made.result ∧ providerCalls plain.events = providerCalls made.events := by
  intro made plain
  obtain ⟨hname, hafter⟩ := ServiceName.ofHost_of_unnamed on bare
  have given : ¬ config.asGiven.useCanonicalHostname = true := Bool.false_ne_true
  have hgiven : service env config.asGiven route world' =
      ⟨(service env config route world).result, world', []⟩ :=
    (ServiceName.ofHost_of_given given env _ world').trans (by rw [service, hname]; rfl)
  have hsilent := (ServiceName.views_ofHost env config (route.authHost config.proxy) world).1
  rw [← hafter] at kept
  obtain ⟨hresult, hevents, -⟩ := respondAs_inStep alike.creates alike.advances config.mechanism
    credentials challenge (service env config route world).result kept
  simp only [made, plain, respond_apply, hgiven]
  refine ⟨hresult, ?_⟩
  rw [providerCalls_append, providerCalls_append, service, hsilent]
  exact congrArg providerCalls hevents

theorem perform_of_unnamed {R : σ → σ → Prop} (alike : env.ProviderInStep R)
    (on : config.useCanonicalHostname = true)
    (bare : ServiceName.Unnamed (env.canonicalize (route.authHost config.proxy).name world).1)
    {world' : σ} (kept : R (env.canonicalize (route.authHost config.proxy).name world).2 world')
    (credentials : Credentials κ) (challenge : List UInt8) :
    let made := perform env ⟨config, .challengeReceived challenge⟩
      (.authenticate credentials (some route)) world
    let plain := perform env ⟨config.asGiven, .challengeReceived challenge⟩
      (.authenticate credentials (some route)) world'
    plain.result = (made.result.1, ⟨config.asGiven, made.result.2.phase⟩) ∧
      providerCalls plain.events = providerCalls made.events := by
  intro made plain
  obtain ⟨hresult, hcalls⟩ := respond_of_unnamed alike on bare kept credentials challenge
  have hmade := perform_authenticate env ⟨config, .challengeReceived challenge⟩ credentials
    (some route) world
  have hplain := perform_authenticate env ⟨config.asGiven, .challengeReceived challenge⟩
    credentials (some route) world'
  cases h : (respond env config credentials route challenge world).result with
  | ok token =>
      rw [authenticate_of_ok _ _ _ _ _ _ h] at hmade
      rw [authenticate_of_ok _ _ _ _ _ _ (hresult.trans h)] at hplain
      rw [show made = _ from hmade, show plain = _ from hplain]
      exact ⟨rfl, hcalls⟩
  | error cause =>
      rw [authenticate_of_error _ _ _ _ _ _ h] at hmade
      rw [authenticate_of_error _ _ _ _ _ _ (hresult.trans h)] at hplain
      rw [show made = _ from hmade, show plain = _ from hplain]
      exact ⟨rfl, by rw [providerCalls_append, providerCalls_append, hcalls]⟩

end

inductive Call.SameHost (proxy : Bool) : Call κ → Call κ → Prop where
  | receive (peer : Peer) (challenge : Challenge) :
      SameHost proxy (.receive peer challenge) (.receive peer challenge)
  | unrouted (credentials : Credentials κ) :
      SameHost proxy (.authenticate credentials none) (.authenticate credentials none)
  | routed (credentials : Credentials κ) {route other : Route}
      (same : other.authHost proxy = route.authHost proxy) :
      SameHost proxy (.authenticate credentials (some route))
        (.authenticate credentials (some other))

theorem respond_of_authHost {env : Environment σ κ χ} {config : Config} {route other : Route}
    (same : other.authHost config.proxy = route.authHost config.proxy)
    (credentials : Credentials κ) (challenge : List UInt8) :
    respond env config credentials other challenge =
      respond env config credentials route challenge := by
  rw [respond_eq_bind, respond_eq_bind, same]

/-- The host to authenticate against is all that a call takes from its route. -/
theorem perform_of_sameHost {env : Environment σ κ χ} {config : Config} {phase : Phase}
    {call other : Call κ} (same : call.SameHost config.proxy other) :
    perform env ⟨config, phase⟩ other = perform env ⟨config, phase⟩ call := by
  cases same with
  | receive peer challenge => rfl
  | unrouted credentials => rfl
  | routed credentials same =>
      cases phase with
      | uninitiated => rfl
      | challengeReceived challenge =>
          simp only [perform, authenticate, respond_of_authHost same]
      | tokenGenerated token => rfl
      | failed => rfl

theorem run_of_sameHost {env : Environment σ κ χ} {config : Config} {phase : Phase}
    {calls others : List (Call κ)}
    (same : List.Forall₂ (Call.SameHost config.proxy) calls others) (world : σ) :
    run env ⟨config, phase⟩ others world = run env ⟨config, phase⟩ calls world := by
  induction same generalizing phase world with
  | nil => rfl
  | @cons call other calls others same _ ih =>
      have hconfig := config_perform env ⟨config, phase⟩ call world
      cases hnext : (perform env ⟨config, phase⟩ call world).result.2 with
      | mk config' next =>
          rw [hnext] at hconfig
          obtain rfl : config' = config := hconfig
          simp only [run_cons, perform_of_sameHost same, hnext, ih]

section

variable {env : Environment σ κ χ} {config : Config} {calls : List (Call κ)} {world : σ}

/-- Where nothing but the address is found out, a session goes as it would for the name as it is, in
any world that belongs with the one after the look-up. -/
theorem runAlike_of_unnamed {R : σ → σ → Prop} (alike : env.ProviderInStep R)
    (on : config.useCanonicalHostname = true) (attempt : Attempt calls)
    (bare : ServiceName.Unnamed (attempt.lookUp env config world).1) {world' : σ}
    (kept : R (attempt.lookUp env config world).2 world') :
    RunAlike env calls (start config) (start config.asGiven) world world' := by
  have same : config.asGiven.peer = config.peer := rfl
  obtain ⟨hsession, hworld, hevents⟩ := run_opening env config world attempt
  obtain ⟨hsession', hworld', -⟩ := run_opening env config.asGiven world' attempt
  have opening :
      RunAlike env attempt.opening (start config) (start config.asGiven) world world' := by
    have quiet : providerCalls (run env (start config) attempt.opening world).events = [] := by
      rw [hevents]
      exact (views_challengeRecords config _ _ _).1
    exact runAlike_of_uncalled quiet same world'
  obtain ⟨hmade, hcalls⟩ := perform_of_unnamed alike on bare kept attempt.credentials attempt.bytes
  have hreply := congrArg Prod.fst hmade
  have hnext := congrArg Prod.snd hmade
  rw [attempt.split]
  refine opening.append ?_
  rw [hsession, hsession', hworld, hworld']
  refine .cons ⟨rfl, hreply, rfl, by rw [transition, transition, Attempt.call, hnext]⟩ hcalls ?_
  -- What comes after the answer is dealt with without the provider, whatever became of it.
  obtain ⟨hcomplete, -⟩ := perform_attempt env config world attempt.bytes attempt.credentials
    attempt.route
  have hconfig := config_perform env ⟨config, .challengeReceived attempt.bytes⟩ attempt.call world
  rw [Attempt.call] at hconfig ⊢
  rw [hnext]
  generalize perform env ⟨config, .challengeReceived attempt.bytes⟩
    (.authenticate attempt.credentials (some attempt.route)) world = made at *
  obtain ⟨⟨reply, config', phase⟩, after, events⟩ := made
  obtain rfl : config' = config := hconfig
  have quiet := (views_of_records (run_of_isComplete env hcomplete attempt.rest after).2).1
  exact runAlike_of_uncalled quiet same _

/-- A session whose provider is not called does not depend on how names are found out. -/
theorem runAlike_of_unattempted (h : ¬ Nonempty (Attempt calls)) (world' : σ) :
    RunAlike env calls (start config) (start config.asGiven) world world' := by
  have same : config.asGiven.peer = config.peer := rfl
  exact runAlike_of_uncalled (providerCalls_of_unattempted env config world h) same world'

theorem lookUps_of_unattempted (h : ¬ Nonempty (Attempt calls)) :
    lookUps (run env (start config) calls world).events = [] :=
  lookUps_of_records (records_of_uncalled (providerCalls_of_unattempted env config world h))

theorem lookUps_of_attempt (attempt : Attempt calls) :
    lookUps (run env (start config) calls world).events =
      if config.useCanonicalHostname then [(attempt.route.authHost config.proxy).name] else [] := by
  obtain ⟨-, -, hevents⟩ := run_attempt env config world attempt
  obtain ⟨hcomplete, -⟩ := perform_attempt env config world attempt.bytes attempt.credentials
    attempt.route
  have hopening : lookUps (challengeRecords config attempt.peer attempt.challenge
      attempt.bytes.length : List (Event κ χ)) = [] :=
    lookUps_of_records (challengeRecords_records config _ _ _)
  have hlater := fun world => lookUps_of_records
    (run_of_isComplete env hcomplete attempt.rest world).2
  rw [hevents, lookUps_append, lookUps_append, hopening, Attempt.call, hlater,
    lookUps_perform_attempt, List.nil_append, List.append_nil]

theorem providerCalls_goesBy (attempt : Attempt calls) :
    let host := attempt.route.authHost config.proxy
    ∃ name more, ServiceName.GoesBy env config host.name world name ∧
      providerCalls (run env (start config) calls world).events =
        .created
          ("HTTP@" ++ name ++ if config.stripPort then "" else ":" ++ toString host.port.toNat)
          config.mechanism attempt.credentials.handle? :: more ∧
      ∀ event ∈ more, ∃ context input, event = .advanced context input := by
  intro host
  obtain ⟨-, hworld, -⟩ := run_opening env config world attempt
  obtain ⟨hevents, hbefore, hafter, hasked⟩ := providerCalls_attempt env config world attempt
  have hcalls := congrArg providerCalls hevents
  rw [providerCalls_append, providerCalls_append, hbefore, hafter, hasked, List.nil_append,
    List.append_nil, hworld, service_eq] at hcalls
  refine ⟨_, _, (ServiceName.goesBy_iff ..).2 rfl, hcalls, ?_⟩
  intro event hevent
  split at hevent
  · obtain rfl := List.mem_singleton.1 hevent
    exact ⟨_, _, rfl⟩
  · cases hevent

end

/-- The service of a session. Its context is created for the host to authenticate against, under the
name that the host goes by, and that host's name is all that is looked up. Where nothing but its
address is found out, the session goes as if names were not looked up: from the world after the
look-up in any case, and from the world before it if the provider cannot tell the two. Routes to the
same host make no difference at all. -/
theorem serviceName_run (env : Environment σ κ χ) (config : Config) (calls : List (Call κ))
    (world : σ) :
    let outcome := run env (start config) calls world
    (∀ attempt : Attempt calls,
      let host := attempt.route.authHost config.proxy
      host = (match config.proxy, attempt.route.proxy with
        | true, some proxy => proxy
        | _, _ => attempt.route.target) ∧
      (∃ name more, ServiceName.GoesBy env config host.name world name ∧
        providerCalls outcome.events =
          .created
            ("HTTP@" ++ name ++ if config.stripPort then "" else ":" ++ toString host.port.toNat)
            config.mechanism attempt.credentials.handle? :: more ∧
        ∀ event ∈ more, ∃ context input, event = .advanced context input) ∧
      lookUps outcome.events = if config.useCanonicalHostname then [host.name] else []) ∧
    (¬ Nonempty (Attempt calls) →
      providerCalls outcome.events = [] ∧ lookUps outcome.events = []) ∧
    (∀ attempt : Attempt calls, config.useCanonicalHostname = true →
      ServiceName.Unnamed (attempt.lookUp env config world).1 →
        RunAlike env calls (start config) (start config.asGiven) world
          (attempt.lookUp env config world).2) ∧
    (∀ R : σ → σ → Prop, env.LookUpsUnnoticed R →
      (∀ attempt : Attempt calls, ServiceName.Unnamed (attempt.lookUp env config world).1) →
        RunAlike env calls (start config) (start config.asGiven) world world) ∧
    ∀ others, List.Forall₂ (Call.SameHost config.proxy) calls others →
      run env (start config) others world = outcome := by
  intro outcome
  refine ⟨fun attempt => ⟨?_, providerCalls_goesBy attempt, lookUps_of_attempt attempt⟩,
    fun h => ⟨providerCalls_of_unattempted env config world h, lookUps_of_unattempted h⟩,
    fun attempt on bare => ?_, fun R unnoticed bare => ?_, fun others same => ?_⟩
  · rw [Route.authHost]
    cases config.proxy <;> cases attempt.route.proxy <;> rfl
  · exact runAlike_of_unnamed (.refl env) on attempt bare rfl
  · by_cases on : config.useCanonicalHostname = true
    · by_cases h : Nonempty (Attempt calls)
      · obtain ⟨attempt⟩ := h
        exact runAlike_of_unnamed unnoticed.toProviderInStep on attempt (bare attempt)
          (unnoticed.lookedUp _ _)
      · exact runAlike_of_unattempted h world
    · rw [Config.asGiven_of_given on]
      exact .refl env calls _ world
  · exact run_of_sameHost same world

/-- A provider that numbers its contexts, with a look-up that finds addresses without a name. -/
def addressesOnly : Environment (Nat × Nat) Unit Nat where
  createContext _ _ _ world := (.ok world.1, (world.1 + 1, world.2))
  advance context input world := (.ok (UInt8.ofNat context :: input), world)
  canonicalize _ world :=
    (.ok ⟨.v6 ⟨[0, 0, 0, 0, 0, 0, 0, 1], rfl⟩, "::1"⟩, (world.1, world.2 + 1))

def throughProxy (host : String) : List (Call Unit) :=
  [.receive .proxy ⟨none⟩,
    .authenticate .currentUser (some (.viaProxy ⟨host, 443⟩ ⟨"proxy.example", 3128⟩))]

theorem serviceName_run_addressesOnly :
    let config := { Config.viaProxy with stripPort := false }
    let calls := throughProxy "a.example"
    let outcome := run addressesOnly (start config) calls (0, 0)
    (∃ more, providerCalls outcome.events =
      .created "HTTP@proxy.example:3128" .spnego none :: more) ∧
      lookUps outcome.events = ["proxy.example"] ∧
      RunAlike addressesOnly calls (start config) (start config.asGiven) (0, 0) (0, 1) ∧
      RunAlike addressesOnly calls (start config) (start config.asGiven) (0, 0) (0, 0) ∧
      run addressesOnly (start config) (throughProxy "b.example") (0, 0) = outcome ∧
      lookUps (run addressesOnly (start config) [] (0, 0)).events = [] := by
  intro config calls outcome
  let attempt : Attempt calls :=
    { before := [], peer := .proxy, challenge := ⟨none⟩, after := _, calls_eq := rfl,
      unchallenged := by simp, bytes := [], waiting := [], credentials := .currentUser,
      route := _, rest := [], decoded := rfl, after_eq := rfl, idle := by simp }
  have bare : ∀ host world, ServiceName.Unnamed (addressesOnly.canonicalize host world).1 :=
    fun _ _ => (by decide : (IpAddress.v6 ⟨[0, 0, 0, 0, 0, 0, 0, 1], rfl⟩).toText = "::1")
  have unnoticed : addressesOnly.LookUpsUnnoticed fun one other => one.1 = other.1 :=
    { creates := fun _ _ _ world world' h => ⟨congrArg Except.ok h.symm, congrArg (· + 1) h⟩
      advances := fun _ _ _ _ h => ⟨rfl, h⟩
      lookedUp := fun _ _ => rfl }
  obtain ⟨hattempt, -, hafter, hbefore, hothers⟩ :=
    serviceName_run addressesOnly config calls (0, 0)
  obtain ⟨-, ⟨name, more, goesBy, hcalls, -⟩, hlookUps⟩ := hattempt attempt
  obtain rfl : "proxy.example" = name := by
    cases goesBy with
    | given off => cases off
    | unnamed => rfl
    | named on found proper => exact absurd (by cases found; exact bare "" (0, 0)) proper
  have hname :
      "HTTP@" ++ "proxy.example" ++ (":" ++ toString 3128) = "HTTP@proxy.example:3128" := by decide
  have unattempted : ¬ Nonempty (Attempt ([] : List (Call Unit))) := by
    rintro ⟨attempt⟩
    simpa using attempt.calls_eq
  obtain ⟨-, hnone, -⟩ := serviceName_run addressesOnly config [] (0, 0)
  refine ⟨⟨more, hname ▸ hcalls⟩, hlookUps, hafter attempt rfl (bare _ _),
    hbefore _ unnoticed fun _ => bare _ _, hothers _ ?_, (hnone unattempted).2⟩
  exact .cons (.receive .proxy ⟨none⟩) (.cons (.routed .currentUser rfl) .nil)

end Session

end NegotiateAuth
