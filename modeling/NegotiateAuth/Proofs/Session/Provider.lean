import NegotiateAuth.Proofs.Text
import NegotiateAuth.Session.Run

/-! # The provider's part in a session

What is read off the events of a run, and what a session asks of its provider when it answers a
challenge. The service is named first, then a context is created for it, then the challenge is fed
to the context. The name that a host goes by is said apart from the procedure that finds it out.
-/

namespace NegotiateAuth

/-! ## Views of a trace -/

section

variable {κ χ : Type}

def Event.isProviderCall : Event κ χ → Bool
  | .created _ _ _ => true
  | .advanced _ _ => true
  | .lookedUp _ => false
  | .logged _ _ => false
  | .sent _ => false

def Event.lookUp? : Event κ χ → Option String
  | .lookedUp host => some host
  | .created _ _ _ => none
  | .advanced _ _ => none
  | .logged _ _ => none
  | .sent _ => none

def Event.request? : Event κ χ → Option Http.Request
  | .sent request => some request
  | .created _ _ _ => none
  | .advanced _ _ => none
  | .lookedUp _ => none
  | .logged _ _ => none

def Event.isRecord : Event κ χ → Bool
  | .logged _ _ => true
  | .created _ _ _ => false
  | .advanced _ _ => false
  | .lookedUp _ => false
  | .sent _ => false

/-- A record, if logging is on down to its level. -/
def Event.record? (level : Level) : Event κ χ → Option (Level × String)
  | .logged .debug text => some (.debug, text)
  | .logged .trace text => if level = .trace then some (.trace, text) else none
  | .created _ _ _ => none
  | .advanced _ _ => none
  | .lookedUp _ => none
  | .sent _ => none

attribute [simp] Event.isProviderCall Event.lookUp? Event.request? Event.isRecord Event.record?
  Event.debug Event.trace

def providerCalls (events : List (Event κ χ)) : List (Event κ χ) :=
  events.filter Event.isProviderCall

def lookUps (events : List (Event κ χ)) : List String :=
  events.filterMap Event.lookUp?

def requestsSent (events : List (Event κ χ)) : List Http.Request :=
  events.filterMap Event.request?

/-- All that is done among events, in order: provider calls, look-ups and requests. -/
def deeds (events : List (Event κ χ)) : List (Event κ χ) :=
  events.filter (!·.isRecord)

def records (level : Level) (events : List (Event κ χ)) : List (Level × String) :=
  events.filterMap (Event.record? level)

@[simp] theorem providerCalls_nil : providerCalls ([] : List (Event κ χ)) = [] :=
  rfl

@[simp] theorem providerCalls_cons (event : Event κ χ) (events : List (Event κ χ)) :
    providerCalls (event :: events) =
      if event.isProviderCall then event :: providerCalls events else providerCalls events := by
  simp [providerCalls, List.filter_cons]

@[simp] theorem providerCalls_append (events more : List (Event κ χ)) :
    providerCalls (events ++ more) = providerCalls events ++ providerCalls more :=
  List.filter_append events more

@[simp] theorem lookUps_nil : lookUps ([] : List (Event κ χ)) = [] :=
  rfl

@[simp] theorem lookUps_cons (event : Event κ χ) (events : List (Event κ χ)) :
    lookUps (event :: events) = event.lookUp?.toList ++ lookUps events := by
  cases event <;> rfl

@[simp] theorem lookUps_append (events more : List (Event κ χ)) :
    lookUps (events ++ more) = lookUps events ++ lookUps more :=
  List.filterMap_append

@[simp] theorem requestsSent_nil : requestsSent ([] : List (Event κ χ)) = [] :=
  rfl

@[simp] theorem requestsSent_cons (event : Event κ χ) (events : List (Event κ χ)) :
    requestsSent (event :: events) = event.request?.toList ++ requestsSent events := by
  cases event <;> rfl

@[simp] theorem requestsSent_append (events more : List (Event κ χ)) :
    requestsSent (events ++ more) = requestsSent events ++ requestsSent more :=
  List.filterMap_append

theorem mem_providerCalls {event : Event κ χ} {events : List (Event κ χ)} :
    event ∈ providerCalls events ↔ event ∈ events ∧ event.isProviderCall = true :=
  List.mem_filter

@[simp] theorem deeds_nil : deeds ([] : List (Event κ χ)) = [] :=
  rfl

@[simp] theorem deeds_cons (event : Event κ χ) (events : List (Event κ χ)) :
    deeds (event :: events) = if event.isRecord then deeds events else event :: deeds events := by
  cases event <;> rfl

@[simp] theorem deeds_append (events more : List (Event κ χ)) :
    deeds (events ++ more) = deeds events ++ deeds more :=
  List.filter_append events more

@[simp] theorem records_nil (level : Level) : records level ([] : List (Event κ χ)) = [] :=
  rfl

@[simp] theorem records_cons (level : Level) (event : Event κ χ) (events : List (Event κ χ)) :
    records level (event :: events) = (event.record? level).toList ++ records level events := by
  unfold records
  rw [List.filterMap_cons]
  cases event.record? level <;> rfl

@[simp] theorem records_append (level : Level) (events more : List (Event κ χ)) :
    records level (events ++ more) = records level events ++ records level more :=
  List.filterMap_append

theorem deeds_of_records {events : List (Event κ χ)}
    (h : ∀ event ∈ events, ∃ level text, event = .logged level text) : deeds events = [] := by
  simp only [deeds, List.filter_eq_nil_iff]
  intro event hevent
  obtain ⟨level, text, rfl⟩ := h event hevent
  simp

theorem lookUps_of_records {events : List (Event κ χ)}
    (h : ∀ event ∈ events, ∃ level text, event = .logged level text) : lookUps events = [] := by
  simp only [lookUps, List.filterMap_eq_nil_iff]
  intro event hevent
  obtain ⟨level, text, rfl⟩ := h event hevent
  rfl

/-- Events that are records alone make no call and send nothing. -/
theorem views_of_records {events : List (Event κ χ)}
    (h : ∀ event ∈ events, ∃ level text, event = .logged level text) :
    providerCalls events = [] ∧ requestsSent events = [] := by
  induction events with
  | nil => exact ⟨rfl, rfl⟩
  | cons event events ih =>
      obtain ⟨level, text, rfl⟩ := h event List.mem_cons_self
      simpa using ih fun other hother => h other (List.mem_cons_of_mem _ hother)

end

/-! ## The provider -/

namespace ServiceName

variable {σ κ χ : Type}

theorem canonicalName_apply (env : Environment σ κ χ) (host : String) (world : σ) :
    canonicalName env host world =
      match env.canonicalize host world with
      | (.ok canonical, after) =>
          if isBareAddress canonical then ⟨host, after, [.lookedUp host]⟩
          else ⟨canonical.name, after, [.lookedUp host,
            .trace s!"canonical name of {host} is {canonical.name}"]⟩
      | (.error cause, after) => ⟨host, after, [.lookedUp host,
          .debug s!"canonicalization of {host} failed, keeping it: {cause}"]⟩ := by
  simp only [canonicalName, Environment.lookUp, Action.bind_apply, Action.emit_apply,
    Action.ask_apply, List.append_nil, List.singleton_append]
  rcases env.canonicalize host world with ⟨cause | canonical, after⟩
  · rfl
  · dsimp only
    split <;> rfl

/-- Naming a service takes look-ups and records only. -/
theorem ofHost_events (env : Environment σ κ χ) (config : Config) (host : Host) (world : σ) :
    ∀ event ∈ (ofHost env config host world).events,
      (∃ name, event = .lookedUp name) ∨ ∃ level text, event = .logged level text := by
  simp only [ofHost, hostName, Action.bind_apply, Action.pure_apply, List.append_nil]
  split
  · rw [canonicalName_apply]
    rcases env.canonicalize host.name world with ⟨cause | canonical, after⟩
    · simp
    · dsimp only
      split <;> simp
  · simp [Action.pure_apply]

theorem views_ofHost (env : Environment σ κ χ) (config : Config) (host : Host) (world : σ) :
    providerCalls (ofHost env config host world).events = [] ∧
      requestsSent (ofHost env config host world).events = [] := by
  have h := ofHost_events env config host world
  constructor
  · simp only [providerCalls, List.filter_eq_nil_iff]
    intro event hevent
    rcases h event hevent with ⟨name, rfl⟩ | ⟨level, text, rfl⟩ <;> simp
  · simp only [requestsSent, List.filterMap_eq_nil_iff]
    intro event hevent
    rcases h event hevent with ⟨name, rfl⟩ | ⟨level, text, rfl⟩ <;> simp

end ServiceName

namespace Session

variable {σ κ χ : Type}

section

variable (env : Environment σ κ χ) (config : Config) (credentials : Credentials κ)
  (route : Route)

def service (world : σ) : Outcome σ (Event κ χ) String :=
  ServiceName.ofHost env config (route.authHost config.proxy) world

/-- What the provider makes of the request for a context, and the world after it. -/
def creation (world : σ) : Except ProviderError χ × σ :=
  env.createContext (service env config route world).result config.mechanism
    credentials.handle? (service env config route world).world

/-- The provider creates a context for the service, and the context gives a token. -/
def Grants (challenge : List UInt8) (world : σ) (token : List UInt8) : Prop :=
  ∃ context, (creation env config credentials route world).1 = .ok context ∧
    (env.advance context challenge (creation env config credentials route world).2).1 = .ok token

def Refuses (challenge : List UInt8) (world : σ) (cause : ProviderError) : Prop :=
  (creation env config credentials route world).1 = .error cause ∨
    ∃ context, (creation env config credentials route world).1 = .ok context ∧
      (env.advance context challenge (creation env config credentials route world).2).1 =
        .error cause

/-- The events up to the request for a context. -/
def requesting (world : σ) : List (Event κ χ) :=
  let named := service env config route world
  named.events ++
    [.debug s!"init {named.result} ({config.mechanism.name})",
      .created named.result config.mechanism credentials.handle?]

end

section

variable {env : Environment σ κ χ} {config : Config} {credentials : Credentials κ}
  {route : Route} {challenge : List UInt8} {world between after : σ} {context : χ}

theorem respond_of_uncreated {cause : ProviderError}
    (created : creation env config credentials route world = (.error cause, after)) :
    respond env config credentials route challenge world =
      ⟨.error cause, after, requesting env config credentials route world⟩ := by
  simp only [creation, service] at created
  simp only [respond, Environment.create, Action.bind_apply, Action.emit_apply, Action.ask_apply,
    created, Action.pure_apply, requesting, service, List.append_nil, List.singleton_append]

theorem respond_of_unadvanced {cause : ProviderError}
    (created : creation env config credentials route world = (.ok context, between))
    (advanced : env.advance context challenge between = (.error cause, after)) :
    respond env config credentials route challenge world =
      ⟨.error cause, after, requesting env config credentials route world ++
        [.advanced context challenge]⟩ := by
  simp only [creation, service] at created
  simp only [respond, Environment.create, Environment.feed, Action.bind_apply, Action.emit_apply,
    Action.ask_apply, created, advanced, Action.pure_apply, requesting, service, List.append_nil,
    List.append_assoc, List.cons_append, List.nil_append]

theorem respond_of_granted {token : List UInt8}
    (created : creation env config credentials route world = (.ok context, between))
    (advanced : env.advance context challenge between = (.ok token, after)) :
    respond env config credentials route challenge world =
      ⟨.ok token, after, requesting env config credentials route world ++
        [.advanced context challenge,
          .trace s!"generated {token.length} byte Negotiate token"]⟩ := by
  simp only [creation, service] at created
  simp only [respond, Environment.create, Environment.feed, Action.bind_apply, Action.emit_apply,
    Action.ask_apply, created, advanced, Action.pure_apply, requesting, service, List.append_nil,
    List.append_assoc, List.cons_append, List.nil_append]

end

variable (env : Environment σ κ χ) (config : Config) (credentials : Credentials κ)
  (route : Route) (challenge : List UInt8) (world : σ)

inductive Response : Prop where
  | uncreated {cause : ProviderError} {after : σ}
      (created : creation env config credentials route world = (.error cause, after))
      (outcome : respond env config credentials route challenge world =
        ⟨.error cause, after, requesting env config credentials route world⟩)
  | unadvanced {context : χ} {between after : σ} {cause : ProviderError}
      (created : creation env config credentials route world = (.ok context, between))
      (advanced : env.advance context challenge between = (.error cause, after))
      (outcome : respond env config credentials route challenge world =
        ⟨.error cause, after, requesting env config credentials route world ++
          [.advanced context challenge]⟩)
  | granted {context : χ} {between after : σ} {token : List UInt8}
      (created : creation env config credentials route world = (.ok context, between))
      (advanced : env.advance context challenge between = (.ok token, after))
      (outcome : respond env config credentials route challenge world =
        ⟨.ok token, after, requesting env config credentials route world ++
          [.advanced context challenge,
            .trace s!"generated {token.length} byte Negotiate token"]⟩)

theorem respond_response : Response env config credentials route challenge world := by
  rcases created : creation env config credentials route world with ⟨cause | context, between⟩
  · exact .uncreated created (respond_of_uncreated created)
  · rcases advanced : env.advance context challenge between with ⟨cause | token, after⟩
    · exact .unadvanced created advanced (respond_of_unadvanced created advanced)
    · exact .granted created advanced (respond_of_granted created advanced)

theorem respond_ok_iff (token : List UInt8) :
    (respond env config credentials route challenge world).result = .ok token ↔
      Grants env config credentials route challenge world token := by
  cases respond_response env config credentials route challenge world with
  | uncreated created outcome => simp [Grants, created, outcome]
  | unadvanced created advanced outcome => simp [Grants, created, advanced, outcome]
  | granted created advanced outcome => simp [Grants, created, advanced, outcome]

theorem respond_error_iff (cause : ProviderError) :
    (respond env config credentials route challenge world).result = .error cause ↔
      Refuses env config credentials route challenge world cause := by
  cases respond_response env config credentials route challenge world with
  | uncreated created outcome => simp [Refuses, created, outcome]
  | unadvanced created advanced outcome => simp [Refuses, created, advanced, outcome]
  | granted created advanced outcome => simp [Refuses, created, advanced, outcome]

theorem views_requesting :
    providerCalls (requesting env config credentials route world) =
        [.created (service env config route world).result config.mechanism credentials.handle?] ∧
      requestsSent (requesting env config credentials route world) = [] := by
  obtain ⟨hcalls, hsent⟩ := ServiceName.views_ofHost env config (route.authHost config.proxy) world
  simp [requesting, service, hcalls, hsent]

/-- The provider is asked for a context, and the context it creates is fed the challenge. -/
theorem providerCalls_respond :
    providerCalls (respond env config credentials route challenge world).events =
      .created (service env config route world).result config.mechanism credentials.handle? ::
        match (creation env config credentials route world).1 with
        | .ok context => [.advanced context challenge]
        | .error _ => [] := by
  have hcalls := (views_requesting env config credentials route world).1
  cases respond_response env config credentials route challenge world with
  | uncreated created outcome => simp [hcalls, created, outcome]
  | unadvanced created advanced outcome => simp [hcalls, created, outcome]
  | granted created advanced outcome => simp [hcalls, created, outcome]

/-- A context is asked for with the handle that the credentials have, if they have one. -/
theorem handle?_of_created {service : String} {mechanism : Mechanism} {credential : Option κ}
    (h : .created service mechanism credential ∈
      providerCalls (respond env config credentials route challenge world).events) :
    credential = credentials.handle? := by
  rw [providerCalls_respond] at h
  rcases List.mem_cons.1 h with h | h
  · injection h
  · split at h <;> simp at h

theorem requestsSent_respond :
    requestsSent (respond env config credentials route challenge world).events = [] := by
  have hsent := (views_requesting env config credentials route world).2
  cases respond_response env config credentials route challenge world with
  | uncreated created outcome => simp [hsent, outcome]
  | unadvanced created advanced outcome => simp [hsent, outcome]
  | granted created advanced outcome => simp [hsent, outcome]

end Session

/-! ## Names of services -/

namespace ServiceName

variable {σ κ χ : Type}

/-- What is found out about a host is no more than its address, if it is anything at all. -/
def Unnamed : Except String Canonical → Prop
  | .ok canonical => canonical.address.toText = canonical.name
  | .error _ => True

/-- The name that a host goes by, with what is found out about it in a world. -/
inductive GoesBy (env : Environment σ κ χ) (config : Config) (host : String) (world : σ) :
    String → Prop where
  | given (off : config.useCanonicalHostname = false) : GoesBy env config host world host
  | unnamed (bare : Unnamed (env.canonicalize host world).1) : GoesBy env config host world host
  | named {canonical : Canonical} (on : config.useCanonicalHostname = true)
      (found : (env.canonicalize host world).1 = .ok canonical)
      (proper : canonical.address.toText ≠ canonical.name) :
      GoesBy env config host world canonical.name

section

variable (env : Environment σ κ χ) (config : Config) (host : String) (world : σ)

theorem hostName_of_given (given : ¬ config.useCanonicalHostname = true) :
    hostName env config host world = ⟨host, world, []⟩ := by
  rw [hostName, if_neg given]
  rfl

theorem hostName_of_canonical (on : config.useCanonicalHostname = true) :
    hostName env config host world = canonicalName env host world := by
  rw [hostName, if_pos on]

/-- Where nothing but the address is found out, the look-up leaves nothing behind but its traces. -/
theorem canonicalName_of_unnamed {host : String} {world : σ}
    (bare : Unnamed (env.canonicalize host world).1) :
    (canonicalName env host world).result = host ∧
      (canonicalName env host world).world = (env.canonicalize host world).2 := by
  rw [canonicalName_apply]
  rcases found : env.canonicalize host world with ⟨cause | canonical, after⟩
  · exact ⟨rfl, rfl⟩
  · rw [found] at bare
    have hbare : isBareAddress canonical = true := beq_iff_eq.2 bare
    simp only [if_pos hbare, and_self]

theorem result_of_named {host : String} {world : σ} {canonical : Canonical}
    (found : (env.canonicalize host world).1 = .ok canonical)
    (proper : canonical.address.toText ≠ canonical.name) :
    (canonicalName env host world).result = canonical.name := by
  have hproper : ¬ isBareAddress canonical = true := fun h => proper (beq_iff_eq.1 h)
  rw [canonicalName_apply]
  rcases hfound : env.canonicalize host world with ⟨answer, after⟩
  rw [hfound] at found
  obtain rfl : answer = .ok canonical := found
  simp only [if_neg hproper]

/-- A host is named what it goes by, and it goes by that name alone. -/
theorem goesBy_iff {name : String} :
    GoesBy env config host world name ↔ name = (hostName env config host world).result := by
  constructor
  · intro h
    cases h with
    | given off => rw [hostName_of_given env config host world (Bool.eq_false_iff.1 off)]
    | unnamed bare =>
        by_cases on : config.useCanonicalHostname = true
        · rw [hostName_of_canonical env config host world on,
            (canonicalName_of_unnamed env bare).1]
        · rw [hostName_of_given env config host world on]
    | named on found proper =>
        rw [hostName_of_canonical env config host world on, result_of_named env found proper]
  · rintro rfl
    by_cases on : config.useCanonicalHostname = true
    · rw [hostName_of_canonical env config host world on]
      by_cases bare : Unnamed (env.canonicalize host world).1
      · rw [(canonicalName_of_unnamed env bare).1]
        exact .unnamed bare
      · cases found : (env.canonicalize host world).1 with
        | error cause => exact absurd (by rw [found]; trivial) bare
        | ok canonical =>
            rw [found] at bare
            rw [result_of_named env found bare]
            exact .named on found bare
    · rw [hostName_of_given env config host world on]
      exact .given (Bool.eq_false_iff.2 on)

theorem lookUps_hostName :
    lookUps (hostName env config host world).events =
      if config.useCanonicalHostname then [host] else [] := by
  by_cases on : config.useCanonicalHostname = true
  · rw [hostName_of_canonical env config host world on, if_pos on, canonicalName_apply]
    rcases env.canonicalize host world with ⟨cause | canonical, after⟩
    · rfl
    · dsimp only
      split <;> rfl
  · rw [hostName_of_given env config host world on, if_neg on]
    rfl

end

theorem ofHost_apply (env : Environment σ κ χ) (config : Config) (host : Host) (world : σ) :
    ofHost env config host world =
      let named := hostName env config host.name world
      ⟨format config.stripPort named.result host.port, named.world, named.events⟩ := by
  simp only [ofHost, Action.bind_apply, Action.pure_apply, List.append_nil]

theorem ofHost_of_canonical {config : Config} (canonical : config.useCanonicalHostname = true)
    (env : Environment σ κ χ) (host : Host) (world : σ) :
    ofHost env config host world =
      let named := canonicalName env host.name world
      ⟨format config.stripPort named.result host.port, named.world, named.events⟩ := by
  rw [ofHost_apply, hostName_of_canonical env config host.name world canonical]

theorem ofHost_of_given {config : Config} (given : ¬ config.useCanonicalHostname = true)
    (env : Environment σ κ χ) (host : Host) (world : σ) :
    ofHost env config host world = ⟨format config.stripPort host.name host.port, world, []⟩ := by
  rw [ofHost_apply, hostName_of_given env config host.name world given]

/-- A look-up that finds no name leaves the name that is given, and the world after it. -/
theorem ofHost_of_unnamed {config : Config} (canonical : config.useCanonicalHostname = true)
    {env : Environment σ κ χ} {host : Host} {world : σ}
    (bare : Unnamed (env.canonicalize host.name world).1) :
    (ofHost env config host world).result = format config.stripPort host.name host.port ∧
      (ofHost env config host world).world = (env.canonicalize host.name world).2 := by
  obtain ⟨hresult, hworld⟩ := canonicalName_of_unnamed env bare
  simp only [ofHost_of_canonical canonical, hresult, hworld, and_self]

/-- The service type, the name, and the port behind a colon unless it is left out. -/
theorem format_eq (stripPort : Bool) (name : String) (port : UInt16) :
    format stripPort name port =
      "HTTP@" ++ name ++ if stripPort then "" else ":" ++ toString port.toNat := by
  cases stripPort <;> simp [format, serviceType, ToString.toString, String.append_assoc]

theorem format_inj {stripPort : Bool} {name other : String} {port port' : UInt16} :
    format stripPort name port = format stripPort other port' ↔
      name = other ∧ (stripPort = false → port = port') := by
  have hname : serviceType ++ "@" ++ name = serviceType ++ "@" ++ other ↔ name = other :=
    String.append_right_inj _
  cases stripPort with
  | true =>
      show serviceType ++ "@" ++ name = serviceType ++ "@" ++ other ↔ _
      simp [hname]
  | false =>
      have hnumbered : format false name port = format false other port' ↔
          serviceType ++ "@" ++ name = serviceType ++ "@" ++ other ∧ port.toNat = port'.toNat :=
        Text.numbered_inj
      rw [hnumbered, hname, UInt16.toNat_inj]
      simp

/-- Names of services do not collide: each host goes by one name, and two services are named alike
just when these names are the same and, where it is kept, the port. -/
theorem ofHost_eq_iff (env : Environment σ κ χ) (config : Config) (one other : Host)
    (world world' : σ) :
    let alike := (ofHost env config one world).result = (ofHost env config other world').result
    (∃ name name',
        (∀ known, GoesBy env config one.name world known ↔ known = name) ∧
          (∀ known, GoesBy env config other.name world' known ↔ known = name') ∧
          (alike ↔ name = name' ∧ (config.stripPort = false → one.port = other.port))) ∧
      (config.useCanonicalHostname = false →
        (alike ↔ one.name = other.name ∧ (config.stripPort = false → one.port = other.port))) ∧
      (one.toText = other.toText ↔ one.name = other.name ∧ one.port = other.port) := by
  intro alike
  have halike : alike ↔
      (hostName env config one.name world).result =
          (hostName env config other.name world').result ∧
        (config.stripPort = false → one.port = other.port) := by
    unfold alike
    rw [ofHost_apply, ofHost_apply, format_inj]
  refine ⟨⟨_, _, fun _ => goesBy_iff env config one.name world,
    fun _ => goesBy_iff env config other.name world', halike⟩, ?_, ?_⟩
  · intro off
    have given := Bool.eq_false_iff.1 off
    rwa [hostName_of_given env config one.name world given,
      hostName_of_given env config other.name world' given] at halike
  · rw [Host.toText, Host.toText, Text.numbered_inj, UInt16.toNat_inj]

end ServiceName

end NegotiateAuth
