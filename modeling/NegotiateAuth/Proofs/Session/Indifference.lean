import NegotiateAuth.Proofs.Exchange.Secrets
import NegotiateAuth.Proofs.Provider
import NegotiateAuth.Proofs.Session.Naming

/-! # What makes no difference to a session

A call that asks for an answer in vain, or for one that was given before, can be left out of a run.
The peer by which a challenge comes is told in records and makes no other difference; the field that
answers the challenge and the host to authenticate against go by the configuration.
-/

namespace NegotiateAuth

/-! ## Calls that leave no trace -/

namespace Session

variable {σ κ χ : Type}

/-- A call for an answer, made when the session had its token, or given no other reply than that the
session lacks something or has failed before. -/
def Transition.Erasable (made : Transition κ) : Prop :=
  isReceive made.call = false ∧
    (made.before.state = .tokenGenerated ∨
      ∃ error, made.reply = .answered (.error error) ∧
        (error.kind = .notInitiated ∨ error.kind = .routeUnavailable ∨
          (error.kind = .failed ∧ error.source? = none)))

inductive Erases : List (Transition κ) → List (Transition κ) → Prop where
  | nil : Erases [] []
  | keep {made : Transition κ} {all kept : List (Transition κ)} (rest : Erases all kept) :
      Erases (made :: all) (made :: kept)
  | erase {made : Transition κ} {all kept : List (Transition κ)} (erasable : made.Erasable)
      (rest : Erases all kept) : Erases (made :: all) kept

namespace Erases

theorem refl (all : List (Transition κ)) : Erases all all := by
  induction all with
  | nil => exact .nil
  | cons made all ih => exact .keep ih

theorem of_append {erased : List (Transition κ)} (h : ∀ made ∈ erased, made.Erasable)
    (kept : List (Transition κ)) : Erases (erased ++ kept) kept := by
  induction erased with
  | nil => exact refl kept
  | cons made erased ih =>
      exact .erase (h made List.mem_cons_self)
        (ih fun other hother => h other (List.mem_cons_of_mem _ hother))

end Erases

section

variable (env : Environment σ κ χ) (session : Session) (call : Call κ) (world : σ)

/-- Only a call that the session answers on its own can be left out. -/
theorem isIdle_of_erasable (h : (transition env session call world).Erasable) :
    isIdle session.phase call = true := by
  obtain ⟨config, phase⟩ := session
  obtain ⟨hcall, hreason⟩ := h
  cases perform_step env config phase call world with
  | idle quiet outcome => exact quiet
  | accepted decoded outcome => cases hcall
  | malformed undecoded outcome => cases hcall
  | rejected started outcome => cases hcall
  | granted grants outcome =>
      rcases hreason with hstate | ⟨error, hreply, -⟩
      · cases hstate
      · rw [transition, outcome, answer_eq_ok] at hreply
        cases hreply
  | refused refuses outcome =>
      rcases hreason with hstate | ⟨error, hreply, hkind⟩
      · cases hstate
      · rw [transition, outcome] at hreply
        cases hreply
        simp [AuthError.kind_refused_ne, AuthError.source?] at hkind

theorem perform_of_erasable (h : (transition env session call world).Erasable) :
    (perform env session call world).result.2 = session ∧
      (perform env session call world).world = world ∧
      (perform env session call world).events = [] := by
  obtain ⟨config, phase⟩ := session
  have outcome := perform_of_isIdle env config (isIdle_of_erasable env ⟨config, phase⟩ call world h)
    world
  exact ⟨by rw [outcome], by rw [outcome], by rw [outcome]⟩

end

/-- The run of the calls that are kept is the run of all calls, less what is left out. -/
theorem run_kept {env : Environment σ κ χ} {session : Session} {calls : List (Call κ)} {world : σ}
    {kept : List (Transition κ)} (h : Erases (transitions env session calls world) kept) :
    let full := run env session calls world
    let pruned := run env session (kept.map Transition.call) world
    transitions env session (kept.map Transition.call) world = kept ∧
      pruned.result.2 = full.result.2 ∧ pruned.world = full.world ∧
      pruned.events = full.events := by
  induction calls generalizing session world kept with
  | nil =>
      cases h with
      | nil => exact ⟨rfl, rfl, rfl, rfl⟩
  | cons call calls ih =>
      rw [transitions] at h
      cases h with
      | keep rest =>
          obtain ⟨htransitions, hsession, hworld, hevents⟩ := ih rest
          have hcall : (transition env session call world).call = call := rfl
          simp only [List.map_cons, hcall, transitions, run_cons, htransitions, hsession, hworld,
            hevents, and_self]
      | erase erasable rest =>
          obtain ⟨hsession, hworld, hevents⟩ := perform_of_erasable env session call world erasable
          rw [hsession, hworld] at rest
          simpa only [run_cons, hsession, hworld, hevents, List.nil_append] using ih rest

theorem run_of_erasable {env : Environment σ κ χ} {session : Session} {calls : List (Call κ)}
    {world : σ} (h : ∀ made ∈ transitions env session calls world, made.Erasable) :
    (run env session calls world).result.2 = session ∧
      (run env session calls world).world = world ∧
      (run env session calls world).events = [] := by
  have hall := Erases.of_append h []
  rw [List.append_nil] at hall
  obtain ⟨-, hsession, hworld, hevents⟩ := run_kept hall
  exact ⟨hsession.symm, hworld.symm, hevents.symm⟩

theorem erasable_of_unrouted {env : Environment σ κ χ} {session : Session} {calls : List (Call κ)}
    {world : σ} {made : Transition κ} {error : AuthError}
    (hmade : made ∈ transitions env session calls world)
    (hreply : made.reply = .answered (.error error)) (hkind : error.kind = .routeUnavailable) :
    made.Erasable := by
  refine ⟨?_, Or.inr ⟨error, hreply, Or.inr (Or.inl hkind)⟩⟩
  obtain ⟨before, call, reply, after⟩ := made
  cases call with
  | authenticate credentials route => rfl
  | receive peer challenge =>
      obtain ⟨world, hmade⟩ := mem_transitions hmade
      rw [hmade, transition, perform_receive] at hreply
      cases hreply

/-- Any of the erasable calls can be left out of a run. Every call that is kept has the transition
that it had, and the run leaves the same session, the same world and the same events. So calls that
fail for want of a route lose nothing, however many there are: the calls after them go as if they
were first. -/
theorem run_erases {env : Environment σ κ χ} {session : Session} {calls : List (Call κ)} {world : σ}
    {kept : List (Transition κ)} (h : Erases (transitions env session calls world) kept) :
    let full := run env session calls world
    let pruned := run env session (kept.map Transition.call) world
    transitions env session (kept.map Transition.call) world = kept ∧
      pruned.result = (kept.map Transition.reply, full.result.2) ∧
      pruned.world = full.world ∧ pruned.events = full.events ∧
      ∀ waiting later : List (Call κ),
        (∀ made ∈ transitions env session waiting world,
          ∃ error, made.reply = .answered (.error error) ∧ error.kind = .routeUnavailable) →
        let late := run env session (waiting ++ later) world
        let early := run env session later world
        transitions env session (waiting ++ later) world =
            transitions env session waiting world ++ transitions env session later world ∧
          late.result.2 = early.result.2 ∧ late.world = early.world ∧
          late.events = early.events := by
  intro full pruned
  obtain ⟨htransitions, hsession, hworld, hevents⟩ := run_kept h
  have hreplies := map_reply_transitions env session (kept.map Transition.call) world
  rw [htransitions] at hreplies
  refine ⟨htransitions, Prod.ext hreplies.symm hsession, hworld, hevents, ?_⟩
  intro waiting later hwaiting late early
  have herasable : ∀ made ∈ transitions env session waiting world, made.Erasable := by
    intro made hmade
    obtain ⟨error, hreply, hkind⟩ := hwaiting made hmade
    exact erasable_of_unrouted hmade hreply hkind
  obtain ⟨hsame, hstill, hsilent⟩ := run_of_erasable herasable
  have hlate : late = _ := run_append env session waiting later world
  simp only [hsame, hstill, hsilent, List.nil_append] at hlate
  refine ⟨?_, by rw [hlate], by rw [hlate], by rw [hlate]⟩
  simp only [transitions_append, hsame, hstill]

def counting : Environment Nat Unit Unit where
  createContext _ _ _ count := (.ok (), count + 1)
  advance _ input count := (.ok (UInt8.ofNat count :: input), count + 1)
  canonicalize _ count := (.error "no such name", count + 1)

/-- Calls of which every other one asks in vain, or for an answer given before. -/
def hesitant : List (Call Unit) :=
  let asking : Call Unit := .authenticate .currentUser none
  let routed : Call Unit := .authenticate .currentUser (some (.direct ⟨"a.example", 80⟩))
  let challenged : Call Unit := .receive .target ⟨none⟩
  [asking, challenged, asking, routed, asking, challenged, asking]

theorem run_erases_hesitant :
    let asking : Call Unit := .authenticate .currentUser none
    let waiting : Session := ⟨.target, .challengeReceived []⟩
    (∃ kept, Erases (transitions counting (start .target) hesitant 0) kept ∧ kept.length = 3 ∧
        transitions counting (start .target) (kept.map Transition.call) 0 = kept ∧
        (run counting (start .target) (kept.map Transition.call) 0).events =
          (run counting (start .target) hesitant 0).events) ∧
      (run counting waiting ([asking, asking] ++ hesitant) 0).events =
        (run counting waiting hesitant 0).events := by
  intro asking waiting
  have herases : Erases (transitions counting (start .target) hesitant 0) _ :=
    .erase ⟨rfl, Or.inr ⟨.notInitiated, rfl, Or.inl rfl⟩⟩ <| .keep <|
    .erase ⟨rfl, Or.inr ⟨.routeUnavailable, rfl, Or.inr (Or.inl rfl)⟩⟩ <| .keep <|
    .erase ⟨rfl, Or.inl rfl⟩ <| .keep <|
    .erase ⟨rfl, Or.inr ⟨.alreadyFailed, rfl, Or.inr (Or.inr ⟨rfl, rfl⟩)⟩⟩ .nil
  have hwaiting : ∀ made ∈ transitions counting waiting [asking, asking] 0,
      ∃ error, made.reply = .answered (.error error) ∧ error.kind = .routeUnavailable := by
    intro made hmade
    rcases List.mem_cons.1 hmade with rfl | hmade
    · exact ⟨.routeUnavailable, rfl, rfl⟩
    · obtain rfl := List.mem_singleton.1 hmade
      exact ⟨.routeUnavailable, rfl, rfl⟩
  obtain ⟨htransitions, -, -, hevents, -⟩ := run_erases herases
  obtain ⟨-, -, -, -, hlate⟩ := run_erases (Erases.refl (transitions counting waiting hesitant 0))
  obtain ⟨-, -, -, hlate⟩ := hlate [asking, asking] hesitant hwaiting
  exact ⟨⟨_, herases, rfl, htransitions, hevents⟩, hlate⟩

/-! ## Who issued a challenge -/

def issuerRecords (config : Config) (peer : Peer) (size : Nat) : List (Event κ χ) :=
  .logged .debug s!"received {peer.name} Negotiate challenge ({size} bytes)" ::
    if peer = config.peer then []
    else [.logged .debug s!"{peer.name} challenge answered as configured for {config.peer.name}"]

inductive Retold (config : Config) : List (Event κ χ) → List (Event κ χ) → Prop where
  | nil : Retold config [] []
  | same (event : Event κ χ) {one other : List (Event κ χ)} (rest : Retold config one other) :
      Retold config (event :: one) (event :: other)
  | issuer (peer peer' : Peer) (size : Nat) {one other : List (Event κ χ)}
      (rest : Retold config one other) :
      Retold config (issuerRecords config peer size ++ one)
        (issuerRecords config peer' size ++ other)

inductive Call.Reissued : Call κ → Call κ → Prop where
  | receive (peer peer' : Peer) (challenge : Challenge) :
      Reissued (.receive peer challenge) (.receive peer' challenge)
  | authenticate (credentials : Credentials κ) (route : Option Route) :
      Reissued (.authenticate credentials route) (.authenticate credentials route)

namespace Retold

variable {config : Config}

theorem refl (events : List (Event κ χ)) : Retold config events events := by
  induction events with
  | nil => exact .nil
  | cons event events ih => exact .same event ih

theorem append {one other more more' : List (Event κ χ)} (first : Retold config one other)
    (second : Retold config more more') : Retold config (one ++ more) (other ++ more') := by
  induction first with
  | nil => exact second
  | same event rest ih => exact .same event ih
  | issuer peer peer' size rest ih =>
      rw [List.append_assoc, List.append_assoc]
      exact .issuer peer peer' size ih

theorem deeds_issuerRecords (config : Config) (peer : Peer) (size : Nat) :
    deeds (issuerRecords config peer size : List (Event κ χ)) = [] := by
  apply deeds_of_records
  unfold issuerRecords
  split <;> simp

/-- Nothing is done in one of the traces that is not done in the other. -/
theorem deeds_eq {one other : List (Event κ χ)} (h : Retold config one other) :
    deeds other = deeds one := by
  induction h with
  | nil => rfl
  | same event rest ih => rw [deeds_cons, deeds_cons, ih]
  | issuer peer peer' size rest ih =>
      rw [deeds_append, deeds_append, deeds_issuerRecords, deeds_issuerRecords, ih]

end Retold

theorem challengeRecords_retold (config : Config) (peer peer' : Peer) (challenge : Challenge)
    (size : Nat) :
    Retold config (challengeRecords config peer challenge size : List (Event κ χ))
      (challengeRecords config peer' challenge size) := by
  obtain ⟨token, hsplit⟩ : ∃ token, ∀ peer,
      (challengeRecords config peer challenge size : List (Event κ χ)) =
        issuerRecords config peer size ++ [.logged .trace token] := ⟨_, fun _ => rfl⟩
  rw [hsplit, hsplit]
  exact .issuer peer peer' size (.refl _)

theorem name_of_answers {env : Environment σ κ χ} {session : Session} {call : Call κ} {world : σ}
    {given : Answer} (h : (transition env session call world).Answers given) :
    given.name = if session.config.proxy then .proxyAuthorization else .authorization := by
  obtain ⟨token, -, hanswer, -⟩ := token_of_answers h
  rw [answer_eq_ok] at hanswer
  obtain rfl := Except.ok.inj hanswer
  exact session.config.answerField_peer

section

variable (env : Environment σ κ χ)

theorem receive_reissued (session : Session) (peer peer' : Peer) (challenge : Challenge)
    (world : σ) :
    let made := perform env session (.receive peer challenge) world
    let made' := perform env session (.receive peer' challenge) world
    made'.result = made.result ∧ made'.world = made.world ∧
      Retold session.config made.events made'.events := by
  obtain ⟨config, phase⟩ := session
  by_cases started : phase = .uninitiated
  · subst started
    rw [perform_receive, perform_receive]
    cases decoded : challenge.decode with
    | ok bytes =>
        rw [receive_of_decode decoded, receive_of_decode decoded]
        exact ⟨rfl, rfl, challengeRecords_retold config peer peer' challenge bytes.length⟩
    | error cause =>
        rw [receive_of_malformed decoded, receive_of_malformed decoded]
        exact ⟨rfl, rfl, .nil⟩
  · rw [perform_receive_again env config started, perform_receive_again env config started]
    exact ⟨rfl, rfl, .refl _⟩

theorem perform_reissued {call other : Call κ} (h : call.Reissued other) (session : Session)
    (world : σ) :
    let made := perform env session call world
    let made' := perform env session other world
    made'.result = made.result ∧ made'.world = made.world ∧
      Retold session.config made.events made'.events := by
  cases h with
  | receive peer peer' challenge => exact receive_reissued env session peer peer' challenge world
  | authenticate credentials route => exact ⟨rfl, rfl, .refl _⟩

/-- The configuration is the same throughout, so that what is told along the way adds up. -/
theorem run_reissued {calls others : List (Call κ)} (h : List.Forall₂ Call.Reissued calls others)
    (session : Session) (world : σ) :
    let made := run env session calls world
    let made' := run env session others world
    made'.result = made.result ∧ made'.world = made.world ∧
      Retold session.config made.events made'.events ∧
      List.Forall₂ Transition.LooksLike (transitions env session calls world)
        (transitions env session others world) := by
  induction h generalizing session world with
  | nil => exact ⟨rfl, rfl, .nil, .nil⟩
  | @cons call other calls others hcall hcalls ih =>
      obtain ⟨hresult, hworld, hretold⟩ := perform_reissued env hcall session world
      obtain ⟨hrest, hafter, hlater, hlook⟩ :=
        ih (perform env session call world).result.2 (perform env session call world).world
      rw [config_perform] at hlater
      simp only [run_cons, transitions, transition, hresult, hworld, hrest, hafter]
      exact ⟨trivial, trivial, hretold.append hlater, .cons ⟨rfl, rfl, rfl⟩ hlook⟩

/-- All that a call does beyond records, it does to have a challenge answered. -/
theorem deed_of_perform {session : Session} {call : Call κ} {world : σ} {event : Event κ χ}
    (hevent : event ∈ (perform env session call world).events) (hdeed : event.isRecord = false) :
    ∃ credentials route challenge, call = .authenticate credentials (some route) ∧
      event ∈ (respond env session.config credentials route challenge world).events := by
  obtain ⟨config, phase⟩ := session
  have not_record : ¬ ∃ level text, event = .logged level text := by
    rintro ⟨level, text, rfl⟩
    cases hdeed
  cases perform_step env config phase call world with
  | idle quiet outcome => rw [outcome] at hevent; cases hevent
  | accepted decoded outcome =>
      rw [outcome] at hevent
      exact absurd (challengeRecords_records config _ _ _ event hevent) not_record
  | malformed undecoded outcome => rw [outcome] at hevent; cases hevent
  | rejected started outcome =>
      rw [outcome] at hevent
      exact absurd ⟨_, _, List.mem_singleton.1 hevent⟩ not_record
  | granted grants outcome => rw [outcome] at hevent; exact ⟨_, _, _, rfl, hevent⟩
  | refused refuses outcome =>
      rw [outcome] at hevent
      rcases List.mem_append.1 hevent with hevent | hevent
      · exact ⟨_, _, _, rfl, hevent⟩
      · exact absurd ⟨_, _, List.mem_singleton.1 hevent⟩ not_record

theorem service_of_created {config : Config} {credentials : Credentials κ} {route : Route}
    {challenge : List UInt8} {world : σ} {service : String} {mechanism : Mechanism}
    {credential : Option κ}
    (h : .created service mechanism credential ∈
      (respond env config credentials route challenge world).events) :
    service = (Session.service env config route world).result := by
  have hcall := mem_providerCalls.2 ⟨h, rfl⟩
  rw [providerCalls_respond] at hcall
  rcases List.mem_cons.1 hcall with hcall | hcall
  · injection hcall
  · split at hcall <;> simp at hcall

theorem host_of_lookedUp {config : Config} {credentials : Credentials κ} {route : Route}
    {challenge : List UInt8} {world : σ} {name : String}
    (h : .lookedUp name ∈ (respond env config credentials route challenge world).events) :
    name = (route.authHost config.proxy).name := by
  have hname : name ∈ lookUps (respond env config credentials route challenge world).events :=
    List.mem_filterMap.2 ⟨_, h, rfl⟩
  rw [lookUps_respond] at hname
  split at hname
  · exact List.mem_singleton.1 hname
  · cases hname

end

/-- Who issued a challenge is told and disregarded. Challenges may come by the other peer at any
calls of a run: the replies, the states, the world and all that is done stay the same, and what is
told differs in the records of who issued them. Each answer goes into the field of the configured
peer, and the host that is looked up, and that the service is named after, is the one that the
configuration picks from the route. -/
theorem issuer_disregarded (env : Environment σ κ χ) (session : Session) (world : σ) :
    (∀ calls others : List (Call κ), List.Forall₂ Call.Reissued calls others →
        let made := run env session calls world
        let made' := run env session others world
        made'.result = made.result ∧ made'.world = made.world ∧
          deeds made'.events = deeds made.events ∧
          Retold session.config made.events made'.events ∧
          List.Forall₂ Transition.LooksLike (transitions env session calls world)
            (transitions env session others world)) ∧
      ∀ (earlier : List (Call κ)) (call : Call κ),
        let config := session.config
        let before := run env session earlier world
        let made := perform env before.result.2 call before.world
        (∀ given, made.result.1 = .answered (.ok given) →
          given.name = if config.proxy then .proxyAuthorization else .authorization) ∧
        ∀ event ∈ made.events, event.isRecord = false →
          ∃ credentials route, call = .authenticate credentials (some route) ∧
            let host := match config.proxy, route.proxy with
              | true, some proxy => proxy
              | _, _ => route.target
            (∀ name, event = .lookedUp name → name = host.name) ∧
            ∀ service mechanism credential, event = .created service mechanism credential →
              ∃ name, ServiceName.GoesBy env config host.name before.world name ∧
                service = "HTTP@" ++ name ++
                  if config.stripPort then "" else ":" ++ toString host.port.toNat := by
  refine ⟨?_, ?_⟩
  · intro calls others h made made'
    obtain ⟨hresult, hworld, hretold, hlook⟩ := run_reissued env h session world
    exact ⟨hresult, hworld, hretold.deeds_eq, hretold, hlook⟩
  · intro earlier call config before made
    have hconfig : before.result.2.config = config := config_run env session earlier world
    refine ⟨?_, ?_⟩
    · intro given hgiven
      have hanswers : (transition env before.result.2 call before.world).Answers given := hgiven
      rw [name_of_answers hanswers, hconfig]
    · intro event hevent hdeed
      obtain ⟨credentials, route, challenge, hcall, hevent⟩ := deed_of_perform env hevent hdeed
      rw [hconfig] at hevent
      refine ⟨credentials, route, hcall, ?_⟩
      intro host
      have hhost : route.authHost config.proxy = host := by
        rw [Route.authHost]
        simp only [host]
        cases config.proxy <;> cases route.proxy <;> rfl
      refine ⟨?_, ?_⟩
      · rintro name rfl
        rw [← hhost]
        exact host_of_lookedUp env hevent
      · rintro service mechanism credential rfl
        refine ⟨_, (ServiceName.goesBy_iff ..).2 rfl, ?_⟩
        rw [service_of_created env hevent, service_eq, hhost]

theorem issuer_disregarded_throughProxy :
    let calls := throughProxy "a.example"
    let others := .receive .target ⟨none⟩ :: calls.tail
    let made := run addressesOnly (start .target) calls (0, 0)
    let made' := run addressesOnly (start .target) others (0, 0)
    made'.result = made.result ∧ deeds made'.events = deeds made.events ∧
      Retold .target made.events made'.events ∧
      records .debug made'.events ≠ records .debug made.events ∧
      .created "HTTP@a.example" .spnego none ∈ made.events ∧
      made.result.1 =
        [.received (.ok ()), .answered (.ok ⟨.authorization, Answer.fieldValue [0]⟩)] := by
  intro calls others made made'
  have hcalls : List.Forall₂ Call.Reissued calls others :=
    .cons (.receive .proxy .target ⟨none⟩) (.cons (.authenticate .currentUser _) .nil)
  obtain ⟨hsame, -⟩ := issuer_disregarded addressesOnly (start .target) (0, 0)
  obtain ⟨hresult, -, hdeeds, hretold, -⟩ := hsame calls others hcalls
  exact ⟨hresult, hdeeds, hretold, by decide +kernel, by decide +kernel, rfl⟩

end Session

end NegotiateAuth
