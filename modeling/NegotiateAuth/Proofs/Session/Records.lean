import Mathlib.Data.List.Forall2
import NegotiateAuth.Proofs.Lockstep
import NegotiateAuth.Proofs.Session.Run

/-! # What a session tells

The records of a session tell of its configuration, of the routes, and of what is heard. Challenges
and tokens do not show in them beyond their sizes as long as traces are off; with traces on, the
challenges show and the tokens still do not.
-/

namespace NegotiateAuth

inductive Challenge.AlikeAt : Level → Challenge → Challenge → Prop where
  | same (level : Level) (challenge : Challenge) : AlikeAt level challenge challenge
  | malformed {one other : Challenge} {cause cause' : Base64.DecodeError}
      (undecoded : one.decode = .error cause) (undecoded' : other.decode = .error cause') :
      AlikeAt .debug one other
  | decoded {one other : Challenge} {bytes bytes' : List UInt8}
      (decoded : one.decode = .ok bytes) (decoded' : other.decode = .ok bytes')
      (size : bytes.length = bytes'.length) : AlikeAt .debug one other

theorem Challenge.AlikeAt.decode_cases {level : Level} {one other : Challenge}
    (h : one.AlikeAt level other) :
    (∃ cause cause', one.decode = .error cause ∧ other.decode = .error cause') ∨
      ∃ bytes bytes', one.decode = .ok bytes ∧ other.decode = .ok bytes' ∧
        bytes.length = bytes'.length ∧ (level = .trace → one = other) := by
  cases h with
  | same =>
      cases decoded : one.decode with
      | error cause => exact Or.inl ⟨cause, cause, rfl, rfl⟩
      | ok bytes => exact Or.inr ⟨bytes, bytes, rfl, rfl, rfl, fun _ => rfl⟩
  | malformed undecoded undecoded' => exact Or.inl ⟨_, _, undecoded, undecoded'⟩
  | decoded decoded decoded' size =>
      exact Or.inr ⟨_, _, decoded, decoded', size, fun h => by cases h⟩

inductive Phase.AlikeShown : Phase → Phase → Prop where
  | uninitiated : AlikeShown .uninitiated .uninitiated
  | challengeReceived (challenge challenge' : List UInt8) :
      AlikeShown (.challengeReceived challenge) (.challengeReceived challenge')
  | tokenGenerated (token token' : List UInt8) :
      AlikeShown (.tokenGenerated token) (.tokenGenerated token')
  | failed : AlikeShown .failed .failed

theorem Phase.alikeShown_iff (phase phase' : Phase) :
    AlikeShown phase phase' ↔ phase.state = phase'.state := by
  constructor
  · intro h
    cases h <;> rfl
  · intro h
    cases phase <;> cases phase' <;> first | constructor | cases h

namespace Session

inductive Call.AlikeAt {κ κ' : Type} (level : Level) : Call κ → Call κ' → Prop where
  | receive (peer : Peer) {challenge challenge' : Challenge}
      (alike : challenge.AlikeAt level challenge') :
      AlikeAt level (.receive peer challenge) (.receive peer challenge')
  | authenticate (credentials : Credentials κ) (credentials' : Credentials κ')
      (route : Option Route) :
      AlikeAt level (.authenticate credentials route) (.authenticate credentials' route)

variable {σ σ' κ κ' χ χ' : Type} {level : Level}

theorem records_challengeRecords {one other : Challenge}
    (alike : level = .trace → one = other) (config : Config) (peer : Peer) (size : Nat) :
    records level (challengeRecords config peer one size : List (Event κ χ)) =
      records level (challengeRecords config peer other size : List (Event κ' χ')) := by
  cases level with
  | debug =>
      simp only [challengeRecords]
      split <;> simp
  | trace =>
      obtain rfl := alike rfl
      simp only [challengeRecords]
      split <;> simp

def generatedRecords (level : Level) (size : Nat) : List (Level × String) :=
  match level with
  | .debug => []
  | .trace => [(.trace, s!"generated {size} byte Negotiate token")]

/-- The provider's answers, what they come to, and what is told at the end. -/
inductive Verdict (level : Level) :
    List Heard → Except ProviderError Nat → List (Level × String) → Prop where
  | uncreated (cause : ProviderError) :
      Verdict level [.created (.error cause)] (.error cause) []
  | unadvanced (cause : ProviderError) :
      Verdict level [.created (.ok ()), .advanced (.error cause)] (.error cause) []
  | granted (size : Nat) :
      Verdict level [.created (.ok ()), .advanced (.ok size)] (.ok size)
        (generatedRecords level size)

/-- No list of answers goes on where another one ends. -/
theorem Verdict.unique {answers answers' rest rest' : List Heard}
    {result result' : Except ProviderError Nat} {told told' : List (Level × String)}
    (one : Verdict level answers result told) (other : Verdict level answers' result' told')
    (h : answers ++ rest = answers' ++ rest') : rest = rest' ∧ result = result' ∧ told = told' := by
  -- A list ends with the first error or with the token, so that its answers tell the cases apart.
  cases one <;> cases other <;> simp_all

section

variable {env : Environment σ κ χ} {env' : Environment σ' κ' χ'} {config : Config}
  {world : σ} {world' : σ'} {rest rest' : List Heard}

section

variable {credentials : Credentials κ} {credentials' : Credentials κ'} {route : Route}
  {challenge challenge' : List UInt8}

theorem requesting_told (credentials : Credentials κ) (credentials' : Credentials κ')
    (h : heardService level env config route world ++ rest =
      heardService level env' config route world' ++ rest') :
    rest = rest' ∧ records level (requesting env config credentials route world) =
      records level (requesting env' config credentials' route world') := by
  obtain ⟨hrest, hresult, hrecords⟩ := ServiceName.ofHost_told h
  refine ⟨hrest, ?_⟩
  simp [requesting, service, hresult, hrecords]

theorem respond_verdict (level : Level) (env : Environment σ κ χ) (config : Config)
    (credentials : Credentials κ) (route : Route) (challenge : List UInt8) (world : σ) :
    ∃ answers told,
      Verdict level answers
          ((respond env config credentials route challenge world).result.map level.sizeTold) told ∧
        (respond (env.noted level) config credentials route challenge).heard world =
          heardService level env config route world ++ answers ∧
        records level (respond env config credentials route challenge world).events =
          records level (requesting env config credentials route world) ++ told := by
  cases respond_response env config credentials route challenge world with
  | uncreated created outcome =>
      rw [outcome]
      exact ⟨_, [], .uncreated _, heard_of_uncreated created, (List.append_nil _).symm⟩
  | unadvanced created advanced outcome =>
      rw [outcome]
      exact ⟨_, [], .unadvanced _, heard_of_unadvanced created advanced, by simp⟩
  | @granted context between after token created advanced outcome =>
      rw [outcome]
      refine ⟨_, _, .granted (level.sizeTold token), heard_of_granted created advanced, ?_⟩
      cases level <;> simp [generatedRecords, Level.sizeTold]

/-- What comes of a challenge, and what is told of it, depend on what is heard alone. -/
theorem respond_told
    (h : (respond (env.noted level) config credentials route challenge).heard world ++ rest =
      (respond (env'.noted level) config credentials' route challenge').heard world' ++ rest') :
    let made := respond env config credentials route challenge world
    let made' := respond env' config credentials' route challenge' world'
    rest = rest' ∧ made.result.map level.sizeTold = made'.result.map level.sizeTold ∧
      records level made.events = records level made'.events := by
  intro made made'
  obtain ⟨answers, told, verdict, heard, hrecords⟩ :=
    respond_verdict level env config credentials route challenge world
  obtain ⟨answers', told', verdict', heard', hrecords'⟩ :=
    respond_verdict level env' config credentials' route challenge' world'
  rw [heard, heard', List.append_assoc, List.append_assoc] at h
  obtain ⟨hanswers, hrequesting⟩ := requesting_told credentials credentials' h
  obtain ⟨hrest, hresult, htold⟩ := verdict.unique verdict' hanswers
  exact ⟨hrest, hresult, by rw [hrecords, hrecords', hrequesting, htold]⟩

end

theorem heard_receive (level : Level) (env : Environment σ κ χ) (session : Session) (peer : Peer)
    (challenge : Challenge) (world : σ) :
    (perform (env.noted level) session (.receive peer challenge)).heard world = [] := by
  obtain ⟨config, phase⟩ := session
  rw [Action.heard]
  cases perform_step (env.noted level) config phase (.receive peer challenge) (world, []) with
  | idle quiet outcome => rw [outcome]
  | accepted decoded outcome => rw [outcome]
  | malformed undecoded outcome => rw [outcome]
  | rejected started outcome => rw [outcome]

theorem heard_of_isIdle {phase : Phase} {call : Call κ} (quiet : isIdle phase call = true)
    (level : Level) (env : Environment σ κ χ) (config : Config) (world : σ) :
    (perform (env.noted level) ⟨config, phase⟩ call).heard world = [] := by
  rw [Action.heard, perform_of_isIdle _ config quiet]

theorem heard_answer {challenge : List UInt8} {credentials : Credentials κ} {route : Route}
    (level : Level) (env : Environment σ κ χ) (config : Config) (world : σ) :
    (perform (env.noted level) ⟨config, .challengeReceived challenge⟩
        (.authenticate credentials (some route))).heard world =
      (respond (env.noted level) config credentials route challenge).heard world := by
  rw [Action.heard, perform_authenticate]
  cases made :
      (respond (env.noted level) config credentials route challenge (world, [])).result with
  | ok token => rw [authenticate_of_ok _ _ _ _ _ _ made]; rfl
  | error cause => rw [authenticate_of_error _ _ _ _ _ _ made]; rfl

structure ToldAlike (level : Level) {α β : Type} (one : Outcome σ (Event κ χ) (α × Session))
    (other : Outcome σ' (Event κ' χ') (β × Session)) : Prop where
  config : one.result.2.config = other.result.2.config
  phase : one.result.2.phase.AlikeShown other.result.2.phase
  told : records level one.events = records level other.events

theorem receive_again_told {phase phase' : Phase} (started : phase ≠ .uninitiated)
    (started' : phase' ≠ .uninitiated) (peer : Peer) (challenge challenge' : Challenge)
    (world : σ) (world' : σ') :
    ToldAlike level (perform env ⟨config, phase⟩ (.receive peer challenge) world)
      (perform env' ⟨config, phase'⟩ (.receive peer challenge') world') := by
  rw [perform_receive_again env config started, perform_receive_again env' config started']
  exact ⟨rfl, .failed, rfl⟩

theorem receive_told {phase phase' : Phase} (phases : phase.AlikeShown phase') (peer : Peer)
    {challenge challenge' : Challenge} (alike : challenge.AlikeAt level challenge') (world : σ)
    (world' : σ') :
    ToldAlike level (perform env ⟨config, phase⟩ (.receive peer challenge) world)
      (perform env' ⟨config, phase'⟩ (.receive peer challenge') world') := by
  cases phases with
  | uninitiated =>
      rw [perform_receive, perform_receive]
      rcases alike.decode_cases with ⟨cause, cause', undecoded, undecoded'⟩ |
        ⟨bytes, bytes', decoded, decoded', hsize, htrace⟩
      · rw [receive_of_malformed undecoded, receive_of_malformed undecoded']
        exact ⟨rfl, .failed, rfl⟩
      · rw [receive_of_decode decoded, receive_of_decode decoded', hsize]
        exact ⟨rfl, .challengeReceived _ _, records_challengeRecords htrace _ _ _⟩
  | challengeReceived _ _ =>
      exact receive_again_told Phase.noConfusion Phase.noConfusion peer _ _ world world'
  | tokenGenerated _ _ =>
      exact receive_again_told Phase.noConfusion Phase.noConfusion peer _ _ world world'
  | failed => exact receive_again_told Phase.noConfusion Phase.noConfusion peer _ _ world world'

theorem answer_told {challenge challenge' : List UInt8} {credentials : Credentials κ}
    {credentials' : Credentials κ'} {route : Route}
    (h : (respond (env.noted level) config credentials route challenge).heard world ++ rest =
      (respond (env'.noted level) config credentials' route challenge').heard world' ++ rest') :
    rest = rest' ∧ ToldAlike level
      (perform env ⟨config, .challengeReceived challenge⟩
        (.authenticate credentials (some route)) world)
      (perform env' ⟨config, .challengeReceived challenge'⟩
        (.authenticate credentials' (some route)) world') := by
  obtain ⟨hrest, hresult, hrecords⟩ := respond_told h
  refine ⟨hrest, ?_⟩
  rw [perform_authenticate, perform_authenticate]
  cases made : (respond env config credentials route challenge world).result with
  | ok token =>
      cases made' : (respond env' config credentials' route challenge' world').result with
      | ok token' =>
          rw [authenticate_of_ok _ _ _ _ _ _ made, authenticate_of_ok _ _ _ _ _ _ made']
          exact ⟨rfl, .tokenGenerated _ _, hrecords⟩
      | error cause' =>
          rw [made, made'] at hresult
          cases hresult
  | error cause =>
      cases made' : (respond env' config credentials' route challenge' world').result with
      | ok token' =>
          rw [made, made'] at hresult
          cases hresult
      | error cause' =>
          rw [made, made'] at hresult
          injection hresult with hcause
          subst hcause
          rw [authenticate_of_error _ _ _ _ _ _ made, authenticate_of_error _ _ _ _ _ _ made']
          exact ⟨rfl, .failed, by simp [hrecords]⟩

theorem idle_told {phase phase' : Phase} (phases : phase.AlikeShown phase')
    {call : Call κ} {call' : Call κ'} (quiet : isIdle phase call = true)
    (quiet' : isIdle phase' call' = true)
    (h : (perform (env.noted level) ⟨config, phase⟩ call).heard world ++ rest =
      (perform (env'.noted level) ⟨config, phase'⟩ call').heard world' ++ rest') :
    rest = rest' ∧ ToldAlike level (perform env ⟨config, phase⟩ call world)
      (perform env' ⟨config, phase'⟩ call' world') := by
  rw [heard_of_isIdle quiet, heard_of_isIdle quiet'] at h
  rw [perform_of_isIdle env config quiet, perform_of_isIdle env' config quiet']
  exact ⟨h, rfl, phases, rfl⟩

/-- Alike calls to alike sessions leave alike sessions, unless something else is heard. -/
theorem perform_told {phase phase' : Phase} (phases : phase.AlikeShown phase')
    {call : Call κ} {call' : Call κ'} (alike : call.AlikeAt level call')
    (h : (perform (env.noted level) ⟨config, phase⟩ call).heard world ++ rest =
      (perform (env'.noted level) ⟨config, phase'⟩ call').heard world' ++ rest') :
    rest = rest' ∧ ToldAlike level (perform env ⟨config, phase⟩ call world)
      (perform env' ⟨config, phase'⟩ call' world') := by
  cases alike with
  | receive peer alike =>
      rw [heard_receive, heard_receive] at h
      exact ⟨h, receive_told phases peer alike world world'⟩
  | authenticate credentials credentials' route =>
      cases phases with
      | challengeReceived challenge challenge' =>
          cases route with
          | none => exact idle_told (.challengeReceived _ _) rfl rfl h
          | some route =>
              rw [heard_answer, heard_answer] at h
              exact answer_told h
      | uninitiated => exact idle_told .uninitiated rfl rfl h
      | tokenGenerated token token' => exact idle_told (.tokenGenerated _ _) rfl rfl h
      | failed => exact idle_told .failed rfl rfl h

end

section

variable (level : Level) (env : Environment σ κ χ) (session : Session)

theorem perform_noted (call : Call κ) (world : σ) (earlier : List Heard) :
    perform (env.noted level) session call (world, earlier) =
      let made := perform env session call world
      ⟨made.result, (made.world, earlier ++ (perform (env.noted level) session call).heard world),
        made.events⟩ :=
  Action.noted_apply (perform_inStep (env.noted_beside level) session call)
    (fun earlier => perform_inStep (env.noted_since level earlier) session call) world earlier

theorem run_noted (calls : List (Call κ)) (world : σ) (earlier : List Heard) :
    run (env.noted level) session calls (world, earlier) =
      let made := run env session calls world
      ⟨made.result, (made.world, earlier ++ (run (env.noted level) session calls).heard world),
        made.events⟩ :=
  Action.noted_apply (run_inStep (env.noted_beside level) session calls)
    (fun earlier => run_inStep (env.noted_since level earlier) session calls) world earlier

theorem heard_run_cons (call : Call κ) (calls : List (Call κ)) (world : σ) :
    (run (env.noted level) session (call :: calls)).heard world =
      let made := perform env session call world
      (perform (env.noted level) session call).heard world ++
        (run (env.noted level) made.result.2 calls).heard made.world := by
  rw [Action.heard, run_cons, perform_noted]
  dsimp only
  rw [run_noted, List.nil_append]

end

/-- The induction is on the calls; what is heard after the run is the same on both sides too. -/
theorem run_told {env : Environment σ κ χ} {env' : Environment σ' κ' χ'} {config : Config}
    {phase phase' : Phase} (phases : phase.AlikeShown phase') {calls : List (Call κ)}
    {calls' : List (Call κ')} (alike : List.Forall₂ (Call.AlikeAt level) calls calls')
    {world : σ} {world' : σ'} {rest rest' : List Heard}
    (h : (run (env.noted level) ⟨config, phase⟩ calls).heard world ++ rest =
      (run (env'.noted level) ⟨config, phase'⟩ calls').heard world' ++ rest') :
    rest = rest' ∧ records level (run env ⟨config, phase⟩ calls world).events =
      records level (run env' ⟨config, phase'⟩ calls' world').events := by
  induction alike generalizing config phase phase' world world' with
  | nil => exact ⟨h, rfl⟩
  | @cons call call' calls calls' hcall hcalls ih =>
      rw [heard_run_cons, heard_run_cons, List.append_assoc, List.append_assoc] at h
      -- The first calls use up the same part of what is heard and leave the rest to the others.
      obtain ⟨hlater, hconfig, hphases, htold⟩ := perform_told phases hcall h
      rw [run_cons, run_cons]
      generalize perform env ⟨config, phase⟩ call world = made at *
      generalize perform env' ⟨config, phase'⟩ call' world' = made' at *
      obtain ⟨⟨reply, ⟨config, phase⟩⟩, world, events⟩ := made
      obtain ⟨⟨reply', ⟨_, phase'⟩⟩, world', events'⟩ := made'
      cases hconfig
      obtain ⟨hrest, hrecords⟩ := ih hphases hlater
      exact ⟨hrest, by simp [htold, hrecords]⟩

end Session

end NegotiateAuth
