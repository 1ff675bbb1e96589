import NegotiateAuth.Proofs.Challenge.Written
import NegotiateAuth.Proofs.Exchange.Results

/-! # The token of the server

When the second request succeeds, the response may bring a token of its own, by which the other side
authenticates itself, and an exchange records that. It looks for the token where a target puts it,
whichever peer was authenticated against; a proxy's token is passed over, and a target's is taken
for it.
-/

namespace NegotiateAuth

section

variable {κ χ : Type}

/-- Whether an event is one of the two records of a server's token. -/
def Event.reportsToken : Event κ χ → Bool
  | .logged .debug text => text == "mutual authentication token received from server"
  | .logged .trace text => "server token: ".toList.isPrefixOf text.toList
  | .created _ _ _ => false
  | .advanced _ _ => false
  | .lookedUp _ => false
  | .sent _ => false

def tokenReports (events : List (Event κ χ)) : List (Event κ χ) :=
  events.filter Event.reportsToken

/-- What is to be recorded of the token that a server gives, if it gives one. -/
def reportOf : Option String → List (Event κ χ)
  | some token =>
      [.debug "mutual authentication token received from server", .trace s!"server token: {token}"]
  | none => []

@[simp] theorem tokenReports_nil : tokenReports ([] : List (Event κ χ)) = [] :=
  rfl

theorem tokenReports_eq_nil_iff {events : List (Event κ χ)} :
    tokenReports events = [] ↔ ∀ event ∈ events, event.reportsToken = false := by
  simp [tokenReports, List.filter_eq_nil_iff]

@[simp] theorem tokenReports_append (events more : List (Event κ χ)) :
    tokenReports (events ++ more) = tokenReports events ++ tokenReports more :=
  List.filter_append events more

@[simp] theorem tokenReports_sent (request : Http.Request) (events : List (Event κ χ)) :
    tokenReports (.sent request :: events) = tokenReports events :=
  rfl

/-- A record that begins otherwise is not of a server's token. -/
theorem Event.reportsToken_logged (level : Level) {text : String} (first : Char)
    (begins : text.toList.head? = some first) (otherwise : first ≠ 'm' ∧ first ≠ 's') :
    (Event.logged level text : Event κ χ).reportsToken = false := by
  rw [← Bool.not_eq_true]
  intro reported
  cases level with
  | debug =>
      obtain rfl : text = "mutual authentication token received from server" :=
        beq_iff_eq.1 reported
      exact otherwise.1 (Option.some.inj (begins.symm.trans (by decide +kernel)))
  | trace =>
      obtain ⟨rest, hrest⟩ := List.isPrefixOf_iff_prefix.1 reported
      have hhead : ("server token: ".toList ++ rest).head? = some 's' := by simp
      rw [hrest, begins] at hhead
      exact otherwise.2 (Option.some.inj hhead)

theorem tokenReports_record (level : Level) {text : String} (first : Char)
    (begins : text.toList.head? = some first) (otherwise : first ≠ 'm' ∧ first ≠ 's') :
    tokenReports [(.logged level text : Event κ χ)] = [] := by
  rw [tokenReports_eq_nil_iff, List.forall_mem_singleton]
  exact Event.reportsToken_logged level first begins otherwise

theorem tokenReports_reportOf (token : Option String) :
    tokenReports (reportOf token : List (Event κ χ)) = reportOf token := by
  apply List.filter_eq_self.2
  cases token with
  | none => exact List.forall_mem_nil _
  | some token =>
      have htrace : "server token: ".toList <+: (s!"server token: {token}").toList :=
        ⟨token.toList, by simp [ToString.toString]⟩
      simp only [reportOf, List.forall_mem_cons]
      exact ⟨beq_self_eq_true _, List.isPrefixOf_iff_prefix.2 htrace, List.forall_mem_nil _⟩

theorem reportOf_inj {token other : Option String} :
    (reportOf token : List (Event κ χ)) = reportOf other ↔ token = other := by
  cases token with
  | none => cases other <;> simp [reportOf]
  | some token =>
      cases other with
      | none => simp [reportOf]
      | some other => simp [reportOf, Event.trace, ToString.toString]

end

variable {σ κ χ : Type}

theorem ServiceName.tokenReports_ofHost (env : Environment σ κ χ) (config : Config) (host : Host)
    (world : σ) : tokenReports (ofHost env config host world).events = [] := by
  simp only [ofHost, hostName, Action.bind_apply, Action.pure_apply, List.append_nil,
    tokenReports_eq_nil_iff]
  split
  · rw [canonicalName_apply]
    rcases env.canonicalize host.name world with ⟨cause | canonical, after⟩
    · simp only [List.forall_mem_cons]
      exact ⟨rfl, Event.reportsToken_logged .debug 'c' (by simp [ToString.toString]) (by decide),
        List.forall_mem_nil _⟩
    · dsimp only
      split
      · simp [Event.reportsToken]
      · simp only [List.forall_mem_cons]
        exact ⟨rfl, Event.reportsToken_logged .trace 'c' (by simp [ToString.toString]) (by decide),
          List.forall_mem_nil _⟩
  · exact List.forall_mem_nil _

namespace Session

theorem tokenReports_challengeRecords (config : Config) (peer : Peer) (challenge : Challenge)
    (size : Nat) :
    tokenReports (challengeRecords config peer challenge size : List (Event κ χ)) = [] := by
  rw [tokenReports_eq_nil_iff]
  unfold challengeRecords
  simp only [List.forall_mem_append, List.forall_mem_singleton]
  refine ⟨⟨Event.reportsToken_logged .debug 'r' (by simp [ToString.toString]) (by decide), ?_⟩,
    Event.reportsToken_logged .trace 'c' (by simp [ToString.toString]) (by decide)⟩
  split
  case isTrue => exact List.forall_mem_nil _
  case isFalse =>
      rw [List.forall_mem_singleton]
      cases peer with
      | target =>
          exact Event.reportsToken_logged .debug 'T' (by simp [Peer.name, ToString.toString])
            (by decide)
      | proxy =>
          exact Event.reportsToken_logged .debug 'P' (by simp [Peer.name, ToString.toString])
            (by decide)

theorem tokenReports_requesting (env : Environment σ κ χ) (config : Config)
    (credentials : Credentials κ) (route : Route) (world : σ) :
    tokenReports (requesting env config credentials route world) = [] := by
  rw [requesting, tokenReports_append, service, ServiceName.tokenReports_ofHost, List.nil_append,
    tokenReports_eq_nil_iff]
  simp only [List.forall_mem_cons]
  exact ⟨Event.reportsToken_logged .debug 'i' (by simp [ToString.toString]) (by decide), rfl,
    List.forall_mem_nil _⟩

/-- Whatever comes of it, no token of a server is recorded while the provider answers. -/
theorem tokenReports_respond (env : Environment σ κ χ) (config : Config)
    (credentials : Credentials κ) (route : Route) (challenge : List UInt8) (world : σ) :
    tokenReports (respond env config credentials route challenge world).events = [] := by
  have hrequesting := tokenReports_requesting env config credentials route world
  cases respond_response env config credentials route challenge world with
  | uncreated created outcome => rw [outcome, hrequesting]
  | unadvanced created advanced outcome =>
      rw [outcome, tokenReports_append, hrequesting, List.nil_append]
      rfl
  | granted created advanced outcome =>
      rw [outcome, tokenReports_append, hrequesting, List.nil_append, tokenReports_eq_nil_iff]
      simp only [List.forall_mem_cons]
      exact ⟨rfl, Event.reportsToken_logged .trace 'g' (by simp [ToString.toString]) (by decide),
        List.forall_mem_nil _⟩

end Session

/-- The token of the challenge that a peer offers in header fields, if it has one. -/
def Challenge.offeredToken? (peer : Peer) (fields : Http.FieldMap) : Option String :=
  (ofFields? peer fields).bind (·.token)

theorem Challenge.offeredToken?_ne_empty {peer : Peer} {fields : Http.FieldMap} {token : String}
    (h : offeredToken? peer fields = some token) : token ≠ "" := by
  obtain ⟨challenge, found, htoken⟩ := Option.bind_eq_some_iff.1 h
  obtain ⟨cs, rfl⟩ := (Obtained.found found).ofChars
  exact (normal_ofChars cs token htoken).1

namespace Exchange

theorem isSuccess_challengeStatus (peer : Peer) : peer.challengeStatus.isSuccess = false := by
  cases peer <;> rfl

theorem tokenReports_outcomeRecords (config : Config) (response : Http.Response) :
    tokenReports (outcomeRecords config response : List (Event κ χ)) =
      if response.status.isSuccess then
        reportOf (Challenge.offeredToken? .target response.fields)
      else [] := by
  unfold outcomeRecords
  split
  case isTrue rejected =>
      have hstatus := (Peer.ofStatus?_eq_some_iff _ _).1 rejected
      rw [hstatus, isSuccess_challengeStatus, if_neg Bool.false_ne_true]
      exact tokenReports_record .debug 'N' (by simp [ToString.toString]) (by decide)
  case isFalse =>
      by_cases success : response.status.isSuccess = true
      · rw [if_pos success, if_pos success]
        exact tokenReports_reportOf (Challenge.offeredToken? .target response.fields)
      · rw [if_neg success, if_neg success]
        rfl

section

variable {exchange : Exchange σ κ χ} {request second : Http.Request} {world before : σ}
  {response : Http.Response}

/-- The token of a server is recorded after the second request, if at all. -/
theorem tokenReports_of_resends (h : Resends exchange request world second before) :
    tokenReports (exchange.run request world).events =
      tokenReports (exchange.conclude second before).events := by
  obtain ⟨first, challenge, after, bytes, host, token, challenged, decoded, hosted, granted, rfl,
    rfl⟩ := granted_of_resends h
  have quiet : tokenReports (exchange.responded host bytes after).events = [] :=
    Session.tokenReports_respond ..
  rw [run_of_granted challenged decoded hosted granted]
  simp [Session.tokenReports_challengeRecords, quiet]

theorem tokenReports_of_concludes (h : Concludes exchange request world second response) :
    tokenReports (exchange.run request world).events =
      tokenReports (outcomeRecords exchange.config response) := by
  obtain ⟨before, after, resends, sent⟩ := h
  rw [tokenReports_of_resends resends, conclude_apply, sent]
  simp

end

/-- A token is recorded by no run but one that succeeds on its second request. -/
theorem concludes_of_tokenReports {exchange : Exchange σ κ χ} {request : Http.Request} {world : σ}
    (reported : tokenReports (exchange.run request world).events ≠ []) :
    ∃ second response, Concludes exchange request world second response ∧
      response.status.isSuccess = true ∧
        Challenge.offeredToken? .target response.fields ≠ none := by
  -- Every other course leaves none of the two records.
  have quiet : ∀ {P : Prop}, tokenReports (exchange.run request world).events = [] → P :=
    fun hnil => absurd hnil reported
  cases run_course exchange request world with
  | unsent sent outcome => exact quiet (by simp [outcome])
  | undemanding sent status outcome => exact quiet (by simp [outcome])
  | unchallenged sent status found outcome =>
      have hrecord : tokenReports
          [(.debug s!"{exchange.config.peer.statusText} without a Negotiate challenge" :
            Event κ χ)] = [] := by
        refine tokenReports_record .debug '4' ?_ (by decide)
        cases exchange.config.peer with
        | target => simp [Peer.statusText, ToString.toString]
        | proxy => simp [Peer.statusText, ToString.toString]
      exact quiet (by rw [outcome, tokenReports_sent, hrecord])
  | malformed challenged undecoded outcome => exact quiet (by simp [outcome])
  | unrouted challenged decoded hostless outcome =>
      exact quiet (by simp [outcome, Session.tokenReports_challengeRecords])
  | refused challenged decoded hosted refused outcome =>
      apply quiet
      rw [outcome]
      dsimp only
      rw [tokenReports_sent, tokenReports_append, tokenReports_append,
        Session.tokenReports_challengeRecords, responded, Session.tokenReports_respond,
        List.nil_append, List.nil_append]
      exact tokenReports_record .debug 'N' (by simp [ToString.toString]) (by decide)
  | granted challenged decoded hosted granted outcome =>
      have resends := resends_of_granted challenged decoded hosted granted
      rcases sent : exchange.transport _ _ with ⟨cause | response, after⟩
      · apply quiet
        rw [tokenReports_of_resends resends, conclude_apply, sent]
        simp
      · have concludes : Concludes exchange request world _ response := ⟨_, after, resends, sent⟩
        rw [tokenReports_of_concludes concludes, tokenReports_outcomeRecords] at reported
        split at reported
        case isTrue success =>
            refine ⟨_, response, concludes, success, fun hnone => reported ?_⟩
            rw [hnone]
            rfl
        case isFalse => exact absurd rfl reported

theorem tokenReports_of_success {exchange : Exchange σ κ χ} {request second : Http.Request}
    {world : σ} {response : Http.Response}
    (concludes : Concludes exchange request world second response)
    (success : response.status.isSuccess = true) :
    tokenReports (exchange.run request world).events =
      reportOf (Challenge.offeredToken? .target response.fields) := by
  rw [tokenReports_of_concludes concludes, tokenReports_outcomeRecords, if_pos success]

/-- What an exchange records of a server's token. When its second request succeeds, that is the
token of the challenge that a target offers in the response, and nothing if there is none: the token
of the configured peer if the target is that peer, and otherwise only where the two offer the same.
No other run records one. -/
theorem tokenReports_run (exchange : Exchange σ κ χ) (request : Http.Request) (world : σ) :
    let peer : Peer := if exchange.config.proxy then .proxy else .target
    let reports := tokenReports (exchange.run request world).events
    (∀ second response, Concludes exchange request world second response →
        response.status.isSuccess = true →
      let offered := fun issuer => Challenge.offeredToken? issuer response.fields
      reports = reportOf (offered .target) ∧
        (peer = .target → reports = reportOf (offered peer)) ∧
        (reports = reportOf (offered peer) ↔ offered peer = offered .target) ∧
        ∀ issuer token, offered issuer = some token → token ≠ "") ∧
      (reports ≠ [] → ∃ second response, Concludes exchange request world second response ∧
        response.status.isSuccess = true ∧
          Challenge.offeredToken? .target response.fields ≠ none) := by
  intro peer reports
  refine ⟨?_, concludes_of_tokenReports⟩
  intro second response concludes success offered
  have hreports : reports = reportOf (offered .target) := tokenReports_of_success concludes success
  refine ⟨hreports, ?_, ?_, fun issuer token => Challenge.offeredToken?_ne_empty⟩
  · intro htarget
    rw [htarget, hreports]
  · rw [hreports, reportOf_inj, eq_comm]

def succeeding (fields : Http.FieldMap) : Http.Response :=
  ⟨⟨200, by decide⟩, fields, []⟩

/-- An exchange that is challenged until it answers, and then succeeds with these header fields. -/
def granting (config : Config) (fields : Http.FieldMap) : Exchange Unit Unit Unit where
  config := config
  env := echo.env
  transport := fun request world =>
    if request.fields.values config.peer.answerField = [] then
      (.ok ⟨config.peer.challengeStatus,
        ⟨[(config.peer.challengeField, ⟨Text.utf8 "Negotiate".toList, false⟩)]⟩, []⟩, world)
    else (.ok (succeeding fields), world)
  credentials := .currentUser
  proxy := some ⟨"proxy", 3128⟩

theorem concludes_granting (config : Config) (fields : Http.FieldMap) :
    ∃ second, Concludes (granting config fields) echoRequest () second (succeeding fields) := by
  have found : Challenge.ofFields? config.peer
      ⟨[(config.peer.challengeField, ⟨Text.utf8 "Negotiate".toList, false⟩)]⟩ = some ⟨none⟩ := by
    cases config.peer <;> decide +kernel
  have hosted : Host.ofUri? echoRequest.uri = some ⟨"a.example", 80⟩ := by decide +kernel
  have resends : Resends (granting config fields) echoRequest ()
      ((granting config fields).answered echoRequest.replay []) () :=
    ⟨_, ⟨none⟩, (), [], _, (), (), [], ⟨rfl, rfl, found⟩, rfl, hosted, rfl, rfl, rfl⟩
  refine ⟨_, (), (), resends, if_neg ?_⟩
  change (Http.FieldMap.insert _ config.peer.answerField _).values config.peer.answerField ≠ []
  rw [Http.FieldMap.values_insert_self]
  exact List.cons_ne_nil _ _

theorem tokenReports_granting (config : Config) (fields : Http.FieldMap) :
    tokenReports ((granting config fields).run echoRequest ()).events =
      reportOf (Challenge.offeredToken? .target fields) := by
  obtain ⟨second, concludes⟩ := concludes_granting config fields
  exact tokenReports_of_success concludes rfl

def offering (peer : Peer) : Http.FieldMap :=
  ⟨[(peer.challengeField, ⟨Text.utf8 "Negotiate AQI=".toList, false⟩)]⟩

theorem tokenReports_run_target :
    tokenReports ((granting .target (offering .target)).run echoRequest ()).events =
      reportOf (some "AQI=") := by
  obtain ⟨second, concludes⟩ := concludes_granting .target (offering .target)
  obtain ⟨hsuccess, -⟩ := tokenReports_run (granting .target (offering .target)) echoRequest ()
  obtain ⟨-, hreports, -⟩ := hsuccess second _ concludes rfl
  have offered : Challenge.offeredToken? .target (offering .target) = some "AQI=" := by
    decide +kernel
  rw [← offered]
  exact hreports rfl

/-- Against a proxy, its token is passed over, and a target's is recorded. -/
theorem tokenReports_viaProxy :
    ((∃ second, Concludes (granting .viaProxy (offering .proxy)) echoRequest () second
          (succeeding (offering .proxy))) ∧
        Challenge.offeredToken? Config.viaProxy.peer (offering .proxy) = some "AQI=" ∧
        tokenReports ((granting .viaProxy (offering .proxy)).run echoRequest ()).events = []) ∧
      (∃ second, Concludes (granting .viaProxy (offering .target)) echoRequest () second
          (succeeding (offering .target))) ∧
        Challenge.offeredToken? Config.viaProxy.peer (offering .target) = none ∧
        tokenReports ((granting .viaProxy (offering .target)).run echoRequest ()).events =
          reportOf (some "AQI=") := by
  have hproxy : Challenge.offeredToken? .target (offering .proxy) = none := by decide +kernel
  have htarget : Challenge.offeredToken? .target (offering .target) = some "AQI=" := by
    decide +kernel
  rw [tokenReports_granting, tokenReports_granting, hproxy, htarget]
  exact ⟨⟨concludes_granting _ _, by decide +kernel, rfl⟩, concludes_granting _ _,
    by decide +kernel, rfl⟩

end Exchange

end NegotiateAuth
