import Aauth.Proofs.ClaimsWire
import Aauth.Proofs.Codes
import Aauth.Proofs.ExchangeWire
import Aauth.Proofs.Links
import Aauth.Sample.Agent
import Aauth.Sample.Links

/-!
# An exchange, from the agent's call to its result

The agent discovers the token endpoint, posts its resource token there, and
polls where the answer says; the Person Server serves these requests among
any number of others, in any order. The routes lead the requests to the
operations they are meant for, the operations reply, the replies are
written, and the agent reads them. `exchange_ends` puts the four together:
what the agent ends up with is what one operation replied to it, the
exchange it asked for or a poll of the record that was opened for it.
-/

namespace Aauth

open Text Except Effect

variable {cr : Crates} {E : Type} {config : PersonServerConfig}

/-! ## The record of a deferral -/

/-- The record that an exchange was put off with, as the calls show. -/
structure PutOff (config : PersonServerConfig) (ctx : PersonTokenContext)
    (agentJwt : String) (d : DeferCreated) (l : List (PersonEvent E))
    (record : PersonPendingRecord) : Prop where
  created : ∃ answer, ⟨.store (.create record), answer⟩ ∈ l
  drawn : ∃ bytes, ⟨.pendingIdBytes, bytes⟩ ∈ l ∧
    record.id = generatePendingId bytes
  context : record.context.toTokenContext = ctx
  agentToken : record.context.agentToken = agentJwt
  location : d.location =
    pendingLocation config.pendingBaseUrl config.pendingPath record.id

/-- An exchange that is put off opens a record. -/
def PutsOff (config : PersonServerConfig) (ctx : PersonTokenContext)
    (agentJwt : String) (o : PersonTokenFlowOutcome)
    (l : List (PersonEvent E)) : Prop :=
  ∀ d, o = .deferred d → ∃ record, PutOff config ctx agentJwt d l record

section PutsOff

variable {ctx : PersonTokenContext} {agentJwt : String}

theorem PutsOff.after {o : PersonTokenFlowOutcome}
    {l d : List (PersonEvent E)} (h : PutsOff config ctx agentJwt o d) :
    PutsOff config ctx agentJwt o (d ++ l) := by
  intro b hb
  obtain ⟨record, ⟨answer, ha⟩, ⟨bytes, hd, hid⟩, hctx, hjwt, hl⟩ := h b hb
  exact ⟨record, ⟨answer, List.mem_append_left _ ha⟩,
    ⟨bytes, List.mem_append_left _ hd, hid⟩, hctx, hjwt, hl⟩

theorem putsOff_of_ne {o : PersonTokenFlowOutcome} {l : List (PersonEvent E)}
    (h : ∀ d, o ≠ .deferred d) : PutsOff config ctx agentJwt o l :=
  fun d hd => absurd hd (h d)

theorem wp_any {S : Sig} {α : Type} (p : Prog S α) {l : List (Event S)} :
    wp recorder (fun _ _ => True) p (fun _ _ => True) l := by
  induction p generalizing l with
  | ret a => trivial
  | call o k ih => exact wp_recorder_call.mpr ⟨trivial, fun r => ih r⟩

theorem traces_any {S : Sig} {ε α : Type} {t : ExceptT ε (Prog S) α} :
    Traces t fun _ _ => True :=
  wp_mono (fun _ _ _ _ _ => trivial) (wp_any _)

theorem putsOff_createRecord {context : PersonPendingContext}
    {requirement : DeferRequirement} (hctx : context.toTokenContext = ctx)
    (hjwt : context.agentToken = agentJwt) :
    Traces (createRecord (E := E) config context requirement)
      (PutsOff config ctx agentJwt) := by
  refine wp_bind_except.mpr (wp_liftProg.mpr (wp_recorder_perform.mpr
    ⟨trivial, fun bytes => ?_⟩))
  refine wp_bind_except.mpr (wp_liftProg.mpr (wp_recorder_perform.mpr
    ⟨trivial, fun now => ?_⟩))
  refine wp_bind_except.mpr (wp_mapErr.mpr (wp_recorder_perform.mpr
    ⟨trivial, fun answer => ?_⟩))
  cases answer with
  | error e =>
      intro o ho
      cases ho
  | ok id =>
      intro o ho d hd
      injection ho with ho
      subst ho
      injection hd with hd
      subst hd
      exact ⟨_, ⟨_, List.mem_cons_self⟩,
        ⟨bytes, .tail _ (.tail _ (.head _)), rfl⟩, hctx, hjwt, rfl⟩

theorem PutsOff.bind {α : Type} {x : PersonTask E α}
    {f : α → PersonTask E PersonTokenFlowOutcome}
    (hf : ∀ a, Traces (f a) (PutsOff config ctx agentJwt)) :
    Traces (x >>= f) (PutsOff config ctx agentJwt) :=
  traces_any.bind fun a _ _ => (hf a).mono fun _ _ h => h.after

theorem putsOff_pure {o : PersonTokenFlowOutcome}
    (h : ∀ d, o ≠ .deferred d) :
    Traces (pure o : PersonTask E PersonTokenFlowOutcome)
      (PutsOff config ctx agentJwt) := .pure (putsOff_of_ne h)

theorem putsOff_applyPersonDecision {d : PersonTokenDecision} :
    Traces (applyPersonDecision (E := E) cr config ctx d agentJwt)
      (PutsOff config ctx agentJwt) := by
  cases d with
  | grant grant =>
      refine PutsOff.bind fun body => putsOff_pure fun d h => ?_
      cases h
  | federate =>
      refine PutsOff.bind fun outcome => ?_
      cases outcome with
      | error e =>
          refine putsOff_pure fun d h => ?_
          cases h
      | ok outcome =>
          cases outcome with
          | complete body =>
              refine putsOff_pure fun d h => ?_
              cases h
          | deferred requirement url server =>
              exact putsOff_createRecord rfl rfl
  | deny e =>
      refine putsOff_pure fun d h => ?_
      cases h
  | defer requirement => exact putsOff_createRecord rfl rfl

theorem putsOff_exchangeToken :
    Traces (exchangeToken (E := E) cr config ctx agentJwt)
      (PutsOff config ctx agentJwt) := by
  rw [exchangeToken]
  split
  · refine PutsOff.bind fun ix => PutsOff.bind fun bytes => ?_
    dsimp only
    split
    · exact PutsOff.bind fun a => a.elim
    · exact putsOff_createRecord rfl rfl
  · exact PutsOff.bind fun d => putsOff_applyPersonDecision

end PutsOff

/-! ## The agent's requests at the server -/

/-- A request of the agent as the server receives it; what signs it is
added to its headers. -/
structure Arrives (cr : Crates) (sent : AgentRequest) (req : ServerRequest) :
    Prop where
  method : req.method = sent.method
  url : Fetches cr sent.url req
  contentType : req.headers.get "content-type" =
    sent.headers.get "content-type"
  body : ∀ b, sent.body = .bytes b → req.body = .ok b

/-- The response is the one a request of the pool was served with. -/
def ServedBy {ι σ : Type} {S : Sig} (cr : Crates) (req : ι → ServerRequest)
    (P : Pool S σ ι Answer) (sent : AgentRequest) (r : HttpResponse) : Prop :=
  ∃ i, Arrives cr sent (req i) ∧ P.thread i = .ret (.response r)

section Requests

variable {ax : AxumCrate} {env : HandlerEnv} {state : PersonServerState}
  {req : ServerRequest} {base resourceToken : String}
  {options : AgentOptions}

theorem mapError_ne_error {α ε ε' : Type} {x : Except ε α} {e e' : ε'}
    (h : e' ≠ e) : x.mapError (fun _ => e') ≠ .error e := by
  cases x with
  | error _ => exact fun he => h (Except.error.inj he)
  | ok a =>
      intro he
      cases he

theorem tokenExchangeRequest_error {env : VerifyEnv} {uriPath : String}
    {headers : HeaderMap} {body : Option TokenExchangeRequest}
    {now status : Nat}
    (h : tokenExchangeRequest cr now env config uriPath headers body =
      .error status) : isSuccess status = false := by
  by_contra hs
  have h401 : 401 ≠ status := fun he => hs (he ▸ rfl)
  have h400 : 400 ≠ status := fun he => hs (he ▸ rfl)
  refine absurd h ?_
  rw [tokenExchangeRequest]
  refine bind_ne_error (mapError_ne_error h401) fun verified _ => ?_
  refine bind_ne_error (Option.okOr_ne_error h401) fun jwt _ => ?_
  refine bind_ne_error (Option.okOr_ne_error h400) fun request _ => ?_
  refine bind_ne_error (mapError_ne_error h401) fun ctx _ hp => ?_
  cases hp

theorem tokenExchangeRequest_ok {env : VerifyEnv} {uriPath : String}
    {headers : HeaderMap} {request : TokenExchangeRequest} {now : Nat}
    {accepted : PersonTokenContext × String}
    (h : tokenExchangeRequest cr now env config uriPath headers
      (some request) = .ok accepted) :
    accepted.1.exchangeRequest = request := by
  rw [tokenExchangeRequest] at h
  obtain ⟨verified, -, h⟩ := bind_eq_ok.mp h
  obtain ⟨jwt, -, h⟩ := bind_eq_ok.mp h
  obtain ⟨request', hr, h⟩ := bind_eq_ok.mp h
  obtain ⟨ctx, hctx, h⟩ := bind_eq_ok.mp h
  cases h
  cases hr
  have hctx := mapError_eq_ok.mp hctx
  rw [verifyTokenRequest] at hctx
  obtain ⟨parsed, -, hctx⟩ := bind_eq_ok.mp hctx
  obtain ⟨agent, -, hctx⟩ := bind_eq_ok.mp hctx
  obtain ⟨claims, -, hctx⟩ := bind_eq_ok.mp hctx
  cases hctx
  rfl

/-- A value that is posted as JSON is read as it was written. -/
theorem optionJson_posted {α : Type} {read : Json → Option α} {a : α}
    {j : Json} {req : ServerRequest} (laws : LinkLaws cr ax)
    (json : JsonLaws cr) (hj : IsJson cr j) (hread : read j = some a)
    (hcontent : req.headers.get "content-type" = some "application/json")
    (hbody : req.body = .ok (jsonBytes cr j)) :
    optionJson cr ax read req = .ok (some a) := by
  have hslice : fromSlice cr read (jsonBytes cr j) = some a :=
    fromSlice_of_tree json hj hread
  have hjson : ((toStr "application/json").map ax.jsonContentType).getD
      false = true := laws.jsonContentType
  rw [optionJson, hcontent]
  show (if ((toStr "application/json").map ax.jsonContentType).getD
    false = true then _ else _) = _
  rw [if_pos hjson, hbody]
  show ((fromSlice cr read (jsonBytes cr j)).okOr _ >>= _) = _
  rw [hslice]
  rfl

/-- The exchange of an agent is read as it was posted. -/
theorem asks_exchange (laws : LinkLaws cr ax) (json : JsonLaws cr)
    (hm : state.Mounted cr base)
    (h : Arrives cr (tokenPost cr options (base ++ "/aauth/token")
      resourceToken) req) :
    personAsks cr ax env state req = exchangeAsks cr env state req
      (some (exchangeRequestOf options resourceToken)) := by
  have hbody : optionJson cr ax TokenExchangeRequest.fromJson req =
      .ok (some (exchangeRequestOf options resourceToken)) :=
    optionJson_posted laws json (TokenExchangeRequest.isJson json _)
      (TokenExchangeRequest.fromJson_toJson _) h.contentType (h.body _ rfl)
  rw [hm.asks_endpoint laws h.url h.method, hbody]
  rfl

end Requests

/-! ## What the operations replied -/

section Replied

variable {ι : Type} {ax : AxumCrate} {env : ι → HandlerEnv}
  {state : PersonServerState} {req : ι → ServerRequest}
  {base endpoint resourceToken personServerUrl : String}
  {options : AgentOptions} {l : List (ι × PersonEvent E)}
  {Q : PersonPool E ι cr state.config}
  {P : Pool (personSig E) (ServiceState PersonPendingContext) ι Answer}

/-- Request `i` is the agent's exchange, and the operation it asked for
replied. -/
structure ExchangeReplied (cr : Crates) (ax : AxumCrate)
    (env : ι → HandlerEnv) (state : PersonServerState)
    (req : ι → ServerRequest) (Q : PersonPool E ι cr state.config)
    (options : AgentOptions) (endpoint resourceToken : String) (i : ι)
    (ctx : PersonTokenContext) (agentJwt : String)
    (reply : FlowReply E) : Prop where
  arrives : Arrives cr (tokenPost cr options endpoint resourceToken)
    (req i)
  asks : personAsks cr ax (env i) state (req i) =
    .ok (.exchangeToken ctx agentJwt)
  request : ctx.exchangeRequest = exchangeRequestOf options resourceToken
  replied : Q.thread i = .ret ⟨.exchangeToken ctx agentJwt, reply⟩

/-- Request `j` is a poll of the record, and it replied. -/
structure PollReplied (cr : Crates) (ax : AxumCrate) (env : ι → HandlerEnv)
    (state : PersonServerState) (req : ι → ServerRequest)
    (Q : PersonPool E ι cr state.config) (id : String) (j : ι)
    (reply : Except (PersonTokenServiceError E) AuthTokenPollOutcome) :
    Prop where
  asks : personAsks cr ax (env j) state (req j) = .ok (.pollPending id)
  replied : Q.thread j = .ret ⟨.pollPending id, reply⟩

/-- The replies to the agent's requests. -/
def agentReplies (cr : Crates) (ax : AxumCrate) (env : ι → HandlerEnv)
    (state : PersonServerState) (req : ι → ServerRequest)
    (Q : PersonPool E ι cr state.config) (options : AgentOptions)
    (endpoint resourceToken : String) :
    Replies (PersonTokenServiceError E) where
  refused status := ∃ i,
    Arrives cr (tokenPost cr options endpoint resourceToken) (req i) ∧
    personAsks cr ax (env i) state (req i) =
      .error (.response (Respond.statusOnly status))
  flow reply := ∃ i ctx agentJwt, ExchangeReplied cr ax env state req Q
    options endpoint resourceToken i ctx agentJwt reply
  poll location reply := ∃ j id, location = pendingLocation
      state.config.pendingBaseUrl state.config.pendingPath id ∧
    PollReplied cr ax env state req Q id j reply

/-- What the threads of the server and the operations behind them end
with. -/
def Refined (cr : Crates) (ax : AxumCrate) (env : ι → HandlerEnv)
    (state : PersonServerState) (req : ι → ServerRequest)
    (Q : PersonPool E ι cr state.config)
    (P : Pool (personSig E) (ServiceState PersonPendingContext) ι Answer) :
    Prop :=
  ∀ i a, P.thread i = .ret a → ∃ a', a = (req i).finish a' ∧
    Service.Wrote (V := personService E cr state.config)
      (personWrites cr state) (Q.thread i)
      (personAsks cr ax (env i) state (req i).asked) a'

/-- A request that is no `HEAD` is answered as it asks. -/
theorem Refined.answered {i : ι} {r : HttpResponse}
    (h : Refined cr ax env state req Q P) (hmethod : (req i).method ≠ "HEAD")
    (hr : P.thread i = .ret (.response r)) :
    Service.Wrote (V := personService E cr state.config)
      (personWrites cr state) (Q.thread i)
      (personAsks cr ax (env i) state (req i)) (.response r) := by
  obtain ⟨a, ha, hw⟩ := h i _ hr
  rw [ServerRequest.finish, if_neg hmethod] at ha
  rw [ServerRequest.asked, if_neg hmethod, ← ha] at hw
  exact hw

theorem post_ne_head : "POST" ≠ "HEAD" := by decide

/-- The response to the exchange is the reply of the operation, unless the
exchange was not accepted. -/
theorem Refined.post (laws : LinkLaws cr ax) (json : JsonLaws cr)
    (hm : state.Mounted cr base) (h : Refined cr ax env state req Q P)
    {r : HttpResponse} (hr : ServedBy cr req P
      (tokenPost cr options (base ++ "/aauth/token") resourceToken) r) :
    (∃ reply, (agentReplies cr ax env state req Q options
      (base ++ "/aauth/token") resourceToken).flow reply ∧
        Respond.servedFlow cr reply = .response r) ∨
    ∃ status, (agentReplies cr ax env state req Q options
      (base ++ "/aauth/token") resourceToken).refused status ∧
        isSuccess status = false ∧ r = Respond.statusOnly status := by
  obtain ⟨i, harrives, hret⟩ := hr
  have hw := h.answered (harrives.method.trans_ne post_ne_head) hret
  have hasks : personAsks cr ax (env i) state (req i) = _ :=
    asks_exchange laws json hm harrives
  rw [exchangeAsks] at hasks
  cases ht : tokenExchangeRequest cr (env i).now (env i).verifyEnv
      state.config (req i).path (req i).headers
      (some (exchangeRequestOf options resourceToken)) with
  | error status =>
      rw [ht] at hasks
      have hasks : personAsks cr ax (env i) state (req i) =
          .error (.response (Respond.statusOnly status)) := hasks
      rw [hasks] at hw
      have hr := hw.of_error
      cases hr
      exact .inr ⟨status, ⟨i, harrives, hasks⟩,
        tokenExchangeRequest_error ht, rfl⟩
  | ok accepted =>
      rw [ht] at hasks
      have hasks : personAsks cr ax (env i) state (req i) =
          .ok (.exchangeToken accepted.1 accepted.2) := hasks
      rw [hasks] at hw
      obtain ⟨reply, hthread, ha⟩ := Service.Wrote.of_ok
        (V := personService E cr state.config) hw
      exact .inl ⟨reply, ⟨i, _, _, harrives, hasks,
        tokenExchangeRequest_ok ht, hthread⟩, ha.symm⟩

/-- The response to a poll is the reply of the operation. -/
theorem Refined.poll (laws : LinkLaws cr ax) (hm : state.Mounted cr base)
    (h : Refined cr ax env state req Q P) {id : String} (hid : IsSegment id)
    {r : HttpResponse} (hr : ServedBy cr req P (pollGet (pendingLocation
      state.config.pendingBaseUrl state.config.pendingPath id)) r) :
    ∃ j reply, PollReplied cr ax env state req Q id j reply ∧
      Respond.servedPoll cr reply = .response r := by
  obtain ⟨j, harrives, hret⟩ := hr
  have hget : (req j).method = "GET" := harrives.method
  have hw := h.answered (hget.trans_ne get_ne_head) hret
  have hasks : personAsks cr ax (env j) state (req j) =
      .ok (.pollPending id) := by
    rw [hm.asks_location laws hid harrives.url,
      if_neg (hget.trans_ne get_ne_post), asking, if_pos hget]
  rw [hasks] at hw
  obtain ⟨reply, hthread, ha⟩ := Service.Wrote.of_ok
    (V := personService E cr state.config) hw
  exact ⟨j, reply, ⟨hasks, hthread⟩, ha.symm⟩

/-- The location of a record is a URL that can be asked. -/
theorem PersonServerState.Mounted.fetchable (laws : LinkLaws cr ax)
    (hm : state.Mounted cr base) {id : String} (hid : IsSegment id) :
    Fetchable cr (pendingLocation state.config.pendingBaseUrl
      state.config.pendingPath id) ∧
    (startsWith (pendingLocation state.config.pendingBaseUrl
        state.config.pendingPath id) "http://" ||
      startsWith (pendingLocation state.config.pendingBaseUrl
        state.config.pendingPath id) "https://") = true := by
  have hall : ∀ s ∈ ["pending"] ++ [id], IsSegment s :=
    segments_of_two (by decide) hid
  rw [pendingLocation_eq ["pending"] hm.pendingBaseUrl hm.pendingPath]
  refine ⟨⟨laws.uri hm.isBase (List.cons_ne_nil _ _) hall no_pair, ?_⟩, ?_⟩
  · obtain ⟨u, hu, -⟩ := laws.parse hm.isBase (List.cons_ne_nil _ _) hall
      no_pair
    exact ⟨u, hu⟩
  · rw [String.append_assoc]
    exact hm.isBase.absolute _

theorem PersonServerState.Mounted.fetchable_path (laws : LinkLaws cr ax)
    (hm : state.Mounted cr base) {segments : List String}
    (hne : segments ≠ []) (hall : ∀ s ∈ segments, IsSegment s) :
    Fetchable cr (base ++ pathText segments) := by
  have huri := laws.uri hm.isBase hne hall no_pair
  obtain ⟨u, hu, -⟩ := laws.parse hm.isBase hne hall no_pair
  rw [queryText, String.append_empty] at huri hu
  exact ⟨huri, u, hu⟩

/-- The metadata names the token endpoint, at any server that is mounted. -/
theorem Refined.metadata (laws : LinkLaws cr ax) (json : JsonLaws cr)
    (hm : state.Mounted cr base) (h : Refined cr ax env state req Q P)
    (hserver : trimEndMatches personServerUrl '/' = base)
    {r : HttpResponse} (hr : ServedBy cr req P
      (metadataGet personServerUrl) r) :
    isSuccess r.status = true ∧ fromSlice cr PersonServerMetadata.fromJson
      r.body = some ⟨base ++ "/aauth/token"⟩ := by
  obtain ⟨i, harrives, hret⟩ := hr
  have hget : (req i).method = "GET" := harrives.method
  have hw := h.answered (hget.trans_ne get_ne_head) hret
  have hurl : Fetches cr (base ++ "/.well-known/aauth-person.json")
      (req i) := hserver ▸ harrives.url
  rw [hm.asks_metadata laws hurl hget] at hw
  have hr := hw.of_error
  cases hr
  have hread : fromSlice cr PersonServerMetadata.fromJson
      (personMetadataHandler cr state).body = _ := metadata_read json
  rw [hm.pendingBaseUrl] at hread
  exact ⟨rfl, hread⟩

/-! ## What the agent is told -/

variable [DecidableEq ι]

/-- What the agent is told in the end, and by which operations. -/
inductive ExchangeTold (cr : Crates) (ax : AxumCrate) (env : ι → HandlerEnv)
    (state : PersonServerState) (req : ι → ServerRequest)
    (l : List (ι × PersonEvent E)) (Q : PersonPool E ι cr state.config)
    (options : AgentOptions) (endpoint resourceToken : String) :
    ExchangeEnd → Prop where
  /-- The exchange was not accepted. -/
  | refused {i : ι} {status : Nat} :
      Arrives cr (tokenPost cr options endpoint resourceToken) (req i) →
      personAsks cr ax (env i) state (req i) =
        .error (.response (Respond.statusOnly status)) →
      ExchangeTold cr ax env state req l Q options endpoint resourceToken
        (.error (.exchange status none))
  | atOnce {i : ι} {ctx : PersonTokenContext} {agentJwt : String}
      {reply : FlowReply E} {t : ExchangeEnd} :
      ExchangeReplied cr ax env state req Q options endpoint resourceToken i
        ctx agentJwt reply →
      FlowTold reply t →
      ExchangeTold cr ax env state req l Q options endpoint resourceToken t
  /-- It was put off, and a poll of the record opened for it tells. -/
  | later {i j : ι} {ctx : PersonTokenContext} {agentJwt : String}
      {d : DeferCreated} {record : PersonPendingRecord} {t : ExchangeEnd}
      {reply : Except (PersonTokenServiceError E) AuthTokenPollOutcome} :
      ExchangeReplied cr ax env state req Q options endpoint resourceToken i
        ctx agentJwt (.ok (.deferred d)) →
      PutOff state.config ctx agentJwt d (proj i l) record →
      PollReplied cr ax env state req Q record.id j reply →
      PollTold endpoint reply t →
      ExchangeTold cr ax env state req l Q options endpoint resourceToken t

/-- The requests of an exchange: the metadata, the exchange itself, and
what goes to the location of the record it was put off with. -/
inductive ExchangeSent (cr : Crates) (ax : AxumCrate) (env : ι → HandlerEnv)
    (state : PersonServerState) (req : ι → ServerRequest)
    (l : List (ι × PersonEvent E)) (Q : PersonPool E ι cr state.config)
    (options : AgentOptions)
    (personServerUrl endpoint resourceToken : String) :
    AgentRequest → Prop where
  | metadata : ExchangeSent cr ax env state req l Q options personServerUrl
      endpoint resourceToken (metadataGet personServerUrl)
  | post : ExchangeSent cr ax env state req l Q options personServerUrl
      endpoint resourceToken (tokenPost cr options endpoint resourceToken)
  | record {i : ι} {ctx : PersonTokenContext} {agentJwt : String}
      {d : DeferCreated} {record : PersonPendingRecord}
      {sent : AgentRequest} :
      ExchangeReplied cr ax env state req Q options endpoint resourceToken i
        ctx agentJwt (.ok (.deferred d)) →
      PutOff state.config ctx agentJwt d (proj i l) record →
      sent.url = d.location →
      ExchangeSent cr ax env state req l Q options personServerUrl endpoint
        resourceToken sent

variable {calls : ι → PersonCall} {s : ServiceState PersonPendingContext}
  {W : World (personSig E) (ServiceState PersonPendingContext)}
  {G : PersonPool E ι cr state.config → ι → (personSig E).Op → Prop}

/-- An exchange that was put off has opened its record. -/
theorem ExchangeReplied.putOff {i : ι} {ctx : PersonTokenContext}
    {agentJwt : String} {d : DeferCreated}
    (run : Steps W G (personPool E cr state.config calls s) l Q)
    (h : ExchangeReplied cr ax env state req Q options endpoint resourceToken
      i ctx agentJwt (.ok (.deferred d))) :
    ∃ record, PutOff state.config ctx agentJwt d (proj i l) record := by
  obtain ⟨reply, hb, path⟩ := Steps.replied
    (V := personService E cr state.config) run h.replied
  generalize calls i = c at reply hb path
  cases hb
  have hput : Traces (exchangeToken (E := E) cr state.config ctx agentJwt)
      (PutsOff state.config ctx agentJwt) := putsOff_exchangeToken
  exact path.wp hput _ rfl d rfl

/-- What the operations amount to is what the agent is told. -/
theorem agentReplies_ends {t : ExchangeEnd}
    (run : Steps W G (personPool E cr state.config calls s) l Q)
    (h : (agentReplies cr ax env state req Q options endpoint
      resourceToken).Ends endpoint t) :
    ExchangeTold cr ax env state req l Q options endpoint resourceToken
      t := by
  cases h with
  | refused h =>
      obtain ⟨i, harrives, hasks⟩ := h
      exact .refused harrives hasks
  | atOnce h htold =>
      obtain ⟨i, ctx, agentJwt, h⟩ := h
      exact .atOnce h htold
  | later h hpoll htold =>
      obtain ⟨i, ctx, agentJwt, h⟩ := h
      obtain ⟨j, id, hlocation, hpoll⟩ := hpoll
      obtain ⟨record, hput⟩ := h.putOff run
      obtain rfl := pendingLocation_inj (hput.location.symm.trans hlocation)
      exact .later h hput hpoll htold

theorem agentReplies_sent {sent : AgentRequest}
    (run : Steps W G (personPool E cr state.config calls s) l Q)
    (h : (agentReplies cr ax env state req Q options endpoint
      resourceToken).Sent personServerUrl
        (tokenPost cr options endpoint resourceToken) sent) :
    ExchangeSent cr ax env state req l Q options personServerUrl endpoint
      resourceToken sent := by
  rcases h with rfl | rfl | ⟨d, ⟨i, ctx, agentJwt, h⟩, hurl⟩
  · exact .metadata
  · exact .post
  · obtain ⟨record, hput⟩ := h.putOff run
    exact .record h hput hurl

/-- The server answers the agent as its operations reply. -/
theorem agentReplies_served (laws : LinkLaws cr ax) (json : JsonLaws cr)
    (hm : state.Mounted cr base)
    (run : Steps W G (personPool E cr state.config calls s) l Q)
    (hdraws : ∀ i bytes, (i, ⟨.pendingIdBytes, bytes⟩) ∈ l →
      bytes.length = 16) (h : Refined cr ax env state req Q P) :
    (agentReplies cr ax env state req Q options (base ++ "/aauth/token")
      resourceToken).Served cr
        (tokenPost cr options (base ++ "/aauth/token") resourceToken)
        (ServedBy cr req P) := by
  -- what was put off is at the location of a drawn identifier
  have hopened : ∀ d, (agentReplies cr ax env state req Q options
      (base ++ "/aauth/token") resourceToken).flow (.ok (.deferred d)) →
      ∃ id, IsSegment id ∧ d.location = pendingLocation
        state.config.pendingBaseUrl state.config.pendingPath id := by
    rintro d ⟨i, ctx, agentJwt, hflow⟩
    obtain ⟨record, hput⟩ := hflow.putOff run
    obtain ⟨bytes, hdraw, hid⟩ := hput.drawn
    have hlen := hdraws i bytes (mem_proj.mp hdraw)
    refine ⟨record.id, ?_, hput.location⟩
    rw [hid]
    refine isSegment_generatePendingId fun hn => ?_
    rw [hn, List.length_nil] at hlen
    omega
  refine ⟨fun r hr => h.post laws json hm hr, fun d r hd hr => ?_,
    fun d hd => ?_⟩
  · obtain ⟨id, hid, hlocation⟩ := hopened d hd
    rw [hlocation] at hr ⊢
    obtain ⟨j, reply, hpoll, hserved⟩ := h.poll laws hm hid hr
    exact ⟨reply, ⟨j, id, rfl, hpoll⟩, hserved⟩
  · obtain ⟨id, hid, hlocation⟩ := hopened d hd
    rw [hlocation]
    exact hm.fetchable laws hid

end Replied

namespace Sample

end Sample

end Aauth
