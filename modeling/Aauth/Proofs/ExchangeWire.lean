import Aauth.Lib.Contract
import Aauth.Proofs.PollWire
import Aauth.Ref.AgentClient
import Aauth.Ref.Routers

/-!
# What the agent is told of an exchange

The Person Server answers an exchange, and every poll of what it put off,
with a status, headers and a body. The agent reads them with no knowledge
of the outcome behind. `FlowTold` and `PollTold` say what each outcome
amounts to on the agent's side; the responses the routes write for an
outcome are read as just that, and an exchange that is answered with such
responses ends with what the last of them says.
-/

namespace Aauth

open Text Except Effect ReqwestAccessServerClient

variable {cr : Crates} {ε : Type}

/-! ## What an outcome amounts to -/

/-- An error as it is read from JSON: a code that is spelled as a named one
is that one. -/
def AAuthProtocolError.told (e : AAuthProtocolError) : AAuthProtocolError :=
  { e with error := .fromWire e.error.asStr }

abbrev ExchangeEnd := Except AgentError TokenExchangeResult

/-- The answer of a server that failed. -/
def internalError : ExchangeEnd :=
  .error (.exchange 500 (some (Respond.bareError .serverError)))

/-- What the agent is told by an answer that ends an exchange at once. -/
inductive FlowTold :
    Except ε PersonTokenFlowOutcome → ExchangeEnd → Prop where
  | failed {e : ε} : FlowTold (.error e) internalError
  /-- No header announces a payment. -/
  | payment {d : DeferCreated} {location : String} :
      d.requirement = .payment location →
      FlowTold (.ok (.deferred d)) internalError
  /-- A lifetime is a `u64`. -/
  | granted {b : TokenResponseBody} {t : ExchangeEnd} :
      (b.expiresIn < 2 ^ 64 → t = .ok ⟨b.authToken, b.expiresIn⟩) →
      FlowTold (.ok (.granted b)) t
  | denied {e : AAuthProtocolError} :
      FlowTold (.ok (.denied e)) (.error (.exchange 403 (some e.told)))
  | gone : FlowTold (.ok .gone) (.error (.exchange 410 none))
  | unauthorized : FlowTold (.ok .unauthorized) (.error (.exchange 401 none))
  | badGateway : FlowTold (.ok .badGateway) (.error (.exchange 502 none))

/-- What the agent is told by an answer that ends its polls. -/
inductive PollTold (endpoint : String) :
    Except ε AuthTokenPollOutcome → ExchangeEnd → Prop where
  | failed {e : ε} : PollTold endpoint (.error e) internalError
  | payment {w : DeferWaiting} {location : String} :
      w.requirement = .payment location →
      PollTold endpoint (.ok (.pending w)) internalError
  | token {b : TokenResponseBody} {t : ExchangeEnd} :
      (b.expiresIn < 2 ^ 64 → t = .ok ⟨b.authToken, b.expiresIn⟩) →
      PollTold endpoint (.ok (.complete (.authToken b))) t
  | denied {e : AAuthProtocolError} :
      PollTold endpoint (.ok (.complete (.error e)))
        (.error (.exchange (Respond.pollingStatus e) (some e.told)))
  /-- A token for a resource, where one for the agent is looked for. -/
  | access {token : String} :
      PollTold endpoint (.ok (.complete (.opaqueAccess token)))
        (.error (.metadata (.decode endpoint)))
  | gone : PollTold endpoint (.ok .gone) (.error (.exchange 410 none))

/-! ## Reading a response -/

/-- What `requestToken` makes of the response an exchange ends with. -/
def readExchange (cr : Crates) (endpoint : String) (r : HttpResponse) :
    ExchangeEnd :=
  if isSuccess r.status then
    ((fromSlice cr TokenResponseBody.fromJson r.body).okOr
      (.metadata (.decode endpoint))).map fun b =>
        ⟨b.authToken, b.expiresIn⟩
  else .error (.exchange r.status (splitError cr r).error)

section Read

variable {endpoint : String} {r : HttpResponse}

theorem readExchange_success (hs : isSuccess r.status = true) :
    readExchange cr endpoint r =
      ((fromSlice cr TokenResponseBody.fromJson r.body).okOr
        (.metadata (.decode endpoint))).map fun b =>
          ⟨b.authToken, b.expiresIn⟩ := if_pos hs

theorem readExchange_failure (hs : isSuccess r.status = false) :
    readExchange cr endpoint r =
      .error (.exchange r.status (splitError cr r).error) :=
  if_neg (Bool.eq_false_iff.mp hs)

theorem readExchange_token (h : JsonLaws cr) {b : TokenResponseBody}
    (hb : b.expiresIn < 2 ^ 64) :
    readExchange cr endpoint (Respond.json cr 200 b.toJson) =
      .ok ⟨b.authToken, b.expiresIn⟩ := by
  have hr : fromSlice cr TokenResponseBody.fromJson
      (jsonBytes cr b.toJson) = some b :=
    fromSlice_of_tree h (b.isJson h hb) (TokenResponseBody.fromJson_toJson hb)
  rw [readExchange_success rfl]
  show ((fromSlice cr TokenResponseBody.fromJson
    (jsonBytes cr b.toJson)).okOr _).map _ = _
  rw [hr]
  rfl

theorem readExchange_error (h : JsonLaws cr) (e : AAuthProtocolError)
    {status : Nat} (hs : isSuccess status = false) :
    readExchange cr endpoint (Respond.json cr status e.toJson) =
      .error (.exchange status (some e.told)) := by
  have hr : fromSlice cr AAuthProtocolError.fromJson
      (jsonBytes cr e.toJson) = some e.told :=
    fromSlice_of_tree h (e.isJson h) e.fromJson_toJson
  have hj : headersContainJson (HeaderMap.empty.insert "content-type"
      "application/json") = true := by decide
  rw [readExchange_failure hs, splitError]
  show Except.error (AgentError.exchange status
    (if (!isSuccess status && headersContainJson (HeaderMap.empty.insert
      "content-type" "application/json")) = true then fromSlice cr
        AAuthProtocolError.fromJson (jsonBytes cr e.toJson) else none)) = _
  rw [hj, hs, if_pos (show (!false && true) = true from rfl), hr]

theorem readExchange_bare {status : Nat} (hs : isSuccess status = false) :
    readExchange cr endpoint (Respond.statusOnly status) =
      .error (.exchange status none) := by
  have hj : headersContainJson HeaderMap.empty = false := rfl
  rw [readExchange_failure hs, splitError]
  show Except.error (AgentError.exchange status
    (if (!isSuccess status && headersContainJson HeaderMap.empty) = true then
      _ else none)) = _
  rw [hj, Bool.and_false]
  rfl

theorem readExchange_internal (h : JsonLaws cr) :
    readExchange cr endpoint (Respond.internalServiceError cr) =
      internalError :=
  readExchange_error h (Respond.bareError .serverError) rfl

/-- A body that is not there is no token. -/
theorem readExchange_access (h : JsonLaws cr) {headers : HeaderMap} :
    readExchange cr endpoint ⟨200, headers, []⟩ =
      .error (.metadata (.decode endpoint)) := by
  have hr : fromSlice cr TokenResponseBody.fromJson [] = none := by
    rw [fromSlice]
    cases hv : cr.json.value.fromSlice [] with
    | error e => rfl
    | ok v => exact absurd hv (h.blank rfl)
  rw [readExchange_success rfl]
  show ((fromSlice cr TokenResponseBody.fromJson []).okOr _).map _ = _
  rw [hr]
  rfl

end Read

/-! ## The answers of the routes -/

section Routes

variable {endpoint : String} {r : HttpResponse}

theorem ofOption_eq_response {x : Option HttpResponse}
    (h : Answer.ofOption x = .response r) : x = some r := by
  cases x with
  | none => cases h
  | some r' =>
      cases h
      rfl

/-- An error is never served as a success. -/
theorem pollingStatus_not_success (e : AAuthProtocolError) :
    isSuccess (Respond.pollingStatus e) = false := by
  rcases pollingStatus_cases e with h | h | h | h | h
  all_goals rw [h]; rfl

/-- Copied headers have the values of the originals. -/
theorem headerValue_copy {headers : HeaderMap} (hs : headers.Single)
    {name : String} : headerValue (responseHeadersToHttp headers) name =
      headerValue headers name := by
  rw [headerValue, responseHeadersToHttp, HeaderMap.get_copy hs, headerValue]

theorem forWaiting_error {requirement : DeferRequirement}
    {status : PendingStatus} {e : AAuthError}
    (h : PendingBody.forWaiting requirement status = .error e) :
    ∃ location, requirement = .payment location := by
  cases requirement with
  | payment location => exact ⟨location, rfl⟩
  | _ => cases h

/-- A deferral is sent with its location, but for a payment. -/
theorem deferCreated_read {d : DeferCreated}
    (hr : Respond.deferCreated cr d = some r) :
    ((∃ location, d.requirement = .payment location) ∧
      r = Respond.internalServiceError cr) ∨
    (r.status = 202 ∧ headerValue r.headers "location" = some d.location) := by
  rw [Respond.deferCreated] at hr
  split at hr
  · next e hb =>
    cases hr
    exact .inl ⟨forWaiting_error hb, rfl⟩
  · next body hb =>
    simp only [Respond.insertDeferCreatedHeaders, Option.bind_eq_bind,
      Option.bind_eq_some_iff, Option.pure_def, Option.some.injEq,
      Except.toOption_eq_some, headerValueFromStr_eq_ok] at hr
    obtain ⟨_, ⟨value, hv, headers, hh, rfl⟩, rfl⟩ := hr
    have hp := insertPollHeaders_spec
      (HeaderMap.single_empty.insert _ _) hh
    have hl : headerValue headers "location" = some value := by
      obtain ⟨-, rfl⟩ := toStr_eq_some.mp hv
      rw [headerValue, hp.location, HeaderMap.get_insert_self,
        Option.bind_some, hv]
    obtain ⟨-, rfl⟩ := toStr_eq_some.mp hv
    have hsingle : (Respond.jsonWith cr 202 (headers.insert "content-type"
        "application/json") body.toJson).headers.Single :=
      (HeaderMap.single_empty.insert _ _).extend _
    refine .inr ⟨rfl, ?_⟩
    rw [← headerValue_copy hsingle]
    exact headerValue_sent cr body.toJson hp.single (by decide) hl

variable (endpoint) in
/-- How a response to an exchange is read: what it puts off is polled at its
location, and everything else is what the outcome amounts to. -/
theorem servedFlow_read (h : JsonLaws cr)
    {reply : Except ε PersonTokenFlowOutcome}
    (hr : Respond.servedFlow cr reply = .response r) :
    (∃ d, reply = .ok (.deferred d) ∧ r.status = 202 ∧
      headerValue r.headers "location" = some d.location) ∨
    r.status ≠ 202 ∧ FlowTold reply (readExchange cr endpoint r) := by
  cases reply with
  | error e =>
      cases hr
      refine .inr ⟨show 500 ≠ 202 by decide, ?_⟩
      rw [readExchange_internal h]
      exact .failed
  | ok outcome =>
      have hr := ofOption_eq_response hr
      cases outcome with
      | granted b =>
          cases hr
          exact .inr ⟨show 200 ≠ 202 by decide,
            .granted fun hb => readExchange_token h hb⟩
      | denied e =>
          cases hr
          refine .inr ⟨show 403 ≠ 202 by decide, ?_⟩
          rw [readExchange_error h e rfl]
          exact .denied
      | gone =>
          cases hr
          refine .inr ⟨show 410 ≠ 202 by decide, ?_⟩
          rw [readExchange_bare rfl]
          exact .gone
      | unauthorized =>
          cases hr
          refine .inr ⟨show 401 ≠ 202 by decide, ?_⟩
          rw [readExchange_bare rfl]
          exact .unauthorized
      | badGateway =>
          cases hr
          refine .inr ⟨show 502 ≠ 202 by decide, ?_⟩
          rw [readExchange_bare rfl]
          exact .badGateway
      | deferred d =>
          rcases deferCreated_read hr with ⟨⟨location, hp⟩, rfl⟩ | ⟨hs, hl⟩
          · refine .inr ⟨show 500 ≠ 202 by decide, ?_⟩
            rw [readExchange_internal h]
            exact .payment hp
          · exact .inl ⟨d, rfl, hs, hl⟩

variable (endpoint) in
/-- How a response to a poll is read. -/
theorem servedPoll_read (h : JsonLaws cr)
    {reply : Except ε AuthTokenPollOutcome}
    (hr : Respond.servedPoll cr reply = .response r) :
    r.status = 202 ∨
      PollTold endpoint reply (readExchange cr endpoint r) := by
  cases reply with
  | error e =>
      cases hr
      refine .inr ?_
      rw [readExchange_internal h]
      exact .failed
  | ok outcome =>
      have hr := ofOption_eq_response hr
      cases outcome with
      | gone =>
          cases hr
          refine .inr ?_
          rw [readExchange_bare rfl]
          exact .gone
      | pending w =>
          rw [Respond.pollOutcome, Respond.deferWaiting] at hr
          split at hr
          · next e hb =>
            cases hr
            obtain ⟨location, hp⟩ := forWaiting_error hb
            refine .inr ?_
            rw [readExchange_internal h]
            exact .payment hp
          · obtain ⟨headers, -, hj⟩ := Option.bind_eq_some_iff.mp hr
            cases hj
            exact .inl rfl
      | complete outcome =>
          cases outcome with
          | authToken b =>
              cases hr
              exact .inr (.token fun hb => readExchange_token h hb)
          | opaqueAccess token =>
              obtain ⟨value, -, rfl⟩ := Option.map_eq_some_iff.mp hr
              refine .inr ?_
              rw [readExchange_access h]
              exact .access
          | error e =>
              cases hr
              refine .inr ?_
              rw [readExchange_error h e (pollingStatus_not_success e)]
              exact .denied

end Routes

/-! ## An exchange that is answered so -/

/-- The request an exchange is made with. -/
def tokenPost (cr : Crates) (options : AgentOptions)
    (endpoint resourceToken : String) : AgentRequest where
  method := "POST"
  url := endpoint
  headers := (HeaderMap.empty.insert "content-type" "application/json").insert
    "prefer" "wait=45"
  body := .bytes
    (jsonBytes cr (exchangeRequestOf options resourceToken).toJson)

/-- The request a deferral is polled with. -/
def pollGet (location : String) : AgentRequest where
  method := "GET"
  url := location
  headers := HeaderMap.empty.insert "prefer" "wait=45"
  body := .none

/-- The request for the metadata of a Person Server. -/
def metadataGet (personServerUrl : String) : AgentRequest where
  method := "GET"
  url := trimEndMatches personServerUrl '/' ++ "/.well-known/aauth-person.json"
  headers := .empty
  body := .none

/-- The agent's own requests are answered as `serves` says, or are lost;
the rest of its effects answer in any way. -/
def answering (serves : AgentRequest → HttpResponse → Prop)
    (lost : AgentError → Prop) : (o : AgentOp) → agentSig.Ans o → Prop
  | .sendAgentSigned req, .ok r => serves req r
  | .sendAgentSigned _, .error e => lost e
  | _, _ => True

/-- A URL that a request can be made for. -/
def Fetchable (cr : Crates) (url : String) : Prop :=
  cr.httpUri url = .ok url ∧ ∃ u, cr.urlParse url = .ok u

/-- How an exchange stops that nothing is told of. -/
inductive Stopped (lost : AgentError → Prop) : Halt → Prop where
  | fuel : Stopped lost .fuel
  | timedOut {secs : Nat} :
      Stopped lost (.error (.deferred (.timedOut secs)))
  | lost {e : AgentError} : lost e → Stopped lost (.error e)
  | overflow :
      Stopped lost (.panicked "overflow when adding duration to instant")

/-- Calls that send nothing but requests of `P`. -/
def Sends (P : AgentRequest → Prop) (o : AgentOp) : Prop :=
  ∀ req, o = .sendAgentSigned req → P req

section Exchange

variable {serves : AgentRequest → HttpResponse → Prop}
  {lost : AgentError → Prop} {P : AgentRequest → Prop} {F : Halt → Prop}
  {α : Type} {Q : α → Prop}

/-- A task over these answers, which sends requests of `P`. -/
abbrev Agrees (serves : AgentRequest → HttpResponse → Prop)
    (lost : AgentError → Prop) (P : AgentRequest → Prop) (F : Halt → Prop)
    (Q : α → Prop) (x : AgentTask α) : Prop :=
  Delivers (answering serves lost) (Sends P) F Q x

theorem agrees_effect {o : AgentOp} (ho : Sends P o) :
    Agrees serves lost P F (fun _ => True) (effect o) :=
  Meets.bind (meets_call.mpr ⟨ho, fun _ _ => meets_ret.mpr trivial⟩)
    fun _ _ => meets_ret.mpr ⟨fun _ _ => trivial, fun _ he => by cases he⟩

theorem agrees_send (hF : ∀ e, lost e → F (.error e)) {req : AgentRequest}
    (h : P req) : Agrees serves lost P F (serves req) (sendAgentSigned req) := by
  refine Meets.bind (Q := fun a => (∀ r, a = .ok r → serves req r) ∧
    ∀ e, a = .error e → lost e) (meets_call.mpr ⟨?_, fun a ha => ?_⟩)
    fun a ha => meets_ret.mpr ⟨fun r hr => ?_, fun e he => ?_⟩
  · intro req' he
    cases he
    exact h
  · refine meets_ret.mpr ⟨?_, ?_⟩
    · rintro r rfl
      exact ha
    · rintro e rfl
      exact ha
  · cases a with
    | error e => cases hr
    | ok r' =>
        cases hr
        exact ha.1 _ rfl
  · cases a with
    | ok r => cases he
    | error e' =>
        cases he
        exact hF _ (ha.2 _ rfl)

theorem agrees_build {method url : String} {headers : HeaderMap}
    {body : RequestBody} (h : Fetchable cr url) :
    Agrees serves lost P F (fun req => req = ⟨method, url, headers, body⟩)
      (buildRequest cr method url headers body) := by
  obtain ⟨huri, u, hu⟩ := h
  rw [buildRequest, huri]
  refine Delivers.bind (Q := fun u => u = url)
    (delivers_ret.mpr ⟨?_, ?_⟩) fun u' hu' => ?_
  · intro u' h
    exact (Except.ok.inj h).symm
  · intro e h
    cases h
  subst hu'
  rw [hu]
  exact Delivers.bind (Q := fun _ => True) (delivers_ret.mpr
    ⟨fun _ _ => trivial, fun _ h => by cases h⟩) fun _ _ => delivers_pure rfl

variable {options : AgentDeferredOptions}

theorem agrees_answerClarification (hF : ∀ e, lost e → F (.error e))
    (hurl : Fetchable cr options.locationUrl)
    (hP : ∀ req : AgentRequest, req.url = options.locationUrl → P req)
    {r : HttpResponse} : Agrees serves lost P F (fun _ => True)
      (answerClarification cr options r) := by
  rw [answerClarification]
  split
  · split
    · exact delivers_pure trivial
    · refine (agrees_effect ?_).bind fun answer _ => ?_
      · intro req h
        cases h
      · refine (agrees_build hurl).bind fun req hreq => ?_
        subst hreq
        exact (agrees_send hF (hP _ rfl)).bind fun _ _ => delivers_pure trivial
  · exact delivers_pure trivial

theorem agrees_announce {r : HttpResponse} :
    Agrees serves lost P F (fun _ => True)
      (announceInteraction options r) := by
  rw [announceInteraction]
  split
  · split
    · refine agrees_effect fun req h => ?_
      cases h
    · exact delivers_pure trivial
  · exact delivers_pure trivial

/-- The loop of a poll, by induction on its rounds: it ends with the first
answer that neither puts off nor asks to try again. -/
theorem agrees_pollLoop (hF : ∀ h, Stopped lost h → F h)
    (hurl : Fetchable cr options.locationUrl)
    (hP : ∀ req : AgentRequest, req.url = options.locationUrl → P req)
    {maxPollDuration : Nat} {deadline : Instant} (fuel : Nat)
    {backoffMs : Nat} :
    Agrees serves lost P F (fun result => ∃ r,
        serves (pollGet options.locationUrl) r ∧ r.status ≠ 202 ∧
          result = splitError cr r)
      (pollLoop cr options maxPollDuration deadline fuel backoffMs) := by
  have hlost : ∀ e, lost e → F (.error e) := fun e he => hF _ (.lost he)
  induction fuel generalizing backoffMs with
  | zero => exact delivers_throw (hF _ .fuel)
  | succ fuel ih =>
      have hsleep : ∀ ms, Agrees serves lost P F (fun _ => True)
          (effect (.sleep ms)) := fun ms => agrees_effect fun req h => by
        cases h
      rw [pollLoop]
      refine (agrees_effect (o := .instantNow) fun req h => by
        cases h).bind fun now _ => ?_
      split
      · refine (agrees_build hurl).bind fun req hreq => ?_
        subst hreq
        refine (agrees_send hlost (hP _ rfl)).bind fun r hr => ?_
        show Agrees serves lost P F _ (ite (r.status ∈ terminalStatuses) _ _)
        split
        · next ht =>
          refine delivers_pure ⟨r, hr, fun h => ?_, rfl⟩
          rw [h] at ht
          exact absurd ht (by decide)
        split
        · exact (agrees_answerClarification hlost hurl hP).bind fun _ _ =>
            agrees_announce.bind fun _ _ => (hsleep _).bind fun _ _ => ih
        · next h202 =>
          split
          · exact (hsleep _).bind fun _ _ => ih
          · exact delivers_pure ⟨r, hr, h202, rfl⟩
      · exact delivers_throw (hF _ .timedOut)

theorem agrees_pollDeferredWith (hF : ∀ h, Stopped lost h → F h)
    (hurl : Fetchable cr options.locationUrl)
    (hP : ∀ req : AgentRequest, req.url = options.locationUrl → P req)
    {fuel : Nat} :
    Agrees serves lost P F (fun result => ∃ r,
        serves (pollGet options.locationUrl) r ∧ r.status ≠ 202 ∧
          result = splitError cr r)
      (pollDeferredWith cr fuel options) := by
  rw [pollDeferredWith]
  refine (agrees_effect (o := .instantNow) fun req h => by
    cases h).bind fun now _ => ?_
  refine Delivers.bind (Q := fun _ => True) (delivers_ret.mpr
    ⟨fun _ _ => trivial, fun e he => ?_⟩) fun deadline _ => ?_
  · have he : ((now.add (durationFromSecs
        (options.maxPollDurationSecs.getD 300))).okOr
          "overflow when adding duration to instant").mapError
            Halt.panicked = .error e := he
    cases hadd : now.add (durationFromSecs
        (options.maxPollDurationSecs.getD 300)) with
    | none =>
        rw [hadd] at he
        cases he
        exact hF _ .overflow
    | some deadline =>
        rw [hadd] at he
        cases he
  · have hloop : Agrees serves lost P F _ (pollLoop cr options
        (options.maxPollDurationSecs.getD 300) deadline fuel 1000) :=
      agrees_pollLoop hF hurl hP fuel
    dsimp only
    split
    · split
      · exact (agrees_effect fun req h => by cases h).bind fun _ _ => hloop
      · exact hloop
    · exact hloop

end Exchange

/-! ## What an exchange ends with -/

/-- The answers of a Person Server to one exchange: `refused` are statuses
of requests that were not accepted, `flow` the replies to an exchange that
was, and `poll` the replies to polls at a location. -/
structure Replies (ε : Type) where
  refused : Nat → Prop
  flow : Except ε PersonTokenFlowOutcome → Prop
  poll : String → Except ε AuthTokenPollOutcome → Prop

/-- What comes of an exchange that is answered so. -/
inductive Replies.Ends (R : Replies ε) (endpoint : String) :
    ExchangeEnd → Prop where
  | refused {status : Nat} : R.refused status →
      Ends R endpoint (.error (.exchange status none))
  | atOnce {reply : Except ε PersonTokenFlowOutcome} {t : ExchangeEnd} :
      R.flow reply → FlowTold reply t → Ends R endpoint t
  | later {d : DeferCreated} {reply : Except ε AuthTokenPollOutcome}
      {t : ExchangeEnd} : R.flow (.ok (.deferred d)) →
      R.poll d.location reply → PollTold endpoint reply t →
      Ends R endpoint t

/-- What the exchange may fail with. -/
def Replies.Fails (R : Replies ε) (endpoint : String)
    (lost : AgentError → Prop) (h : Halt) : Prop :=
  Stopped lost h ∨ ∃ e, h = .error e ∧ R.Ends endpoint (.error e)

/-- The requests an exchange consists of. -/
def Replies.Sent (R : Replies ε) (personServerUrl : String)
    (post req : AgentRequest) : Prop :=
  req = metadataGet personServerUrl ∨ req = post ∨
    ∃ d, R.flow (.ok (.deferred d)) ∧ req.url = d.location

/-- The responses to those requests are the routes' for these replies; a
location is an absolute URL. -/
structure Replies.Served (R : Replies ε) (cr : Crates) (post : AgentRequest)
    (serves : AgentRequest → HttpResponse → Prop) : Prop where
  post : ∀ r, serves post r →
    (∃ reply, R.flow reply ∧ Respond.servedFlow cr reply = .response r) ∨
    ∃ status, R.refused status ∧ isSuccess status = false ∧
      r = Respond.statusOnly status
  poll : ∀ d r, R.flow (.ok (.deferred d)) → serves (pollGet d.location) r →
    ∃ reply, R.poll d.location reply ∧
      Respond.servedPoll cr reply = .response r
  location : ∀ d, R.flow (.ok (.deferred d)) → Fetchable cr d.location ∧
    (startsWith d.location "http://" || startsWith d.location "https://")

section Ends

variable {R : Replies ε} {serves : AgentRequest → HttpResponse → Prop}
  {lost : AgentError → Prop} {P : AgentRequest → Prop}
  {options : AgentOptions} {resourceToken personServerUrl endpoint : String}

/-- What the agent reads off a response is what the exchange ends with. -/
theorem agrees_read {r : HttpResponse}
    (h : R.Ends endpoint (readExchange cr endpoint r)) :
    Agrees serves lost P (R.Fails endpoint lost)
      (fun result => R.Ends endpoint (.ok result))
      (if isSuccess r.status then tokenOfResponse cr endpoint r
        else throw (.error (.exchange r.status (splitError cr r).error))) := by
  split
  · next hs =>
    rw [readExchange_success hs] at h
    rw [tokenOfResponse]
    cases hb : fromSlice cr TokenResponseBody.fromJson r.body with
    | none =>
        rw [hb] at h
        refine Delivers.bind (Q := fun _ => False) (delivers_ret.mpr
          ⟨fun a ha => ?_, fun e he => ?_⟩) fun _ hf => hf.elim
        · cases ha
        · cases he
          exact .inr ⟨_, rfl, h⟩
    | some b =>
        rw [hb] at h
        refine Delivers.bind (Q := fun b' => b' = b) (delivers_ret.mpr
          ⟨fun a ha => (Except.ok.inj ha).symm, fun e he => ?_⟩)
          fun b' hb' => ?_
        · cases he
        · subst hb'
          exact delivers_pure h
  · next hs =>
    rw [readExchange_failure (Bool.eq_false_iff.mpr hs)] at h
    exact delivers_throw (.inr ⟨_, rfl, h⟩)

theorem not_success_of_accepted {status : Nat}
    (h : isSuccess status = false) : status ≠ 202 := by
  intro h202
  rw [h202] at h
  cases h

theorem agrees_location {F : Halt → Prop} {r : HttpResponse}
    {location : String}
    (h : headerValue r.headers "location" = some location) :
    Agrees serves lost P F (fun l => l = location) (locationHeader r) := by
  rw [locationHeader, h]
  refine delivers_ret.mpr ⟨fun l hl => (Except.ok.inj hl).symm, ?_⟩
  intro e he
  cases he

/-- An exchange that a Person Server's routes answer ends with what they
say of it: the token of a grant, the error of a denial, and for what was
put off the first reply that says more. -/
theorem agrees_requestToken (laws : JsonLaws cr) {fuel : Nat}
    {metadata : PersonServerMetadata}
    (hs : R.Served cr
      (tokenPost cr options metadata.tokenEndpoint resourceToken) serves)
    (hurl : Fetchable cr metadata.tokenEndpoint) :
    Agrees serves lost
      (R.Sent personServerUrl
        (tokenPost cr options metadata.tokenEndpoint resourceToken))
      (R.Fails metadata.tokenEndpoint lost)
      (fun result => R.Ends metadata.tokenEndpoint (.ok result))
      (requestToken cr fuel options personServerUrl resourceToken
        metadata) := by
  rw [requestToken]
  refine (agrees_build hurl).bind fun req hreq => ?_
  subst hreq
  refine (agrees_send (fun e he => .inl (.lost he)) (.inr (.inl rfl))).bind
    fun r hr => ?_
  rcases hs.post r hr with ⟨reply, hflow, hserved⟩ |
    ⟨status, hrefused, hstatus, rfl⟩
  · rcases servedFlow_read metadata.tokenEndpoint laws hserved
      with ⟨d, rfl, h202, hlocation⟩ | ⟨hne, htold⟩
    · rw [if_pos h202]
      obtain ⟨hfetch, hhttp⟩ := hs.location d hflow
      have hresolve : resolveUrl cr personServerUrl d.location = d.location :=
        if_pos hhttp
      refine Delivers.bind (Q := fun location => location = d.location)
        (agrees_location hlocation) fun location hl => ?_
      subst hl
      rw [hresolve]
      refine (agrees_pollDeferredWith (fun _ h => .inl h) hfetch
        fun req h => .inr (.inr ⟨d, hflow, h⟩)).bind fun result hresult => ?_
      obtain ⟨r', hr', hne, rfl⟩ := hresult
      obtain ⟨reply, hpoll, hserved⟩ := hs.poll d r' hflow hr'
      rcases servedPoll_read metadata.tokenEndpoint laws hserved with
        h202 | htold
      · exact absurd h202 hne
      · exact agrees_read (.later hflow hpoll htold)
    · rw [if_neg hne]
      exact agrees_read (.atOnce hflow htold)
  · rw [if_neg (show (Respond.statusOnly status).status ≠ 202 from
      not_success_of_accepted hstatus)]
    refine agrees_read ?_
    rw [readExchange_bare hstatus]
    exact .refused hrefused

/-- The metadata names the token endpoint. -/
theorem metadata_read (laws : JsonLaws cr) {state : PersonServerState} :
    fromSlice cr PersonServerMetadata.fromJson
      (personMetadataHandler cr state).body = some
        ⟨trimEndMatches state.config.pendingBaseUrl '/' ++ "/aauth/token"⟩ := by
  have hj : ∀ m ∈ [("issuer", Json.str state.config.personServerUrl),
      ("token_endpoint", .str (trimEndMatches state.config.pendingBaseUrl '/'
        ++ "/aauth/token")),
      ("jwks_uri", .str state.personJwksUri),
      ("interaction_endpoint", .str state.config.interactionUrl)],
      IsJson cr m.2 :=
    isJson_cons (laws.str _) (isJson_cons (laws.str _)
      (isJson_cons (laws.str _) (isJson_cons (laws.str _) isJson_nil)))
  refine fromSlice_of_tree laws (laws.obj hj) ?_
  rw [PersonServerMetadata.fromJson, Json.fields_obj]
  · rfl
  · show ["issuer", "token_endpoint", "jwks_uri",
      "interaction_endpoint"].Nodup
    decide

theorem agrees_fetchMetadata {F : Halt → Prop}
    (hF : ∀ e, lost e → F (.error e)) (hP : P (metadataGet personServerUrl))
    (hurl : Fetchable cr (metadataGet personServerUrl).url)
    {metadata : PersonServerMetadata} (hvalid : metadata.validate = .ok ())
    (hs : ∀ r, serves (metadataGet personServerUrl) r →
      isSuccess r.status = true ∧
        fromSlice cr PersonServerMetadata.fromJson r.body = some metadata) :
    Agrees serves lost P F (fun m => m = metadata)
      (fetchMetadata cr personServerUrl) := by
  rw [fetchMetadata]
  refine (agrees_build hurl).bind fun req hreq => ?_
  subst hreq
  refine (agrees_send hF hP).bind fun r hr => ?_
  obtain ⟨hsuccess, hread⟩ := hs r hr
  rw [if_neg (by rw [hsuccess]; decide), hread]
  refine Delivers.bind (Q := fun m => m = metadata) (delivers_ret.mpr
    ⟨fun m hm => (Except.ok.inj hm).symm, fun e he => ?_⟩) fun m hm => ?_
  · cases he
  subst hm
  rw [hvalid]
  refine Delivers.bind (Q := fun _ => True) (delivers_ret.mpr
    ⟨fun _ _ => trivial, fun e he => ?_⟩) fun _ _ => delivers_pure rfl
  cases he

/-- The same from the discovery of the endpoint on. -/
theorem agrees_exchangeTokenWith (laws : JsonLaws cr) {fuel : Nat}
    (hs : R.Served cr (tokenPost cr options endpoint resourceToken) serves)
    (hurl : Fetchable cr endpoint) (hendpoint : endpoint.isEmpty = false)
    (hmeta : Fetchable cr (metadataGet personServerUrl).url)
    (hconfigured : ∀ m ∈ options.personServerMetadata,
      m.tokenEndpoint = endpoint)
    (hserved : ∀ r, serves (metadataGet personServerUrl) r →
      isSuccess r.status = true ∧ fromSlice cr
        PersonServerMetadata.fromJson r.body = some ⟨endpoint⟩) :
    Agrees serves lost
      (R.Sent personServerUrl
        (tokenPost cr options endpoint resourceToken))
      (R.Fails endpoint lost) (fun result => R.Ends endpoint (.ok result))
      (exchangeTokenWith cr fuel options personServerUrl
        resourceToken) := by
  have hvalid : PersonServerMetadata.validate ⟨endpoint⟩ = .ok () :=
    if_neg (by rw [hendpoint]; decide)
  have hrequest : ∀ m : PersonServerMetadata, m.tokenEndpoint = endpoint →
      Agrees serves lost
        (R.Sent personServerUrl
          (tokenPost cr options endpoint resourceToken))
        (R.Fails endpoint lost) (fun result => R.Ends endpoint (.ok result))
        (requestToken cr fuel options personServerUrl resourceToken m) := by
    intro m hm
    subst hm
    exact agrees_requestToken laws hs hurl
  rw [exchangeTokenWith]
  cases hc : options.personServerMetadata with
  | some m => exact hrequest m (hconfigured m hc)
  | none =>
      refine (agrees_fetchMetadata (fun e he => .inl (.lost he))
        (.inl rfl) hmeta hvalid hserved).bind fun m hm => ?_
      exact hrequest m (by rw [hm])

end Ends

end Aauth
