import Aauth.Proofs.Deadlines

/-!
# Which URLs the agent can be made to request

The agent builds its own requests with two `expect`s: the text has to be a
URI, and an absolute URL. The texts come from the other side: the `Location`
of a `202`, the token endpoint of the Person Server's metadata, the Person
Server a token names. Each function panics for exactly those texts that are
no absolute URL (`Requestable`), and a call of the client does not panic when
none of the answers it gets names one that is not.
-/

namespace Aauth

open Effect Except Text

section Calm

variable {σ α β : Type} {W : World agentSig σ} {cr : Crates}

/-- A task that never panics at an `expect`, and what its value satisfies. -/
def Calm (W : World agentSig σ) (t : AgentTask α) (post : α → Prop) : Prop :=
  Triple W (fun _ => True) t (fun a _ => post a) fun h _ => ¬ Expected h

theorem Calm.bind {x : AgentTask α} {f : α → AgentTask β} {mid : α → Prop}
    {post : β → Prop} (hx : Calm W x mid)
    (hf : ∀ a, mid a → Calm W (f a) post) : Calm W (x >>= f) post :=
  Triple.bind hx fun a s hs => hf a hs s trivial

theorem calm_pure {a : α} {post : α → Prop} (h : post a) :
    Calm W (pure a) post := fun _ _ => h

theorem calm_throw {e : Halt} {post : α → Prop} (h : ¬ Expected e) :
    Calm W (throw e : AgentTask α) post := fun _ _ => h

theorem Calm.mono {x : AgentTask α} {post post' : α → Prop}
    (h : Calm W x post) (hpost : ∀ a, post a → post' a) :
    Calm W x post' :=
  Triple.strengthen h (fun a _ => hpost a) fun _ _ he => he

theorem not_expected_error (e : AgentError) : ¬ Expected (.error e) := by
  intro h
  rcases h with h | h
  · cases h
  · cases h

theorem not_expected_panicked {m : String} (h : m ≠ "valid http request")
    (h' : m ≠ "valid reqwest request") : ¬ Expected (.panicked m) := by
  intro he
  rcases he with he | he
  · exact h (Halt.panicked.inj he)
  · exact h' (Halt.panicked.inj he)

theorem not_expected_fuel : ¬ Expected .fuel := by
  intro h
  rcases h with h | h
  · cases h
  · cases h

theorem calm_ofResult {ε : Type} {f : ε → Halt} {r : Except ε α}
    (hf : ∀ e, r = .error e → ¬ Expected (f e)) :
    Calm W (ofResult f r) fun a => r = .ok a := by
  intro s _
  cases r with
  | ok a => exact rfl
  | error e => exact hf e rfl

theorem calm_ofError {ε : Type} {f : ε → AgentError} {r : Except ε α} :
    Calm W (ofResult (.error ∘ f) r) fun a => r = .ok a :=
  calm_ofResult fun e _ => not_expected_error (f e)

theorem calm_ofAauth {r : AAuthResult α} :
    Calm W (ofAauth r) fun a => r = .ok a :=
  calm_ofResult fun e _ => not_expected_error (.aauth e)

theorem calm_effect {o : AgentOp} {post : agentSig.Ans o → Prop}
    (h : ∀ s r s', W s o r s' → post r) : Calm W (effect o) post :=
  fun s _ => ⟨trivial, fun r s' hw => h s r s' hw⟩

theorem calm_effect_any {o : AgentOp} : Calm W (effect o) fun _ => True :=
  calm_effect fun _ _ _ _ => trivial

theorem calm_send {req : AgentRequest} {post : HttpResponse → Prop}
    (h : ∀ s r s', W s (.sendAgentSigned req) (.ok r) s' → post r) :
    Calm W (sendAgentSigned req) post := by
  refine fun s _ => ⟨trivial, fun x s' hw => ?_⟩
  cases x with
  | ok r => exact h s r s' hw
  | error e => exact not_expected_error e

theorem calm_send_any {req : AgentRequest} :
    Calm W (sendAgentSigned req) fun _ => True :=
  calm_send fun _ _ _ _ => trivial

theorem calm_buildRequest {method uri : String} {headers : HeaderMap}
    {body : RequestBody} (hurl : Requestable cr uri) :
    Calm W (buildRequest cr method uri headers body) fun req =>
      ∃ url, req = ⟨method, url, headers, body⟩ := by
  rcases buildRequest_cases cr method uri headers body with
    ⟨-, url, hreq⟩ | ⟨hbad, -⟩
  · rw [hreq]
    exact calm_pure ⟨url, rfl⟩
  · exact absurd hurl hbad

theorem Calm.not_expected {t : AgentTask α} {post : α → Prop}
    (h : Calm W t post) {s s' : σ} {e : Halt}
    (hx : Exec W s t.run (.error e) s') : ¬ Expected e :=
  Triple.exec h trivial hx

/-! ## Polling -/

theorem calm_answerClarification {options : AgentDeferredOptions}
    {response : HttpResponse} (hurl : Requestable cr options.locationUrl) :
    Calm W (answerClarification cr options response) fun _ => True := by
  rw [answerClarification]
  split
  · split
    · exact calm_pure trivial
    · refine calm_effect_any.bind fun answer _ => ?_
      refine (calm_buildRequest hurl).bind fun req _ => ?_
      exact calm_send_any.bind fun _ _ => calm_pure trivial
  · exact calm_pure trivial

theorem calm_announceInteraction {options : AgentDeferredOptions}
    {response : HttpResponse} :
    Calm W (announceInteraction options response) fun _ => True := by
  rw [announceInteraction]
  split
  · split
    · exact calm_effect_any
    · exact calm_pure trivial
  · exact calm_pure trivial

theorem calm_pollLoop {options : AgentDeferredOptions}
    (hurl : Requestable cr options.locationUrl)
    {maxPollDuration fuel b : Nat} {deadline : Instant} :
    Calm W (pollLoop cr options maxPollDuration deadline fuel b)
      fun _ => True := by
  induction fuel generalizing b with
  | zero => exact calm_throw not_expected_fuel
  | succ fuel ih =>
      rw [pollLoop]
      refine calm_effect_any.bind fun now _ => ?_
      split
      · refine (calm_buildRequest hurl).bind fun req _ => ?_
        refine calm_send_any.bind fun response _ => ?_
        dsimp only
        split
        · exact calm_pure trivial
        · split
          · refine (calm_answerClarification hurl).bind fun _ _ => ?_
            refine calm_announceInteraction.bind fun _ _ => ?_
            exact calm_effect_any.bind fun _ _ => ih
          · split
            · exact calm_effect_any.bind fun _ _ => ih
            · exact calm_pure trivial
      · exact calm_throw (not_expected_error _)

theorem calm_pollDeferredWith {options : AgentDeferredOptions} {fuel : Nat}
    (hurl : Requestable cr options.locationUrl) :
    Calm W (pollDeferredWith cr fuel options) fun _ => True := by
  rw [pollDeferredWith]
  refine calm_effect_any.bind fun now _ => ?_
  refine (calm_ofResult fun m hm => ?_).bind fun deadline _ => ?_
  · have hoverflow : m = "overflow when adding duration to instant" := by
      cases hd : Instant.add now (durationFromSecs
          (options.maxPollDurationSecs.getD 300)) with
      | none =>
          rw [hd] at hm
          cases hm
          rfl
      | some deadline =>
          rw [hd] at hm
          cases hm
    rw [hoverflow]
    exact not_expected_panicked (by decide) (by decide)
  · split
    · split
      · exact calm_effect_any.bind fun _ _ => calm_pollLoop hurl
      · exact calm_pollLoop hurl
    · exact calm_pollLoop hurl

theorem calm_locationHeader {response : HttpResponse} :
    Calm W (locationHeader response) fun location =>
      headerValue response.headers "location" = some location := by
  refine (calm_ofError (f := .deferred)).mono fun location h => ?_
  exact Option.okOr_eq_ok.mp h

theorem calm_pollResponse {options : AgentOptions} {fuel : Nat}
    {response : HttpResponse}
    (hurl : ∀ location, headerValue response.headers "location" =
      some location → Requestable cr location) :
    Calm W (pollResponse cr fuel options response) fun _ => True := by
  refine calm_locationHeader.bind fun location hl => ?_
  exact (calm_pollDeferredWith (hurl location hl)).bind fun _ _ =>
    calm_pure trivial

/-! ## Token exchange -/

/-- Where the metadata of a Person Server is. -/
def personMetadataUrl (personServerUrl : String) : String :=
  trimEndMatches personServerUrl '/' ++ "/.well-known/aauth-person.json"

theorem calm_fetchMetadata {personServerUrl : String}
    {possible : HttpResponse → Prop}
    (hW : ∀ s req r s', W s (.sendAgentSigned req) (.ok r) s' → possible r)
    (hurl : Requestable cr (personMetadataUrl personServerUrl)) :
    Calm W (fetchMetadata cr personServerUrl) fun m => ∃ r, possible r ∧
      fromSlice cr PersonServerMetadata.fromJson r.body = some m := by
  refine (calm_buildRequest hurl).bind fun req _ => ?_
  refine (calm_send (hW · req)).bind fun r hr => ?_
  split
  · exact calm_throw (not_expected_error _)
  · refine (calm_ofError (f := .metadata)).bind fun m hm => ?_
    refine (calm_ofError (f := .metadata)).bind fun _ _ => ?_
    exact calm_pure ⟨r, hr, Option.okOr_eq_ok.mp hm⟩

theorem calm_tokenOfResponse {endpoint : String} {response : HttpResponse} :
    Calm W (tokenOfResponse cr endpoint response) fun _ => True :=
  (calm_ofError (f := .metadata)).bind fun _ _ => calm_pure trivial

theorem calm_requestToken {options : AgentOptions} {fuel : Nat}
    {personServerUrl resourceToken : String} {metadata : PersonServerMetadata}
    {possible : HttpResponse → Prop}
    (hW : ∀ s req r s', req.method = "POST" →
      req.headers.get "prefer" = some "wait=45" →
      W s (.sendAgentSigned req) (.ok r) s' → possible r)
    (hurl : Requestable cr metadata.tokenEndpoint)
    (hpoll : ∀ r location, possible r → r.status = 202 →
      headerValue r.headers "location" = some location →
      Requestable cr (resolveUrl cr personServerUrl location)) :
    Calm W (requestToken cr fuel options personServerUrl resourceToken
      metadata) fun _ => True := by
  rw [requestToken]
  refine (calm_buildRequest hurl).bind fun req hreq => ?_
  obtain ⟨url, rfl⟩ := hreq
  refine (calm_send fun s r s' => hW s _ r s' rfl rfl).bind fun r hr => ?_
  split
  · next h202 =>
    refine calm_locationHeader.bind fun location hl => ?_
    refine (calm_pollDeferredWith (hpoll r location hr h202 hl)).bind
      fun result _ => ?_
    split
    · exact calm_tokenOfResponse
    · exact calm_throw (not_expected_error _)
  · split
    · exact calm_tokenOfResponse
    · exact calm_throw (not_expected_error _)

/-! ## Which texts a function panics for -/

end Calm

section Routes

open Polling

variable {cr : Crates}

/-- It ends with the panic of an `expect`. -/
def Panics {α : Type} (result : Except Halt α) : Prop :=
  ∃ h, result = .error h ∧ Expected h

/-- No run panics at an `expect`, on an honest clock and with answers that
`env` allows. -/
def NeverPanics {α : Type} (env : (o : AgentOp) → agentSig.Ans o → Prop)
    (t : AgentTask α) : Prop :=
  ∀ begun result q, Exec (agentTime env) (begun, []) t.run result q →
    ¬ Panics result

theorem Calm.neverPanics {α : Type}
    {env : (o : AgentOp) → agentSig.Ans o → Prop} {t : AgentTask α}
    {post : α → Prop} (h : Calm (agentTime env) t post) :
    NeverPanics env t := by
  intro begun result q hx hp
  obtain ⟨e, rfl, he⟩ := hp
  exact h.not_expected hx he

/-- A poll of a text that is no URL panics at its first request. -/
theorem exec_poll_panics {env : (o : AgentOp) → agentSig.Ans o → Prop}
    (options : AgentDeferredOptions) (l : List AgentEvent)
    (hclock : env .instantNow (0 : Nat))
    (htell : ∀ url code, env (.onInteraction url code) ())
    (hurl : ¬ Requestable cr options.locationUrl)
    (hpos : 0 < pollLimit options)
    (hlimit : pollLimit options < INSTANT_LIMIT) (fuel : Nat) :
    ∃ e q, Expected e ∧ Exec (agentTime env) (0, l)
      (pollDeferredWith cr (fuel + 1) options).run (.error e) q := by
  obtain ⟨l', -, hbegin⟩ := exec_pollDeferredWith cr (fuel + 1) l hlimit
    hclock htell
  rcases buildRequest_cases cr "GET" options.locationUrl
    (HeaderMap.empty.insert "prefer" "wait=45") .none
    with ⟨h, -⟩ | ⟨-, m, hreq, hm⟩
  · exact absurd h hurl
  · have hround : Exec (agentTime env)
        (0, ⟨.instantNow, (0 : Nat)⟩ :: l')
        (pollRound cr options 1000).run (.error (.panicked m))
        (0, ⟨.instantNow, (0 : Nat)⟩ :: l') := by
      rw [pollRound, hreq]
      exact .ret
    have hloop : Exec (agentTime env) (0, l')
        (agentLoop cr options (0 + pollLimit options) (fuel + 1)).run
        (.error (.panicked m)) (0, ⟨.instantNow, (0 : Nat)⟩ :: l') := by
      rw [agentLoop, deadlineLoop]
      refine Exec.bind_ok (exec_timed_effect hclock (.inr rfl) rfl) ?_
      rw [if_pos (by omega)]
      exact Exec.bind_error hround
    exact ⟨_, _, hm, hbegin _ _ hloop⟩

/-- The limit of a poll that is made at all. -/
def Polls (maxPollDurationSecs : Option Nat) : Prop :=
  0 < durationFromSecs (maxPollDurationSecs.getD 300) ∧
    durationFromSecs (maxPollDurationSecs.getD 300) < INSTANT_LIMIT

theorem poll_neverPanics_iff {options : AgentDeferredOptions} {fuel : Nat}
    (hpolls : Polls options.maxPollDurationSecs) :
    NeverPanics (fun _ _ => True)
        (pollDeferredWith cr (fuel + 1) options) ↔
      Requestable cr options.locationUrl := by
  constructor
  · intro h
    by_contra hurl
    obtain ⟨e, q, he, hx⟩ := @exec_poll_panics cr (fun _ _ => True) options []
      trivial (fun _ _ => trivial) hurl hpolls.1 hpolls.2 fuel
    exact h _ _ _ hx ⟨e, rfl, he⟩
  · intro hurl
    exact (calm_pollDeferredWith hurl).neverPanics

theorem pollResponse_neverPanics_iff {options : AgentOptions} {fuel : Nat}
    {response : HttpResponse} (hpolls : Polls options.maxPollDurationSecs) :
    NeverPanics (fun _ _ => True)
        (pollResponse cr (fuel + 1) options response) ↔
      ∀ location, headerValue response.headers "location" = some location →
        Requestable cr location := by
  constructor
  · intro h location hl
    by_contra hurl
    obtain ⟨e, q, he, hx⟩ := @exec_poll_panics cr (fun _ _ => True)
      (.fromAgentOptions options location (interactionFromResponse response))
      [] trivial (fun _ _ => trivial) hurl hpolls.1 hpolls.2 fuel
    have hlocation : locationHeader response = pure location := by
      rw [locationHeader, hl]
      rfl
    refine h 0 (.error e) q ?_ ⟨e, rfl, he⟩
    rw [pollResponse, hlocation]
    exact Exec.bind_ok .ret (Exec.bind_error hx)
  · intro hurl
    exact (calm_pollResponse hurl).neverPanics

theorem fetchMetadata_neverPanics_iff {personServerUrl : String} :
    NeverPanics (fun _ _ => True) (fetchMetadata cr personServerUrl) ↔
      Requestable cr (personMetadataUrl personServerUrl) := by
  constructor
  · intro h
    rcases buildRequest_cases cr "GET" (personMetadataUrl personServerUrl)
      HeaderMap.empty .none with ⟨hurl, -⟩ | ⟨-, m, hreq, hm⟩
    · exact hurl
    · refine absurd ⟨_, rfl, hm⟩ (h 0 (.error (.panicked m)) (0, []) ?_)
      rw [fetchMetadata]
      show Exec _ _ (ExceptT.run (buildRequest cr "GET"
        (personMetadataUrl personServerUrl) _ _ >>= _)) _ _
      rw [hreq]
      exact Exec.bind_error .ret
  · intro hurl
    have hany : ∀ (q : Instant × List AgentEvent) req r q',
        agentTime (fun _ _ => True) q (.sendAgentSigned req) (.ok r) q' →
          True := fun _ _ _ _ _ => trivial
    exact (calm_fetchMetadata hany hurl).neverPanics

/-- The token endpoint answers every request for a token with `r`. -/
def EndpointAnswers (r : HttpResponse) :
    (o : AgentOp) → agentSig.Ans o → Prop
  | .sendAgentSigned req, x =>
      req.method = "POST" → req.headers.get "prefer" = some "wait=45" →
        x = .ok r
  | _, _ => True

theorem requestToken_neverPanics_iff {options : AgentOptions} {fuel : Nat}
    {personServerUrl resourceToken : String} {metadata : PersonServerMetadata}
    {r : HttpResponse} (hpolls : Polls options.maxPollDurationSecs) :
    NeverPanics (EndpointAnswers r) (requestToken cr (fuel + 1) options
        personServerUrl resourceToken metadata) ↔
      Requestable cr metadata.tokenEndpoint ∧ (r.status = 202 →
        ∀ location, headerValue r.headers "location" = some location →
          Requestable cr (resolveUrl cr personServerUrl location)) := by
  constructor
  · intro h
    rcases buildRequest_cases cr "POST" metadata.tokenEndpoint
      ((HeaderMap.empty.insert "content-type"
        "application/json").insert "prefer" "wait=45")
      (.bytes (jsonBytes cr (exchangeRequestOf options resourceToken).toJson))
      with ⟨hurl, url, hreq⟩ | ⟨-, m, hreq, hm⟩
    · refine ⟨hurl, fun h202 location hl => ?_⟩
      by_contra hbad
      have hsend : ∀ req, Exec (agentTime (EndpointAnswers r)) (0, [])
          (sendAgentSigned req).run (.ok r)
          (0, [⟨.sendAgentSigned req, .ok r⟩]) :=
        fun req => exec_timed_send fun _ _ => rfl
      obtain ⟨e, q, he, hx⟩ := @exec_poll_panics cr (EndpointAnswers r)
        (.fromAgentOptions options (resolveUrl cr personServerUrl location)
          (interactionFromResponse r)) [⟨.sendAgentSigned ⟨"POST", url,
            (HeaderMap.empty.insert "content-type"
              "application/json").insert "prefer" "wait=45",
            .bytes (jsonBytes cr
              (exchangeRequestOf options resourceToken).toJson)⟩, .ok r⟩]
        trivial (fun _ _ => trivial) hbad hpolls.1 hpolls.2 fuel
      have hlocation : locationHeader r = pure location := by
        rw [locationHeader, hl]
        rfl
      refine h 0 (.error e) q ?_ ⟨e, rfl, he⟩
      rw [requestToken, hreq]
      refine Exec.bind_ok .ret (Exec.bind_ok (hsend _) ?_)
      rw [if_pos h202, hlocation]
      exact Exec.bind_ok .ret (Exec.bind_error hx)
    · refine absurd ⟨_, rfl, hm⟩ (h 0 (.error (.panicked m)) (0, []) ?_)
      rw [requestToken, hreq]
      exact Exec.bind_error .ret
  · intro hurl
    obtain ⟨hurl, hpoll⟩ := hurl
    have hanswer : ∀ (q : Instant × List AgentEvent) req x q',
        req.method = "POST" → req.headers.get "prefer" = some "wait=45" →
        agentTime (EndpointAnswers r) q (.sendAgentSigned req) (.ok x) q' →
          x = r := by
      intro q req x q' hm hp hw
      obtain ⟨⟨hw, -⟩, -⟩ := hw
      exact Except.ok.inj (hw hm hp)
    refine (calm_requestToken hanswer hurl ?_).neverPanics
    intro x location hx h202 hl
    cases hx
    exact hpoll h202 location hl

/-! ## A whole call -/

/-- A Person Server the agent may go to. -/
def GoesTo (cr : Crates) (options : AgentOptions)
    (env : (o : AgentOp) → agentSig.Ans o → Prop) (personServerUrl : String) :
    Prop :=
  ∃ material agentJwt, env .keyMaterial (.ok material) ∧
    agentJwtFromSignatureKey material.signatureKey = .ok agentJwt ∧
    resolvePersonServerUrl cr options.personServerUrl agentJwt =
      .ok personServerUrl

/-- Every URL that the options or an answer name is one that a request can
be made to, as its route resolves it. -/
structure NamesUrls (cr : Crates) (options : AgentOptions)
    (env : (o : AgentOp) → agentSig.Ans o → Prop) : Prop where
  /-- The `202` of the resource, as it stands. -/
  deferred : ∀ req attempt r location,
    env (.sendWrapped req attempt) (.ok r) → r.status = 202 →
    headerValue r.headers "location" = some location →
    Requestable cr location
  /-- That of the authorization endpoint, as it stands. -/
  authorized : ∀ req r location, req.headers.get "prefer" = none →
    env (.sendAgentSigned req) (.ok r) → r.status = 202 →
    headerValue r.headers "location" = some location →
    Requestable cr location
  /-- That of the token endpoint, against the Person Server's URL. -/
  exchanged : ∀ req r location personServerUrl,
    GoesTo cr options env personServerUrl → req.method = "POST" →
    req.headers.get "prefer" = some "wait=45" →
    env (.sendAgentSigned req) (.ok r) → r.status = 202 →
    headerValue r.headers "location" = some location →
    Requestable cr (resolveUrl cr personServerUrl location)
  /-- The token endpoint of configured and of fetched metadata. -/
  configured : ∀ m, options.personServerMetadata = some m →
    Requestable cr m.tokenEndpoint
  fetched : ∀ req r m, env (.sendAgentSigned req) (.ok r) →
    fromSlice cr PersonServerMetadata.fromJson r.body = some m →
    Requestable cr m.tokenEndpoint
  /-- Where metadata is fetched from. -/
  personServer : options.personServerMetadata = none → ∀ personServerUrl,
    GoesTo cr options env personServerUrl →
    Requestable cr (personMetadataUrl personServerUrl)

end Routes

section Agent

variable {cr : Crates} {options : AgentOptions} {fuel : Nat} {origin : String}
  {env : (o : AgentOp) → agentSig.Ans o → Prop}

/-- The panics of the lock itself. -/
theorem lockStep_error {s s' : AgentState} {o : AgentAuthOp} {m : String}
    (h : lockStep s o (.error m) s') :
    m = "PoisonError" ∨ m = "overflow when adding duration to instant" := by
  rw [lockStep] at h
  by_cases hp : s.poisoned = true
  · rw [if_pos hp] at h
    exact .inl (Except.error.inj h.1)
  · rw [if_neg hp] at h
    obtain ⟨order, now, -, ha, -⟩ := h
    refine .inr ?_
    cases o with
    | recordAuthToken origin personServer token expiresIn =>
        rw [AgentAuth.apply] at ha
        cases hr : s.auth.recordAuthToken now origin personServer token
            expiresIn with
        | none =>
            rw [hr] at ha
            exact Except.error.inj (Prod.mk.inj ha).1
        | some a =>
            rw [hr] at ha
            cases ha
    | _ => cases (Prod.mk.inj ha).1

theorem calm_lock {o : AgentAuthOp} {post : o.Ans → Prop}
    (h : ∀ s x s', lockStep s o (.ok x) s' → post x) :
    Calm (agentWorld env) (lock o) post := by
  refine fun s _ => ⟨trivial, fun r s' hw => ?_⟩
  cases r with
  | ok x => exact h s x s' hw
  | error m =>
      rcases lockStep_error hw with rfl | rfl
      · exact not_expected_panicked (by decide) (by decide)
      · exact not_expected_panicked (by decide) (by decide)

theorem calm_lock_any {o : AgentAuthOp} :
    Calm (agentWorld env) (lock o) fun _ => True :=
  calm_lock fun _ _ _ _ => trivial

theorem calm_observe {attempt : AgentAuthAttempt} {response : HttpResponse} :
    Calm (agentWorld env) (observe origin attempt response) fun step =>
      step = .pollDeferred → response.status = 202 := by
  have hlock : Calm (agentWorld env) (lock (.observeResponse origin attempt
      response.status response.headers)) fun step =>
      step = .ok .pollDeferred → response.status = 202 := by
    refine calm_lock fun s x s' hl hx => ?_
    rw [hx] at hl
    exact observe_pollDeferred hl
  refine hlock.bind fun step hstep => ?_
  refine calm_ofAauth.mono fun x hx hpoll => hstep ?_
  rw [hx, hpoll]

theorem calm_agentSend {req : AgentRequest} :
    Calm (agentWorld env) (sendAgentSigned req) fun r =>
      env (.sendAgentSigned req) (.ok r) :=
  calm_send fun _ _ _ hw => hw.1

theorem calm_exchangeTokenWith {personServerUrl resourceToken : String}
    (h : NamesUrls cr options env) (hps : GoesTo cr options env personServerUrl) :
    Calm (agentWorld env) (exchangeTokenWith cr fuel options personServerUrl
      resourceToken) fun _ => True := by
  have hrequest : ∀ m, Requestable cr m.tokenEndpoint →
      Calm (agentWorld env) (requestToken cr fuel options personServerUrl
        resourceToken m) fun _ => True := by
    intro m hm
    have hanswer : ∀ (s : AgentState) req r s', req.method = "POST" →
        req.headers.get "prefer" = some "wait=45" →
        agentWorld env s (.sendAgentSigned req) (.ok r) s' →
        ∃ req, req.method = "POST" ∧
          req.headers.get "prefer" = some "wait=45" ∧
          env (.sendAgentSigned req) (.ok r) :=
      fun s req r s' hmethod hp hw => ⟨req, hmethod, hp, hw.1⟩
    refine calm_requestToken hanswer hm ?_
    intro r location hr h202 hl
    obtain ⟨req, hmethod, hp, he⟩ := hr
    exact h.exchanged req r location personServerUrl hps hmethod hp he h202 hl
  rw [exchangeTokenWith]
  cases hm : options.personServerMetadata with
  | some m =>
      exact hrequest m (h.configured m hm)
  | none =>
      have hanswer : ∀ (s : AgentState) req r s',
          agentWorld env s (.sendAgentSigned req) (.ok r) s' →
          ∃ req, env (.sendAgentSigned req) (.ok r) :=
        fun s req r s' hw => ⟨req, hw.1⟩
      refine (calm_fetchMetadata hanswer
        (h.personServer hm personServerUrl hps)).bind fun m hr => ?_
      obtain ⟨r, ⟨req, he⟩, hj⟩ := hr
      exact hrequest m (h.fetched req r m he hj)

theorem calm_exchangeChallenge {resourceToken : String}
    (h : NamesUrls cr options env) :
    Calm (agentWorld env) (exchangeChallenge cr fuel options origin
      resourceToken) fun _ => True := by
  rw [exchangeChallenge]
  have hkey : Calm (agentWorld env) (effect .keyMaterial) fun x =>
      env .keyMaterial x := calm_effect fun _ _ _ hw => hw.1
  refine hkey.bind fun material henv => ?_
  refine calm_ofAauth.bind fun material hmaterial => ?_
  refine calm_ofAauth.bind fun agentJwt hjwt => ?_
  refine calm_ofAauth.bind fun parsed _ => ?_
  refine (calm_ofResult fun e _ => not_expected_error e).bind
    fun agentSub _ => ?_
  refine calm_ofAauth.bind fun agentJkt _ => ?_
  refine calm_effect_any.bind fun verify _ => ?_
  refine calm_ofAauth.bind fun claims _ => ?_
  refine calm_ofAauth.bind fun personServerUrl hps => ?_
  rw [hmaterial] at henv
  refine (calm_exchangeTokenWith h ⟨material, agentJwt, henv, hjwt,
    hps⟩).bind fun result _ => ?_
  refine calm_effect_any.bind fun verify _ => ?_
  exact calm_ofAauth.bind fun _ _ => calm_pure trivial

theorem calm_tryProactiveAuthorize (h : NamesUrls cr options env) :
    Calm (agentWorld env) (tryProactiveAuthorize cr fuel options origin)
      fun _ => True := by
  rw [tryProactiveAuthorize]
  refine calm_lock_any.bind fun first _ => ?_
  split
  · exact calm_pure trivial
  · refine calm_effect_any.bind fun metadata _ => ?_
    split
    · exact calm_pure trivial
    · next endpoint _ =>
      rw [authorizeAt]
      refine (calm_ofResult fun e _ => not_expected_error _).bind fun _ _ => ?_
      refine calm_agentSend.bind fun r hr => ?_
      refine calm_observe.bind fun step hstep => ?_
      split
      · next hpoll =>
        refine (calm_pollResponse fun location hl => h.authorized _ r location
          rfl hr (hstep hpoll) hl).bind fun polled _ => ?_
        exact calm_observe.bind fun _ _ => calm_pure trivial
      · exact calm_pure trivial

theorem calm_afterResponse {attempt : AgentAuthAttempt} {req : AgentRequest}
    {response : HttpResponse} (h : NamesUrls cr options env)
    (hr : env (.sendWrapped req attempt) (.ok response)) :
    Calm (agentWorld env) (afterResponse cr fuel options origin attempt
      response) fun _ => True := by
  rw [afterResponse]
  refine calm_observe.bind fun step hstep => ?_
  cases step with
  | finish => exact calm_pure trivial
  | retryWithOpaque => exact calm_pure trivial
  | invalidate rejected => exact calm_pure trivial
  | pollDeferred =>
      refine (calm_pollResponse fun location hl => h.deferred req attempt
        response location hr (hstep rfl) hl).bind fun polled _ => ?_
      refine calm_observe.bind fun step _ => ?_
      split
      · exact calm_pure trivial
      · exact calm_pure trivial
  | exchangeToken resourceToken =>
      refine (calm_exchangeChallenge h).bind fun exchanged _ => ?_
      obtain ⟨personServerUrl, result⟩ := exchanged
      exact calm_lock_any.bind fun _ _ => calm_pure trivial

theorem calm_handleLoop {req : AgentRequest} (h : NamesUrls cr options env) :
    Calm (agentWorld env) (handleLoop cr options req origin fuel)
      fun _ => True := by
  induction fuel with
  | zero => exact calm_throw not_expected_fuel
  | succ fuel ih =>
      rw [handleLoop]
      refine calm_lock_any.bind fun attempt _ => ?_
      refine (calm_ofResult fun e _ => not_expected_error e).bind
        fun copy _ => ?_
      have hsend : Calm (agentWorld env) (sendWrapped copy attempt)
          fun r => env (.sendWrapped copy attempt) (.ok r) := by
        refine fun s _ => ⟨trivial, fun x s' hw => ?_⟩
        cases x with
        | ok r => exact hw.1
        | error e => exact not_expected_error e
      refine hsend.bind fun response hr => ?_
      refine (calm_afterResponse h hr).bind fun next _ => ?_
      cases next with
      | some response => exact calm_pure trivial
      | none => exact ih

theorem calm_handleInner {req : AgentRequest} (h : NamesUrls cr options env) :
    Calm (agentWorld env) (handleInner cr options fuel req)
      fun _ => True := by
  rw [handleInner]
  refine calm_ofAauth.bind fun origin _ => ?_
  refine calm_lock_any.bind fun _ _ => ?_
  exact (calm_tryProactiveAuthorize h).bind fun _ _ => calm_handleLoop h

end Agent

/-- A function that makes a request panics for exactly those texts that no
request can be made to: the URL of a poll, the `Location` of a `202` polled as
it stands, the token endpoint and the `Location` of its `202` against the
Person Server's URL, the URL of a Person Server. And a call of the client
panics at none of its `expect`s when no answer names such a text. -/
theorem expects_unreached_iff (cr : Crates) :
    (∀ options fuel, Polls options.maxPollDurationSecs →
      (NeverPanics (fun _ _ => True) (pollDeferredWith cr (fuel + 1) options) ↔
        Requestable cr options.locationUrl)) ∧
    (∀ options fuel response, Polls options.maxPollDurationSecs →
      (NeverPanics (fun _ _ => True)
          (pollResponse cr (fuel + 1) options response) ↔
        ∀ location, headerValue response.headers "location" = some location →
          Requestable cr location)) ∧
    (∀ options fuel personServerUrl resourceToken metadata r,
      Polls options.maxPollDurationSecs →
      (NeverPanics (EndpointAnswers r) (requestToken cr (fuel + 1) options
          personServerUrl resourceToken metadata) ↔
        Requestable cr metadata.tokenEndpoint ∧ (r.status = 202 →
          ∀ location, headerValue r.headers "location" = some location →
            Requestable cr (resolveUrl cr personServerUrl location)))) ∧
    (∀ personServerUrl,
      NeverPanics (fun _ _ => True) (fetchMetadata cr personServerUrl) ↔
        Requestable cr (personMetadataUrl personServerUrl)) ∧
    ∀ options env fuel req s result s', NamesUrls cr options env →
      Exec (agentWorld env) s (handleInner cr options fuel req).run result s' →
      ¬ Panics result := by
  refine ⟨fun _ _ => poll_neverPanics_iff, fun _ _ _ =>
    pollResponse_neverPanics_iff, fun _ _ _ _ _ _ =>
      requestToken_neverPanics_iff, fun _ => fetchMetadata_neverPanics_iff, ?_⟩
  intro options env fuel req s result s' h hx hp
  obtain ⟨e, rfl, he⟩ := hp
  exact (calm_handleInner h).not_expected hx he

namespace Sample

/-- A resource that answers `202` with a path. -/
def pathDeferring : Answers
  | _, .sendWrapped _ _ => some (.ok { bare 202 with
      headers := HeaderMap.empty.insert "location" "/pending/abc" })
  | _, .resourceMetadata _ => some none
  | _, .instantNow => some (0 : Nat)
  | _, _ => none

/-- The relative `Location` that the protocol allows panics the client. -/
theorem relative_location_panics : ∃ q,
    Exec (logged (agentWorld pathDeferring.rel)) (newAgent none, [])
      (handleInner crates agentOptions 2 getRequest).run
      (.error (.panicked "valid reqwest request")) q :=
  ⟨_, @exec_of_agentAnswer _ _ 0 _ _ _ _ rfl⟩

/-- An absolute one does not. -/
theorem absolute_location_polled :
    NeverPanics (fun _ _ => True)
      (pollResponse crates 2 agentOptions deferral) := by
  refine ((expects_unreached_iff crates).2.1 agentOptions 1 deferral
    ⟨by decide, by decide⟩).mpr fun location hl => ?_
  cases hl
  exact ⟨_, _, rfl, rfl⟩

end Sample

end Aauth
