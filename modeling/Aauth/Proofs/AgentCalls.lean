import Aauth.Proofs.AgentAuth
import Aauth.Proofs.Store
import Aauth.Ref.AgentClient

/-!
# What the agent's programs call

Rules for the effects of the middleware, in the world that also keeps the
log of its calls. Polling and token exchange touch neither the credentials
nor the original request: they make calls of the agent's own only
(`pollDeferredWith_calls`, `exchangeTokenWith_calls`), and so a property of
the credentials and of the copies sent is carried across them whole.
-/

namespace Aauth

open Effect Except

abbrev AgentEvent := Event agentSig

/-- The credentials and the log of a run. -/
abbrev AgentLog := AgentState × List AgentEvent

/-! ## Rules for results -/

section Results

variable {σ : Type} {W : World agentSig σ} {pre : σ → AgentOp → Prop}

theorem wp_ofResult {ε α : Type} {f : ε → Halt} {r : Except ε α}
    {post : Except Halt α → σ → Prop} {s : σ} :
    wp W pre (ofResult f r).run post s ↔ post (r.mapError f) s := Iff.rfl

theorem wp_ofAauth {α : Type} {r : AAuthResult α}
    {post : Except Halt α → σ → Prop} {s : σ} :
    wp W pre (ofAauth r).run post s ↔
      post (r.mapError fun e => .error (.aauth e)) s := Iff.rfl

/-- A request that could be built is the one asked for, to a URL. -/
theorem wp_buildRequest {cr : Crates} {method uri : String}
    {headers : HeaderMap} {body : RequestBody}
    {post : Except Halt AgentRequest → σ → Prop} {s : σ}
    (herr : ∀ e, post (.error e) s)
    (hok : ∀ req : AgentRequest,
      (∃ url, req = ⟨method, url, headers, body⟩) → post (.ok req) s) :
    wp W pre (buildRequest cr method uri headers body).run post s := by
  rw [buildRequest, wp_bind_except, wp_ofResult]
  cases cr.httpUri uri with
  | error e => exact herr _
  | ok url =>
      show wp _ _ _ _ _
      rw [wp_bind_except, wp_ofResult]
      cases cr.urlParse url with
      | error e => exact herr _
      | ok parsed => exact hok _ ⟨url, rfl⟩

/-- Both `expect`s of a request to a text pass. -/
def Requestable (cr : Crates) (uri : String) : Prop :=
  ∃ url u, cr.httpUri uri = .ok url ∧ cr.urlParse url = .ok u

/-- The panic of either. -/
def Expected (h : Halt) : Prop :=
  h = .panicked "valid http request" ∨ h = .panicked "valid reqwest request"

/-- A request is built where both `expect`s pass, and only there. -/
theorem buildRequest_cases (cr : Crates) (method uri : String)
    (headers : HeaderMap) (body : RequestBody) :
    (Requestable cr uri ∧ ∃ url, buildRequest cr method uri headers body =
      pure ⟨method, url, headers, body⟩) ∨
    (¬ Requestable cr uri ∧ ∃ m, buildRequest cr method uri headers body =
      throw (.panicked m) ∧ Expected (.panicked m)) := by
  cases hu : cr.httpUri uri with
  | error e =>
      refine .inr ⟨?_, "valid http request", ?_, .inl rfl⟩
      · intro h
        obtain ⟨url, u, h, -⟩ := h
        rw [hu] at h
        cases h
      · rw [buildRequest, hu]
        rfl
  | ok url =>
      cases hp : cr.urlParse url with
      | error e =>
          refine .inr ⟨?_, "valid reqwest request", ?_, .inr rfl⟩
          · intro h
            obtain ⟨url', u, h, h'⟩ := h
            rw [hu] at h
            cases h
            rw [hp] at h'
            cases h'
          · rw [buildRequest, hu]
            show (ofResult _ (cr.urlParse url) >>= _) = _
            rw [hp]
            rfl
      | ok u =>
          refine .inl ⟨⟨url, u, hu, hp⟩, url, ?_⟩
          rw [buildRequest, hu]
          show (ofResult _ (cr.urlParse url) >>= _) = _
          rw [hp]
          rfl

end Results

/-! ## Rules for the effects -/

section Rules

variable {env : (o : AgentOp) → agentSig.Ans o → Prop}
  {pre : AgentLog → AgentOp → Prop} {s : AgentState} {l : List AgentEvent}

/-- A call that is not about the credentials. -/
def AgentOp.outside : AgentOp → Prop
  | .lock _ => False
  | _ => True

theorem agentWorld_outside {o : AgentOp} (ho : o.outside)
    {r : agentSig.Ans o} {s' : AgentState} :
    agentWorld env s o r s' ↔ env o r ∧ s' = s := by
  cases o with
  | lock o => exact ho.elim
  | _ => exact Iff.rfl

theorem wp_agent_call {α : Type} {o : AgentOp} (ho : o.outside)
    {k : agentSig.Ans o → Prog agentSig α} {post : α → AgentLog → Prop} :
    wp (logged (agentWorld env)) pre (.call o k) post (s, l) ↔
      pre (s, l) o ∧ ∀ r, env o r →
        wp (logged (agentWorld env)) pre (k r) post (s, ⟨o, r⟩ :: l) := by
  rw [wp_logged_call]
  refine and_congr_right fun _ => forall_congr' fun r => ?_
  constructor
  · exact fun h he => h s ((agentWorld_outside ho).mpr ⟨he, rfl⟩)
  · intro h s' hw
    obtain ⟨he, rfl⟩ := (agentWorld_outside ho).mp hw
    exact h he

theorem wp_lock {o : AgentAuthOp}
    {post : Except Halt o.Ans → AgentLog → Prop} :
    wp (logged (agentWorld env)) pre (lock o).run post (s, l) ↔
      pre (s, l) (.lock o) ∧ ∀ r s', lockStep s o r s' →
        post (r.mapError .panicked) (s', ⟨.lock o, r⟩ :: l) :=
  wp_logged_call

/-- What `?` makes of an observation. -/
def observed : Except String (AAuthResult AgentAuthStep) →
    Except Halt AgentAuthStep
  | .error m => .error (.panicked m)
  | .ok step => step.mapError fun e => .error (.aauth e)

theorem wp_observe {origin : String} {attempt : AgentAuthAttempt}
    {response : HttpResponse}
    {post : Except Halt AgentAuthStep → AgentLog → Prop} :
    wp (logged (agentWorld env)) pre (observe origin attempt response).run
        post (s, l) ↔
      pre (s, l) (.lock (.observeResponse origin attempt response.status
        response.headers)) ∧
      ∀ r s', lockStep s (.observeResponse origin attempt response.status
          response.headers) r s' →
        post (observed r) (s', ⟨.lock (.observeResponse origin attempt
          response.status response.headers), r⟩ :: l) := by
  rw [observe, wp_bind_except, wp_lock]
  refine and_congr_right fun _ => forall_congr' fun r =>
    forall_congr' fun s' => imp_congr_right fun _ => ?_
  cases r with
  | error m => exact Iff.rfl
  | ok step => exact Iff.rfl

theorem wp_sendWrapped {req : AgentRequest} {attempt : AgentAuthAttempt}
    {post : Except Halt HttpResponse → AgentLog → Prop} :
    wp (logged (agentWorld env)) pre (sendWrapped req attempt).run post (s, l)
      ↔ pre (s, l) (.sendWrapped req attempt) ∧
        ∀ r, env (.sendWrapped req attempt) r →
          post (r.mapError .error) (s, ⟨.sendWrapped req attempt, r⟩ :: l) :=
  wp_agent_call (o := .sendWrapped req attempt) trivial

theorem wp_sendAgentSigned {req : AgentRequest}
    {post : Except Halt HttpResponse → AgentLog → Prop} :
    wp (logged (agentWorld env)) pre (sendAgentSigned req).run post (s, l) ↔
      pre (s, l) (.sendAgentSigned req) ∧
        ∀ r, env (.sendAgentSigned req) r →
          post (r.mapError .error) (s, ⟨.sendAgentSigned req, r⟩ :: l) :=
  wp_agent_call (o := .sendAgentSigned req) trivial

theorem wp_effect {o : AgentOp} (ho : o.outside)
    {post : Except Halt (agentSig.Ans o) → AgentLog → Prop} :
    wp (logged (agentWorld env)) pre (effect o).run post (s, l) ↔
      pre (s, l) o ∧ ∀ r, env o r → post (.ok r) (s, ⟨o, r⟩ :: l) :=
  wp_agent_call ho

end Rules

/-! ## Rules for the recording world -/

section Recorder

variable {pre : List AgentEvent → AgentOp → Prop} {l : List AgentEvent}

theorem wp_recorder_lock {o : AgentAuthOp}
    {post : Except Halt o.Ans → List AgentEvent → Prop} :
    wp recorder pre (lock o).run post l ↔ pre l (.lock o) ∧
      ∀ r, post (r.mapError .panicked) (⟨.lock o, r⟩ :: l) :=
  wp_recorder_call

theorem wp_recorder_sendWrapped {req : AgentRequest}
    {attempt : AgentAuthAttempt}
    {post : Except Halt HttpResponse → List AgentEvent → Prop} :
    wp recorder pre (sendWrapped req attempt).run post l ↔
      pre l (.sendWrapped req attempt) ∧
      ∀ r, post (r.mapError .error) (⟨.sendWrapped req attempt, r⟩ :: l) :=
  wp_recorder_call

theorem wp_recorder_effect {o : AgentOp}
    {post : Except Halt (agentSig.Ans o) → List AgentEvent → Prop} :
    wp recorder pre (effect o).run post l ↔
      pre l o ∧ ∀ r, post (.ok r) (⟨o, r⟩ :: l) :=
  wp_recorder_call

theorem traces_effect {o : AgentOp} :
    Traces (effect o) fun r l => l = [⟨o, r⟩] := by
  refine wp_recorder_effect.mpr ⟨trivial, fun r a ha => ?_⟩
  cases ha
  rfl

theorem traces_ofResult {ε α : Type} {f : ε → Halt} {r : Except ε α} :
    Traces (ofResult f r) fun a l => r = .ok a ∧ l = [] := by
  intro a ha
  exact ⟨mapError_eq_ok.mp ha, rfl⟩

theorem traces_ofAauth {α : Type} {r : AAuthResult α} :
    Traces (ofAauth r) fun a l => r = .ok a ∧ l = [] := traces_ofResult

theorem traces_sendAgentSigned {req : AgentRequest} :
    Traces (sendAgentSigned req) fun r l =>
      l = [⟨.sendAgentSigned req, .ok r⟩] := by
  refine wp_recorder_call.mpr ⟨trivial, fun r a ha => ?_⟩
  cases mapError_eq_ok.mp ha
  rfl

theorem traces_buildRequest {cr : Crates} {method uri : String}
    {headers : HeaderMap} {body : RequestBody} :
    Traces (buildRequest cr method uri headers body) fun req l =>
      l = [] ∧ ∃ url, req = ⟨method, url, headers, body⟩ := by
  refine wp_buildRequest (fun e a ha => ?_) fun req hreq a ha => ?_
  · cases ha
  · cases ha
    exact ⟨rfl, hreq⟩

end Recorder

/-! ## Calls of the agent's own -/

/-- Neither the credentials nor a copy of the original request. -/
def AgentOp.own : AgentOp → Prop
  | .lock _ | .sendWrapped _ _ => False
  | _ => True

theorem AgentOp.own.outside {o : AgentOp} (h : o.own) : o.outside := by
  cases o with
  | lock o => exact h.elim
  | _ => trivial

/-- A task that makes calls of the agent's own only. -/
def OwnCalls {α : Type} (t : AgentTask α) : Prop :=
  Prog.Calls AgentOp.own t.run

section Own

variable {α β : Type} {cr : Crates} {fuel : Nat}

theorem OwnCalls.bind {x : AgentTask α} {f : α → AgentTask β}
    (hx : OwnCalls x) (hf : ∀ a, OwnCalls (f a)) : OwnCalls (x >>= f) :=
  Prog.calls_bind_except hx hf

theorem ownCalls_pure (a : α) : OwnCalls (pure a : AgentTask α) := trivial

theorem ownCalls_throw (e : Halt) : OwnCalls (throw e : AgentTask α) :=
  trivial

theorem ownCalls_ofResult {ε : Type} (f : ε → Halt) (r : Except ε α) :
    OwnCalls (ofResult f r) := trivial

theorem ownCalls_effect {o : AgentOp} (ho : o.own) : OwnCalls (effect o) :=
  ⟨ho, fun _ => trivial⟩

theorem ownCalls_sendAgentSigned (req : AgentRequest) :
    OwnCalls (sendAgentSigned req) := ⟨trivial, fun _ => trivial⟩

theorem ownCalls_buildRequest {method uri : String} {headers : HeaderMap}
    {body : RequestBody} :
    OwnCalls (buildRequest cr method uri headers body) := by
  refine (ownCalls_ofResult _ _).bind fun url => ?_
  exact (ownCalls_ofResult _ _).bind fun _ => ownCalls_pure _

theorem answerClarification_calls {options : AgentDeferredOptions}
    {response : HttpResponse} :
    OwnCalls (answerClarification cr options response) := by
  rw [answerClarification]
  split
  · split
    · exact ownCalls_pure _
    · refine (ownCalls_effect (by trivial)).bind fun answer => ?_
      refine ownCalls_buildRequest.bind fun req => ?_
      exact (ownCalls_sendAgentSigned req).bind fun _ => ownCalls_pure _
  · exact ownCalls_pure _

theorem announceInteraction_calls {options : AgentDeferredOptions}
    {response : HttpResponse} :
    OwnCalls (announceInteraction options response) := by
  rw [announceInteraction]
  split
  · split
    · exact ownCalls_effect (by trivial)
    · exact ownCalls_pure _
  · exact ownCalls_pure _

theorem pollLoop_calls {options : AgentDeferredOptions}
    {maxPollDuration : Nat} {deadline : Instant} {backoffMs : Nat} :
    OwnCalls (pollLoop cr options maxPollDuration deadline fuel
      backoffMs) := by
  induction fuel generalizing backoffMs with
  | zero => exact ownCalls_throw _
  | succ fuel ih =>
      rw [pollLoop]
      refine (ownCalls_effect (by trivial)).bind fun now => ?_
      split
      · refine ownCalls_buildRequest.bind fun req => ?_
        refine (ownCalls_sendAgentSigned req).bind fun response => ?_
        split
        · exact ownCalls_pure _
        · split
          · refine answerClarification_calls.bind fun _ => ?_
            refine announceInteraction_calls.bind fun _ => ?_
            exact (ownCalls_effect (by trivial)).bind fun _ => ih
          · split
            · exact (ownCalls_effect (by trivial)).bind fun _ => ih
            · exact ownCalls_pure _
      · exact ownCalls_throw _

theorem pollDeferredWith_calls {options : AgentDeferredOptions} :
    OwnCalls (pollDeferredWith cr fuel options) := by
  rw [pollDeferredWith]
  refine (ownCalls_effect (by trivial)).bind fun now => ?_
  refine (ownCalls_ofResult _ _).bind fun deadline => ?_
  split
  · split
    · exact (ownCalls_effect (by trivial)).bind fun _ => pollLoop_calls
    · exact (ownCalls_pure _).bind fun _ => pollLoop_calls
  · exact (ownCalls_pure _).bind fun _ => pollLoop_calls

theorem locationHeader_calls {response : HttpResponse} :
    OwnCalls (locationHeader response) := ownCalls_ofResult _ _

theorem pollResponse_calls {options : AgentOptions}
    {response : HttpResponse} :
    OwnCalls (pollResponse cr fuel options response) := by
  refine locationHeader_calls.bind fun location => ?_
  exact pollDeferredWith_calls.bind fun _ => ownCalls_pure _

theorem fetchMetadata_calls {personServerUrl : String} :
    OwnCalls (fetchMetadata cr personServerUrl) := by
  refine ownCalls_buildRequest.bind fun req => ?_
  refine (ownCalls_sendAgentSigned req).bind fun response => ?_
  split
  · exact ownCalls_throw _
  · refine (ownCalls_ofResult _ _).bind fun metadata => ?_
    exact (ownCalls_ofResult _ _).bind fun _ => ownCalls_pure _

theorem tokenOfResponse_calls {endpoint : String} {response : HttpResponse} :
    OwnCalls (tokenOfResponse cr endpoint response) :=
  (ownCalls_ofResult _ _).bind fun _ => ownCalls_pure _

theorem requestToken_calls {options : AgentOptions}
    {personServerUrl resourceToken : String}
    {metadata : PersonServerMetadata} :
    OwnCalls (requestToken cr fuel options personServerUrl resourceToken
      metadata) := by
  refine ownCalls_buildRequest.bind fun req => ?_
  refine (ownCalls_sendAgentSigned req).bind fun response => ?_
  split
  · refine locationHeader_calls.bind fun location => ?_
    refine pollDeferredWith_calls.bind fun result => ?_
    split
    · exact tokenOfResponse_calls
    · exact ownCalls_throw _
  · split
    · exact tokenOfResponse_calls
    · exact ownCalls_throw _

theorem exchangeTokenWith_calls {options : AgentOptions}
    {personServerUrl resourceToken : String} :
    OwnCalls (exchangeTokenWith cr fuel options personServerUrl
      resourceToken) := by
  rw [exchangeTokenWith]
  split
  · exact (ownCalls_pure _).bind fun _ => requestToken_calls
  · exact fetchMetadata_calls.bind fun _ => requestToken_calls

theorem exchangeChallenge_calls {options : AgentOptions}
    {origin resourceToken : String} :
    OwnCalls (exchangeChallenge cr fuel options origin resourceToken) := by
  refine (ownCalls_effect (by trivial)).bind fun material => ?_
  refine (ownCalls_ofResult _ _).bind fun material => ?_
  refine (ownCalls_ofResult _ _).bind fun agentJwt => ?_
  refine (ownCalls_ofResult _ _).bind fun parsed => ?_
  refine (ownCalls_ofResult _ _).bind fun agentSub => ?_
  refine (ownCalls_ofResult _ _).bind fun agentJkt => ?_
  refine (ownCalls_effect (by trivial)).bind fun env => ?_
  refine (ownCalls_ofResult _ _).bind fun claims => ?_
  refine (ownCalls_ofResult _ _).bind fun personServerUrl => ?_
  refine exchangeTokenWith_calls.bind fun result => ?_
  refine (ownCalls_effect (by trivial)).bind fun env => ?_
  exact (ownCalls_ofResult _ _).bind fun _ => ownCalls_pure _

/-! ## Calls that record no token -/

/-- A call of the agent's own, or one that begins, or observes a
response. -/
def AgentOp.preparing : AgentOp → Prop
  | .lock (.seedOpaque _) | .lock (.beginAuthorizeAttempt _)
  | .lock (.observeResponse ..) => True
  | .lock _ | .sendWrapped _ _ => False
  | _ => True

/-- A task that makes such calls only: it neither picks nor records a token
and sends no copy. -/
def Prepares {α : Type} (t : AgentTask α) : Prop :=
  Prog.Calls AgentOp.preparing t.run

theorem OwnCalls.prepares {t : AgentTask α} (h : OwnCalls t) :
    Prepares t := by
  refine Prog.calls_mono (fun o ho => ?_) h
  cases o with
  | lock o => exact ho.elim
  | sendWrapped req attempt => exact ho.elim
  | _ => trivial

theorem Prepares.bind {x : AgentTask α} {f : α → AgentTask β}
    (hx : Prepares x) (hf : ∀ a, Prepares (f a)) : Prepares (x >>= f) :=
  Prog.calls_bind_except hx hf

theorem lock_prepares {o : AgentAuthOp} (ho : (AgentOp.lock o).preparing) :
    Prepares (lock o) := ⟨ho, fun _ => trivial⟩

theorem observe_prepares {origin : String} {attempt : AgentAuthAttempt}
    {response : HttpResponse} :
    Prepares (observe origin attempt response) :=
  (lock_prepares (by trivial)).bind fun step =>
    (ownCalls_ofResult _ step).prepares

theorem authorizeAt_prepares {options : AgentOptions}
    {origin endpoint : String} :
    Prepares (authorizeAt cr fuel options origin endpoint) := by
  refine (ownCalls_ofResult _ _).prepares.bind fun _ => ?_
  refine (ownCalls_sendAgentSigned _).prepares.bind fun response => ?_
  refine observe_prepares.bind fun step => ?_
  split
  · refine pollResponse_calls.prepares.bind fun polled => ?_
    exact observe_prepares.bind fun _ => (ownCalls_pure _).prepares
  · exact (ownCalls_pure _).prepares

theorem tryProactiveAuthorize_prepares {options : AgentOptions}
    {origin : String} :
    Prepares (tryProactiveAuthorize cr fuel options origin) := by
  refine (lock_prepares (by trivial)).bind fun first => ?_
  split
  · exact (ownCalls_pure _).prepares
  · refine (ownCalls_effect (by trivial)).prepares.bind fun metadata => ?_
    split
    · exact (ownCalls_pure _).prepares
    · exact authorizeAt_prepares

/-- What a deferred copy is polled for, and what is made of the end. -/
theorem afterPoll_prepares {options : AgentOptions} {origin : String}
    {attempt : AgentAuthAttempt} {response : HttpResponse} :
    Prepares (do
      let polled ← pollResponse cr fuel options response
      let step ← observe origin attempt polled
      if step = .finish ∨ step = .retryWithOpaque then return none
      else return some polled) := by
  refine pollResponse_calls.prepares.bind fun polled => ?_
  refine observe_prepares.bind fun step => ?_
  split
  · exact (ownCalls_pure _).prepares
  · exact (ownCalls_pure _).prepares

/-! ## Calls that send no copy -/

/-- A call that is no copy of the original request. -/
def AgentOp.NoCopy : AgentOp → Prop
  | .sendWrapped _ _ => False
  | _ => True

/-- A task that sends no copy. -/
def NoCopies {α : Type} (t : AgentTask α) : Prop :=
  Prog.Calls AgentOp.NoCopy t.run

theorem Prepares.noCopies {t : AgentTask α} (h : Prepares t) :
    NoCopies t := by
  refine Prog.calls_mono (fun o ho => ?_) h
  cases o with
  | sendWrapped req attempt => exact ho.elim
  | _ => trivial

theorem OwnCalls.noCopies {t : AgentTask α} (h : OwnCalls t) :
    NoCopies t := h.prepares.noCopies

theorem NoCopies.bind {x : AgentTask α} {f : α → AgentTask β}
    (hx : NoCopies x) (hf : ∀ a, NoCopies (f a)) : NoCopies (x >>= f) :=
  Prog.calls_bind_except hx hf

theorem lock_noCopies (o : AgentAuthOp) : NoCopies (lock o) :=
  ⟨trivial, fun _ => trivial⟩

end Own

/-- Calls of the agent's own leave the credentials as they are, and any
property of the log that such a call keeps. -/
theorem wp_own {α : Type} {env : (o : AgentOp) → agentSig.Ans o → Prop}
    {t : AgentTask α} (ht : OwnCalls t) {J : List AgentEvent → Prop}
    (step : ∀ l o r, o.own → J l → J (⟨o, r⟩ :: l))
    {s : AgentState} {l : List AgentEvent} (hl : J l) :
    wp (logged (agentWorld env)) (fun _ _ => True) t.run
      (fun _ q => q.1 = s ∧ J q.2) (s, l) := by
  have ht : Prog.Calls AgentOp.own t.run := ht
  refine wp_of_calls ht (fun _ _ _ _ => trivial) ?_ ⟨rfl, hl⟩
  intro ⟨s₁, l₁⟩ o r ⟨s₂, l₂⟩ ho hI hw
  obtain ⟨hw, hl⟩ := hw
  obtain ⟨he, hs⟩ := (agentWorld_outside ho.outside).mp hw
  cases hs
  cases hl
  exact ⟨hI.1, step l₁ o r ho hI.2⟩

/-- The rule for a task whose first part is such. -/
theorem wp_own_bind {α β : Type}
    {env : (o : AgentOp) → agentSig.Ans o → Prop} {t : AgentTask α}
    {f : α → AgentTask β} {post : Except Halt β → AgentLog → Prop}
    (ht : OwnCalls t) {J : List AgentEvent → Prop}
    (step : ∀ l o r, o.own → J l → J (⟨o, r⟩ :: l))
    {s : AgentState} {l : List AgentEvent} (hl : J l)
    (herr : ∀ e l', J l' → post (.error e) (s, l'))
    (hf : ∀ a l', J l' → wp (logged (agentWorld env)) (fun _ _ => True)
      (f a).run post (s, l')) :
    wp (logged (agentWorld env)) (fun _ _ => True) (t >>= f).run post
      (s, l) := by
  rw [wp_bind_except]
  refine wp_mono ?_ (wp_own ht step hl)
  intro r ⟨s', l'⟩ h
  obtain ⟨hs, hl'⟩ := h
  cases hs
  cases r with
  | error e => exact herr e l' hl'
  | ok a => exact hf a l' hl'

end Aauth
