import Aauth.Proofs.Answers
import Aauth.Proofs.InteractionGate
import Aauth.Proofs.Codes

/-!
# The Person Server answers every request

What the operations of the Person Server leave in the store and return can
be put into a response, provided the policy and the Access Server put
requests off with texts that headers can hold. Of the Access Server nothing
need be assumed: what its client makes of a response was a header before.
-/

namespace Aauth

open Text Effect

variable {cr : Crates}

/-! ## The Person Server -/

section Person

variable {E : Type} {config : PersonServerConfig} {id agentJwt : String}
  {ctx : PersonTokenContext} {requirement : DeferRequirement} {m : Prop}

/-- What the policy and the Access Server put a request off with. -/
def PersonDefers : (o : PersonOp) → personExt.Ans o → Prop
  | .evaluate _, a => ∀ requirement, a = .ok (.defer requirement) →
      requirement.Writable
  | .resume _ _, a => ∀ requirement, a = .ok (.defer requirement) →
      requirement.Writable
  | .exchangeToken _ _, a => ∀ requirement url,
      a = .ok (.deferred requirement url) → requirement.Writable
  | .pollPending _ _, a => ∀ requirement url,
      a = .ok (.deferred requirement url) → requirement.Writable
  | _, _ => True

/-- A call panics only if `m`. -/
def PanicsIf (m : Prop) : PersonOp → Prop
  | .panic => m
  | _ => True

/-- What goes into headers comes from the configuration as well. -/
structure PersonServerConfig.Writable (config : PersonServerConfig) :
    Prop where
  interactionUrl : IsVisible config.interactionUrl
  pendingBaseUrl : IsVisible config.pendingBaseUrl
  pendingPath : IsVisible config.pendingPath

abbrev PersonYields {ε α : Type} (m : Prop) (Q : α → Prop)
    (x : PersonM E ε α) : Prop :=
  Yields (FindsWritable PersonDefers) (LeavesWritable (PanicsIf m)) Q x

theorem yields_personOp {o : PersonOp} {Q : personExt.Ans o → Prop}
    (hm : PanicsIf m o) (hQ : ∀ a, PersonDefers o a → Q a) :
    Meets (FindsWritable PersonDefers) (LeavesWritable (PanicsIf m)) Q
      (personOp (E := E) o) := meets_perform hm hQ

theorem writable_deferredAt (hc : config.Writable) (hi : IsVisible id)
    (hr : requirement.Writable) :
    (PersonTokenFlowOutcome.deferredAt config id requirement).Writable :=
  ⟨isVisible_pendingLocation hc.pendingBaseUrl hc.pendingPath hi, hr⟩

theorem yields_createRecord (hc : config.Writable)
    {context : PersonPendingContext} (hr : requirement.Writable) :
    PersonYields (E := E) m PersonTokenFlowOutcome.Writable
      (createRecord config context requirement) :=
  yields_pendingIdBytes.bind fun bytes _ => yields_now.bind fun _ _ =>
    (yields_create (isVisible_generatePendingId bytes) (by exact hr)).bind fun _ _ =>
      yields_pure (writable_deferredAt hc
        (isVisible_generatePendingId bytes) hr)

theorem yields_rewriteRecord (hc : config.Writable)
    {rewrite : PersonPendingRecord → PersonPendingRecord}
    (hr : requirement.Writable) :
    PersonYields (E := E) m PersonTokenFlowOutcome.Writable
      (rewriteRecord config id requirement rewrite) := by
  refine yields_load.bind fun found hfound => ?_
  cases found with
  | none => exact yields_pure trivial
  | some record =>
      have hi := (hfound record rfl).1
      exact (yields_save hi (by exact hr)).bind fun _ _ =>
        yields_pure (writable_deferredAt hc hi hr)

theorem yields_createFederated (hc : config.Writable) {pending : Option String}
    {federation : FederationPendingState} (hr : requirement.Writable) :
    PersonYields (E := E) m PersonTokenFlowOutcome.Writable
      (createFederatedDeferredResponse config ctx pending requirement
        federation agentJwt) := by
  cases pending with
  | none => exact yields_createRecord hc hr
  | some id => exact yields_rewriteRecord hc hr

theorem yields_verifyFederated {token iss aud agentToken : String} :
    PersonYields (E := E) m (fun _ => True)
      (verifyFederated cr token iss aud agentToken) :=
  (yields_liftProg (yields_personOp (o := .verifyEnv) (Q := fun _ => True)
    trivial fun _ _ => trivial)).bind fun _ _ =>
      yields_liftExcept fun _ _ => trivial

/-- A federation is put off as the Access Server put it off. -/
theorem yields_federate {token : String} :
    PersonYields (E := E) m
      (fun outcome => ∀ requirement url server,
        outcome = .deferred requirement url server → requirement.Writable)
      (federateToAccessServer cr config token agentJwt) := by
  refine (yields_liftExcept (Q := fun _ => True) fun _ _ =>
    trivial).bind fun _ _ => ?_
  refine (yields_liftExcept (Q := fun _ => True) fun _ _ =>
    trivial).bind fun _ _ => ?_
  refine (yields_mapErr (Q := fun _ => True)
    (yields_personOp (o := .fetchMetadata _) trivial
      fun _ _ _ _ => trivial)).bind fun _ _ => ?_
  refine (yields_liftExcept (Q := fun _ => True) fun _ _ =>
    trivial).bind fun _ _ => ?_
  refine (yields_mapErr (Q := fun outcome => ∀ requirement url,
    outcome = .deferred requirement url → requirement.Writable)
    (yields_personOp (o := .exchangeToken _ _) trivial
      fun answer ha outcome ho requirement url hd =>
        ha requirement url (by rw [ho, hd]))).bind fun outcome ho => ?_
  cases outcome with
  | complete body =>
      refine yields_verifyFederated.bind fun _ _ => yields_pure ?_
      intro _ _ _ h
      cases h
  | deferred requirement url =>
      refine yields_pure fun _ _ _ h => ?_
      cases h
      exact ho _ _ rfl

theorem yields_tryFederate :
    PersonYields (E := E) m
      (fun outcome => ∀ requirement url server,
        outcome = .ok (.deferred requirement url server) →
          requirement.Writable)
      (tryFederate cr config ctx agentJwt) :=
  yields_liftProg (Meets.mono yields_federate fun _ h requirement url server
    he => h _ he requirement url server rfl)

theorem yields_mintGrant {grant : AuthGrant} :
    PersonYields (E := E) m (fun _ => True) (mintGrant config ctx grant) :=
  yields_mapErr (Meets.mono (Yields.bind (Q := fun _ => True)
    (yields_mapErr (yields_personOp (o := .mintPersonAuthJwt ..) trivial
      fun _ _ _ _ => trivial)) fun _ _ => yields_pure (Q := fun _ => True) trivial)
    fun _ _ _ _ => trivial)

/-- What a decision may put a request off with. -/
def PersonTokenDecision.Writable (d : PersonTokenDecision) : Prop :=
  ∀ requirement, d = .defer requirement → requirement.Writable

theorem yields_evaluate {c : PersonTokenContext} :
    PersonYields (E := E) m PersonTokenDecision.Writable
      (mapErr (PersonTokenServiceError.policy (E := E))
        (personOp (.evaluate c))) :=
  yields_mapErr (yields_personOp (o := .evaluate c) trivial
    fun answer ha d hd requirement hr => ha requirement (by rw [hd, hr]))

theorem yields_applyDecision (hc : config.Writable)
    {d : PersonTokenDecision} (hd : d.Writable) :
    PersonYields (E := E) m PersonTokenFlowOutcome.Writable
      (applyPersonDecision cr config ctx d agentJwt) := by
  cases d with
  | grant grant => exact yields_mintGrant.bind fun _ _ => yields_pure trivial
  | deny e => exact yields_pure trivial
  | defer requirement => exact yields_createRecord hc (hd _ rfl)
  | federate =>
      refine yields_tryFederate.bind fun outcome ho => ?_
      rcases outcome with e | body | ⟨requirement, url, server⟩
      · exact yields_pure trivial
      · exact yields_pure trivial
      · exact yields_createFederated hc (ho _ _ _ rfl)

theorem yields_applyPendingDecision (hc : config.Writable)
    {d : PersonTokenDecision} (hd : d.Writable) :
    PersonYields (E := E) m PersonTokenFlowOutcome.Writable
      (applyPersonPendingDecision cr config ctx id d agentJwt) := by
  cases d with
  | grant grant =>
      exact yields_mintGrant.bind fun body _ =>
        (yields_complete (.authToken body) trivial).bind
          fun _ _ => yields_pure trivial
  | deny e =>
      exact (yields_complete (.error e) trivial).bind
        fun _ _ => yields_pure trivial
  | defer requirement => exact yields_rewriteRecord hc (hd _ rfl)
  | federate =>
      refine yields_tryFederate.bind fun outcome ho => ?_
      rcases outcome with e | body | ⟨requirement, url, server⟩
      · exact yields_pure trivial
      · exact (yields_complete (.authToken body) trivial).bind
          fun _ _ => yields_pure trivial
      · exact yields_createFederated hc (ho _ _ _ rfl)

/-! ### The five operations -/

theorem yields_exchangeToken (laws : CaseLaws cr) (hc : config.Writable) :
    PersonYields (E := E) m PersonTokenFlowOutcome.Writable
      (exchangeToken cr config ctx agentJwt) := by
  rw [exchangeToken]
  split
  · refine (yields_liftExcept (Q := fun _ => True) fun _ _ =>
      trivial).bind fun interaction _ => ?_
    refine (yields_liftProg (yields_personOp (o := .codeBytes)
      (Q := fun _ => True) trivial fun _ _ => trivial)).bind
        fun bytes _ => ?_
    -- a code that was drawn is in its canonical form
    simp only [(Respells.refl _).canonical laws]
    exact yields_createRecord hc
      ⟨hc.interactionUrl, isVisible_generateCode bytes⟩
  · exact (yields_evaluate (c := ctx)).bind fun d hd =>
      yields_applyDecision hc hd

theorem yields_withLiveRecord
    {k : PersonPendingRecord → PersonTask E PersonTokenFlowOutcome}
    (hk : ∀ r, IsVisible id → PersonYields m PersonTokenFlowOutcome.Writable
      (k r)) : PersonYields m PersonTokenFlowOutcome.Writable
        (withLiveRecord id k) := by
  refine yields_load.bind fun found hfound => ?_
  cases found with
  | none => exact yields_pure trivial
  | some record =>
      refine yields_now.bind fun now _ => ?_
      split
      · exact yields_remove.bind fun _ _ => yields_pure trivial
      · exact hk record (hfound record rfl).1

/-- The Access Server's answer to what the agent posted. -/
theorem meets_resumeAtAccessServer {federation : FederationPendingState}
    {input : PendingInput} :
    Meets (FindsWritable PersonDefers) (LeavesWritable (PanicsIf m))
      (fun outcome => ∀ requirement url,
        outcome = .ok (.deferred requirement url) → requirement.Writable)
      (resumeAtAccessServer (E := E) config federation input) := by
  refine (yields_personOp (o := .resumePending _ _) (Q := fun _ => True)
    trivial fun _ _ => trivial).bind fun answer _ => ?_
  rcases answer with e | _ | body
  · refine meets_ret.mpr fun _ _ h => ?_
    cases h
  · exact yields_personOp (o := .pollPending _ _) trivial
      fun answer ha => ha
  · refine meets_ret.mpr fun _ _ h => ?_
    cases h

theorem yields_federatedPost (hc : config.Writable)
    {federation : FederationPendingState} {resourceUrl : String}
    {input : PendingInput} :
    PersonYields (E := E) m PersonTokenFlowOutcome.Writable
      (handleFederatedPendingPost cr config id federation agentJwt
        resourceUrl input) := by
  rw [handleFederatedPendingPost]
  split
  · exact (yields_complete (.error requestCancelled)
      trivial).bind fun _ _ => yields_pure trivial
  · refine (yields_liftProg meets_resumeAtAccessServer).bind
      fun outcome ho => ?_
    rcases outcome with e | body | ⟨requirement, url⟩ | e | _
    · exact yields_pure trivial
    · refine (yields_liftProg (Q := fun _ => True)
        (Meets.mono yields_verifyFederated fun _ _ => trivial)).bind
          fun verified _ => ?_
      cases verified with
      | error e => exact yields_pure trivial
      | ok _ =>
          exact (yields_complete (.authToken body) trivial).bind
            fun _ _ => yields_pure trivial
    · exact yields_rewriteRecord hc (ho _ _ rfl)
    · exact (yields_complete (.error e) trivial).bind
        fun _ _ => yields_pure trivial
    · exact yields_remove.bind fun _ _ => yields_pure trivial

theorem yields_resumePending (hc : config.Writable) {input : PendingInput} :
    PersonYields (E := E) m PersonTokenFlowOutcome.Writable
      (resumePending cr config id input) := by
  refine yields_withLiveRecord fun r _ => ?_
  cases r.context.federation with
  | some fed => exact yields_federatedPost hc
  | none =>
      exact (yields_mapErr (Q := PersonTokenDecision.Writable)
        (yields_personOp (o := .resume _ _) trivial
          fun answer ha d hd requirement hr =>
            ha requirement (by rw [hd, hr]))).bind fun d hd =>
              yields_applyPendingDecision hc hd

theorem yields_resolveInteractionCallback (hc : config.Writable)
    {error : Option String} :
    PersonYields (E := E) m PersonTokenFlowOutcome.Writable
      (resolveInteractionCallback cr config id error) := by
  refine yields_withLiveRecord fun r _ => ?_
  cases error with
  | some e =>
      exact (yields_complete (.error _) trivial).bind
        fun _ _ => yields_pure trivial
  | none =>
      show PersonYields m PersonTokenFlowOutcome.Writable (ite _ _ _)
      split
      · exact yields_pure trivial
      · exact yields_evaluate.bind fun d hd =>
          yields_applyPendingDecision hc hd

/-- A code that has no canonical form ends the call in a panic. -/
theorem yields_beginInteraction {code : String}
    (hm : canonicalizeCode cr code = none → m) :
    PersonYields (E := E) m (fun _ => True)
      (beginInteraction cr config code) := by
  rw [beginInteraction]
  split
  · next hnone =>
      exact (yields_liftProg (Q := fun _ => True)
        (yields_personOp (o := .panic) (hm hnone) fun a _ => a.elim)).bind
          fun a _ => Empty.elim a
  · refine yields_findIf.bind fun found hfound => ?_
    rcases found with _ | ⟨k, r⟩
    · exact yields_pure trivial
    · refine yields_now.bind fun now _ => ?_
      split
      · exact yields_remove.bind fun _ _ => yields_pure trivial
      · obtain ⟨hk, hr⟩ := hfound k r rfl
        refine (yields_save hk ?_).bind fun _ _ =>
          yields_liftExcept fun _ _ => trivial
        show PendingSnapshot.Writable (PersonPendingRecord.consumed r).snapshot
        rw [PersonPendingRecord.consumed]
        cases hsnap : r.snapshot with
        | waiting status requirement =>
            rw [hsnap] at hr
            exact hr
        | complete outcome =>
            rw [hsnap] at hr
            exact hr

end Person

/-! ### What the Access Server can put a request off with -/

theorem isVisible_extractQuotedParam {input key value : String}
    (h : extractQuotedParam input key = some value) (hv : IsVisible input) :
    IsVisible value := by
  obtain ⟨found, hf, h⟩ := Option.bind_eq_some_iff.mp h
  obtain ⟨rest, hr, rfl⟩ := Option.map_eq_some_iff.mp h
  refine isVisible_of_mem hv fun c hc => ?_
  rw [splitOnce_eq_append (a := found.1) (b := found.2) hf,
    splitOnce_eq_append (a := rest.1) (b := rest.2) hr]
  simp only [String.toList_append]
  exact List.mem_append_right _ (List.mem_append_right _
    (List.mem_append_left _ hc))

/-- The parameters of a header are parts of it. -/
theorem isVisible_fromHeader {header url code : String}
    (h : AAuthChallenge.fromHeader header = .ok (.interaction url code))
    (hv : IsVisible header) : IsVisible url ∧ IsVisible code := by
  have ht : IsVisible (trim header) :=
    isVisible_of_mem hv fun _ => mem_of_mem_trim
  rw [AAuthChallenge.fromHeader] at h
  obtain ⟨_, _, h⟩ := Except.bind_eq_ok.mp h
  obtain ⟨_, _, h⟩ := Except.bind_eq_ok.mp h
  obtain ⟨level, _, h⟩ := Except.bind_eq_ok.mp h
  cases level with
  | interaction =>
      obtain ⟨u, hu, h⟩ := Except.bind_eq_ok.mp h
      obtain ⟨c, hc, h⟩ := Except.bind_eq_ok.mp h
      cases h
      exact ⟨isVisible_extractQuotedParam (Option.okOr_eq_ok.mp hu) ht,
        isVisible_extractQuotedParam (Option.okOr_eq_ok.mp hc) ht⟩
  | authToken =>
      obtain ⟨_, _, h⟩ := Except.bind_eq_ok.mp h
      cases h
  | agentToken => cases h
  | approval => cases h
  | clarification => cases h
  | claims => cases h

/-- What a deferred response asks for can be asked for again. -/
theorem parseDeferredResponse_writable {status : Nat} {headers : HeaderMap}
    {body : Bytes} {base : String} {parsed : ParsedDeferred}
    (h : parseDeferredResponse cr status headers body base = .ok parsed) :
    parsed.requirement.Writable := by
  rw [parseDeferredResponse] at h
  obtain ⟨_, _, h⟩ := Except.bind_eq_ok.mp h
  obtain ⟨location, _, h⟩ := Except.bind_eq_ok.mp h
  obtain ⟨header, hh, h⟩ := Except.bind_eq_ok.mp h
  obtain ⟨challenge, hc, h⟩ := Except.bind_eq_ok.mp h
  obtain ⟨requirement, hr, h⟩ := Except.bind_eq_ok.mp h
  cases h
  show requirement.Writable
  cases challenge with
  | interaction url code =>
      cases hr
      exact isVisible_fromHeader hc
        (headerValue_visible (Option.okOr_eq_ok.mp hh))
  | approval =>
      cases hr
      trivial
  | agentToken => cases hr
  | authToken token => cases hr
  | clarification =>
      rw [deferRequirementFrom] at hr
      split at hr
      · cases hr
        trivial
      · obtain ⟨_, _, hr⟩ := Except.bind_eq_ok.mp hr
        cases hr
        trivial
  | claims =>
      rw [deferRequirementFrom] at hr
      split at hr
      · cases hr
        trivial
      · obtain ⟨_, _, hr⟩ := Except.bind_eq_ok.mp hr
        cases hr
        trivial

theorem exchangeReply_writable {endpoint origin url : String}
    {r : HttpResponse} {requirement : DeferRequirement}
    (h : ReqwestAccessServerClient.exchangeReply cr endpoint origin r =
      .ok (.deferred requirement url)) : requirement.Writable := by
  rw [ReqwestAccessServerClient.exchangeReply] at h
  split at h
  · cases h
  · split at h
    · obtain ⟨parsed, hp, h⟩ := Except.bind_eq_ok.mp h
      cases h
      exact parseDeferredResponse_writable hp
    · split at h
      · cases h
      · obtain ⟨_, _, h⟩ := Except.bind_eq_ok.mp h
        cases h

theorem pollReply_writable {server url : String} {r : HttpResponse}
    {requirement : DeferRequirement}
    (h : ReqwestAccessServerClient.pollReply cr server r =
      .ok (some (.deferred requirement url))) : requirement.Writable := by
  rw [ReqwestAccessServerClient.pollReply] at h
  split at h
  · split at h
    · cases h
    · cases h
  · split at h
    · cases h
    · split at h
      · cases h
      · split at h
        · obtain ⟨parsed, hp, h⟩ := Except.bind_eq_ok.mp h
          cases h
          exact parseDeferredResponse_writable hp
        · split at h
          · cases h
          · cases h

theorem pollPending_writable {server url : String} {maxDuration : Nat}
    {rs : List HttpResponse} {requirement : DeferRequirement}
    (h : ReqwestAccessServerClient.pollPending cr server maxDuration rs =
      .ok (.deferred requirement url)) : requirement.Writable := by
  induction rs with
  | nil => cases h
  | cons r rs ih =>
      rw [ReqwestAccessServerClient.pollPending] at h
      split at h
      · cases h
      · next outcome ho =>
          cases h
          exact pollReply_writable ho
      · exact ih h

/-- The policy puts off with texts that headers can hold, and the Access
Server client is `ReqwestAccessServerClient`, whatever it is answered. -/
structure ServesPerson (cr : Crates)
    (env : (o : PersonOp) → personExt.Ans o → Prop) : Prop where
  evaluate : ∀ ctx requirement,
    env (.evaluate ctx) (.ok (.defer requirement)) → requirement.Writable
  resume : ∀ ctx input requirement,
    env (.resume ctx input) (.ok (.defer requirement)) →
      requirement.Writable
  exchangeToken : ∀ endpoint request outcome,
    env (.exchangeToken endpoint request) (.ok outcome) → ∃ origin r,
      ReqwestAccessServerClient.exchangeReply cr endpoint origin r =
        .ok outcome
  pollPending : ∀ server options outcome,
    env (.pollPending server options) (.ok outcome) → ∃ maxDuration rs,
      ReqwestAccessServerClient.pollPending cr server maxDuration rs =
        .ok outcome

theorem ServesPerson.defers {env : (o : PersonOp) → personExt.Ans o → Prop}
    (h : ServesPerson cr env) : ∀ o a, env o a → PersonDefers o a := by
  intro o a he
  cases o with
  | evaluate ctx =>
      intro requirement ha
      exact h.evaluate ctx requirement (ha ▸ he)
  | resume ctx input =>
      intro requirement ha
      exact h.resume ctx input requirement (ha ▸ he)
  | exchangeToken endpoint request =>
      intro requirement url ha
      obtain ⟨origin, r, hr⟩ := h.exchangeToken endpoint request _ (ha ▸ he)
      exact exchangeReply_writable hr
  | pollPending server options =>
      intro requirement url ha
      obtain ⟨maxDuration, rs, hr⟩ := h.pollPending server options _ (ha ▸ he)
      exact pollPending_writable hr
  | _ => trivial

/-! ## The Person Server over HTTP -/

section PersonRouter

variable {E : Type} {ax : AxumCrate} {env : HandlerEnv}
  {state : PersonServerState} {req : ServerRequest} {m : Prop}

/-- The request brings a code that has no canonical form. -/
def BadCode (cr : Crates) (ax : AxumCrate) (req : ServerRequest) : Prop :=
  ∃ code, interactionStartQuery ax req = some code ∧
    canonicalizeCode cr code = none

abbrev PersonWrites (m : Prop) (p : Prog (personSig E) Answer) : Prop :=
  Meets (FindsWritable PersonDefers) (LeavesWritable (PanicsIf m)) Written p

theorem written_servedFlow {o : PersonTokenFlowOutcome} (h : o.Writable) :
    Written (.ofOption (Respond.personFlowOutcome cr o)) :=
  written_ofOption (personFlowOutcome_some h)

theorem written_servedPoll {o : AuthTokenPollOutcome} (h : o.Writable) :
    Written (.ofOption (Respond.pollOutcome cr o)) :=
  written_ofOption (pollOutcome_some h)

theorem written_interaction {o : PersonInteractionOutcome} :
    Written (Respond.personInteractionOutcome cr o) := by
  intro h
  cases o with
  | redirect location =>
      rw [Respond.personInteractionOutcome] at h
      split at h
      · cases h
      · cases h
  | invalidCode => cases h
  | expired => cases h
  | pending body => cases h

theorem meets_tokenExchange (laws : CaseLaws cr)
    (hc : state.config.Writable) {body : Option TokenExchangeRequest} :
    PersonWrites (E := E) m (tokenExchangeAnswer cr env state req body) := by
  rw [tokenExchangeAnswer, tokenExchangeHandler]
  split
  · exact meets_response
  · rw [Prog.bind_assoc]
    exact meets_served (fun o =>
      .ofOption (Respond.personFlowOutcome cr o))
      (yields_exchangeToken laws hc) fun _ => written_servedFlow

/-- A request is answered without a panic, but for a code that has no
canonical form. -/
theorem meets_personRouter (laws : CaseLaws cr)
    (hc : state.config.Writable) :
    PersonWrites (E := E) (BadCode cr ax req)
      (personRouter cr ax env state req) := by
  rw [personRouter]
  split
  · exact meets_onGet meets_response
  split
  · exact meets_onGet meets_response
  split
  · exact meets_onPost (meets_extracting
      (fun _ => written_of_ne optionJson_ne_panicked)
      fun _ _ => meets_tokenExchange laws hc)
  split
  · refine meets_onGet (meets_extracting (fun _ => written_of_ne
      (Option.okOr_ne_error rejected_ne_panicked)) fun code hcode => ?_)
    exact meets_served _ (yields_beginInteraction fun hnone =>
      ⟨code, Option.okOr_eq_ok.mp hcode, hnone⟩)
      fun _ _ => written_interaction
  split
  · exact meets_onGet (meets_extracting (fun _ => written_of_ne
      (Option.okOr_ne_error rejected_ne_panicked)) fun q _ =>
        meets_served _ (yields_resolveInteractionCallback hc)
          fun _ => written_servedFlow)
  split
  · exact meets_rejected
  · refine meets_onGetOrPost ?_ ?_
    · exact meets_extracting (fun _ => written_of_ne decodedId_ne_panicked)
        fun id _ => meets_served _ (yields_mapErr yields_pollAuthPending)
          fun _ => written_servedPoll
    · exact meets_extracting (fun _ => written_of_ne decodedId_ne_panicked)
        fun id _ => meets_extracting
          (fun _ => written_of_ne pendingResumeInput_ne_panicked)
          fun input _ => meets_served _ (yields_resumePending hc)
            fun _ => written_servedFlow

/-- Requests to a Person Server, side by side. -/
def personServerPool {ι : Type} (E : Type) (cr : Crates) (ax : AxumCrate)
    (env : ι → HandlerEnv) (state : PersonServerState)
    (req : ι → ServerRequest) (s : ServiceState PersonPendingContext) :
    Pool (personSig E) (ServiceState PersonPendingContext) ι Answer where
  state := s
  thread i := personRouter cr ax (env i) state (req i)

/-- No request makes the Person Server panic, in whatever order the
requests are served, unless it brings a code that has no canonical form:
every answer is written, and what is stored can be answered with. -/
theorem person_requests_answered {ι : Type} [DecidableEq ι]
    (laws : CaseLaws cr) (hc : state.config.Writable)
    {world : (o : PersonOp) → personExt.Ans o → Prop}
    (hw : ServesPerson cr world) {clock : Nat → Prop}
    {env : ι → HandlerEnv} {req : ι → ServerRequest}
    {s : ServiceState PersonPendingContext} (hs : AllWritable s)
    {l : List (ι × Event (personSig E))}
    {P : Pool (personSig E) (ServiceState PersonPendingContext) ι Answer}
    (run : Steps (serviceWorld world clock) (fun _ _ _ => True)
      (personServerPool E cr ax env state req s) l P) :
    AllWritable P.state ∧ ∀ i,
      (∀ a, P.thread i = .ret a → a ≠ .panicked) ∧
      ∀ k, P.thread i = .call (.ext .panic) k → BadCode cr ax (req i) := by
  have hsound : ∀ i, Sound
      (serviceWorld (E := E) (C := PersonPendingContext) world clock)
      AllWritable (FindsWritable PersonDefers)
      (LeavesWritable (PanicsIf (BadCode cr ax (req i)))) :=
    fun _ => sound_serviceWorld (X := personExt) hw.defers
  have hmeets : ∀ i, PersonWrites (E := E) (BadCode cr ax (req i))
      ((personServerPool E cr ax env state req s).thread i) :=
    fun _ => meets_personRouter laws hc
  exact ⟨(run.meets hsound hs hmeets).1, fun i =>
    ⟨fun a ha => run.ends hsound hs hmeets ha,
      fun k hk => run.keeps hsound hs hmeets hk⟩⟩

end PersonRouter

/-! ## At the sample parties -/

namespace Sample

def personState : PersonServerState where
  config := personConfig
  personJwksUri := personServer ++ "/auth/jwks"
  jwks := .obj []

theorem personConfig_writable : personConfig.Writable :=
  ⟨by rfl, by rfl, by rfl⟩

theorem gatedEnv_serves : ServesPerson crates gatedEnv where
  evaluate ctx requirement h := by cases h
  resume ctx input requirement h := by cases h
  exchangeToken endpoint request outcome h := by cases h
  pollPending server options outcome h := by cases h

theorem gated_writable : AllWritable gated := by
  intro id r h
  by_cases hid : id = firstId
  · subst hid
    have hl : gated.records.lookup firstId = some gatedRecord :=
      AList.lookup_insert _
    obtain rfl := Option.some.inj (hl.symm.trans h)
    exact ⟨isVisible_generatePendingId _, by rfl,
      isVisible_generateCode _⟩
  · have hl : gated.records.lookup id = none := AList.lookup_insert_ne hid
    cases hl.symm.trans h

/-- One poll that is answered, beside a visit that is not. -/
theorem person_requests_answered_gated : ∃ l P,
    Steps (momentWorld gatedEnv now) (fun _ _ _ => True)
      (personServerPool Empty crates axum (fun _ : Bool => ⟨now, env⟩)
        personState (fun i => if i then routedGet "/pending/other" none
          else routedGet "/interact" (some "code=é123456"))
        gated) l P ∧
      (∃ a, P.thread true = .ret a ∧ a ≠ .panicked) := by
  let W : World (personSig Empty) (ServiceState PersonPendingContext) :=
    momentWorld gatedEnv now
  have hother : gated.records.lookup "other" = none :=
    AList.lookup_insert_ne (by decide)
  have hload : W gated (.store (.load "other")) (.ok none) gated :=
    ⟨⟨congrArg Except.ok hother.symm, rfl⟩, rfl⟩
  have run := Steps.step (G := fun _ _ _ => True) (i := true) .nil trivial
    (Step.mk (P := personServerPool Empty crates axum
      (fun _ : Bool => ⟨now, env⟩) personState
      (fun i => if i then routedGet "/pending/other" none
        else routedGet "/interact" (some "code=é123456")) gated)
      (by rfl) hload)
  exact ⟨_, _, run, _, rfl, ((person_requests_answered caseLaws
    personConfig_writable gatedEnv_serves gated_writable run).2 true).1 _
      rfl⟩

end Sample

end Aauth
