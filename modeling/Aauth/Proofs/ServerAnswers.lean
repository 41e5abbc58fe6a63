import Aauth.Proofs.Answers
import Aauth.Proofs.OpaqueStore

/-!
# The other two servers answer every request

The same for the Access Server and for a resource that manages access
itself. The resource hands out opaque tokens, and every one its store
draws is fit for a header.
-/

namespace Aauth

open Text Effect

variable {cr : Crates}

/-! ## The Access Server -/

section Access

variable {E : Type} {config : AccessServerConfig} {id : String}
  {ctx : AccessTokenContext} {requirement : DeferRequirement}

/-- What the policy puts a request off with. -/
def AccessDefers : (o : AccessOp) → accessExt.Ans o → Prop
  | .evaluate _, a => ∀ requirement, a = .ok (.defer requirement) →
      requirement.Writable
  | .resume _ _, a => ∀ requirement, a = .ok (.defer requirement) →
      requirement.Writable
  | .mintAccessAuthJwt .., _ => True

structure AccessServerConfig.Writable (config : AccessServerConfig) :
    Prop where
  pendingBaseUrl : IsVisible config.pendingBaseUrl
  pendingPath : IsVisible config.pendingPath

abbrev AccessYields {α : Type} (Q : α → Prop) (x : AccessTask E α) : Prop :=
  Yields (FindsWritable AccessDefers) (LeavesWritable fun _ => True) Q x

def AccessTokenDecision.Writable (d : AccessTokenDecision) : Prop :=
  ∀ requirement, d = .defer requirement → requirement.Writable

namespace Access

theorem writable_deferredAt (hc : config.Writable) (hi : IsVisible id)
    (hr : requirement.Writable) :
    (deferredAt config id requirement).Writable :=
  ⟨isVisible_pendingLocation hc.pendingBaseUrl hc.pendingPath hi, hr⟩

theorem yields_mint {grant : AuthGrant} :
    AccessYields (E := E) (fun _ => True)
      (mintAccessAuth config grant ctx) :=
  Yields.bind (Q := fun _ => True)
    (yields_mapErr (meets_perform trivial fun _ _ _ _ => trivial))
    fun _ _ => yields_pure trivial

theorem yields_createDeferred (hc : config.Writable)
    (hr : requirement.Writable) :
    AccessYields (E := E) AuthTokenFlowOutcome.Writable
      (createDeferredAccessResponse config ctx requirement) :=
  yields_pendingIdBytes.bind fun bytes _ => yields_now.bind fun _ _ =>
    (yields_create (isVisible_generatePendingId bytes) (by exact hr)).bind
      fun _ _ => yields_pure (writable_deferredAt hc
        (isVisible_generatePendingId bytes) hr)

theorem yields_updateDefer (hc : config.Writable)
    (hr : requirement.Writable) :
    AccessYields (E := E) AuthTokenFlowOutcome.Writable
      (updateAccessPendingDefer config id requirement) := by
  refine yields_load.bind fun found hfound => ?_
  cases found with
  | none => exact yields_pure trivial
  | some record =>
      have hi := (hfound record rfl).1
      exact (yields_save hi (by exact hr)).bind fun _ _ =>
        yields_pure (writable_deferredAt hc hi hr)

theorem yields_exchangeToken (hc : config.Writable) :
    AccessYields (E := E) AuthTokenFlowOutcome.Writable
      (exchangeToken config ctx) := by
  refine Yields.bind (Q := AccessTokenDecision.Writable)
    (yields_mapErr (meets_perform trivial fun answer ha d hd requirement hr =>
      ha requirement (by rw [hd, hr]))) fun d hd => ?_
  cases d with
  | grant grant => exact yields_mint.bind fun _ _ => yields_pure trivial
  | deny e => exact yields_pure trivial
  | defer requirement => exact yields_createDeferred hc (hd _ rfl)

theorem yields_resumePending (hc : config.Writable) {input : PendingInput} :
    AccessYields (E := E) AuthTokenFlowOutcome.Writable
      (resumePending config id input) := by
  refine yields_load.bind fun found hfound => ?_
  cases found with
  | none => exact yields_pure trivial
  | some record =>
      refine yields_now.bind fun now _ => ?_
      split
      · exact yields_remove.bind fun _ _ => yields_pure trivial
      · refine Yields.bind (Q := AccessTokenDecision.Writable)
          (yields_mapErr (meets_perform trivial
            fun answer ha d hd requirement hr =>
              ha requirement (by rw [hd, hr]))) fun d hd => ?_
        cases d with
        | grant grant =>
            exact yields_mint.bind fun body _ =>
              (yields_complete (.authToken body) trivial).bind
                fun _ _ => yields_pure trivial
        | deny e =>
            exact (yields_complete (.error e) trivial).bind
              fun _ _ => yields_pure trivial
        | defer requirement => exact yields_updateDefer hc (hd _ rfl)

end Access

abbrev AccessWrites (p : Prog (accessSig E) Answer) : Prop :=
  Meets (FindsWritable AccessDefers) (LeavesWritable fun _ => True) Written p

variable {ax : AxumCrate} {env : HandlerEnv} {state : AccessServerState}
  {req : ServerRequest}

theorem written_accessFlow {o : AuthTokenFlowOutcome} (h : o.Writable) :
    Written (.ofOption (Respond.flowOutcome cr o)) :=
  written_ofOption (flowOutcome_some h)

theorem meets_accessTokenExchange (hc : state.config.Writable)
    {body : Option AccessTokenExchangeRequest} :
    AccessWrites (E := E)
      (accessTokenExchangeAnswer cr env state req body) := by
  rw [accessTokenExchangeAnswer, accessTokenExchangeHandler]
  split
  · exact meets_response
  · rw [Prog.bind_assoc]
    exact meets_served (fun o =>
      .ofOption (Respond.flowOutcome cr o))
      (Access.yields_exchangeToken hc) fun _ => written_accessFlow

theorem meets_accessRouter (hc : state.config.Writable) :
    AccessWrites (E := E) (accessRouter cr ax env state req) := by
  rw [accessRouter]
  split
  · exact meets_onGet meets_response
  split
  · exact meets_onGet meets_response
  split
  · exact meets_onPost (meets_extracting
      (fun _ => written_of_ne optionJson_ne_panicked)
      fun _ _ => meets_accessTokenExchange hc)
  split
  · exact meets_rejected
  · refine meets_onGetOrPost ?_ ?_
    · exact meets_extracting (fun _ => written_of_ne decodedId_ne_panicked)
        fun id _ => meets_served _ (yields_mapErr yields_pollAuthPending)
          fun _ h => written_ofOption (pollOutcome_some h)
    · exact meets_extracting (fun _ => written_of_ne decodedId_ne_panicked)
        fun id _ => meets_extracting
          (fun _ => written_of_ne pendingResumeInput_ne_panicked)
          fun input _ => meets_served _ (Access.yields_resumePending hc)
            fun _ => written_accessFlow

end Access

/-! ## The resource -/

section Resource

variable {E : Type} {config : ResourceAccessConfig} {id : String}
  {ctx : ResourceAccessContext} {requirement : DeferRequirement}

/-- What the policy puts a request off with, and a token it is granted. -/
def ResourceDefers : (o : ResourceOp) → resourceExt.Ans o → Prop
  | .evaluate _, a => ∀ requirement, a = .ok (.defer requirement) →
      requirement.Writable
  | .issue _, token => IsVisible token
  | .codeBytes, _ => True

structure ResourceAccessConfig.Writable (config : ResourceAccessConfig) :
    Prop where
  interactionUrl : IsVisible config.interactionUrl
  pendingBaseUrl : IsVisible config.pendingBaseUrl
  pendingPath : IsVisible config.pendingPath

abbrev ResourceYields {α : Type} (Q : α → Prop) (x : ResourceTask E α) :
    Prop :=
  Yields (FindsWritable ResourceDefers) (LeavesWritable fun _ => True) Q x

theorem meets_resourceOp (o : ResourceOp) {Q : resourceExt.Ans o → Prop}
    (hQ : ∀ a, ResourceDefers o a → Q a) :
    Meets (FindsWritable ResourceDefers) (LeavesWritable fun _ => True) Q
      (Resource.resourceOp (E := E) o) := meets_perform trivial hQ

def ResourceConsentFlowOutcome.Writable :
    ResourceConsentFlowOutcome → Prop
  | .grantOpaque token => IsVisible token
  | .deferred d => d.Writable
  | .denied _ => True

namespace Resource

/-- What is filled in can be written as well. -/
theorem yields_fillInteraction (hc : config.Writable)
    (hr : requirement.Writable) :
    ResourceYields (E := E) DeferRequirement.Writable
      (fillInteraction config requirement) := by
  cases requirement with
  | interaction url code =>
      have hurl : IsVisible (if url.isEmpty then config.interactionUrl
          else url) := by
        split
        · exact hc.interactionUrl
        · exact hr.1
      rw [fillInteraction]
      split
      · exact (yields_liftProg (Q := fun _ => True)
          (meets_resourceOp .codeBytes fun _ _ => trivial)).bind
            fun bytes _ =>
              yields_pure ⟨hurl, isVisible_generateCode bytes⟩
      · exact yields_pure ⟨hurl, hr.2⟩
  | clarification question timeout => exact yields_pure hr
  | claims requiredClaims => exact yields_pure hr
  | approval => exact yields_pure hr
  | payment location => exact yields_pure hr

theorem yields_consentForAgent (hc : config.Writable) :
    ResourceYields (E := E) ResourceConsentFlowOutcome.Writable
      (consentForAgent config ctx) := by
  refine Yields.bind (Q := fun d => ∀ requirement,
    d = ResourceConsentDecision.defer requirement → requirement.Writable)
    (yields_mapErr (meets_resourceOp (.evaluate ctx)
      fun answer ha d hd requirement hr =>
        ha requirement (by rw [hd, hr]))) fun d hd => ?_
  cases d with
  | grantOpaque =>
      exact (yields_liftProg (meets_resourceOp
        (.issue ctx.agentClaims.identifier) fun token ht => ht)).bind
          fun token ht => yields_pure ht
  | deny e => exact yields_pure trivial
  | defer requirement =>
      refine (yields_fillInteraction hc (hd _ rfl)).bind
        fun requirement hr => ?_
      exact yields_pendingIdBytes.bind fun bytes _ =>
        yields_now.bind fun _ _ =>
          (yields_create (isVisible_generatePendingId bytes)
            (by exact hr)).bind fun _ _ =>
              yields_pure ⟨isVisible_pendingLocation hc.pendingBaseUrl
                hc.pendingPath (isVisible_generatePendingId bytes), hr⟩

theorem yields_pollPending :
    ResourceYields (E := E) AuthTokenPollOutcome.Writable
      (pollPending id) := by
  refine (yields_mapErr yields_pollAuthPending).bind fun outcome ho => ?_
  split
  · exact yields_remove.bind fun _ _ => yields_pure ho
  · exact yields_pure ho

end Resource

abbrev ResourceWrites (p : Prog (resourceSig E) Answer) : Prop :=
  Meets (FindsWritable ResourceDefers) (LeavesWritable fun _ => True)
    Written p

variable {ax : AxumCrate} {env : HandlerEnv} {state : ResourceServerState}
  {req : ServerRequest}

theorem written_authorize {scope : String} {o : ResourceConsentFlowOutcome}
    (h : o.Writable) : Written (.ofOption (authorizeOutcome cr scope o)) := by
  refine written_ofOption ?_
  cases o with
  | grantOpaque token =>
      rw [authorizeOutcome, headerValueFromStr_of_isVisible h]
      exact ⟨_, rfl⟩
  | deferred d => exact deferCreated_some h
  | denied e => exact ⟨_, rfl⟩

theorem meets_resourceRouter (hc : state.config.Writable) :
    ResourceWrites (E := E) (resourceRouter cr ax env state req) := by
  rw [resourceRouter]
  split
  · refine meets_onPost (meets_extracting
      (fun _ => written_of_ne optionJson_ne_panicked) fun body _ => ?_)
    rw [resourceAuthorizeHandler]
    split
    · exact meets_response
    · exact meets_served _ (Resource.yields_consentForAgent hc)
        fun _ => written_authorize
  split
  · exact meets_rejected
  · exact meets_onGet (meets_extracting
      (fun _ => written_of_ne decodedId_ne_panicked)
      fun id _ => meets_served _ Resource.yields_pollPending
        fun _ h => written_ofOption (pollOutcome_some h))

/-- The policy puts off with texts that headers can hold, and the tokens
are those of `InMemoryOpaqueAccessStore`. -/
structure ServesResource (cr : Crates)
    (env : (o : ResourceOp) → resourceExt.Ans o → Prop) : Prop where
  evaluate : ∀ ctx requirement,
    env (.evaluate ctx) (.ok (.defer requirement)) → requirement.Writable
  issue : ∀ agentId token, env (.issue agentId) token → ∃ bytes,
    token = InMemoryOpaqueAccessStore.encoded cr bytes

theorem isVisible_encoded
    (laws : InMemoryOpaqueAccessStore.Base64Laws cr) (bytes : Bytes) :
    IsVisible (InMemoryOpaqueAccessStore.encoded cr bytes) := by
  refine isVisible_iff.mpr fun c hc => ?_
  rw [InMemoryOpaqueAccessStore.encoded, laws.encode, Base64url.encode,
    String.toList_ofList] at hc
  exact isVisible_of_isToken68Char
    (InMemoryOpaqueAccessStore.isToken68Char_of_alphabet
      (Base64url.mem_encodeL hc))

theorem ServesResource.defers
    {env : (o : ResourceOp) → resourceExt.Ans o → Prop}
    (h : ServesResource cr env)
    (laws : InMemoryOpaqueAccessStore.Base64Laws cr) :
    ∀ o a, env o a → ResourceDefers o a := by
  intro o a he
  cases o with
  | evaluate ctx =>
      intro requirement ha
      exact h.evaluate ctx requirement (ha ▸ he)
  | issue agentId =>
      obtain ⟨bytes, rfl⟩ := h.issue agentId a he
      exact isVisible_encoded laws bytes
  | codeBytes => trivial

end Resource

/-! ## At the sample parties -/

namespace Sample

def accessState : AccessServerState where
  config := accessConfig
  accessJwksUri := accessServer ++ "/access/jwks"
  jwks := .obj []

def resourceState : ResourceServerState where
  config :=
    { interactionUrl := resource ++ "/interact",
      pendingBaseUrl := resource, pendingPath := "/resource/pending",
      pendingTtlSecs := 600 }
  resourceUrl := resource

def emptyState (C : Type) : ServiceState C := ⟨∅, []⟩

theorem emptyState_writable (C : Type) : AllWritable (emptyState C) := by
  intro id r h
  cases h

end Sample

end Aauth
