import Aauth.Lib.Service
import Aauth.Ref.HttpSig
import Aauth.Ref.PersonServer

/-!
# The Person Server's policy service (`aauth-policy/src/person`)

`PolicyPersonTokenService` and its five operations, each a program over
the store and the Person Server's effects. The order of the effects is
the order of the awaits in the source, which is what the interleaving
results depend on.
-/

namespace Aauth

open Text Except Effect

/-! ## Errors -/

inductive PersonOrchestrationError where
  | invalidInteractionUrl (source : String)
  | interactionUrlNotHttps
  | missingResourceInteraction
  | pendingBody (source : AAuthError)
deriving DecidableEq, Repr

inductive PersonTokenServiceError (E : Type) where
  | pendingStore (e : E)
  | policy (e : PolicyError)
  | orchestration (e : PersonOrchestrationError)
  | aauth (e : AAuthError)

/-- A call of the service. -/
abbrev PersonTask (E α : Type) := PersonM E (PersonTokenServiceError E) α

section Service

variable {E : Type}

/-- The `?` on a store operation. -/
def storeOp {α : Type} (p : Prog (personSig E) (Except E α)) :
    PersonTask E α := mapErr .pendingStore p

def PersonTokenFlowOutcome.deferredAt (config : PersonServerConfig)
    (pendingId : String) (requirement : DeferRequirement) :
    PersonTokenFlowOutcome :=
  .deferred { location := pendingLocation config.pendingBaseUrl
                config.pendingPath pendingId,
              requirement }

/-- The context a pending record was created with. -/
def PersonPendingContext.toTokenContext (c : PersonPendingContext) :
    PersonTokenContext where
  personServerUrl := c.personServerUrl
  resourceUrl := c.resourceUrl
  agentClaims := c.agentClaims
  resourceClaims := c.resourceClaims
  exchangeRequest := c.exchangeRequest

/-- The record context of a request, with the given interaction state. -/
def PersonTokenContext.toPending (ctx : PersonTokenContext)
    (agentJwt : String) (federation : Option FederationPendingState)
    (resourceInteraction : Option ResourceInteractionClaim)
    (psInteractionCode : Option String) : PersonPendingContext where
  personServerUrl := ctx.personServerUrl
  resourceUrl := ctx.resourceUrl
  agentClaims := ctx.agentClaims
  resourceClaims := ctx.resourceClaims
  exchangeRequest := ctx.exchangeRequest
  agentToken := agentJwt
  federation := federation
  resourceInteraction := resourceInteraction
  psInteractionCode := psInteractionCode
  interactionCodeConsumed := false

/-! ## Interaction URLs (`interaction.rs`) -/

def validateInteractionUrl (cr : Crates) (url : String) :
    Except PersonOrchestrationError Unit := do
  let parsed ← (cr.urlParse url).mapError .invalidInteractionUrl
  failIf (parsed.scheme ≠ "https") .interactionUrlNotHttps

def buildResourceInteractionRedirect (cr : Crates)
    (resourceIx : ResourceInteractionClaim) (callbackUrl : String) :
    Except PersonOrchestrationError String := do
  let url ← (cr.urlParse resourceIx.url).mapError .invalidInteractionUrl
  return cr.urlWithQueryPairs url
    [("code", resourceIx.code), ("callback", callbackUrl)]

def mapInteractionCallbackError (error : String) : AAuthProtocolError :=
  let code : AAuthErrorCode :=
    if error = "access_denied" then .denied
    else if error = "user_abandoned" then .abandoned
    else if error = "interaction_expired" then .expired
    else if error = "server_error" ∨ error = "temporarily_unavailable" then
      .serverError
    else .custom error
  .withDescription code error

/-! ## Deferring (`defer.rs`, `federation_pending.rs`) -/

/-- Draws an identifier and creates a waiting record under it. -/
def createRecord (config : PersonServerConfig)
    (context : PersonPendingContext) (requirement : DeferRequirement) :
    PersonTask E PersonTokenFlowOutcome := do
  let id := generatePendingId (← liftProg pendingIdBytes)
  let record := PendingRecord.new (← liftProg systemNow) id context
    (.ofRequirement requirement) config.pendingTtlSecs
  let _ ← storeOp (PendingStore.create record)
  return .deferredAt config id requirement

def createDeferredPersonResponse (config : PersonServerConfig)
    (ctx : PersonTokenContext) (requirement : DeferRequirement)
    (agentJwt : String) : PersonTask E PersonTokenFlowOutcome :=
  createRecord config (ctx.toPending agentJwt none none none) requirement

def createResourceInitiatedDeferredResponse (cr : Crates)
    (config : PersonServerConfig) (ctx : PersonTokenContext)
    (agentJwt : String) : PersonTask E PersonTokenFlowOutcome := do
  let resourceIx ← liftExcept (ctx.resourceClaims.interaction.okOr
    (.orchestration .missingResourceInteraction))
  let psCode := generateCode (← liftProg (personOp .codeBytes))
  match canonicalizeCode cr psCode with
  | none => (← liftProg (personOp .panic)).elim
  | some canonical =>
      createRecord config
        (ctx.toPending agentJwt none (some resourceIx) (some canonical))
        (.interaction config.interactionUrl psCode)

/-- Loads a record again, rewrites it and saves it back. -/
def rewriteRecord (config : PersonServerConfig) (pendingId : String)
    (requirement : DeferRequirement)
    (rewrite : PersonPendingRecord → PersonPendingRecord) :
    PersonTask E PersonTokenFlowOutcome := do
  match ← storeOp (PendingStore.load pendingId) with
  | none => return .gone
  | some record => do
      storeOp (PendingStore.save pendingId
        { rewrite record with snapshot := .ofRequirement requirement })
      return .deferredAt config pendingId requirement

def updatePersonPendingDefer (config : PersonServerConfig)
    (pendingId : String) (requirement : DeferRequirement) :
    PersonTask E PersonTokenFlowOutcome :=
  rewriteRecord config pendingId requirement id

def createFederatedDeferredResponse (config : PersonServerConfig)
    (ctx : PersonTokenContext) (pendingId : Option String)
    (requirement : DeferRequirement) (federation : FederationPendingState)
    (agentJwt : String) : PersonTask E PersonTokenFlowOutcome :=
  let personCtx := ctx.toPending agentJwt (some federation) none none
  match pendingId with
  | some id => rewriteRecord config id requirement
      fun record => { record with context := personCtx }
  | none => createRecord config personCtx requirement

/-! ## Applying a decision (`defer.rs`) -/

/-- The federation of a decision; a failure of it is not an error. -/
def tryFederate (cr : Crates) (config : PersonServerConfig)
    (ctx : PersonTokenContext) (agentJwt : String) :
    PersonTask E (AAuthResult FederationOutcome) :=
  liftProg (federateToAccessServer cr config
    ctx.exchangeRequest.resourceToken agentJwt).run

def mintGrant (config : PersonServerConfig) (ctx : PersonTokenContext)
    (grant : AuthGrant) : PersonTask E TokenResponseBody :=
  mapErr .aauth (mintPersonAuth config grant.sub grant.scope
    ctx.agentClaims).run

def applyPersonDecision (cr : Crates) (config : PersonServerConfig)
    (ctx : PersonTokenContext) (decision : PersonTokenDecision)
    (agentJwt : String) : PersonTask E PersonTokenFlowOutcome := do
  match decision with
  | .grant grant => do
      let body ← mintGrant config ctx grant
      return .granted body
  | .federate =>
      match ← tryFederate cr config ctx agentJwt with
      | .ok (.complete body) => return .granted body
      | .ok (.deferred requirement asPendingUrl accessServerUrl) =>
          createFederatedDeferredResponse config ctx none requirement
            { accessServerUrl, asPendingUrl } agentJwt
      | .error _ => return .unauthorized
  | .deny err => return .denied err
  | .defer requirement =>
      createDeferredPersonResponse config ctx requirement agentJwt

def applyPersonPendingDecision (cr : Crates) (config : PersonServerConfig)
    (ctx : PersonTokenContext) (pendingId : String)
    (decision : PersonTokenDecision) (agentJwt : String) :
    PersonTask E PersonTokenFlowOutcome := do
  match decision with
  | .grant grant => do
      let body ← mintGrant config ctx grant
      storeOp (PendingStore.complete pendingId (.authToken body))
      return .granted body
  | .federate =>
      match ← tryFederate cr config ctx agentJwt with
      | .ok (.complete body) => do
          storeOp (PendingStore.complete pendingId (.authToken body))
          return .granted body
      | .ok (.deferred requirement asPendingUrl accessServerUrl) =>
          createFederatedDeferredResponse config ctx (some pendingId)
            requirement { accessServerUrl, asPendingUrl } agentJwt
      | .error _ => return .unauthorized
  | .deny err => do
      storeOp (PendingStore.complete pendingId (.error err))
      return .denied err
  | .defer requirement =>
      updatePersonPendingDefer config pendingId requirement

/-! ## Federated pending requests (`federation_pending.rs`) -/

/-- The answer of the Access Server to the agent's input: a token from the
POST itself, or whatever polling the pending URL ends with. -/
def resumeAtAccessServer (config : PersonServerConfig)
    (federation : FederationPendingState) (input : PendingInput) :
    Prog (personSig E) (AAuthResult ServerPollOutcome) := do
  match ← personOp (.resumePending federation.asPendingUrl input) with
  | .error e => return .error e
  | .ok (some body) => return .ok (.authToken body)
  | .ok none => personOp (.pollPending federation.accessServerUrl
      { locationUrl := federation.asPendingUrl,
        maxPollDurationSecs := config.federationPollMaxSecs,
        preferWait := none })

def PendingInput.isCancelled : PendingInput → Bool
  | .cancelled => true
  | _ => false

def requestCancelled : AAuthProtocolError :=
  .withDescription .accessDenied "Request cancelled"

def handleFederatedPendingPost (cr : Crates) (config : PersonServerConfig)
    (pendingId : String) (federation : FederationPendingState)
    (agentToken resourceUrl : String) (input : PendingInput) :
    PersonTask E PersonTokenFlowOutcome := do
  if input.isCancelled then
    storeOp (PendingStore.complete pendingId (.error requestCancelled))
    return .denied requestCancelled
  else
    match ← liftProg (resumeAtAccessServer config federation input) with
    | .error _ => return .badGateway
    | .ok (.authToken body) =>
        match ← liftProg (verifyFederated cr body.authToken
            federation.accessServerUrl resourceUrl agentToken).run with
        | .error _ => return .unauthorized
        | .ok () => do
            storeOp (PendingStore.complete pendingId (.authToken body))
            return .granted body
    | .ok (.deferred requirement locationUrl) =>
        rewriteRecord config pendingId requirement fun record =>
          { record with
            context.federation :=
              some { federation with asPendingUrl := locationUrl } }
    | .ok (.error err) => do
        storeOp (PendingStore.complete pendingId (.error err))
        return .denied err
    | .ok .gone => do
        let _ ← liftProg (PendingStore.remove pendingId)
        return .gone

/-! ## The five operations (`mod.rs`) -/

def exchangeToken (cr : Crates) (config : PersonServerConfig)
    (ctx : PersonTokenContext) (agentJwt : String) :
    PersonTask E PersonTokenFlowOutcome := do
  if ctx.resourceClaims.interaction.isSome then
    createResourceInitiatedDeferredResponse cr config ctx agentJwt
  else do
    let decision ← mapErr .policy (personOp (.evaluate ctx))
    applyPersonDecision cr config ctx decision agentJwt

/-- Loads a record for `k`; a missing one is gone and an expired one is
removed. -/
def withLiveRecord (pendingId : String)
    (k : PersonPendingRecord → PersonTask E PersonTokenFlowOutcome) :
    PersonTask E PersonTokenFlowOutcome := do
  match ← storeOp (PendingStore.load pendingId) with
  | none => return .gone
  | some record =>
      if record.isExpired (← liftProg systemNow) then
        let _ ← liftProg (PendingStore.remove pendingId)
        return .gone
      else k record

def resumePending (cr : Crates) (config : PersonServerConfig)
    (pendingId : String) (input : PendingInput) :
    PersonTask E PersonTokenFlowOutcome :=
  withLiveRecord pendingId fun record =>
    match record.context.federation with
    | some fed => handleFederatedPendingPost cr config pendingId fed
        record.context.agentToken config.resourceUrl input
    | none => do
        let ctx := record.context.toTokenContext
        let decision ← mapErr .policy (personOp (.resume ctx input))
        applyPersonPendingDecision cr config ctx pendingId decision
          record.context.agentToken

/-- A record after its code was consumed. -/
def PersonPendingRecord.consumed (record : PersonPendingRecord) :
    PersonPendingRecord :=
  { record with
    context.interactionCodeConsumed := true
    snapshot := match record.snapshot with
      | .waiting _ requirement => .waiting .interacting requirement
      | .complete outcome => .complete outcome }

/-- What a visit with an accepted code is answered with. -/
def interactionReply (cr : Crates) (config : PersonServerConfig)
    (pendingId : String) (record : PersonPendingRecord) :
    Except PersonOrchestrationError PersonInteractionOutcome :=
  match record.context.resourceInteraction with
  | some resourceIx => do
      validateInteractionUrl cr resourceIx.url
      let callbackUrl := trimEndMatches config.interactionUrl '/' ++
        "/callback?id=" ++ pendingId
      let redirect ← buildResourceInteractionRedirect cr resourceIx
        callbackUrl
      return .redirect redirect
  | none =>
      match record.snapshot with
      | .complete _ => .ok .invalidCode
      | .waiting _ requirement => do
          let body ← (PendingBody.forWaiting requirement
            .interacting).mapError .pendingBody
          return .pending body

/-- The records a code can still be used for. -/
def matchesCode (canonical : String) (r : PersonPendingRecord) : Bool :=
  r.context.psInteractionCode == some canonical &&
    !r.context.interactionCodeConsumed

def beginInteraction (cr : Crates) (config : PersonServerConfig)
    (code : String) : PersonTask E PersonInteractionOutcome := do
  match canonicalizeCode cr code with
  | none => (← liftProg (personOp .panic)).elim
  | some canonical =>
      match ← storeOp (PendingStore.findIf (matchesCode canonical)) with
      | none => return .invalidCode
      | some (pendingId, record) =>
          if record.isExpired (← liftProg systemNow) then
            let _ ← liftProg (PendingStore.remove pendingId)
            return .expired
          else do
            let record := PersonPendingRecord.consumed record
            storeOp (PendingStore.save pendingId record)
            liftExcept ((interactionReply cr config pendingId
              record).mapError .orchestration)

def resolveInteractionCallback (cr : Crates) (config : PersonServerConfig)
    (pendingId : String) (callbackError : Option String) :
    PersonTask E PersonTokenFlowOutcome :=
  withLiveRecord pendingId fun record =>
    match callbackError with
    | some err => do
        let pollingErr := mapInteractionCallbackError err
        storeOp (PendingStore.complete pendingId (.error pollingErr))
        return .denied pollingErr
    | none =>
        if record.context.federation.isSome then return .badGateway
        else do
          let ctx := record.context.toTokenContext
          let ctx := { ctx with resourceClaims.interaction := none }
          let decision ← mapErr .policy (personOp (.evaluate ctx))
          applyPersonPendingDecision cr config ctx pendingId decision
            record.context.agentToken

def pollPending (pendingId : String) :
    PersonTask E AuthTokenPollOutcome :=
  mapErr .pendingStore (pollAuthPending pendingId).run

/-! ## As a service -/

inductive PersonCall where
  | exchangeToken (ctx : PersonTokenContext) (agentJwt : String)
  | pollPending (pendingId : String)
  | resumePending (pendingId : String) (input : PendingInput)
  | beginInteraction (code : String)
  | resolveInteractionCallback (pendingId : String)
      (callbackError : Option String)

/-- `PolicyPersonTokenService` -/
def personService (E : Type) (cr : Crates) (config : PersonServerConfig) :
    Service (personSig E) where
  Call := PersonCall
  Reply
    | .exchangeToken _ _ | .resumePending _ _
    | .resolveInteractionCallback _ _ =>
        Except (PersonTokenServiceError E) PersonTokenFlowOutcome
    | .pollPending _ =>
        Except (PersonTokenServiceError E) AuthTokenPollOutcome
    | .beginInteraction _ =>
        Except (PersonTokenServiceError E) PersonInteractionOutcome
  prog
    | .exchangeToken ctx agentJwt =>
        (exchangeToken cr config ctx agentJwt).run
    | .pollPending id => (pollPending id).run
    | .resumePending id input => (resumePending cr config id input).run
    | .beginInteraction code => (beginInteraction cr config code).run
    | .resolveInteractionCallback id err =>
        (resolveInteractionCallback cr config id err).run

/-! ## The token endpoint (`aauth-axum/src/person/routes.rs`) -/

/-- What `token_exchange_handler` does before it calls the service: the
context and the agent's JWT it calls it with, or the status it answers. -/
def tokenExchangeRequest (cr : Crates) (now : Nat) (env : VerifyEnv)
    (config : PersonServerConfig) (uriPath : String) (headers : HeaderMap)
    (body : Option TokenExchangeRequest) :
    Except Nat (PersonTokenContext × String) := do
  let authority := (headerValue headers "host").getD "localhost"
  let verified ← (verify cr now "POST" authority uriPath headers
    .default).mapError fun _ => 401
  let jwt ← verified.jwt.okOr 401
  let request ← body.okOr 400
  let ctx ← (verifyTokenRequest cr env config jwt verified.thumbprint
    request.resourceToken request).mapError fun _ => 401
  return (ctx, jwt)

def tokenExchangeHandler (cr : Crates) (now : Nat) (env : VerifyEnv)
    (config : PersonServerConfig) (uriPath : String) (headers : HeaderMap)
    (body : Option TokenExchangeRequest) :
    Prog (personSig E) (Except Nat
      (Except (PersonTokenServiceError E) PersonTokenFlowOutcome)) :=
  match tokenExchangeRequest cr now env config uriPath headers body with
  | .error status => .ret (.error status)
  | .ok (ctx, jwt) => (exchangeToken cr config ctx jwt).run >>= fun reply =>
      .ret (.ok reply)

end Service

end Aauth
