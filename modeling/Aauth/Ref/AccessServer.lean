import Aauth.Lib.Service
import Aauth.Ref.HttpSig
import Aauth.Ref.PersonServer

/-!
# The Access Server (`aauth/src/access_server`, `aauth-policy/src/access`)

The exchange request as the HTTP handler accepts it, and
`PolicyAccessTokenService`, whose operations are programs over the store
and the Access Server's own effects.
-/

namespace Aauth

open Text Except Effect

/-! ## Configuration and context (`access_server/service.rs`) -/

structure AccessServerConfig where
  accessServerUrl : String
  resourceUrl : String
  personServerUrl : String
  pendingBaseUrl : String
  pendingPath : String
  pendingTtlSecs : Nat
deriving DecidableEq, Repr

structure AccessTokenContext where
  accessServerUrl : String
  resourceUrl : String
  personServerUrl : String
  agentClaims : AgentClaims
  resourceClaims : ResourceClaims
  resourceToken : String
  agentToken : String
deriving DecidableEq, Repr

def AccessTokenContext.fromExchange (cr : Crates)
    (config : AccessServerConfig) (request : AccessTokenExchangeRequest) :
    AAuthResult AccessTokenContext := do
  let parsedAgent ← ParsedToken.parse cr request.agentToken
  let agent ← parsedAgent.expectAgent (.verify (.invalid .auth .wrongTyp))
  let parsedResource ← ParsedToken.parse cr request.resourceToken
  let resourceClaims ← parsedResource.expectResource
    (.verify (.invalid .resource .wrongTyp))
  return { accessServerUrl := config.accessServerUrl,
           resourceUrl := config.resourceUrl,
           personServerUrl := config.personServerUrl,
           agentClaims := agent, resourceClaims,
           resourceToken := request.resourceToken,
           agentToken := request.agentToken }

/-! ## Effects -/

inductive AccessTokenDecision where
  | grant (grant : AuthGrant)
  | deny (e : AAuthProtocolError)
  | defer (requirement : DeferRequirement)
deriving DecidableEq, Repr

inductive AccessOp where
  | evaluate (ctx : AccessTokenContext)
  | resume (ctx : AccessTokenContext) (input : PendingInput)
  | mintAccessAuthJwt (iss aud agent : String) (agentJwk : PublicJwk)
      (sub scope : Option String)

abbrev accessExt : Sig where
  Op := AccessOp
  Ans
    | .evaluate _ | .resume _ _ => Except PolicyError AccessTokenDecision
    | .mintAccessAuthJwt .. => AAuthResult String

abbrev accessSig (E : Type) : Sig :=
  serviceSig E AccessPendingContext accessExt

inductive AccessTokenServiceError (E : Type) where
  | pendingStore (e : E)
  | policy (e : PolicyError)
  | aauth (e : AAuthError)

abbrev AccessTask (E α : Type) :=
  ExceptT (AccessTokenServiceError E) (Prog (accessSig E)) α

namespace Access

section Service

variable {E : Type}

def accessOp (o : AccessOp) : Prog (accessSig E) (accessExt.Ans o) :=
  .call (.ext o) .ret

def storeOp {α : Type} (p : Prog (accessSig E) (Except E α)) :
    AccessTask E α := mapErr .pendingStore p

/-- `TestAccessAuthJwtMinter` (`keys.rs`): the parameters it mints with. -/
def mintParams (cr : Crates) (key : Ed25519KeyPair)
    (iss aud agent : String) (agentJwk : PublicJwk)
    (sub scope : Option String) : AuthJwtMintParams where
  encodingKey := key.encodingKey cr
  kid := key.kid
  dwk := "aauth-access.json"
  iss := iss
  aud := aud
  agent := agent
  agentJwk := agentJwk
  sub := sub
  scope := scope

/-! ## The service (`access/service.rs`) -/

def deferredAt (config : AccessServerConfig) (pendingId : String)
    (requirement : DeferRequirement) : AuthTokenFlowOutcome :=
  .deferred { location := pendingLocation config.pendingBaseUrl
                config.pendingPath pendingId,
              requirement }

def mintAccessAuth (config : AccessServerConfig) (grant : AuthGrant)
    (ctx : AccessTokenContext) : AccessTask E TokenResponseBody := do
  let authJwt ← mapErr .aauth (accessOp (.mintAccessAuthJwt
    config.accessServerUrl config.resourceUrl ctx.agentClaims.identifier
    ctx.agentClaims.cnf.jwk (some grant.sub)
    (grant.scope <|> ctx.resourceClaims.scope)))
  return { authToken := authJwt, expiresIn := 3600 }

/-- The record context of a request. -/
def toPending (ctx : AccessTokenContext) : AccessPendingContext where
  accessServerUrl := ctx.accessServerUrl
  resourceUrl := ctx.resourceUrl
  personServerUrl := ctx.personServerUrl
  agentClaims := ctx.agentClaims
  resourceClaims := ctx.resourceClaims
  resourceToken := ctx.resourceToken
  agentToken := ctx.agentToken

/-- `From<AccessPendingContext>` -/
def toTokenContext (c : AccessPendingContext) : AccessTokenContext where
  accessServerUrl := c.accessServerUrl
  resourceUrl := c.resourceUrl
  personServerUrl := c.personServerUrl
  agentClaims := c.agentClaims
  resourceClaims := c.resourceClaims
  resourceToken := c.resourceToken
  agentToken := c.agentToken

def createDeferredAccessResponse (config : AccessServerConfig)
    (ctx : AccessTokenContext) (requirement : DeferRequirement) :
    AccessTask E AuthTokenFlowOutcome := do
  let id := generatePendingId (← liftProg pendingIdBytes)
  let record := PendingRecord.new (← liftProg systemNow) id (toPending ctx)
    (.ofRequirement requirement) config.pendingTtlSecs
  let _ ← storeOp (PendingStore.create record)
  return deferredAt config id requirement

def updateAccessPendingDefer (config : AccessServerConfig)
    (pendingId : String) (requirement : DeferRequirement) :
    AccessTask E AuthTokenFlowOutcome := do
  match ← storeOp (PendingStore.load pendingId) with
  | none => return .gone
  | some record => do
      storeOp (PendingStore.save pendingId
        { record with snapshot := .ofRequirement requirement })
      return deferredAt config pendingId requirement

def applyAccessDecision (config : AccessServerConfig)
    (ctx : AccessTokenContext) (decision : AccessTokenDecision) :
    AccessTask E AuthTokenFlowOutcome := do
  match decision with
  | .grant grant => do
      let body ← mintAccessAuth config grant ctx
      return .granted body
  | .deny err => return .denied err
  | .defer requirement => createDeferredAccessResponse config ctx requirement

def applyAccessPendingDecision (config : AccessServerConfig)
    (ctx : AccessTokenContext) (pendingId : String)
    (decision : AccessTokenDecision) :
    AccessTask E AuthTokenFlowOutcome := do
  match decision with
  | .grant grant => do
      let body ← mintAccessAuth config grant ctx
      storeOp (PendingStore.complete pendingId (.authToken body))
      return .granted body
  | .deny err => do
      storeOp (PendingStore.complete pendingId (.error err))
      return .denied err
  | .defer requirement =>
      updateAccessPendingDefer config pendingId requirement

def exchangeToken (config : AccessServerConfig) (ctx : AccessTokenContext) :
    AccessTask E AuthTokenFlowOutcome := do
  let decision ← mapErr .policy (accessOp (.evaluate ctx))
  applyAccessDecision config ctx decision

def resumePending (config : AccessServerConfig) (pendingId : String)
    (input : PendingInput) : AccessTask E AuthTokenFlowOutcome := do
  match ← storeOp (PendingStore.load pendingId) with
  | none => return .gone
  | some record =>
      if record.isExpired (← liftProg systemNow) then
        let _ ← liftProg (PendingStore.remove pendingId)
        return .gone
      else do
        let ctx := toTokenContext record.context
        let decision ← mapErr .policy (accessOp (.resume ctx input))
        applyAccessPendingDecision config ctx pendingId decision

def pollPending (pendingId : String) :
    AccessTask E AuthTokenPollOutcome :=
  mapErr .pendingStore (pollAuthPending pendingId).run

end Service

inductive Call where
  | exchangeToken (ctx : AccessTokenContext)
  | pollPending (pendingId : String)
  | resumePending (pendingId : String) (input : PendingInput)

/-- `PolicyAccessTokenService` -/
def service (E : Type) (config : AccessServerConfig) :
    Service (accessSig E) where
  Call := Call
  Reply
    | .exchangeToken _ | .resumePending _ _ =>
        Except (AccessTokenServiceError E) AuthTokenFlowOutcome
    | .pollPending _ =>
        Except (AccessTokenServiceError E) AuthTokenPollOutcome
  prog
    | .exchangeToken ctx => (exchangeToken config ctx).run
    | .pollPending id => (pollPending id).run
    | .resumePending id input => (resumePending config id input).run

end Access

/-! ## The token endpoint (`aauth-axum/src/access/routes.rs`) -/

/-- What `access_token_exchange_handler` does before it calls the service:
the context it calls it with, or the status it answers. -/
def accessTokenExchangeRequest (cr : Crates) (now : Nat)
    (config : AccessServerConfig) (uriPath : String) (headers : HeaderMap)
    (body : Option AccessTokenExchangeRequest) :
    Except Nat AccessTokenContext := do
  let authority := (headerValue headers "host").getD "localhost"
  let request ← body.okOr 400
  let _ ← (verify cr now "POST" authority uriPath headers .default).mapError
    fun _ => 401
  (AccessTokenContext.fromExchange cr config request).mapError fun _ => 400

def accessTokenExchangeHandler {E : Type} (cr : Crates) (now : Nat)
    (config : AccessServerConfig) (uriPath : String) (headers : HeaderMap)
    (body : Option AccessTokenExchangeRequest) :
    Prog (accessSig E) (Except Nat
      (Except (AccessTokenServiceError E) AuthTokenFlowOutcome)) :=
  match accessTokenExchangeRequest cr now config uriPath headers body with
  | .error status => .ret (.error status)
  | .ok ctx => (Access.exchangeToken config ctx).run >>= fun reply =>
      .ret (.ok reply)

end Aauth
