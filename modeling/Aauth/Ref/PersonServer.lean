import Aauth.Ref.PendingStore
import Aauth.Ref.ResourceVerify

/-!
# The Person Server's token exchange (`aauth/src/person_server`)

Verifying a token request, minting, and federating to the Access Server
the resource token names. The policy, the minter, the Access Server client
and each reading of the verifier's environment are effects of the service;
what they answer is up to the world it runs in.
-/

namespace Aauth

open Text Except Effect

/-! ## Configuration and outcomes (`service.rs`) -/

structure PersonServerConfig where
  personServerUrl : String
  resourceUrl : String
  interactionUrl : String
  pendingBaseUrl : String
  pendingPath : String
  pendingTtlSecs : Nat
  federationPollMaxSecs : Option Nat
deriving DecidableEq, Repr

structure PersonTokenContext where
  personServerUrl : String
  resourceUrl : String
  agentClaims : AgentClaims
  resourceClaims : ResourceClaims
  exchangeRequest : TokenExchangeRequest
deriving DecidableEq, Repr

def PersonTokenContext.audienceIsPersonServer (cr : Crates)
    (ctx : PersonTokenContext) : Bool :=
  normalizeServerUrl cr ctx.resourceClaims.aud ==
    normalizeServerUrl cr ctx.personServerUrl

inductive PersonTokenFlowOutcome where
  | granted (body : TokenResponseBody)
  | deferred (defer : DeferCreated)
  | denied (e : AAuthProtocolError)
  | gone
  | unauthorized
  | badGateway
deriving DecidableEq, Repr

inductive PersonInteractionOutcome where
  | redirect (location : String)
  | invalidCode
  | expired
  | pending (body : PendingBody)
deriving DecidableEq, Repr

/-! ## Effects -/

inductive AccessServerExchangeOutcome where
  | complete (body : TokenResponseBody)
  | deferred (requirement : DeferRequirement) (asPendingUrl : String)
deriving DecidableEq, Repr

/-- `aauth_policy::PolicyError` -/
structure PolicyError where
  message : String
deriving DecidableEq, Repr

structure AuthGrant where
  sub : String
  scope : Option String
deriving DecidableEq, Repr

inductive PersonTokenDecision where
  | grant (grant : AuthGrant)
  | federate
  | deny (e : AAuthProtocolError)
  | defer (requirement : DeferRequirement)
deriving DecidableEq, Repr

/-- The effects of the Person Server beside the store: the policy, the
minter, the random bytes of a code, the four methods of the Access Server
client, and the environment of a token verification. `panic` is the end
of a call whose handler panicked. -/
inductive PersonOp where
  | evaluate (ctx : PersonTokenContext)
  | resume (ctx : PersonTokenContext) (input : PendingInput)
  | mintPersonAuthJwt (iss aud agent : String) (agentJwk : PublicJwk)
      (sub scope : Option String)
  | codeBytes
  | fetchMetadata (accessServerUrl : String)
  | exchangeToken (tokenEndpoint : String)
      (request : AccessTokenExchangeRequest)
  | resumePending (pendingUrl : String) (input : PendingInput)
  | pollPending (accessServerUrl : String) (options : ServerPollOptions)
  | verifyEnv
  | panic

abbrev personExt : Sig where
  Op := PersonOp
  Ans
    | .evaluate _ | .resume _ _ => Except PolicyError PersonTokenDecision
    | .mintPersonAuthJwt .. => AAuthResult String
    | .codeBytes => Bytes
    | .fetchMetadata _ => AAuthResult AccessServerMetadata
    | .exchangeToken _ _ => AAuthResult AccessServerExchangeOutcome
    | .resumePending _ _ => AAuthResult (Option TokenResponseBody)
    | .pollPending _ _ => AAuthResult ServerPollOutcome
    | .verifyEnv => VerifyEnv
    | .panic => Empty

abbrev personSig (E : Type) : Sig :=
  serviceSig E PersonPendingContext personExt

/-- A call of the Person Server that may fail with `ε`. -/
abbrev PersonM (E ε : Type) := ExceptT ε (Prog (personSig E))

def personOp {E : Type} (o : PersonOp) :
    Prog (personSig E) (personExt.Ans o) := .call (.ext o) .ret

/-! ## Verifying a token request (`context.rs`) -/

/-- The claims of an agent token, else the error given. -/
def ParsedToken.expectAgent (e : AAuthError) :
    ParsedToken → AAuthResult AgentClaims
  | .agent c => .ok c
  | .auth _ => .error e
  | .resource _ => .error e

def verifyTokenRequest (cr : Crates) (env : VerifyEnv)
    (config : PersonServerConfig) (agentJwt agentJkt resourceToken : String)
    (exchangeRequest : TokenExchangeRequest) :
    AAuthResult PersonTokenContext := do
  let parsed ← ParsedToken.parse cr agentJwt
  let agent ← parsed.expectAgent (.verify (.invalid .auth .wrongTyp))
  let resourceClaims ← verifyResourceToken cr env
    { jwt := resourceToken, expectedAgent := some agent.identifier,
      expectedAgentJkt := some agentJkt }
  return { personServerUrl := config.personServerUrl,
           resourceUrl := config.resourceUrl, agentClaims := agent,
           resourceClaims, exchangeRequest }

def mintPersonAuth {E : Type} (config : PersonServerConfig) (sub : String)
    (scope : Option String) (agent : AgentClaims) :
    PersonM E AAuthError TokenResponseBody := do
  let authJwt ← mapErr id (personOp (.mintPersonAuthJwt
    config.personServerUrl config.resourceUrl agent.identifier
    agent.cnf.jwk (some sub) scope))
  return { authToken := authJwt, expiresIn := 3600 }

/-- `TestPersonAuthJwtMinter` (`keys.rs`): the parameters it mints with. -/
def personMintParams (cr : Crates) (key : Ed25519KeyPair)
    (iss aud agent : String) (agentJwk : PublicJwk)
    (sub scope : Option String) : AuthJwtMintParams where
  encodingKey := key.encodingKey cr
  kid := key.kid
  dwk := "aauth-person.json"
  iss := iss
  aud := aud
  agent := agent
  agentJwk := agentJwk
  sub := sub
  scope := scope

/-! ## Federation (`federation.rs`) -/

inductive FederationOutcome where
  | complete (body : TokenResponseBody)
  | deferred (requirement : DeferRequirement)
      (asPendingUrl accessServerUrl : String)
deriving DecidableEq, Repr

/-- An auth token minted by an Access Server, before it is handed on. -/
def verifyFederatedAuthToken (cr : Crates) (env : VerifyEnv)
    (authToken expectedIss expectedAud agentToken : String) :
    AAuthResult Unit := do
  let parsed ← ParsedToken.parse cr agentToken
  let agent ← parsed.expectAgent (.verify (.invalid .agent .wrongTyp))
  let agentJkt ← jwkThumbprint cr agent.cnf.jwk
  let verified ← verifyToken cr env
    { jwt := authToken, httpSignatureThumbprint := agentJkt }
  let auth ← verified.expectAuth (.verify (.invalid .auth .expectedAuth))
  failIf (trimEndMatches auth.iss '/' ≠ trimEndMatches expectedIss '/')
    (.verify .issMismatch)
  failIf (trimEndMatches auth.aud '/' ≠ trimEndMatches expectedAud '/')
    (.verify .audMismatch)
  failIf (auth.agent ≠ agent.identifier) (.verify .agentMismatch)

/-- `AccessServerMetadata::validate` -/
def AccessServerMetadata.validate (m : AccessServerMetadata) :
    AAuthResult Unit :=
  failIf (m.tokenEndpoint.isEmpty = true) (.metadata .missingTokenEndpoint)

/-- A pure step inside a call. -/
def liftExcept {S : Sig} {ε α : Type} (x : Except ε α) :
    ExceptT ε (Prog S) α := ExceptT.mk (.ret x)

/-- The token and the environment are read, then checked, in one step. -/
def verifyFederated {E : Type} (cr : Crates)
    (authToken expectedIss expectedAud agentToken : String) :
    PersonM E AAuthError Unit := do
  let env ← liftProg (personOp .verifyEnv)
  liftExcept (verifyFederatedAuthToken cr env authToken expectedIss
    expectedAud agentToken)

def federateToAccessServer {E : Type} (cr : Crates)
    (config : PersonServerConfig) (resourceToken agentToken : String) :
    PersonM E AAuthError FederationOutcome := do
  let parsed ← liftExcept (ParsedToken.parse cr resourceToken)
  let claims ← liftExcept
    (parsed.expectResource (.verify (.invalid .resource .wrongTyp)))
  let accessServerUrl := trimEndMatches claims.aud '/'
  let metadata ← mapErr id (personOp (.fetchMetadata accessServerUrl))
  liftExcept metadata.validate
  let request : AccessTokenExchangeRequest :=
    { resourceToken, agentToken, upstreamToken := none,
      subagentToken := none }
  match ← mapErr id (personOp (.exchangeToken metadata.tokenEndpoint
      request)) with
  | .complete tokenBody => do
      verifyFederated cr tokenBody.authToken accessServerUrl
        config.resourceUrl agentToken
      return .complete tokenBody
  | .deferred requirement asPendingUrl =>
      return .deferred requirement asPendingUrl accessServerUrl

end Aauth
