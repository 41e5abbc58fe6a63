import Aauth.Ref.HttpSig
import Aauth.Ref.ResourceVerify

/-!
# The resource (`aauth/src/resource`, `aauth-axum/src/resource`)

The layer in front of a protected service, as a function from a request
and what the layer reads from outside to what it does: call the inner
service with a token, ask the consent service, or answer on its own. The
authorization endpoint, the layer's sibling, is at the end.
-/

namespace Aauth

open Text Except

/-! ## Resource tokens (`token.rs`, `keys.rs`) -/

/-- `ResourceTokenSigner` -/
abbrev ResourceTokenSigner :=
  Header → ResourceClaims → Except ResourceTokenError String

/-- `Ed25519ResourceTokenSigner` -/
def ed25519ResourceTokenSigner (cr : Crates) (key : Ed25519KeyPair) :
    ResourceTokenSigner := fun header claims =>
  let header := if header.kid = none then { header with kid := key.kid }
    else header
  (cr.jsonwebtoken.encode header (cr.json.resourceClaims.toVec claims)
    (key.encodingKey cr)).mapError .encode

structure ResourceTokenOptions where
  resource : String
  audience : String
  agent : String
  agentJkt : String
  scope : Option String
  mission : Option Mission
  lifetime : Option Nat
  interaction : Option ResourceInteractionClaim

/-- The claims that are signed, at a time and with a fresh `jti`. -/
def ResourceTokenOptions.claims (o : ResourceTokenOptions) (now : Nat)
    (jti : String) : ResourceClaims where
  iss := o.resource
  dwk := "aauth-resource.json"
  aud := o.audience
  jti := jti
  agent := o.agent
  agentJkt := o.agentJkt
  iat := now
  exp := now + o.lifetime.getD 300
  scope := o.scope
  mission := o.mission
  interaction := o.interaction

def ResourceTokenOptions.sign (o : ResourceTokenOptions) (now : Nat)
    (jti : String) (signer : ResourceTokenSigner) :
    Except ResourceTokenError String :=
  signer { typ := some JwtTyp.resource.asStr, alg := .edDSA, kid := none }
    (o.claims now jti)

/-! ## The layer's configuration (`service.rs`) -/

structure ResourceAccessContext where
  resourceUrl : String
  agentClaims : AgentClaims
  scope : Option String
deriving DecidableEq, Repr

/-- `validateOpaque` is what the consent service answers in the state its
opaque store is in. -/
inductive ResourceAccessMode where
  | identityBased
  | psAsserted (requireAuthToken : Bool)
      (accessServerUrl personServerFallback : Option String)
  | resourceManaged (validateOpaque : (token agentId : String) → Bool)

structure ResourceInteractionContext where
  resourceUrl : String
  agent : AgentClaims
  agentJkt : String

def noResourceInteraction :
    ResourceInteractionContext → Option ResourceInteractionClaim :=
  fun _ => none

structure ResourceAuthLayer where
  fetcher : MetadataFetcher
  resourceUrl : String
  mode : ResourceAccessMode
  resourceTokenSigner : ResourceTokenSigner
  interactionProvider :
    ResourceInteractionContext → Option ResourceInteractionClaim

/-- What one request reads from outside: the clock at its three readings
and the identifier of a resource token. -/
structure LayerEnv where
  signatureNow : Nat
  verifyNow : Nat
  signNow : Nat
  jti : String

/-! ## Responses (`layer.rs`) -/

inductive ResponseBody where
  | text (s : String)
  | protocol (e : AAuthProtocolError)
deriving DecidableEq, Repr

structure Response where
  status : Nat
  headers : HeaderMap
  body : ResponseBody
deriving DecidableEq, Repr

/-- What the layer does with a request. -/
inductive LayerOutcome where
  | inner (token : ParsedToken)
  | consent (ctx : ResourceAccessContext)
  | respond (response : Response)
  | panic

def jsonHeaders : HeaderMap := ⟨[("content-type", "application/json")]⟩

def agentTokenRequired : Response where
  status := 401
  headers := ⟨[("aauth-requirement", AAuthChallenge.agentToken.toHeader)]⟩
  body := .text "Agent token required"

def unauthorizedMessage (message : String) : Response where
  status := 401
  headers := jsonHeaders
  body := .protocol (.withDescription .invalidRequest message)

def unauthorizedErr (err : AAuthError) : Response :=
  let answer := err.intoAauthProtocol.getD
    (401, .withDescription .invalidSignature "unauthorized")
  { status := answer.1
    headers := match err.signatureErrorHeader with
      | none => jsonHeaders
      | some code => jsonHeaders.insert "signature-error" ("error=" ++ code)
    body := .protocol answer.2 }

/-! ## The layer (`layer.rs`) -/

def agentSubFromJwt (cr : Crates) (jwt : String) : String :=
  ((ParsedToken.parse cr jwt).toOption.bind
    ParsedToken.agentIdentifier).getD ""

/-- The opaque token of an `Authorization: AAuth` header, if it is one. -/
def extractAauthAccess (headers : HeaderMap) :
    AAuthResult (Option String) :=
  match headers.getAll "authorization" with
  | [] => .ok none
  | _ :: _ :: _ =>
      .error (.header (.invalid "multiple Authorization headers"))
  | [raw] => do
      let value ← (toStr raw).okOr
        (.header (.invalid "non-UTF-8 Authorization"))
      if startsWith (trim value) "AAuth" = false then return none
      else return some (← parseAauthCredential value)

namespace ResourceAuthLayer

variable (cr : Crates) (layer : ResourceAuthLayer) (env : LayerEnv)

def identityBased : Bool :=
  match layer.mode with
  | .identityBased => true
  | _ => false

/-- Read in resource-managed mode only. -/
def opaqueAuth (headers : HeaderMap) : AAuthResult (Option String) :=
  match layer.mode with
  | .resourceManaged _ => extractAauthAccess headers
  | _ => .ok none

/-- A credential that cannot be read asks for a covered `Authorization`,
like one that can. -/
def opaqueRetry (headers : HeaderMap) : Bool :=
  match layer.opaqueAuth headers with
  | .ok token => token.isSome
  | .error _ => true

def sigOptions (headers : HeaderMap) : VerifyOptions :=
  { VerifyOptions.default with
    requireAuthorization := layer.opaqueRetry headers }

/-- The answer to a request without a verified signature. -/
def rejectSignature (err : AAuthError) : LayerOutcome :=
  if layer.identityBased = true ∧ err.isMissingAgentCredential = true then
    .respond agentTokenRequired
  else .respond (unauthorizedErr err)

/-- The `401` that carries a resource token. -/
def requireAuthToken (agent : AgentClaims) (thumbprint : String)
    (accessServerUrl personServerFallback : Option String) : LayerOutcome :=
  match resolveResourceTokenAudience agent accessServerUrl
      personServerFallback with
  | .error e => .respond (unauthorizedMessage e.toString)
  | .ok audience =>
      let interaction := layer.interactionProvider
        { resourceUrl := layer.resourceUrl, agent, agentJkt := thumbprint }
      let options : ResourceTokenOptions :=
        { resource := layer.resourceUrl, audience,
          agent := agent.identifier, agentJkt := thumbprint, scope := none,
          mission := none, lifetime := none, interaction }
      match options.sign env.signNow env.jti layer.resourceTokenSigner with
      | .error e => .respond (unauthorizedErr (.resourceToken e))
      | .ok resourceToken =>
          match headerValueFromStr
              (AAuthChallenge.authToken resourceToken).toHeader with
          | .error _ => .panic
          | .ok header => .respond
              { status := 401
                headers := ⟨[("aauth-requirement", header)]⟩
                body := .text "Auth token required" }

/-- What a verified token gets, by mode. -/
def byMode (verified : ParsedToken) (thumbprint : String) : LayerOutcome :=
  match layer.mode, verified with
  | .identityBased, .agent _ => .inner verified
  | .identityBased, _ => .respond agentTokenRequired
  | .psAsserted true accessServerUrl personServerFallback, .agent agent =>
      layer.requireAuthToken env agent thumbprint accessServerUrl
        personServerFallback
  | .psAsserted _ _ _, _ => .inner verified
  | .resourceManaged _, .agent agent => .consent
      { resourceUrl := layer.resourceUrl, agentClaims := agent,
        scope := none }
  | .resourceManaged _, .auth _ => .inner verified
  | .resourceManaged _, .resource _ =>
      .respond (unauthorizedMessage "unexpected resource token")

/-- The answer to a token that does not verify. -/
def rejectToken (e : AAuthError) : LayerOutcome :=
  match layer.identityBased, e with
  | true, .verify (.invalid _ .unsupportedTyp) => .respond agentTokenRequired
  | _, e => .respond (unauthorizedErr e)

/-- The path through `verify_token`. -/
def verifyAndAdmit (jwt thumbprint : String) : LayerOutcome :=
  match verifyToken cr { now := env.verifyNow, fetcher := layer.fetcher }
      { jwt, httpSignatureThumbprint := thumbprint } with
  | .error e => layer.rejectToken e
  | .ok verified =>
      let binding := match verified with
        | .auth auth => verifyAuthTokenBinding cr auth layer.resourceUrl
        | _ => .ok ()
      match binding with
      | .error e => .respond (unauthorizedErr e)
      | .ok () => layer.byMode env verified thumbprint

/-- The retry with an opaque token. -/
def admitOpaque (validateOpaque : (token agentId : String) → Bool)
    (opaqueToken jwt : String) : LayerOutcome :=
  match validateOpaque opaqueToken (agentSubFromJwt cr jwt),
      ParsedToken.parse cr jwt with
  | true, .ok (.agent agent) => .inner (.agent agent)
  | _, _ => .respond (unauthorizedMessage "invalid opaque access token")

/-- What follows a verified HTTP signature that presents a JWT. -/
def admitJwt (headers : HeaderMap) (jwt thumbprint : String) :
    LayerOutcome :=
  match layer.mode, layer.opaqueAuth headers with
  | .resourceManaged _, .error _ =>
      .respond (unauthorizedMessage "invalid opaque access token")
  | .resourceManaged validateOpaque, .ok (some opaqueToken) =>
      admitOpaque cr validateOpaque opaqueToken jwt
  | _, _ => layer.verifyAndAdmit cr env jwt thumbprint

/-- `ResourceAuthLayer::call` -/
def call (req : Request) : LayerOutcome :=
  let (method, authority, path) := signatureParts req
  match verify cr env.signatureNow method authority path req.headers
      (layer.sigOptions req.headers) with
  | .error e => layer.rejectSignature (.signature (.fromHttpsigKey e))
  | .ok verified =>
      match verified.jwt with
      | none => layer.rejectSignature (.signature .missingJwtParam)
      | some jwt => layer.admitJwt cr env req.headers jwt verified.thumbprint

end ResourceAuthLayer

/-! ## The authorization endpoint (`routes.rs`) -/

structure AuthorizationRequest where
  scope : String
deriving DecidableEq, Repr

/-- What `resource_authorize_handler` does before it asks the consent
service: the context it asks with, or the status it answers. -/
def resourceAuthorizeRequest (cr : Crates) (now : Nat) (resourceUrl : String)
    (uriPath : String) (headers : HeaderMap)
    (body : Option AuthorizationRequest) :
    Except Nat ResourceAccessContext := do
  let authority := (headerValue headers "host").getD "localhost"
  let verified ← (verify cr now "POST" authority uriPath headers
    .default).mapError fun _ => 401
  let jwt ← verified.jwt.okOr 401
  let request ← body.okOr 400
  match ParsedToken.parse cr jwt with
  | .ok (.agent agent) =>
      return { resourceUrl, agentClaims := agent, scope := some request.scope }
  | _ => throw 401

end Aauth
