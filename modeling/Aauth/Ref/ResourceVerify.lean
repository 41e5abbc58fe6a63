import Aauth.Lib.Result
import Aauth.Ref.Identifiers
import Aauth.Ref.Jwt

/-!
# Token verification (`aauth/src/resource_verify`)

The three verifiers share one shape: parse without verifying, check the
claims, look the issuer's key up by `kid`, verify with it. What they read
from outside is a `VerifyEnv`: the clock, which one verification reads at
one instant, and the metadata fetcher.
-/

namespace Aauth

open Text Except

/-- Trims trailing slashes and lowercases, for comparing server URLs
(`http_util.rs`). -/
def normalizeServerUrl (cr : Crates) (url : String) : String :=
  cr.toLowercase (trimEndMatches url '/')

/-- `MetadataFetcher` (`metadata.rs`) -/
structure MetadataFetcher where
  resolveJwksUri : (iss dwk : String) → AAuthResult String
  fetchJwks : (jwksUri : String) → AAuthResult JwkSet

/-- What a verification reads from outside its arguments. -/
structure VerifyEnv where
  now : Nat
  fetcher : MetadataFetcher

structure VerifyTokenOptions where
  jwt : String
  httpSignatureThumbprint : String

structure VerifyResourceTokenOptions where
  jwt : String
  expectedAgent : Option String
  expectedAgentJkt : Option String

/-- Resolves the issuer's JWKS and selects the key named by `kid`. -/
def fetchDecodingKey (cr : Crates) (env : VerifyEnv) (iss dwk jwt : String) :
    AAuthResult DecodingKey := do
  let jwksUri ← env.fetcher.resolveJwksUri iss dwk
  let jwks ← env.fetcher.fetchJwks jwksUri
  let header ← jwtHeader cr jwt
  let kid ← header.kid.okOr (.verify .missingKid)
  let jwk ← (jwks.find kid).okOr (.verify (.unknownKid kid))
  (cr.jsonwebtoken.fromJwk jwk).mapError fun e => .jwt (.decode e)

/-! ## Agent and auth tokens -/

def validateAgentTokenClaims (cr : Crates) (now : Nat) (agent : AgentClaims) :
    AAuthResult Unit := do
  failIf (agent.dwk ≠ "aauth-agent.json")
    (.verify (.invalid .agent .invalidDwk))
  failIf (agent.iat > now + CLOCK_SKEW)
    (.verify (.invalid .agent .futureIat))
  failIf (isValidServerIdentifier cr agent.iss = false)
    (.verify (.invalid .agent .invalidIss))
  failIf (∃ ps ∈ agent.ps, isValidServerIdentifier cr ps = false)
    (.verify (.invalid .agent .invalidPs))
  failIf (∃ parent ∈ agent.parentAgent, isValidAgentIdentifier parent = false)
    (.verify (.invalid .agent .invalidParentAgent))

/-- How `verify_token` rewraps an error of the final, verified decode. -/
def rewrapVerifyError (typ : JwtTyp) : AAuthError → AAuthError
  | .verify v => .verify v
  | .jwt j => .verify (.jwt j)
  | other => .verify (.token typ.verifyErrorCode
      ("JWT signature verification failed: " ++ other.toString))

/-- The checks of `verify_token` that depend on the kind of token. -/
def verifyTokenTyp (cr : Crates) (now : Nat) :
    ParsedToken → AAuthResult JwtTyp
  | .agent agent => do
      validateAgentTokenClaims cr now agent
      return .agent
  | .auth _ => return .auth
  | .resource _ => throw (.verify (.invalid .resource .unsupportedTyp))

/-- Verifies an agent or auth JWT presented with an HTTP signature. -/
def verifyToken (cr : Crates) (env : VerifyEnv)
    (options : VerifyTokenOptions) : AAuthResult ParsedToken := do
  let parsed ← ParsedToken.parse cr options.jwt
  let typ ← verifyTokenTyp cr env.now parsed
  failIf (parsed.exp < env.now - CLOCK_SKEW) (.verify (.expired typ))
  let cnfJwk ← parsed.cnfJwk.okOr (.verify .keyBindingFailed)
  let cnfThumbprint ← jwkThumbprint cr cnfJwk
  failIf (cnfThumbprint ≠ options.httpSignatureThumbprint)
    (.verify .keyBindingFailed)
  let decodingKey ← fetchDecodingKey cr env parsed.iss parsed.dwk options.jwt
  (ParsedToken.verifyWithKey cr env.now options.jwt decodingKey).mapError
    (rewrapVerifyError typ)

/-! ## Resource tokens -/

/-- The claims of a resource token, else the error given. -/
def ParsedToken.expectResource (e : AAuthError) :
    ParsedToken → AAuthResult ResourceClaims
  | .resource c => .ok c
  | .agent _ => .error e
  | .auth _ => .error e

def verifyResourceToken (cr : Crates) (env : VerifyEnv)
    (options : VerifyResourceTokenOptions) : AAuthResult ResourceClaims := do
  let parsed ← ParsedToken.parse cr options.jwt
  let claims ← parsed.expectResource (.verify (.invalid .resource .wrongTyp))
  failIf (u64AsI64 claims.exp < env.now - CLOCK_SKEW)
    (.verify (.expired .resource))
  failIf (claims.dwk ≠ "aauth-resource.json")
    (.verify (.invalid .resource .invalidDwk))
  failIf (∃ expected ∈ options.expectedAgent, claims.agent ≠ expected)
    (.verify .agentMismatch)
  failIf (∃ expected ∈ options.expectedAgentJkt, claims.agentJkt ≠ expected)
    (.verify .agentJktMismatch)
  let decodingKey ← fetchDecodingKey cr env claims.iss claims.dwk options.jwt
  let verified ← ParsedToken.verifyWithKey cr env.now options.jwt decodingKey
  verified.expectResource (.verify (.token JwtTyp.resource.verifyErrorCode
    "Resource token signature verification failed: unexpected typ"))

/-- The resource token of a `401` challenge, before it is exchanged. -/
def verifyResourceChallenge (cr : Crates) (env : VerifyEnv)
    (jwt resourceUrl agentSub agentJkt : String) :
    AAuthResult ResourceClaims := do
  let claims ← verifyResourceToken cr env
    { jwt, expectedAgent := some agentSub, expectedAgentJkt := some agentJkt }
  failIf (normalizeServerUrl cr claims.iss ≠ normalizeServerUrl cr resourceUrl)
    (.verify .issMismatch)
  return claims

/-! ## Auth tokens in their context -/

def verifyAuthTokenBinding (cr : Crates) (auth : AuthClaims)
    (resourceUrl : String) : AAuthResult Unit :=
  failIf (normalizeServerUrl cr auth.aud ≠ normalizeServerUrl cr resourceUrl)
    (.verify .audMismatch)

def verifyClientAuthTokenClaims (cr : Crates) (now : Nat)
    (auth : AuthClaims) (resourceUrl resourceTokenAud agentSub
      agentJkt : String) : AAuthResult Unit := do
  failIf (auth.exp < now - CLOCK_SKEW) (.verify (.expired .auth))
  failIf (normalizeServerUrl cr auth.iss ≠
    normalizeServerUrl cr resourceTokenAud) (.verify .issMismatch)
  verifyAuthTokenBinding cr auth resourceUrl
  let cnfThumbprint ← jwkThumbprint cr auth.cnf.jwk
  failIf (cnfThumbprint ≠ agentJkt) (.verify .keyBindingFailed)
  failIf (auth.agent ≠ agentSub) (.verify .agentMismatch)
  failIf (∃ act ∈ auth.act, act.agent.isEmpty ∨
      startsWith act.agent "aauth:" = false)
    (.verify (.token JwtTyp.auth.verifyErrorCode
      "act.agent must be a non-empty aauth: agent identifier"))

/-- The claims of an auth token, else the error given. -/
def ParsedToken.expectAuth (e : AAuthError) :
    ParsedToken → AAuthResult AuthClaims
  | .auth c => .ok c
  | .agent _ => .error e
  | .resource _ => .error e

/-- The auth token of a token exchange, before the agent caches it. -/
def verifyClientAuthToken (cr : Crates) (env : VerifyEnv)
    (jwt resourceUrl resourceTokenAud agentSub agentJkt : String)
    (verifySignature : Bool) : AAuthResult AuthClaims := do
  let parsed ← ParsedToken.parse cr jwt
  let auth ← parsed.expectAuth (.verify (.invalid .auth .expectedAuth))
  verifyClientAuthTokenClaims cr env.now auth resourceUrl resourceTokenAud
    agentSub agentJkt
  if verifySignature then do
    let decodingKey ← fetchDecodingKey cr env auth.iss auth.dwk jwt
    let verified ← ParsedToken.verifyWithKey cr env.now jwt decodingKey
    verified.expectAuth (.verify (.invalid .auth .expectedAuth))
  else return auth

/-! ## Audience of a resource token (`audience.rs`) -/

inductive AudienceError where
  | noAudience
deriving DecidableEq, Repr

def AudienceError.toString : AudienceError → String
  | noAudience => "cannot determine resource token audience: no access " ++
      "server, no agent ps claim, and no fallback"

def resolveResourceTokenAudience (agent : AgentClaims)
    (accessServerUrl personServerFallback : Option String) :
    Except AudienceError String :=
  match accessServerUrl, agent.ps, personServerFallback with
  | some asUrl, _, _ => .ok asUrl
  | none, some ps, _ => .ok ps
  | none, none, some fallback => .ok fallback
  | none, none, none => .error .noAudience

end Aauth
