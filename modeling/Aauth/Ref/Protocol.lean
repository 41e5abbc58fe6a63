import Aauth.Lib.Json

/-!
# Wire types (`aauth/src/protocol`)

The values the four parties exchange: keys, the claims of the three token
kinds, token requests and responses, and the protocol's own error body.
Times are seconds since the epoch; a claim the source holds as `i64` is an
`Int` here and one it holds as `u64` a `Nat`.
-/

namespace Aauth

/-! ## Keys (`httpsig-key/src/protocol/jwk.rs`) -/

structure PublicJwk where
  kty : String
  crv : String
  x : String
  y : Option String
  kid : Option String
deriving DecidableEq, Repr

structure SigningJwk where
  kty : String
  crv : String
  x : String
  y : Option String
  d : String
  kid : Option String
deriving DecidableEq, Repr

def SigningJwk.publicJwk (jwk : SigningJwk) : PublicJwk where
  kty := jwk.kty
  crv := jwk.crv
  x := jwk.x
  y := jwk.y
  kid := jwk.kid

/-! ## Token claims (`protocol/jwt.rs`) -/

/-- The `typ` header values of the three token kinds. -/
inductive JwtTyp where
  | agent
  | auth
  | resource
deriving DecidableEq, Repr

namespace JwtTyp

def asStr : JwtTyp → String
  | agent => "aa-agent+jwt"
  | auth => "aa-auth+jwt"
  | resource => "aa-resource+jwt"

def verifyErrorCode : JwtTyp → String
  | agent => "invalid_agent_token"
  | auth => "invalid_auth_token"
  | resource => "invalid_resource_token"

/-- The `{:?}` rendering. -/
def debug : JwtTyp → String
  | agent => "Agent"
  | auth => "Auth"
  | resource => "Resource"

def fromStr (value : String) : Option JwtTyp :=
  if value = "aa-agent+jwt" then some agent
  else if value = "aa-auth+jwt" then some auth
  else if value = "aa-resource+jwt" then some resource
  else none

@[simp] theorem fromStr_asStr (t : JwtTyp) : fromStr t.asStr = some t := by
  cases t <;> decide

end JwtTyp

/-- RFC 7800 confirmation: the key the token is bound to. -/
structure CnfClaim where
  jwk : PublicJwk
deriving DecidableEq, Repr

/-- One node of a delegation chain. -/
structure ActClaim where
  agent : String
  act : Option ActClaim
deriving Repr

def ActClaim.decEq : (a b : ActClaim) → Decidable (a = b)
  | ⟨x, none⟩, ⟨y, none⟩ => decidable_of_iff (x = y) (by simp)
  | ⟨_, none⟩, ⟨_, some _⟩ => isFalse (by simp)
  | ⟨_, some _⟩, ⟨_, none⟩ => isFalse (by simp)
  | ⟨x, some a⟩, ⟨y, some b⟩ =>
      have := ActClaim.decEq a b
      decidable_of_iff (x = y ∧ a = b) (by simp)

instance : DecidableEq ActClaim := ActClaim.decEq

structure Mission where
  approver : String
  s256 : String
deriving DecidableEq, Repr

structure AgentClaims where
  iss : String
  dwk : String
  sub : String
  jti : String
  cnf : CnfClaim
  iat : Int
  exp : Int
  ps : Option String
  parentAgent : Option String
deriving DecidableEq, Repr

def AgentClaims.identifier (c : AgentClaims) : String := c.sub

structure AuthClaims where
  iss : String
  dwk : String
  aud : String
  jti : String
  agent : String
  act : Option ActClaim
  cnf : CnfClaim
  iat : Int
  exp : Int
  sub : Option String
  scope : Option String
  tenant : Option String
  mission : Option Mission
deriving DecidableEq, Repr

structure ResourceInteractionClaim where
  url : String
  code : String
deriving DecidableEq, Repr

structure ResourceClaims where
  iss : String
  dwk : String
  aud : String
  jti : String
  agent : String
  agentJkt : String
  iat : Nat
  exp : Nat
  scope : Option String
  mission : Option Mission
  interaction : Option ResourceInteractionClaim
deriving DecidableEq, Repr

/-! ## Token endpoint bodies (`protocol/token_exchange.rs`) -/

inductive Capability where
  | interaction
  | clarification
  | payment
deriving DecidableEq, Repr

structure TokenExchangeRequest where
  resourceToken : String
  upstreamToken : Option String
  subagentToken : Option String
  justification : Option String
  loginHint : Option String
  tenant : Option String
  domainHint : Option String
  capabilities : Option (List Capability)
  prompt : Option String
  platform : Option String
  device : Option String
deriving DecidableEq, Repr

structure AccessTokenExchangeRequest where
  resourceToken : String
  agentToken : String
  upstreamToken : Option String
  subagentToken : Option String
deriving DecidableEq, Repr

structure TokenResponseBody where
  authToken : String
  expiresIn : Nat
deriving DecidableEq, Repr

/-- The fields of the Access Server metadata that some party reads or
writes. -/
structure AccessServerMetadata where
  issuer : Option String
  tokenEndpoint : String
  jwksUri : Option String
deriving DecidableEq, Repr

/-! ## Pending bodies (`protocol/common.rs`, `protocol/pending.rs`) -/

inductive PendingStatus where
  | pending
  | interacting
deriving DecidableEq, Repr

inductive RequirementLevel where
  | agentToken
  | authToken
  | approval
  | interaction
  | clarification
  | claims
deriving DecidableEq, Repr

namespace RequirementLevel

def asStr : RequirementLevel → String
  | agentToken => "agent-token"
  | authToken => "auth-token"
  | approval => "approval"
  | interaction => "interaction"
  | clarification => "clarification"
  | claims => "claims"

def fromStr (value : String) : Option RequirementLevel :=
  if value = "agent-token" then some agentToken
  else if value = "auth-token" then some authToken
  else if value = "approval" then some approval
  else if value = "interaction" then some interaction
  else if value = "clarification" then some clarification
  else if value = "claims" then some claims
  else none

@[simp] theorem fromStr_asStr (l : RequirementLevel) :
    fromStr l.asStr = some l := by
  cases l <;> decide

end RequirementLevel

structure ClarificationChallenge where
  status : PendingStatus
  clarification : String
  timeout : Option Nat
  options : Option (List String)
deriving DecidableEq, Repr

structure ClaimsChallenge where
  status : PendingStatus
  requiredClaims : List String
deriving DecidableEq, Repr

inductive PendingBody where
  | status (status : PendingStatus)
  | clarification (c : ClarificationChallenge)
  | claims (c : ClaimsChallenge)
deriving DecidableEq, Repr

/-- Identity claims posted to a pending URL; `extra` holds the flattened
members. -/
structure ClaimsSubmission where
  sub : String
  email : Option String
  tenant : Option String
  extra : List (String × Json)

structure UpdatedTokenRequest where
  resourceToken : String
  justification : Option String
deriving DecidableEq, Repr

/-! ## Protocol errors (`protocol/error.rs`) -/

inductive AAuthErrorCode where
  | invalidRequest
  | invalidAgentToken
  | expiredAgentToken
  | invalidResourceToken
  | expiredResourceToken
  | userUnreachable
  | serverError
  | invalidSignature
  | invalidScope
  | denied
  | abandoned
  | expired
  | invalidCode
  | slowDown
  | invalidInput
  | invalidKey
  | unknownKey
  | invalidJwt
  | expiredJwt
  | accessDenied
  | userAbandoned
  | interactionExpired
  | temporarilyUnavailable
  | interactionUnavailable
  | missionTerminated
  | custom (code : String)
deriving DecidableEq, Repr

structure AAuthProtocolError where
  error : AAuthErrorCode
  errorDescription : Option String
  errorUri : Option String
deriving DecidableEq, Repr

def AAuthProtocolError.withDescription (code : AAuthErrorCode)
    (description : String) : AAuthProtocolError where
  error := code
  errorDescription := some description
  errorUri := none

end Aauth
