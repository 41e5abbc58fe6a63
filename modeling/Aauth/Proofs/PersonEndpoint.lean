import Aauth.Ref.PersonService
import Aauth.Sample.Parties

/-!
# Who the Person Server's token endpoint lets in

The agent's JWT brings both the key that verifies the HTTP signature and
the identity the resource token is compared with, so every comparison the
endpoint makes holds of a forged JWT as well. Only the issuer's signature
breaks the circle, and `verify_token_request` does not ask for it: it lets
an agent in exactly when it would have been right to trust an unverified
parse.
-/

namespace Aauth

open Except Effect

section Exchange

variable {cr : Crates} {env : VerifyEnv} {config : PersonServerConfig}
  {request : TokenExchangeRequest} {jwt jkt resourceToken : String}

/-- The agent's provider issued the token, and it is still good. -/
structure AgentVouched (cr : Crates) (env : VerifyEnv) (jwt : String)
    (c : AgentClaims) : Prop where
  signed : IssuerSigned cr env c.iss c.dwk jwt
  unexpired : env.now ≤ c.exp + CLOCK_SKEW
  rules : AgentClaimRules cr env.now c

/-- The options a resource token is verified with on behalf of an agent. -/
def resourceTokenFor (c : AgentClaims) (jkt resourceToken : String) :
    VerifyResourceTokenOptions where
  jwt := resourceToken
  expectedAgent := some c.identifier
  expectedAgentJkt := some jkt

/-- What a context of the token endpoint is supposed to stand for. -/
structure AgentAuthenticated (cr : Crates) (env : VerifyEnv)
    (jwt jkt resourceToken : String) (ctx : PersonTokenContext) : Prop where
  parsed : ParsedToken.parse cr jwt = .ok (.agent ctx.agentClaims)
  vouched : AgentVouched cr env jwt ctx.agentClaims
  bound : jwkThumbprint cr ctx.agentClaims.cnf.jwk = .ok jkt
  resource : ResourceTokenChecks cr env
    (resourceTokenFor ctx.agentClaims jkt resourceToken) ctx.resourceClaims

theorem expectAgent_eq_ok {e : AAuthError} {t : ParsedToken}
    {c : AgentClaims} : t.expectAgent e = .ok c ↔ t = .agent c := by
  cases t <;> simp [ParsedToken.expectAgent]

/-- The context of a request whose agent token parses. -/
def personContext (config : PersonServerConfig) (c : AgentClaims)
    (rc : ResourceClaims) (request : TokenExchangeRequest) :
    PersonTokenContext where
  personServerUrl := config.personServerUrl
  resourceUrl := config.resourceUrl
  agentClaims := c
  resourceClaims := rc
  exchangeRequest := request

/-- A token request is accepted when the agent token parses and the
resource token verifies for it. -/
theorem verifyTokenRequest_eq_ok (laws : JwtLaws cr)
    {ctx : PersonTokenContext} :
    verifyTokenRequest cr env config jwt jkt resourceToken request = .ok ctx ↔
      ∃ c rc, ParsedToken.parse cr jwt = .ok (.agent c) ∧
        ResourceTokenChecks cr env (resourceTokenFor c jkt resourceToken) rc ∧
        ctx = personContext config c rc request := by
  simp only [verifyTokenRequest, bind_eq_ok, expectAgent_eq_ok,
    verifyResourceToken_eq_ok laws, pure_eq_ok]
  constructor
  · intro h
    obtain ⟨t, hp, c, rfl, rc, hrc, rfl⟩ := h
    exact ⟨c, rc, hp, hrc, rfl⟩
  · intro h
    obtain ⟨c, rc, hp, hrc, rfl⟩ := h
    exact ⟨_, hp, c, rfl, rc, hrc, rfl⟩

end Exchange

/-! ## At the sample parties -/

namespace Sample

def personConfig : PersonServerConfig where
  personServerUrl := personServer
  resourceUrl := resource
  interactionUrl := "https://person.example/interact"
  pendingBaseUrl := personServer
  pendingPath := "/pending"
  pendingTtlSecs := 600
  federationPollMaxSecs := none

/-- What the resource answers the holder of a key that claims to be the
agent. -/
def challenge (iss aud : String) (key : Ed25519KeyPair) : ResourceClaims where
  iss := iss
  dwk := "aauth-resource.json"
  aud := aud
  jti := "challenge-1"
  agent := bot.sub
  agentJkt := thumbprint key
  iat := now
  exp := now + 300
  scope := none
  mission := none
  interaction := none

theorem challenge_checks {iss aud : String} {key : Ed25519KeyPair}
    {c : AgentClaims} (hc : c.sub = bot.sub)
    (hiss : publishedKey iss = some resourceKey) :
    ResourceTokenChecks crates env (resourceTokenFor c (thumbprint key)
      (resourceToken (challenge iss aud key) resourceKey))
      (challenge iss aud key) where
  parsed := parse_resourceToken _ _
  unexpired := by
    show (now : Int) ≤ u64AsI64 (now + 300) + 60
    decide
  dwk := rfl
  agent := by
    intro a ha
    cases ha
    exact hc.symm
  agentJkt := by
    intro a ha
    cases ha
    rfl
  signed := signed_resourceToken _ hiss rfl (by
    show now ≤ now + 300 + 60
    omega)

def exchangeRequest (resourceToken : String) : TokenExchangeRequest where
  resourceToken := resourceToken
  upstreamToken := none
  subagentToken := none
  justification := none
  loginHint := none
  tenant := none
  domainHint := none
  capabilities := none
  prompt := none
  platform := none
  device := none

/-- The agent's identity, over the key of someone else. -/
def impostor : AgentClaims := { bot with
  cnf := { jwk := outsiderKey.publicJwk crates } }

/-- A request to the token endpoint by the holder of `key`. -/
def exchangeHeaders (c : AgentClaims) (key signer : Ed25519KeyPair) :
    HeaderMap :=
  signedHeaders HeaderMap.empty "POST" "person.example" "/aauth/token" key
    (agentToken c signer)

theorem standard_default : StandardOptions .default := ⟨rfl, rfl, rfl⟩

theorem verify_exchangeHeaders (c : AgentClaims) (key signer : Ed25519KeyPair)
    (hcnf : c.cnf.jwk = key.publicJwk crates)
    (hkey : key.signingKey.length = 32) :
    verify crates now "POST" "person.example" "/aauth/token"
      (exchangeHeaders c key signer) .default = .ok
        { label := "sig", signatureKey := .jwt (agentToken c signer),
          publicJwk := key.publicJwk crates, thumbprint := thumbprint key,
          jwt := some (agentToken c signer) } :=
  verify_signedHeaders standard_default (fun h => nomatch h) hcnf hkey
    (by rfl) (by rfl) (by rfl)

/-- What the resource answers the agent. -/
def botChallenge : ResourceClaims := challenge resource personServer agentKey

end Sample

end Aauth
