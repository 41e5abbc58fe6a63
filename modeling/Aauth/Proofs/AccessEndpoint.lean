import Aauth.Proofs.PersonEndpoint
import Aauth.Ref.AccessServer

/-!
# Who the Access Server's token endpoint lets in

The endpoint checks that the request is signed by somebody and that its
two tokens parse. Neither token is verified, and nothing compares them
with each other or with this server, so a context is built for any pair
of texts of the right two kinds.
-/

namespace Aauth

open Except Effect

section Exchange

variable {cr : Crates} {env : VerifyEnv} {config : AccessServerConfig}
  {request : AccessTokenExchangeRequest}

/-- What an exchange is supposed to rest on: both tokens verified, and the
resource token meant for this server, for this agent and for its key. -/
structure ExchangeGenuine (cr : Crates) (env : VerifyEnv)
    (config : AccessServerConfig) (request : AccessTokenExchangeRequest)
    (c : AgentClaims) (rc : ResourceClaims) : Prop where
  agentSigned : IssuerSigned cr env c.iss c.dwk request.agentToken
  agentUnexpired : env.now ≤ c.exp + CLOCK_SKEW
  resource : ∃ jkt, jwkThumbprint cr c.cnf.jwk = .ok jkt ∧
    ResourceTokenChecks cr env (resourceTokenFor c jkt request.resourceToken)
      rc
  aud : normalizeServerUrl cr rc.aud =
    normalizeServerUrl cr config.accessServerUrl

/-- The context of an exchange whose two tokens parse. -/
def accessContext (config : AccessServerConfig)
    (request : AccessTokenExchangeRequest) (c : AgentClaims)
    (rc : ResourceClaims) : AccessTokenContext where
  accessServerUrl := config.accessServerUrl
  resourceUrl := config.resourceUrl
  personServerUrl := config.personServerUrl
  agentClaims := c
  resourceClaims := rc
  resourceToken := request.resourceToken
  agentToken := request.agentToken

theorem fromExchange_eq_ok {ctx : AccessTokenContext} :
    AccessTokenContext.fromExchange cr config request = .ok ctx ↔
      ∃ c rc, ParsedToken.parse cr request.agentToken = .ok (.agent c) ∧
        ParsedToken.parse cr request.resourceToken = .ok (.resource rc) ∧
        ctx = accessContext config request c rc := by
  simp only [AccessTokenContext.fromExchange, bind_eq_ok, expectAgent_eq_ok,
    expectResource_eq_ok, pure_eq_ok]
  constructor
  · intro h
    obtain ⟨t, hp, c, rfl, t', hp', rc, rfl, rfl⟩ := h
    exact ⟨c, rc, hp, hp', rfl⟩
  · intro h
    obtain ⟨c, rc, hp, hp', rfl⟩ := h
    exact ⟨_, hp, c, rfl, _, hp', rc, rfl, rfl⟩

variable {now : Nat} {uriPath : String} {headers : HeaderMap}
  {body : Option AccessTokenExchangeRequest}

/-- Somebody signed the request. -/
def HttpSigned (cr : Crates) (now : Nat) (uriPath : String)
    (headers : HeaderMap) : Prop :=
  ∃ v, verify cr now "POST" ((headerValue headers "host").getD "localhost")
    uriPath headers .default = .ok v

/-- The service is called exactly for signed requests whose tokens
parse. -/
theorem accessTokenExchangeRequest_eq_ok {ctx : AccessTokenContext} :
    accessTokenExchangeRequest cr now config uriPath headers body = .ok ctx ↔
      ∃ request c rc, body = some request ∧
        HttpSigned cr now uriPath headers ∧
        ParsedToken.parse cr request.agentToken = .ok (.agent c) ∧
        ParsedToken.parse cr request.resourceToken = .ok (.resource rc) ∧
        ctx = accessContext config request c rc := by
  simp only [accessTokenExchangeRequest, bind_eq_ok, mapError_eq_ok,
    Option.okOr_eq_ok, fromExchange_eq_ok, HttpSigned]
  constructor
  · intro h
    obtain ⟨request, hb, v, hv, c, rc, hp, hp', hc⟩ := h
    exact ⟨request, c, rc, hb, ⟨v, hv⟩, hp, hp', hc⟩
  · intro h
    obtain ⟨request, c, rc, hb, ⟨v, hv⟩, hp, hp', hc⟩ := h
    exact ⟨request, hb, v, hv, c, rc, hp, hp', hc⟩

/-- Every exchange the endpoint lets through is genuine exactly when the
tokens of a signed request that parse are. -/
theorem accessTokenExchangeRequest_genuine :
    (∀ ctx, accessTokenExchangeRequest cr now config uriPath headers body =
        .ok ctx → ∃ request, body = some request ∧
          ExchangeGenuine cr env config request ctx.agentClaims
            ctx.resourceClaims) ↔
      ∀ request c rc, body = some request →
        HttpSigned cr now uriPath headers →
        ParsedToken.parse cr request.agentToken = .ok (.agent c) →
        ParsedToken.parse cr request.resourceToken = .ok (.resource rc) →
        ExchangeGenuine cr env config request c rc := by
  constructor
  · intro h request c rc hb hv hp hp'
    obtain ⟨request', hb', hg⟩ := h _
      (accessTokenExchangeRequest_eq_ok.mpr
        ⟨request, c, rc, hb, hv, hp, hp', rfl⟩)
    rw [hb] at hb'
    cases hb'
    exact hg
  · intro h ctx hctx
    obtain ⟨request, c, rc, hb, hv, hp, hp', rfl⟩ :=
      accessTokenExchangeRequest_eq_ok.mp hctx
    exact ⟨request, hb, h request c rc hb hv hp hp'⟩

end Exchange

/-! ## At the sample parties -/

namespace Sample

def accessConfig : AccessServerConfig where
  accessServerUrl := accessServer
  resourceUrl := resource
  personServerUrl := personServer
  pendingBaseUrl := accessServer
  pendingPath := "/pending"
  pendingTtlSecs := 600

/-- Two tokens of the outsider's making, in the names of the agent and the
resource. -/
def forgedExchange : AccessTokenExchangeRequest where
  resourceToken :=
    resourceToken (challenge resource otherResource outsiderKey) outsiderKey
  agentToken := agentToken impostor outsiderKey
  upstreamToken := none
  subagentToken := none

/-- A request by the outsider, over its own key. -/
def forgedHeaders : HeaderMap :=
  signedHeaders HeaderMap.empty "POST" "localhost" "/aauth/token" outsiderKey
    (agentToken impostor outsiderKey)

theorem host_forgedHeaders :
    (headerValue forgedHeaders "host").getD "localhost" = "localhost" := by
  rw [forgedHeaders, headerValue_signedHeaders (by decide) (by decide)
    (by decide)]
  rfl

/-- The service is called with the outsider's tokens. -/
theorem accessTokenExchangeRequest_forged :
    ∃ ctx, accessTokenExchangeRequest crates now accessConfig "/aauth/token"
        forgedHeaders (some forgedExchange) = .ok ctx ∧
      ctx.agentClaims = impostor ∧
      ¬ ExchangeGenuine crates env accessConfig forgedExchange
        ctx.agentClaims ctx.resourceClaims := by
  refine ⟨_, accessTokenExchangeRequest_eq_ok.mpr ⟨forgedExchange, impostor,
    challenge resource otherResource outsiderKey, rfl, ?_,
    parse_agentToken _ _, parse_resourceToken _ _, rfl⟩, rfl, ?_⟩
  · rw [HttpSigned, host_forgedHeaders]
    exact ⟨_, verify_signedHeaders standard_default (fun h => nomatch h) rfl
      rfl (by rfl) (by rfl) (by rfl)⟩
  · intro h
    exact not_signed providerKey rfl (by decide) h.agentSigned

end Sample

end Aauth
