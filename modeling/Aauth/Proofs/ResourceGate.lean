import Aauth.Proofs.PersonEndpoint
import Aauth.Ref.ResourceLayer

/-!
# Which tokens the resource trusts

Every way into the inner service but one goes through `verifyToken`. The
exception is the retry with an opaque token, which takes the agent's name
from an unverified parse; so does the authorization endpoint. Each of the
two is sound exactly on the requests whose JWT would have verified.
-/

namespace Aauth

open Except

/-! ## Presented tokens -/

/-- A signature verifies and presents this JWT. -/
def Presented (cr : Crates) (now : Nat) (method authority path : String)
    (headers : HeaderMap) (options : VerifyOptions)
    (jwt thumbprint : String) : Prop :=
  ∃ v, verify cr now method authority path headers options = .ok v ∧
    v.jwt = some jwt ∧ v.thumbprint = thumbprint

section Presented

variable {cr : Crates} {now : Nat} {method authority path : String}
  {headers : HeaderMap} {options : VerifyOptions}
  {jwt jwt' thumbprint thumbprint' : String}

theorem Presented.jwt_eq
    (h : Presented cr now method authority path headers options jwt thumbprint)
    (h' : Presented cr now method authority path headers options jwt'
      thumbprint') : jwt = jwt' := by
  obtain ⟨v, hv, hj, -⟩ := h
  obtain ⟨v', hv', hj', -⟩ := h'
  rw [hv] at hv'
  cases hv'
  rw [hj] at hj'
  exact Option.some.inj hj'

theorem Presented.bound (laws : CnfLaws cr) {c : AgentClaims}
    (h : Presented cr now method authority path headers options jwt thumbprint)
    (hp : ParsedToken.parse cr jwt = .ok (.agent c)) :
    jwkThumbprint cr c.cnf.jwk = .ok thumbprint := by
  obtain ⟨v, hv, hj, rfl⟩ := h
  exact verify_bound_agent laws hv hj hp

end Presented

section Gate

variable {cr : Crates} {layer : ResourceAuthLayer} {env : LayerEnv}

/-! ## The layer -/

/-- What the layer verifies tokens with. -/
def ResourceAuthLayer.verifyEnv (layer : ResourceAuthLayer)
    (env : LayerEnv) : VerifyEnv where
  now := env.verifyNow
  fetcher := layer.fetcher

/-- The request's signature verifies and presents this JWT. -/
def ResourceAuthLayer.Presents (cr : Crates) (layer : ResourceAuthLayer)
    (env : LayerEnv) (req : Request) (jwt thumbprint : String) : Prop :=
  Presented cr env.signatureNow (signatureParts req).1
    (signatureParts req).2.1 (signatureParts req).2.2 req.headers
    (layer.sigOptions req.headers) jwt thumbprint

/-- A token that may be trusted: presented by the holder of its key,
signed by its issuer and not expired. -/
def ResourceAuthLayer.Trusted (cr : Crates) (layer : ResourceAuthLayer)
    (env : LayerEnv) (req : Request) (t : ParsedToken) : Prop :=
  ∃ jwt thumbprint, layer.Presents cr env req jwt thumbprint ∧
    TokenChecks cr (layer.verifyEnv env)
      { jwt, httpSignatureThumbprint := thumbprint } t

/-- `P` holds of the token a request got in with, if it got in. -/
def LayerOutcome.All (P : ParsedToken → Prop) : LayerOutcome → Prop
  | inner t => P t
  | consent ctx => P (.agent ctx.agentClaims)
  | respond _ => True
  | panic => True

/-- The inner service and the consent service only see trusted tokens. -/
def ResourceAuthLayer.Sound (cr : Crates) (layer : ResourceAuthLayer)
    (env : LayerEnv) (req : Request) : Prop :=
  (layer.call cr env req).All (layer.Trusted cr env req)

/-- What the layer does once a signature has verified. -/
theorem ResourceAuthLayer.call_of_presents {req : Request}
    {jwt thumbprint : String}
    (h : layer.Presents cr env req jwt thumbprint) :
    layer.call cr env req = layer.admitJwt cr env req.headers jwt
      thumbprint := by
  obtain ⟨v, hv, hj, rfl⟩ := h
  simp only [call, hv, hj]

theorem ResourceAuthLayer.rejectSignature_all {P : ParsedToken → Prop}
    (e : AAuthError) : (layer.rejectSignature e).All P := by
  rw [rejectSignature]
  split
  · trivial
  · trivial

theorem ResourceAuthLayer.rejectToken_all {P : ParsedToken → Prop}
    (e : AAuthError) : (layer.rejectToken e).All P := by
  unfold rejectToken
  split
  · trivial
  · trivial

/-- A property of every admitted token, from the JWTs that are
presented. -/
theorem ResourceAuthLayer.call_all {req : Request} {P : ParsedToken → Prop}
    (h : ∀ jwt thumbprint, layer.Presents cr env req jwt thumbprint →
      (layer.admitJwt cr env req.headers jwt thumbprint).All P) :
    (layer.call cr env req).All P := by
  simp only [call]
  split
  · exact rejectSignature_all _
  · next v hv =>
      split
      · exact rejectSignature_all _
      · next jwt hj => exact h jwt v.thumbprint ⟨v, hv, hj, rfl⟩

theorem ResourceAuthLayer.requireAuthToken_all {P : ParsedToken → Prop}
    {agent : AgentClaims} {thumbprint : String} {as fallback : Option String} :
    (layer.requireAuthToken env agent thumbprint as fallback).All P := by
  simp only [requireAuthToken]
  split
  · trivial
  · split
    · trivial
    · split
      · trivial
      · trivial

/-- A verified token is admitted as it is. -/
theorem ResourceAuthLayer.byMode_all {t : ParsedToken} {thumbprint : String} :
    (layer.byMode env t thumbprint).All (· = t) := by
  simp only [byMode]
  split
  · rfl
  · trivial
  · exact requireAuthToken_all
  · rfl
  · rfl
  · rfl
  · trivial

theorem LayerOutcome.All.mono {P Q : ParsedToken → Prop} {o : LayerOutcome}
    (h : o.All P) (hpq : ∀ t, P t → Q t) : o.All Q := by
  cases o with
  | inner t => exact hpq t h
  | consent ctx => exact hpq _ h
  | respond _ => trivial
  | panic => trivial

/-- The path through `verifyToken` admits what it accepts. -/
theorem ResourceAuthLayer.verifyAndAdmit_all (laws : JwtLaws cr)
    {jwt thumbprint : String} :
    (layer.verifyAndAdmit cr env jwt thumbprint).All
      (TokenChecks cr (layer.verifyEnv env)
        { jwt, httpSignatureThumbprint := thumbprint }) := by
  simp only [verifyAndAdmit]
  split
  · exact rejectToken_all _
  · next t ht =>
      have hc := ((verifyToken_eq_ok laws).mp ht).1
      split
      · trivial
      · exact byMode_all.mono fun t' he => he ▸ hc

/-! ## The retry with an opaque token -/

/-- The agent a JWT names without being verified. -/
theorem agentSubFromJwt_eq {jwt : String} {c : AgentClaims}
    (h : ParsedToken.parse cr jwt = .ok (.agent c)) :
    agentSubFromJwt cr jwt = c.sub := by
  rw [agentSubFromJwt, h]
  rfl

/-- The request retries with an opaque token of the agent its JWT names. -/
structure ResourceAuthLayer.RetriesWith (cr : Crates)
    (layer : ResourceAuthLayer) (req : Request) (jwt : String)
    (c : AgentClaims) where
  validateOpaque : (token agentId : String) → Bool
  opaqueToken : String
  mode : layer.mode = .resourceManaged validateOpaque
  credential : extractAauthAccess req.headers = .ok (some opaqueToken)
  parsed : ParsedToken.parse cr jwt = .ok (.agent c)
  valid : validateOpaque opaqueToken c.sub = true

/-- The agent's provider issued the token, and it is not expired. -/
def IssuedTo (cr : Crates) (env : VerifyEnv) (jwt : String)
    (c : AgentClaims) : Prop :=
  IssuerSigned cr env c.iss c.dwk jwt ∧ env.now ≤ c.exp + CLOCK_SKEW

theorem ResourceAuthLayer.RetriesWith.admitted {req : Request}
    {jwt thumbprint : String} {c : AgentClaims}
    (h : layer.RetriesWith cr req jwt c) :
    layer.admitJwt cr env req.headers jwt thumbprint =
      .inner (.agent c) := by
  obtain ⟨validateOpaque, opaqueToken, hm, hc, hp, hv⟩ := h
  simp only [admitJwt, opaqueAuth, hm, hc, admitOpaque, hp,
    agentSubFromJwt_eq hp, hv]

/-- Beside the path through `verifyToken` there is only the retry. -/
theorem ResourceAuthLayer.admitJwt_all {req : Request}
    {jwt thumbprint : String} {P : ParsedToken → Prop}
    (hverify : (layer.verifyAndAdmit cr env jwt thumbprint).All P)
    (hretry : ∀ c, layer.RetriesWith cr req jwt c → P (.agent c)) :
    (layer.admitJwt cr env req.headers jwt thumbprint).All P := by
  simp only [admitJwt]
  split
  · trivial
  · next validateOpaque opaqueToken hm hc =>
      rw [admitOpaque]
      split
      · next agent hv hp =>
          simp only [opaqueAuth, hm] at hc
          rw [agentSubFromJwt_eq hp] at hv
          exact hretry agent ⟨validateOpaque, opaqueToken, hm, hc, hp, hv⟩
      · trivial
  · exact hverify

/-- The opaque retries of a request are by agents their provider vouches
for. -/
def ResourceAuthLayer.RetryGenuine (cr : Crates) (layer : ResourceAuthLayer)
    (env : LayerEnv) (req : Request) : Prop :=
  ∀ jwt thumbprint c, layer.Presents cr env req jwt thumbprint →
    Nonempty (layer.RetriesWith cr req jwt c) →
      IssuedTo cr (layer.verifyEnv env) jwt c

theorem ResourceAuthLayer.sound_iff (laws : JwtLaws cr) (cnf : CnfLaws cr)
    {req : Request} :
    layer.Sound cr env req ↔ layer.RetryGenuine cr env req := by
  constructor
  · intro h jwt thumbprint c hpres hretry
    obtain ⟨r⟩ := hretry
    rw [Sound, call_of_presents hpres, r.admitted] at h
    obtain ⟨jwt', thumbprint', hpres', hc⟩ := h
    rw [hpres'.jwt_eq hpres] at hc
    exact ⟨hc.signed, hc.unexpired⟩
  · intro h
    refine call_all fun jwt thumbprint hpres => ?_
    refine admitJwt_all ?_ ?_
    · exact (verifyAndAdmit_all laws).mono fun t ht =>
        ⟨jwt, thumbprint, hpres, ht⟩
    · intro c r
      obtain ⟨hsigned, hexp⟩ := h jwt thumbprint c hpres ⟨r⟩
      have hb := hpres.bound cnf r.parsed
      exact ⟨jwt, thumbprint, hpres, r.parsed, hexp, ⟨_, rfl, hb⟩, hsigned⟩

/-! ## The authorization endpoint -/

section Authorize

variable {now : Nat} {venv : VerifyEnv} {resourceUrl uriPath : String}
  {headers : HeaderMap} {body : Option AuthorizationRequest}

/-- The signature of a request to the authorization endpoint verifies and
presents this JWT. -/
def AuthorizePresents (cr : Crates) (now : Nat) (uriPath : String)
    (headers : HeaderMap) (jwt thumbprint : String) : Prop :=
  Presented cr now "POST" ((headerValue headers "host").getD "localhost")
    uriPath headers .default jwt thumbprint

/-- The consent service is only asked for agents that may be trusted. -/
def AuthorizeSound (cr : Crates) (now : Nat) (venv : VerifyEnv)
    (resourceUrl uriPath : String) (headers : HeaderMap)
    (body : Option AuthorizationRequest) : Prop :=
  ∀ ctx, resourceAuthorizeRequest cr now resourceUrl uriPath headers body =
      .ok ctx →
    ∃ jwt thumbprint, AuthorizePresents cr now uriPath headers jwt thumbprint ∧
      TokenChecks cr venv { jwt, httpSignatureThumbprint := thumbprint }
        (.agent ctx.agentClaims)

/-- The agent tokens presented with a request for a scope are by agents
their provider vouches for. -/
def AuthorizeGenuine (cr : Crates) (now : Nat) (venv : VerifyEnv)
    (uriPath : String) (headers : HeaderMap)
    (body : Option AuthorizationRequest) : Prop :=
  ∀ jwt thumbprint c, AuthorizePresents cr now uriPath headers jwt thumbprint →
    body.isSome → ParsedToken.parse cr jwt = .ok (.agent c) →
      IssuedTo cr venv jwt c

theorem resourceAuthorizeRequest_eq_ok {ctx : ResourceAccessContext} :
    resourceAuthorizeRequest cr now resourceUrl uriPath headers body =
        .ok ctx ↔
      ∃ jwt thumbprint c request,
        AuthorizePresents cr now uriPath headers jwt thumbprint ∧
        body = some request ∧ ParsedToken.parse cr jwt = .ok (.agent c) ∧
        ctx = ⟨resourceUrl, c, some request.scope⟩ := by
  simp only [resourceAuthorizeRequest, bind_eq_ok, mapError_eq_ok,
    Option.okOr_eq_ok, AuthorizePresents, Presented]
  constructor
  · intro h
    obtain ⟨v, hv, jwt, hj, request, hb, hr⟩ := h
    split at hr
    · next c hp =>
        cases hr
        exact ⟨jwt, _, c, request, ⟨v, hv, hj, rfl⟩, hb, hp, rfl⟩
    · cases hr
  · intro h
    obtain ⟨jwt, tp, c, request, ⟨v, hv, hj, rfl⟩, hb, hp, rfl⟩ := h
    refine ⟨v, hv, jwt, hj, request, hb, ?_⟩
    simp only [hp]
    rfl

theorem authorizeSound_iff (cnf : CnfLaws cr) :
    AuthorizeSound cr now venv resourceUrl uriPath headers body ↔
      AuthorizeGenuine cr now venv uriPath headers body := by
  constructor
  · intro h jwt thumbprint c hpres hb hp
    obtain ⟨request, hb⟩ := Option.isSome_iff_exists.mp hb
    obtain ⟨jwt', _, hpres', hc⟩ := h _ (resourceAuthorizeRequest_eq_ok.mpr
      ⟨jwt, thumbprint, c, request, hpres, hb, hp, rfl⟩)
    rw [hpres'.jwt_eq hpres] at hc
    exact ⟨hc.signed, hc.unexpired⟩
  · intro h ctx hctx
    obtain ⟨jwt, thumbprint, c, request, hpres, hb, hp, rfl⟩ :=
      resourceAuthorizeRequest_eq_ok.mp hctx
    obtain ⟨hsigned, hexp⟩ := h jwt thumbprint c hpres (by rw [hb]; rfl) hp
    have hbound := hpres.bound cnf hp
    exact ⟨jwt, thumbprint, hpres, hp, hexp, ⟨_, rfl, hbound⟩, hsigned⟩

end Authorize

end Gate

/-! ## At the sample parties -/

namespace Sample

/-- A resource that gave the agent an opaque token. -/
def managedLayer : ResourceAuthLayer where
  fetcher := fetcher
  resourceUrl := resource
  mode := .resourceManaged fun token agentId =>
    token == "opaque-1" && agentId == bot.sub
  resourceTokenSigner := ed25519ResourceTokenSigner crates resourceKey
  interactionProvider := noResourceInteraction

def layerEnv : LayerEnv where
  signatureNow := now
  verifyNow := now
  signNow := now
  jti := "challenge-1"

def retryHeaders : HeaderMap :=
  ⟨[("host", "resource.example"), ("authorization", "AAuth opaque-1")]⟩

/-- The opaque token, used by the holder of `key`. -/
def retryRequest (c : AgentClaims) (key signer : Ed25519KeyPair) : Request where
  method := "GET"
  uri := { host := none, port := none, path := "/data" }
  headers := signedHeaders retryHeaders "GET" "resource.example" "/data" key
    (agentToken c signer)

theorem headers_retryRequest (c : AgentClaims) (key signer : Ed25519KeyPair) :
    (retryRequest c key signer).headers = signedHeaders retryHeaders "GET"
      "resource.example" "/data" key (agentToken c signer) := rfl

theorem signatureParts_retryRequest (c : AgentClaims)
    (key signer : Ed25519KeyPair) :
    signatureParts (retryRequest c key signer) =
      ("GET", "resource.example", "/data") := by
  have h : headerValue (retryRequest c key signer).headers "host" =
      some "resource.example" := by
    rw [headers_retryRequest, headerValue_signedHeaders (by decide) (by decide)
      (by decide)]
    decide
  rw [signatureParts, h]
  rfl

theorem extractAauthAccess_retryRequest (c : AgentClaims)
    (key signer : Ed25519KeyPair) :
    extractAauthAccess (retryRequest c key signer).headers =
      .ok (some "opaque-1") := by
  have h : (retryRequest c key signer).headers.getAll "authorization" =
      ["AAuth opaque-1"] := by
    rw [headers_retryRequest, getAll_signedHeaders (by decide) (by decide)
      (by decide)]
    decide
  rw [extractAauthAccess, h]
  rfl

theorem presents_retryRequest (c : AgentClaims) (key signer : Ed25519KeyPair)
    (hcnf : c.cnf.jwk = key.publicJwk crates)
    (hkey : key.signingKey.length = 32) :
    managedLayer.Presents crates layerEnv (retryRequest c key signer)
      (agentToken c signer) (thumbprint key) := by
  have hauth : ∃ value,
      headerValue retryHeaders "authorization" = some value ∧
        Text.startsWith value "AAuth " = true :=
    ⟨"AAuth opaque-1", by decide, by decide⟩
  have ho : StandardOptions (managedLayer.sigOptions
      (retryRequest c key signer).headers) := ⟨rfl, rfl, rfl⟩
  rw [ResourceAuthLayer.Presents, signatureParts_retryRequest]
  rw [headers_retryRequest] at ho ⊢
  exact ⟨_, verify_signedHeaders ho (fun _ => hauth) hcnf hkey (by rfl)
    (by rfl) (by rfl), rfl, rfl⟩

def retries (c : AgentClaims) (key signer : Ed25519KeyPair)
    (hc : c.sub = bot.sub) : managedLayer.RetriesWith crates
      (retryRequest c key signer) (agentToken c signer) c where
  validateOpaque token agentId := token == "opaque-1" && agentId == bot.sub
  opaqueToken := "opaque-1"
  mode := rfl
  credential := extractAauthAccess_retryRequest c key signer
  parsed := parse_agentToken c signer
  valid := by
    rw [hc]
    decide

/-- A request to the authorization endpoint by the holder of `key`. -/
def authorizeHeaders (c : AgentClaims) (key signer : Ed25519KeyPair) :
    HeaderMap :=
  signedHeaders HeaderMap.empty "POST" "localhost" "/resource/authorize" key
    (agentToken c signer)

theorem presents_authorize (c : AgentClaims) (key signer : Ed25519KeyPair)
    (hcnf : c.cnf.jwk = key.publicJwk crates)
    (hkey : key.signingKey.length = 32) :
    AuthorizePresents crates now "/resource/authorize"
      (authorizeHeaders c key signer) (agentToken c signer)
      (thumbprint key) := by
  rw [AuthorizePresents, authorizeHeaders, headerValue_signedHeaders
    (by decide) (by decide) (by decide)]
  exact ⟨_, verify_signedHeaders standard_default (fun h => nomatch h) hcnf
    hkey (by rfl) (by rfl) (by rfl), rfl, rfl⟩

theorem issuedTo_of_parsed {c : AgentClaims}
    (h : ParsedToken.parse crates (agentToken bot providerKey) =
      .ok (.agent c)) : IssuedTo crates env (agentToken bot providerKey) c := by
  rw [parse_agentToken] at h
  cases h
  exact ⟨signed_agentToken _ rfl rfl (by decide) (by decide), by decide⟩

end Sample

end Aauth
