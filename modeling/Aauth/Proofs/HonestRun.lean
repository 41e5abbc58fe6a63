import Aauth.Proofs.AccessDecisions
import Aauth.Proofs.AccessEndpoint
import Aauth.Proofs.Challenge
import Aauth.Proofs.PersonSteps
import Aauth.Proofs.ResourceGate
import Aauth.Proofs.SignedRequests
import Aauth.Proofs.TokenExpiry
import Aauth.Ref.Agent
import Aauth.Ref.Policies

/-!
# The honest run completes

An agent with a valid token sends a signed request. The resource answers
with a resource token, the Person Server exchanges it, by itself or
through an Access Server, and the auth token it hands out opens the
resource. Along the way three tokens and two signed requests are written,
each read by somebody other than its writer, and every reader has rules
of its own. What is shown here is that the writers meet them: that no two
comparisons along the run have drifted apart.

`Deployment` holds what the servers are configured with and where their
configurations agree, `Timeline` when each of them reads its clock, and
`HonestAgent` an agent whose token is valid at the resource. A run that is
answered by nobody else, `personEnv` and `accessEnv`, then completes; it
is not only that if it ends it ends well, `HasAnswer` makes sure that no
call on the way is left without an answer.
-/

namespace Aauth

open Text Except Effect

/-! ## The parties -/

/-- What the crates promise for tokens and signatures to be read back as
they were written. -/
structure WireLaws (cr : Crates) : Prop where
  jwt : JwtLaws cr
  cnf : CnfLaws cr
  compact : CompactLaws cr
  mint : MintLaws cr
  sign : SignLaws cr
  httpsig : HttpsigLaws cr
  total : HttpsigTotal cr
  thumbprint : ThumbprintTotal cr

/-- What each party fetches the keys of the others with. -/
structure Fetchers where
  agent : MetadataFetcher
  resource : MetadataFetcher
  person : MetadataFetcher

/-- Whoever fetches the keys of `iss` finds `key`. -/
structure Fetchers.Find (cr : Crates) (f : Fetchers) (iss dwk : String)
    (key : Ed25519KeyPair) : Prop where
  agent : ∀ now, Nonempty (Serves cr ⟨now, f.agent⟩ iss dwk key)
  resource : ∀ now, Nonempty (Serves cr ⟨now, f.resource⟩ iss dwk key)
  person : ∀ now, Nonempty (Serves cr ⟨now, f.person⟩ iss dwk key)

/-- The servers of a run: a resource that wants an auth token, a Person
Server and an Access Server that grant whatever they are asked for. They
are configured for the same resource. -/
structure Deployment (cr : Crates) where
  resourceUrl : String
  resourceKey : Ed25519KeyPair
  accessServerUrl : Option String
  personServerFallback : Option String
  person : PersonServerConfig
  personPolicy : AlwaysGrantPersonPolicy
  personKey : Ed25519KeyPair
  access : AccessServerConfig
  accessPolicy : AlwaysGrantAccessPolicy
  accessKey : Ed25519KeyPair
  accessMetadata : AccessServerMetadata
  fetchers : Fetchers
  person_resourceUrl : person.resourceUrl = resourceUrl
  access_resourceUrl : access.resourceUrl = resourceUrl
  resource_found :
    fetchers.Find cr resourceUrl "aauth-resource.json" resourceKey

/-- When each party reads its clock. The signatures are fresh when they
are verified, and no token is past its lifetime and the minute allowed for
clocks that differ. -/
structure Timeline where
  asked : Nat
  seen : LayerEnv
  challenged : Nat
  exchanged : Nat
  minted : Nat
  federated : Nat
  received : Nat
  askedAgain : Nat
  seenAgain : LayerEnv
  asked_le : asked ≤ seen.signatureNow + 60
  seen_le : seen.signatureNow ≤ asked + 120
  challenged_le : challenged ≤ seen.signNow + 360
  exchanged_le : exchanged ≤ seen.signNow + 360
  federated_le : federated ≤ minted + 3660
  received_le : received ≤ minted + 3660
  askedAgain_le : askedAgain ≤ seenAgain.signatureNow + 60
  seenAgain_le : seenAgain.signatureNow ≤ askedAgain + 120
  verified_le : seenAgain.verifyNow ≤ minted + 3660
  -- `exp` is compared as an `i64`
  representable : seen.signNow + 300 < 2 ^ 63

/-- An agent whose token is valid where it is presented and bound to the
key that the agent signs with. -/
structure HonestAgent (cr : Crates) (env : VerifyEnv) where
  jwt : String
  claims : AgentClaims
  signing : SigningJwk
  parsed : ParsedToken.parse cr jwt = .ok (.agent claims)
  rules : AgentClaimRules cr env.now claims
  unexpired : env.now ≤ claims.exp + CLOCK_SKEW
  signed : IssuerSigned cr env claims.iss claims.dwk jwt
  pair : Nonempty (SigningPair cr signing claims.cnf.jwk)
  -- a `kid` is not part of a key
  cnf_eq : signing.publicJwk = { claims.cnf.jwk with kid := signing.kid }

/-- Who grants the token, by the audience of the resource token: the
Person Server when it is named, else the Access Server that is. -/
inductive Deployment.Grants {cr : Crates} (D : Deployment cr)
    (audience : String) : (iss dwk : String) → Ed25519KeyPair → Prop where
  | person : normalizeServerUrl cr audience =
        normalizeServerUrl cr D.person.personServerUrl →
      D.Grants audience D.person.personServerUrl "aauth-person.json"
        D.personKey
  | access : normalizeServerUrl cr audience ≠
        normalizeServerUrl cr D.person.personServerUrl →
      trimEndMatches audience '/' =
        trimEndMatches D.access.accessServerUrl '/' →
      D.accessMetadata.validate = .ok () →
      D.Grants audience D.access.accessServerUrl "aauth-access.json"
        D.accessKey

/-- The resource, in front of its service. -/
def Deployment.layer {cr : Crates} (D : Deployment cr) :
    ResourceAuthLayer where
  fetcher := D.fetchers.resource
  resourceUrl := D.resourceUrl
  mode := .psAsserted true D.accessServerUrl D.personServerFallback
  resourceTokenSigner := ed25519ResourceTokenSigner cr D.resourceKey
  interactionProvider := noResourceInteraction

/-- What the Access Server's effects answer: its policy decides, and the
shipped minter mints under any identifier. -/
def Deployment.accessEnv {cr : Crates} (D : Deployment cr) (T : Timeline) :
    (o : AccessOp) → accessExt.Ans o → Prop
  | .evaluate ctx, a => a = D.accessPolicy.evaluate ctx
  | .resume ctx input, a => a = D.accessPolicy.resume ctx input
  | .mintAccessAuthJwt iss aud agent agentJwk sub scope, a =>
      ∃ jti, a = encodeAuthJwt cr T.minted jti (Access.mintParams cr
        D.accessKey iss aud agent agentJwk sub scope)

abbrev Deployment.accessWorld {cr : Crates} (D : Deployment cr) (E : Type)
    (T : Timeline) :
    World (accessSig E) (ServiceState AccessPendingContext) :=
  momentWorld (D.accessEnv T) T.minted

/-- A grant of the Access Server reaches the Person Server as it is. -/
def Relayed {E : Type} (a : AAuthResult AccessServerExchangeOutcome) :
    Except (AccessTokenServiceError E) AuthTokenFlowOutcome → Prop
  | .ok (.granted body) => a = .ok (.complete body)
  | _ => True

/-- What the Person Server's effects answer. An exchange at the Access
Server is answered by a run of its service; the rest of what a Person
Server can ask for may be answered with anything. -/
def Deployment.personEnv {cr : Crates} (D : Deployment cr) (E : Type)
    (T : Timeline) : (o : PersonOp) → personExt.Ans o → Prop
  | .evaluate ctx, a => a = D.personPolicy.evaluate cr ctx
  | .mintPersonAuthJwt iss aud agent agentJwk sub scope, a =>
      ∃ jti, a = encodeAuthJwt cr T.minted jti (personMintParams cr
        D.personKey iss aud agent agentJwk sub scope)
  | .fetchMetadata url, a =>
      url = trimEndMatches D.access.accessServerUrl '/' →
        a = .ok D.accessMetadata
  | .exchangeToken endpoint request, a =>
      endpoint = D.accessMetadata.tokenEndpoint → ∀ ctx,
        AccessTokenContext.fromExchange cr D.access request = .ok ctx →
          ∃ s reply s', Exec (D.accessWorld E T) s
            (Access.exchangeToken D.access ctx).run reply s' ∧
            Relayed a reply
  | .verifyEnv, a => a = ⟨T.federated, D.fetchers.person⟩
  | _, _ => True

abbrev Deployment.personWorld {cr : Crates} (D : Deployment cr) (E : Type)
    (T : Timeline) :
    World (personSig E) (ServiceState PersonPendingContext) :=
  momentWorld (D.personEnv E T) T.exchanged

section Run

variable {cr : Crates} {D : Deployment cr} {T : Timeline} {jwt jkt : String}

/-! ## The agent's key -/

/-- The thumbprint of the bound key is that of the key the agent signs
with. -/
theorem HonestAgent.thumbprint (laws : WireLaws cr) {env : VerifyEnv}
    (A : HonestAgent cr env) :
    ∃ jkt, httpsigJwkThumbprint cr A.claims.cnf.jwk = .ok jkt ∧
      jwkThumbprint cr A.signing.publicJwk = .ok jkt := by
  obtain ⟨pair⟩ := A.pair
  obtain ⟨jkt, hjkt⟩ := httpsigJwkThumbprint_total laws.thumbprint
    pair.public_eq
  refine ⟨jkt, hjkt, ?_⟩
  rw [jwkThumbprint_eq_ok, A.cnf_eq]
  exact hjkt

theorem IssuerSigned.isCompact (laws : CompactLaws cr) {env : VerifyEnv}
    {iss dwk : String} (h : IssuerSigned cr env iss dwk jwt) :
    IsCompact jwt := by
  obtain ⟨_, -, _, _, -, hv, -⟩ := h
  exact laws.of_verified hv

/-! ## At the resource -/

/-- A request that is signed with the key its token is bound to gets as
far as the token. -/
theorem Deployment.call_signed (laws : WireLaws cr) (D : Deployment cr)
    {env : LayerEnv} {created : Nat} {req signed : Request}
    {signing : SigningJwk} {jwk : PublicJwk}
    (pair : SigningPair cr signing jwk) (hjwt : IsCompact jwt)
    (hcnf : cnfJwkFromJwt cr jwt = .ok jwk)
    (hjkt : httpsigJwkThumbprint cr jwk = .ok jkt)
    (hs : req.sign cr created ⟨signing, .jwt jwt⟩ = .ok signed)
    (hfuture : created ≤ env.signatureNow + 60)
    (hpast : env.signatureNow ≤ created + 120) :
    D.layer.call cr env signed = D.layer.verifyAndAdmit cr env jwt jkt := by
  have hparts := signatureParts_signed hs
  obtain ⟨-, headers, hsign, rfl⟩ := Request.sign_eq_ok.mp hs
  have ho : StandardOptions (D.layer.sigOptions headers) := ⟨rfl, rfl, rfl⟩
  have hauth : (D.layer.sigOptions headers).requireAuthorization = false :=
    rfl
  have hv := verify_of_sign laws.httpsig ho hjwt hcnf hjkt pair hsign
    hfuture hpast fun h => nomatch hauth.symm.trans h
  have hp : D.layer.Presents cr env { req with headers } jwt jkt := by
    rw [ResourceAuthLayer.Presents, hparts]
    exact ⟨_, hv, rfl, rfl⟩
  rw [ResourceAuthLayer.call_of_presents hp]
  rfl

/-- What the resource puts into a resource token. -/
def Deployment.tokenOptions (D : Deployment cr) (agent : AgentClaims)
    (jkt audience : String) : ResourceTokenOptions where
  resource := D.resourceUrl
  audience := audience
  agent := agent.identifier
  agentJkt := jkt
  scope := none
  mission := none
  lifetime := none
  interaction := none

/-- The answer that carries a resource token. -/
def challengeWith (resourceToken : String) : Response where
  status := 401
  headers := ⟨[("aauth-requirement",
    (AAuthChallenge.authToken resourceToken).toHeader)]⟩
  body := .text "Auth token required"

theorem ResourceTokenOptions.sign_ok (laws : SignLaws cr)
    (o : ResourceTokenOptions) (now : Nat) (jti : String)
    (key : Ed25519KeyPair) :
    ∃ token, o.sign now jti (ed25519ResourceTokenSigner cr key) = .ok token ∧
      cr.jsonwebtoken.encode ⟨some JwtTyp.resource.asStr, .edDSA, key.kid⟩
        (cr.json.resourceClaims.toVec (o.claims now jti))
        (key.encodingKey cr) = .ok token := by
  obtain ⟨token, he⟩ := laws.encode_ok
    ⟨some JwtTyp.resource.asStr, .edDSA, key.kid⟩
    (cr.json.resourceClaims.toVec (o.claims now jti)) key rfl
  exact ⟨token, mapError_eq_ok.mpr he, he⟩

theorem isVisible_challenge {token : String} (h : IsCompact token) :
    IsVisible (AAuthChallenge.authToken token).toHeader := by
  rw [AAuthChallenge.authToken_text]
  exact isVisible_append (isVisible_append (by rfl) h.isVisible) (by rfl)

/-- The resource challenges an agent token that verifies. -/
theorem Deployment.verifyAndAdmit_agent {env : LayerEnv} {c : AgentClaims}
    {audience token : String}
    (hv : verifyToken cr ⟨env.verifyNow, D.fetchers.resource⟩ ⟨jwt, jkt⟩ =
      .ok (.agent c))
    (ha : resolveResourceTokenAudience c D.accessServerUrl
      D.personServerFallback = .ok audience)
    (ht : (D.tokenOptions c jkt audience).sign env.signNow env.jti
      (ed25519ResourceTokenSigner cr D.resourceKey) = .ok token)
    (hc : IsCompact token) :
    D.layer.verifyAndAdmit cr env jwt jkt =
      .respond (challengeWith token) := by
  have hv : verifyToken cr { now := env.verifyNow, fetcher := D.layer.fetcher }
      { jwt, httpSignatureThumbprint := jkt } = .ok (.agent c) := hv
  have hh : headerValueFromStr (AAuthChallenge.authToken token).toHeader =
      .ok (AAuthChallenge.authToken token).toHeader :=
    headerValueFromStr_eq_ok.mpr (toStr_of_isVisible (isVisible_challenge hc))
  rw [ResourceAuthLayer.verifyAndAdmit, hv]
  show D.layer.requireAuthToken env c jkt D.accessServerUrl
    D.personServerFallback = _
  have ht : ResourceTokenOptions.sign
      { resource := D.layer.resourceUrl, audience,
        agent := c.identifier, agentJkt := jkt, scope := none,
        mission := none, lifetime := none,
        interaction := D.layer.interactionProvider
          { resourceUrl := D.layer.resourceUrl, agent := c,
            agentJkt := jkt } }
      env.signNow env.jti D.layer.resourceTokenSigner = .ok token := ht
  simp only [ResourceAuthLayer.requireAuthToken, ha, ht, hh]
  rfl

/-- The resource admits an auth token for it that verifies. -/
theorem Deployment.verifyAndAdmit_auth {env : LayerEnv} {auth : AuthClaims}
    (hv : verifyToken cr ⟨env.verifyNow, D.fetchers.resource⟩ ⟨jwt, jkt⟩ =
      .ok (.auth auth))
    (haud : auth.aud = D.resourceUrl) :
    D.layer.verifyAndAdmit cr env jwt jkt = .inner (.auth auth) := by
  have hv : verifyToken cr { now := env.verifyNow, fetcher := D.layer.fetcher }
      { jwt, httpSignatureThumbprint := jkt } = .ok (.auth auth) := hv
  have hb : verifyAuthTokenBinding cr auth D.layer.resourceUrl = .ok () := by
    rw [verifyAuthTokenBinding, failIf_eq_ok, haud]
    exact not_not_intro rfl
  simp only [ResourceAuthLayer.verifyAndAdmit, hv, hb]
  rfl

/-! ## Reading the resource token -/

/-- What the resource token of the run says. -/
def Deployment.resourceClaims (D : Deployment cr) (T : Timeline)
    (agent : AgentClaims) (jkt audience : String) : ResourceClaims :=
  (D.tokenOptions agent jkt audience).claims T.seen.signNow T.seen.jti

/-- The resource token passes the checks of everybody who is to read it. -/
theorem resourceToken_checks (laws : WireLaws cr)
    {fetcher : MetadataFetcher} {now : Nat} {agent : AgentClaims}
    {audience token : String}
    (hf : Nonempty (Serves cr ⟨now, fetcher⟩ D.resourceUrl
      "aauth-resource.json" D.resourceKey))
    (he : cr.jsonwebtoken.encode
      ⟨some JwtTyp.resource.asStr, .edDSA, D.resourceKey.kid⟩
      (cr.json.resourceClaims.toVec (D.resourceClaims T agent jkt audience))
      (D.resourceKey.encodingKey cr) = .ok token)
    (hnow : now ≤ T.seen.signNow + 360) :
    ResourceTokenChecks cr ⟨now, fetcher⟩
      ⟨token, some agent.identifier, some jkt⟩
      (D.resourceClaims T agent jkt audience) where
  parsed := parse_encode_resource laws.mint he
  unexpired := by
    have hexp : u64AsI64 (D.resourceClaims T agent jkt audience).exp =
        (T.seen.signNow + 300 : Nat) := u64AsI64_of_lt T.representable
    rw [hexp, CLOCK_SKEW]
    show (now : Int) ≤ (T.seen.signNow + 300 : Nat) + 60
    omega
  dwk := rfl
  agent a ha := Option.some.inj ha
  agentJkt a ha := Option.some.inj ha
  signed := by
    obtain ⟨serves⟩ := hf
    have hexp : now ≤ T.seen.signNow + 300 + 60 := by omega
    exact issuerSigned_encode laws.mint laws.sign serves he
      (laws.sign.validate_resource (laws.mint.resourceClaims _) rfl hexp)

/-- The agent finds the resource token in the challenge. -/
theorem observeResponse_challenge {token : String} (h : IsCompact token)
    (order : List AuthTokenCacheKey) (a : AgentAuth) (origin : String) :
    a.observeResponse order origin .agentSigned (challengeWith token).status
      (challengeWith token).headers = (.ok (.exchangeToken token), a) := by
  have hh : headerValue (challengeWith token).headers "aauth-requirement" =
      some (AAuthChallenge.authToken token).toHeader := by
    rw [headerValue, challengeWith, HeaderMap.get_cons, if_pos rfl,
      Option.bind_some]
    exact toStr_of_isVisible (isVisible_challenge h)
  have hq : '"' ∉ token.toList := h.not_mem (by decide)
  show (AgentAuth.observeChallenge _, a) = _
  rw [AgentAuth.observeChallenge, hh]
  show ((AAuthChallenge.fromHeader (AAuthChallenge.authToken token).toHeader
    >>= _ : AAuthResult AgentAuthStep), a) = _
  rw [AAuthChallenge.fromHeader_authToken hq]
  rfl

/-! ## Reading the auth token -/

/-- An auth token that was minted with `key`, for the agent and the
resource. -/
structure MintedFor (cr : Crates) (minted : Nat) (resourceUrl : String)
    (holder : AgentClaims) (key : Ed25519KeyPair) (auth : AuthClaims)
    (jwt : String) : Prop where
  encoded : cr.jsonwebtoken.encode ⟨some JwtTyp.auth.asStr, .edDSA, key.kid⟩
    (cr.json.authClaims.toVec auth) (key.encodingKey cr) = .ok jwt
  exp : auth.exp = minted + 3600
  aud : auth.aud = resourceUrl
  agent : auth.agent = holder.identifier
  cnf : auth.cnf.jwk = holder.cnf.jwk
  act : auth.act = none
  sub : auth.sub.isSome

section Minted

variable {minted now : Nat} {resourceUrl : String} {agent : AgentClaims}
  {key : Ed25519KeyPair} {auth : AuthClaims} {fetcher : MetadataFetcher}

theorem mintedFor_of_encodeAuthJwt {jti sub : String}
    {p : AuthJwtMintParams} (hk : p.encodingKey = key.encodingKey cr)
    (hkid : p.kid = key.kid) (haud : p.aud = resourceUrl)
    (hagent : p.agent = agent.identifier)
    (hjwk : p.agentJwk = agent.cnf.jwk) (hsub : p.sub = some sub)
    (h : encodeAuthJwt cr minted jti p = .ok jwt) :
    MintedFor cr minted resourceUrl agent key (p.claims minted jti) jwt where
  encoded := by
    have he := mapError_eq_ok.mp h
    rw [hk, hkid] at he
    exact he
  exp := rfl
  aud := haud
  agent := hagent
  cnf := hjwk
  act := rfl
  sub := by
    show p.sub.isSome
    rw [hsub]
    rfl

theorem MintedFor.parsed (laws : WireLaws cr)
    (h : MintedFor cr minted resourceUrl agent key auth jwt) :
    ParsedToken.parse cr jwt = .ok (.auth auth) :=
  parse_encode_auth laws.mint h.encoded (.inl h.sub)

theorem MintedFor.signed (laws : WireLaws cr)
    (h : MintedFor cr minted resourceUrl agent key auth jwt)
    (hf : Nonempty (Serves cr ⟨now, fetcher⟩ auth.iss auth.dwk key))
    (hnow : now ≤ minted + 3660) :
    IssuerSigned cr ⟨now, fetcher⟩ auth.iss auth.dwk jwt := by
  obtain ⟨serves⟩ := hf
  have hexp : (now : Int) ≤ auth.exp + 60 := by
    rw [h.exp]
    omega
  have hpos : 0 ≤ auth.exp := by
    rw [h.exp]
    omega
  exact issuerSigned_encode laws.mint laws.sign serves h.encoded
    (laws.sign.validate_auth (laws.mint.authClaims _) rfl hexp hpos)

/-- It verifies for whoever holds the agent's key. -/
theorem MintedFor.verifyToken (laws : WireLaws cr)
    (h : MintedFor cr minted resourceUrl agent key auth jwt)
    (hjkt : httpsigJwkThumbprint cr agent.cnf.jwk = .ok jkt)
    (hf : Nonempty (Serves cr ⟨now, fetcher⟩ auth.iss auth.dwk key))
    (hnow : now ≤ minted + 3660) :
    Aauth.verifyToken cr ⟨now, fetcher⟩ ⟨jwt, jkt⟩ = .ok (.auth auth) := by
  refine (verifyToken_eq_ok laws.jwt).mpr ⟨?_, nofun⟩
  have hexp : (now : Int) ≤ auth.exp + CLOCK_SKEW := by
    rw [h.exp, CLOCK_SKEW]
    omega
  have hcnf : jwkThumbprint cr auth.cnf.jwk = .ok jkt := by
    rw [h.cnf]
    exact jwkThumbprint_eq_ok.mpr hjkt
  exact ⟨h.parsed laws, hexp, ⟨_, rfl, hcnf⟩, h.signed laws hf hnow⟩

/-- The agent accepts it in exchange for a resource token for its
issuer. -/
theorem MintedFor.verifyClientAuthToken (laws : WireLaws cr)
    (h : MintedFor cr minted resourceUrl agent key auth jwt)
    (hjkt : httpsigJwkThumbprint cr agent.cnf.jwk = .ok jkt)
    (hf : Nonempty (Serves cr ⟨now, fetcher⟩ auth.iss auth.dwk key))
    (hnow : now ≤ minted + 3660) {audience : String}
    (hiss : normalizeServerUrl cr auth.iss = normalizeServerUrl cr audience)
    (verifySignature : Bool) :
    Aauth.verifyClientAuthToken cr ⟨now, fetcher⟩ jwt resourceUrl audience
      agent.identifier jkt verifySignature = .ok auth := by
  refine (verifyClientAuthToken_eq_ok laws.jwt).mpr
    ⟨h.parsed laws, ⟨?_, hiss, by rw [h.aud], ?_, h.agent, ?_⟩,
      fun _ => h.signed laws hf hnow⟩
  · rw [h.exp, CLOCK_SKEW]
    show (now : Int) ≤ (minted : Int) + 3600 + 60
    omega
  · rw [h.cnf]
    exact jwkThumbprint_eq_ok.mpr hjkt
  · rw [h.act]
    intro act hact
    cases hact

/-- The Person Server accepts it from the Access Server it asked. -/
theorem MintedFor.verifyFederated (laws : WireLaws cr)
    (h : MintedFor cr minted resourceUrl agent key auth jwt)
    (hjkt : httpsigJwkThumbprint cr agent.cnf.jwk = .ok jkt)
    (hf : Nonempty (Serves cr ⟨now, fetcher⟩ auth.iss auth.dwk key))
    (hnow : now ≤ minted + 3660) {expectedIss agentJwt : String}
    (hiss : trimEndMatches auth.iss '/' = trimEndMatches expectedIss '/')
    (hagent : ParsedToken.parse cr agentJwt = .ok (.agent agent)) :
    verifyFederatedAuthToken cr ⟨now, fetcher⟩ jwt expectedIss resourceUrl
      agentJwt = .ok () := by
  simp only [verifyFederatedAuthToken, bind_eq_ok, failIf_eq_ok]
  refine ⟨_, hagent, agent, rfl, jkt, jwkThumbprint_eq_ok.mpr hjkt, _,
    h.verifyToken laws hjkt hf hnow, auth, rfl, (), not_not_intro hiss, (),
    not_not_intro ?_, not_not_intro h.agent⟩
  rw [h.aud]

end Minted

/-- The server `iss` granted the agent a token for the resource. -/
structure Deployment.Granted (D : Deployment cr) (T : Timeline)
    (agent : AgentClaims) (iss dwk : String) (key : Ed25519KeyPair)
    (body : TokenResponseBody) (auth : AuthClaims) : Prop where
  minted : MintedFor cr T.minted D.resourceUrl agent key auth body.authToken
  iss_eq : auth.iss = iss
  dwk_eq : auth.dwk = dwk

/-! ## At the servers -/

variable {E : Type}

/-- A grant of the Access Server in whatever state it is. -/
theorem Deployment.access_grants (laws : WireLaws cr) (D : Deployment cr)
    (T : Timeline) (ctx : AccessTokenContext)
    (s : ServiceState AccessPendingContext) :
    wp (D.accessWorld E T) (HasAnswer (D.accessWorld E T))
      (Access.exchangeToken D.access ctx).run
      (fun reply _ => ∃ body auth, reply = .ok (.granted body) ∧
        D.Granted T ctx.agentClaims D.access.accessServerUrl
          "aauth-access.json" D.accessKey body auth) s := by
  simp only [Access.exchangeToken, wp_bind_except, wp_mapErr,
    Access.wp_accessOp]
  refine ⟨⟨_, s, rfl, rfl⟩, fun answer ha => ?_⟩
  have hgrant : answer = .ok (scopeGrant D.accessPolicy.sub ctx) := ha
  subst hgrant
  simp only [Except.mapError, scopeGrant, Access.applyAccessDecision,
    Access.mintAccessAuth, wp_bind_except, wp_mapErr, Access.wp_accessOp]
  constructor
  · exact ⟨_, s, ⟨"", rfl⟩, rfl⟩
  · rintro answer ⟨jti, rfl⟩
    obtain ⟨jwt, hj⟩ := encodeAuthJwt_ok laws.sign T.minted jti
      (Access.mintParams cr D.accessKey D.access.accessServerUrl
        D.access.resourceUrl ctx.agentClaims.identifier
        ctx.agentClaims.cnf.jwk (some D.accessPolicy.sub)
        (ctx.resourceClaims.scope <|> ctx.resourceClaims.scope)) rfl
    rw [hj]
    exact ⟨_, _, rfl, mintedFor_of_encodeAuthJwt rfl rfl
      D.access_resourceUrl rfl rfl rfl hj, rfl, rfl⟩

/-- The Access Server's side of a request that federates. -/
theorem fromExchange_eq {agent : AgentClaims} {agentJwt token : String}
    {rc : ResourceClaims}
    (ha : ParsedToken.parse cr agentJwt = .ok (.agent agent))
    (hr : ParsedToken.parse cr token = .ok (.resource rc)) :
    AccessTokenContext.fromExchange cr D.access
        (federationRequest token agentJwt) = .ok
      { accessServerUrl := D.access.accessServerUrl,
        resourceUrl := D.access.resourceUrl,
        personServerUrl := D.access.personServerUrl, agentClaims := agent,
        resourceClaims := rc, resourceToken := token,
        agentToken := agentJwt } := by
  have ha : ParsedToken.parse cr (federationRequest token
      agentJwt).agentToken = .ok (.agent agent) := ha
  have hr : ParsedToken.parse cr (federationRequest token
      agentJwt).resourceToken = .ok (.resource rc) := hr
  simp only [AccessTokenContext.fromExchange, bind_eq_ok]
  exact ⟨_, ha, agent, rfl, _, hr, rc, rfl, rfl⟩

/-- An exchange at the Access Server can be answered, and only with a
token. -/
theorem Deployment.exchange_answers (laws : WireLaws cr) (D : Deployment cr)
    (T : Timeline) {agent : AgentClaims} {agentJwt token : String}
    {rc : ResourceClaims}
    (ha : ParsedToken.parse cr agentJwt = .ok (.agent agent))
    (hr : ParsedToken.parse cr token = .ok (.resource rc)) :
    (∃ a, D.personEnv E T (.exchangeToken D.accessMetadata.tokenEndpoint
      (federationRequest token agentJwt)) a) ∧
    ∀ a, D.personEnv E T (.exchangeToken D.accessMetadata.tokenEndpoint
        (federationRequest token agentJwt)) a →
      ∃ body auth, a = .ok (.complete body) ∧
        D.Granted T agent D.access.accessServerUrl "aauth-access.json"
          D.accessKey body auth := by
  have hctx := @fromExchange_eq cr D _ _ _ _ ha hr
  constructor
  · obtain ⟨reply, s', hx, body, auth, rfl, -⟩ :=
      exec_of_wp (D.access_grants laws (E := E) T _ ⟨∅, []⟩)
    refine ⟨.ok (.complete body), fun _ ctx he => ?_⟩
    rw [hctx] at he
    cases he
    exact ⟨_, _, _, hx, rfl⟩
  · intro a h
    obtain ⟨s, reply, s', hx, hrel⟩ := h rfl _ hctx
    obtain ⟨body, auth, rfl, hg⟩ := hx.post (D.access_grants laws T _ s)
    exact ⟨body, auth, hrel, hg⟩

/-- A federation to the Access Server that the resource token names ends
with a token of that server. -/
theorem Deployment.federation_grants (laws : WireLaws cr)
    (D : Deployment cr) (T : Timeline) {agent : AgentClaims}
    {agentJwt token : String} {rc : ResourceClaims}
    (ha : ParsedToken.parse cr agentJwt = .ok (.agent agent))
    (hr : ParsedToken.parse cr token = .ok (.resource rc))
    (hjkt : httpsigJwkThumbprint cr agent.cnf.jwk = .ok jkt)
    (hname : trimEndMatches rc.aud '/' =
      trimEndMatches D.access.accessServerUrl '/')
    (hm : D.accessMetadata.validate = .ok ())
    (hf : Nonempty (Serves cr ⟨T.federated, D.fetchers.person⟩
      D.access.accessServerUrl "aauth-access.json" D.accessKey))
    (s : ServiceState PersonPendingContext) :
    wp (D.personWorld E T) (HasAnswer (D.personWorld E T))
      (federateToAccessServer cr D.person token agentJwt).run
      (fun r _ => ∃ body auth, r = .ok (.complete body) ∧
        D.Granted T agent D.access.accessServerUrl "aauth-access.json"
          D.accessKey body auth) s := by
  obtain ⟨⟨a, hanswer⟩, hall⟩ := D.exchange_answers laws (E := E) T ha hr
  refine wp_liftExcept_bind.mpr ⟨?_, fun parsed hp => ?_⟩
  · intro e he
    rw [hr] at he
    cases he
  cases hr.symm.trans hp
  refine wp_liftExcept_bind.mpr ⟨nofun, fun claims hc => ?_⟩
  cases hc
  simp only [wp_bind_except, wp_mapErr, wp_personOp]
  refine ⟨⟨.ok D.accessMetadata, s, fun _ => rfl, rfl⟩,
    fun metadata hmeta => ?_⟩
  have hmeta : metadata = .ok D.accessMetadata := hmeta hname
  subst hmeta
  simp only [Except.mapError, wp_liftExcept, hm]
  refine ⟨⟨a, s, hanswer, rfl⟩, fun answer h => ?_⟩
  obtain ⟨body, auth, rfl, hg⟩ := hall answer h
  simp only [verifyFederated, wp_bind_except, wp_liftProg, wp_personOp,
    wp_liftExcept]
  refine ⟨⟨_, s, rfl, rfl⟩, fun venv hv => ?_⟩
  have hv : venv = ⟨T.federated, D.fetchers.person⟩ := hv
  subst hv
  have hok : verifyFederatedAuthToken cr ⟨T.federated, D.fetchers.person⟩
      body.authToken (trimEndMatches rc.aud '/') D.person.resourceUrl
      agentJwt = .ok () := by
    rw [D.person_resourceUrl]
    refine hg.minted.verifyFederated laws hjkt ?_ T.federated_le ?_ ha
    · rw [hg.iss_eq, hg.dwk_eq]
      exact hf
    · rw [hg.iss_eq, hname, trimEndMatches_idem]
  rw [hok]
  exact ⟨body, auth, rfl, hg⟩

/-- The Person Server grants a token for itself. -/
theorem Deployment.person_mints (laws : WireLaws cr) (D : Deployment cr)
    (T : Timeline) {agentJwt : String} (ctx : PersonTokenContext)
    (scope : Option String) (s : ServiceState PersonPendingContext) :
    wp (D.personWorld E T) (HasAnswer (D.personWorld E T))
      (applyPersonDecision cr D.person ctx
        (.grant { sub := D.personPolicy.sub, scope }) agentJwt).run
      (fun reply _ => ∃ body auth, reply = .ok (.granted body) ∧
        D.Granted T ctx.agentClaims D.person.personServerUrl
          "aauth-person.json" D.personKey body auth) s := by
  simp only [applyPersonDecision, mintGrant, mintPersonAuth, wp_bind_except,
    wp_mapErr, wp_personOp]
  constructor
  · exact ⟨_, s, ⟨"", rfl⟩, rfl⟩
  · rintro answer ⟨jti, rfl⟩
    obtain ⟨jwt, hj⟩ := encodeAuthJwt_ok laws.sign T.minted jti
      (personMintParams cr D.personKey D.person.personServerUrl
        D.person.resourceUrl ctx.agentClaims.identifier
        ctx.agentClaims.cnf.jwk (some D.personPolicy.sub) scope) rfl
    rw [hj]
    exact ⟨_, _, rfl, mintedFor_of_encodeAuthJwt rfl rfl
      D.person_resourceUrl rfl rfl rfl hj, rfl, rfl⟩

/-- The Person Server grants what it is asked for, in whatever state it
is, itself or through the Access Server. -/
theorem Deployment.person_grants (laws : WireLaws cr) (D : Deployment cr)
    (T : Timeline) {agentJwt iss dwk : String} {key : Ed25519KeyPair}
    (ctx : PersonTokenContext)
    (hurl : ctx.personServerUrl = D.person.personServerUrl)
    (ha : ParsedToken.parse cr agentJwt = .ok (.agent ctx.agentClaims))
    (hr : ParsedToken.parse cr ctx.exchangeRequest.resourceToken =
      .ok (.resource ctx.resourceClaims))
    (hi : ctx.resourceClaims.interaction = none)
    (hjkt : httpsigJwkThumbprint cr ctx.agentClaims.cnf.jwk = .ok jkt)
    (hg : D.Grants ctx.resourceClaims.aud iss dwk key)
    (hf : D.fetchers.Find cr iss dwk key)
    (s : ServiceState PersonPendingContext) :
    wp (D.personWorld E T) (HasAnswer (D.personWorld E T))
      (exchangeToken cr D.person ctx agentJwt).run
      (fun reply _ => ∃ body auth, reply = .ok (.granted body) ∧
        D.Granted T ctx.agentClaims iss dwk key body auth) s := by
  have hown : ctx.audienceIsPersonServer cr = true ↔
      normalizeServerUrl cr ctx.resourceClaims.aud =
        normalizeServerUrl cr D.person.personServerUrl := by
    rw [PersonTokenContext.audienceIsPersonServer, hurl, beq_iff_eq]
  simp only [exchangeToken, hi, Option.isSome_none, Bool.false_eq_true,
    if_false, wp_bind_except, wp_mapErr, wp_personOp]
  refine ⟨⟨_, s, rfl, rfl⟩, fun answer h => ?_⟩
  have h : answer = .ok (grantOrFederate cr D.personPolicy.sub ctx) := h
  subst h
  simp only [Except.mapError]
  cases hg with
  | person hname =>
      rw [grantOrFederate, if_pos (hown.mpr hname)]
      exact D.person_mints laws T ctx _ s
  | access hne hname hm =>
      rw [grantOrFederate, if_neg fun h => hne (hown.mp h)]
      refine wp_bind_except.mpr (wp_liftProg.mpr (wp_mono ?_
        (D.federation_grants laws T ha hr hjkt hname hm (hf.person _) s)))
      rintro answer s' ⟨body, auth, rfl, hgr⟩
      exact ⟨body, auth, rfl, hgr⟩

/-! ## The run -/

/-- The token of a grant gets the agent in: the agent accepts it, with and
without a look at its signature, and the request can be signed with it and
is let through to the service. -/
structure Deployment.LetIn (D : Deployment cr) (T : Timeline)
    {env : VerifyEnv} (A : HonestAgent cr env) (req : Request)
    (rc : ResourceClaims) (jkt : String) (body : TokenResponseBody)
    (auth : AuthClaims) : Prop where
  accepted : ∀ verifySignature, verifyClientAuthToken cr
    ⟨T.received, D.fetchers.agent⟩ body.authToken D.resourceUrl rc.aud
    A.claims.identifier jkt verifySignature = .ok auth
  signable : IsVisible (signatureParts req).1 →
    IsVisible (signatureParts req).2.1 → IsVisible (signatureParts req).2.2 →
      ∃ retry, req.signWithAuthToken cr T.askedAgain
        ⟨A.signing, .jwt A.jwt⟩ body.authToken = .ok retry
  admitted : ∀ retry, req.signWithAuthToken cr T.askedAgain
      ⟨A.signing, .jwt A.jwt⟩ body.authToken = .ok retry →
    D.layer.call cr T.seenAgain retry = .inner (.auth auth)

theorem Deployment.Granted.letIn (laws : WireLaws cr) {env : VerifyEnv}
    {A : HonestAgent cr env} {req : Request} {rc : ResourceClaims}
    {iss dwk : String} {key : Ed25519KeyPair} {body : TokenResponseBody}
    {auth : AuthClaims} (h : D.Granted T A.claims iss dwk key body auth)
    (hauthority : (signatureParts req).2.1.isEmpty = false)
    (hjkt : httpsigJwkThumbprint cr A.claims.cnf.jwk = .ok jkt)
    (hiss : normalizeServerUrl cr iss = normalizeServerUrl cr rc.aud)
    (hf : D.fetchers.Find cr iss dwk key) :
    D.LetIn T A req rc jkt body auth := by
  obtain ⟨pair⟩ := A.pair
  obtain ⟨hm, rfl, rfl⟩ := h
  have hjwt : IsCompact body.authToken := laws.compact.of_encode hm.encoded
  have hcnf : cnfJwkFromJwt cr body.authToken = .ok A.claims.cnf.jwk := by
    rw [← hm.cnf]
    exact cnfJwkFromJwt_auth laws.cnf (hm.parsed laws)
  refine ⟨fun flag => hm.verifyClientAuthToken laws hjkt (hf.agent _)
    T.received_le hiss flag, fun hmethod hauth hpath => ?_,
    fun retry hretry => ?_⟩
  · obtain ⟨headers, hs⟩ : ∃ headers, Aauth.sign cr T.askedAgain req.headers
        (signatureParts req).1 (signatureParts req).2.1
        (signatureParts req).2.2 ⟨A.signing, .jwt body.authToken⟩
        (aauthSignOptions req.headers) = .ok headers :=
      sign_ok laws.httpsig laws.total pair hjwt hmethod hauth hpath
    exact ⟨_, Request.sign_eq_ok.mpr ⟨hauthority, headers, hs, rfl⟩⟩
  · have hretry : req.sign cr T.askedAgain
        ⟨A.signing, .jwt body.authToken⟩ = .ok retry := hretry
    rw [D.call_signed laws pair hjwt hcnf hjkt hretry T.askedAgain_le
      T.seenAgain_le]
    exact D.verifyAndAdmit_auth (hm.verifyToken laws hjkt (hf.resource _)
      T.verified_le) hm.aud

/-- The agent takes a grant for one of the server the resource named. -/
theorem Deployment.Grants.normalized {audience iss dwk : String}
    {key : Ed25519KeyPair} (h : D.Grants audience iss dwk key) :
    normalizeServerUrl cr iss = normalizeServerUrl cr audience := by
  cases h with
  | person hname => exact hname.symm
  | access hne hname hm =>
      rw [normalizeServerUrl, normalizeServerUrl, hname]

end Run

/-! ## At the sample parties -/

namespace Sample

/-- What everyone finds does not depend on the time. -/
theorem find_published {iss dwk kid : String} {key : Ed25519KeyPair}
    (h : publishedKey iss = some key) (hk : key.kid = some kid) :
    (Fetchers.mk fetcher fetcher fetcher).Find crates iss dwk key := by
  have hs := serves dwk h hk
  have hall : ∀ t, Nonempty (Serves crates ⟨t, fetcher⟩ iss dwk key) :=
    fun t => ⟨⟨hs.jwksUri, hs.jwks, hs.kid, hs.jwk, hs.resolved, hs.fetched,
      hs.named, hs.found, hs.published⟩⟩
  exact ⟨hall, hall, hall⟩

/-- The sample servers, with an Access Server for the resource. -/
def deployment : Deployment crates where
  resourceUrl := resource
  resourceKey := resourceKey
  accessServerUrl := some accessServer
  personServerFallback := none
  person := personConfig
  personPolicy := { sub := "user-1" }
  personKey := personKey
  access := accessConfig
  accessPolicy := { sub := "user-1" }
  accessKey := accessKey
  accessMetadata :=
    { issuer := some accessServer, tokenEndpoint := accessServer ++ "/token",
      jwksUri := none }
  fetchers := ⟨fetcher, fetcher, fetcher⟩
  person_resourceUrl := rfl
  access_resourceUrl := rfl
  resource_found := find_published rfl rfl

def seen : LayerEnv where
  signatureNow := now
  verifyNow := now
  signNow := now
  jti := "resource-1"

/-- Everything happens at once. -/
def atOnce : Timeline where
  asked := now
  seen := seen
  challenged := now
  exchanged := now
  minted := now
  federated := now
  received := now
  askedAgain := now
  seenAgain := seen
  asked_le := by decide
  seen_le := by decide
  challenged_le := by decide
  exchanged_le := by decide
  federated_le := by decide
  received_le := by decide
  askedAgain_le := by decide
  seenAgain_le := by decide
  verified_le := by decide
  representable := by decide

def honestBot : HonestAgent crates
    ⟨atOnce.seen.verifyNow, deployment.fetchers.resource⟩ where
  jwt := botJwt
  claims := bot
  signing := agentKey.signingJwk crates
  parsed := parse_agentToken bot providerKey
  rules := ⟨rfl, by decide, by decide, by decide, by decide⟩
  unexpired := by decide
  signed := signed_agentToken "aauth-agent.json" rfl rfl (by decide)
    (by decide)
  pair := ⟨signingPair agentKey (by rfl)⟩
  cnf_eq := rfl

theorem wireLaws : WireLaws crates where
  jwt := jwtLaws
  cnf := cnfLaws
  compact := compactLaws
  mint := mintLaws
  sign := signLaws
  httpsig := httpsigLaws
  total := httpsigTotal
  thumbprint := thumbprintTotal

theorem deployment_grants : deployment.Grants accessServer accessServer
    "aauth-access.json" accessKey :=
  .access (by decide +kernel) rfl rfl

end Sample

end Aauth
