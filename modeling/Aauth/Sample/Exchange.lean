import Aauth.Proofs.Acceptance
import Aauth.Proofs.Challenge
import Aauth.Proofs.PersonEndpoint
import Aauth.Proofs.Wire
import Aauth.Sample.Agent
import Aauth.Sample.Json

/-!
# A sample exchange

The agent asks the resource, is challenged, has the Person Server exchange
the resource token and asks again with what it got. The crates read the
bodies as well as the headers of the tokens; a token is read and verified
with them as it is with the sample crates.
-/

namespace Aauth.Sample

open Text Except Effect

/-! ## Tokens, with the crates that read bodies too -/

section WithJson

variable {cr : Crates} {value : Serde Json} {jwt : String}

theorem jwtLaws_withJson (laws : JwtLaws cr) : JwtLaws (withJson cr value) :=
  ⟨laws.payload_of_verified⟩

/-- The `alg` of a token's header can be read. -/
def ReadsAlg (cr : Crates) (value : Serde Json) : Prop :=
  ∀ {h : Header} {p : Bytes} {k : EncodingKey} {jwt : String},
    cr.jsonwebtoken.encode h p k = .ok jwt →
      ∃ segment bytes v, (split jwt '.').head? = some segment ∧
        cr.base64Decode segment = .ok bytes ∧
        value.fromSlice bytes = .ok v ∧
        (v.get "alg").bind Json.asStr = some h.alg.name

theorem mintLaws_withJson (laws : MintLaws cr) (h : ReadsAlg cr value) :
    MintLaws (withJson cr value) where
  header_of_encode := laws.header_of_encode
  alg_of_encode := h
  payload_of_encode := laws.payload_of_encode
  agentClaims := laws.agentClaims
  authClaims := laws.authClaims
  resourceClaims := laws.resourceClaims

/-- A token whose header both read is the same token to both. -/
theorem jwtHeader_withJson (h : rejectAlgNone cr jwt = .ok ())
    (h' : rejectAlgNone (withJson cr value) jwt = .ok ()) :
    jwtHeader (withJson cr value) jwt = jwtHeader cr jwt := by
  rw [jwtHeader, jwtHeader, h, h']
  rfl

theorem parse_withJson
    (h : jwtHeader (withJson cr value) jwt = jwtHeader cr jwt) :
    ParsedToken.parse (withJson cr value) jwt = ParsedToken.parse cr jwt := by
  rw [ParsedToken.parse, ParsedToken.parse, h]
  rfl

theorem issuerSigned_withJson {env : VerifyEnv} {iss dwk : String}
    (h : jwtHeader (withJson cr value) jwt = jwtHeader cr jwt)
    (hs : IssuerSigned cr env iss dwk jwt) :
    IssuerSigned (withJson cr value) env iss dwk jwt := by
  obtain ⟨decoding, ⟨k⟩, header, payload, hh, hv, hval⟩ := hs
  have hheaded := k.headed
  rw [← h] at hh hheaded
  exact ⟨decoding, ⟨k.jwksUri, k.jwks, k.header, k.kid, k.jwk, k.resolved,
    k.fetched, hheaded, k.named, k.found, k.decoded⟩, header, payload, hh,
    hv, hval⟩

end WithJson

theorem readsAlg_anyJson : ReadsAlg crates anyJson := by
  intro h p k jwt he
  rw [crates_jsonwebtoken] at he
  have he : encode h p k = .ok jwt := he
  rw [eq_compact he, split_compact, crates_base64Decode]
  refine ⟨Base64url.encode (header.enc h), header.enc h,
    .obj [("alg", .str h.alg.name)], List.head?_cons,
    base64Decode_encode _, ?_, by simp [Json.get, Json.asStr]⟩
  show (if startsHeader (header.enc h) = true then _ else _) = _
  rw [startsHeader_enc, if_pos rfl]
  exact headerJson_enc h

theorem fullCrates_jwtLaws : JwtLaws fullCrates := jwtLaws_withJson jwtLaws

theorem fullCrates_mintLaws : MintLaws fullCrates :=
  mintLaws_withJson mintLaws readsAlg_anyJson

section Full

variable {typ : JwtTyp} {p : Bytes} {key : Ed25519KeyPair}
  {iss dwk : String}

theorem jwtHeader_full : jwtHeader fullCrates (mint typ p key) =
    jwtHeader crates (mint typ p key) :=
  have he := encode_mint typ p key
  jwtHeader_withJson (rejectAlgNone_encode mintLaws he)
    (rejectAlgNone_encode fullCrates_mintLaws he)

theorem parse_full : ParsedToken.parse fullCrates (mint typ p key) =
    ParsedToken.parse crates (mint typ p key) :=
  parse_withJson jwtHeader_full

theorem issuerSigned_full
    (h : IssuerSigned crates env iss dwk (mint typ p key)) :
    IssuerSigned fullCrates env iss dwk (mint typ p key) :=
  issuerSigned_withJson jwtHeader_full h

end Full

/-! ## The parties' answers -/

/-- The Person Server the agent uses, and its token endpoint. -/
def botOptions : AgentOptions :=
  { agentOptions with
    personServerUrl := some personServer
    personServerMetadata := some { tokenEndpoint := personServer ++ "/token" } }

def botRequest : AgentRequest where
  method := "GET"
  url := resource ++ "/transfer"
  headers := .empty
  body := .none

def botMaterial : SigningMaterial where
  signingJwk := agentKey.signingJwk crates
  signatureKey := .jwt botJwt

def challengeToken : String :=
  resourceToken (challenge resource personServer agentKey) resourceKey

def personGrant : AuthClaims :=
  grant personServer "aauth-person.json" resource

def exchangedBody : TokenResponseBody where
  authToken := authToken personGrant personKey
  expiresIn := 3600

def challengeResponse : HttpResponse where
  status := 401
  headers := ⟨[("aauth-requirement",
    AAuthChallenge.toHeader (.authToken challengeToken))]⟩
  body := []

def exchangedResponse : HttpResponse where
  status := 200
  headers := .empty
  body := jsonBytes fullCrates exchangedBody.toJson

/-- The resource challenges what has no auth token. -/
def exchangeAnswer : (o : AgentOp) → Option (agentSig.Ans o)
  | .sendWrapped _ .agentSigned => some (.ok challengeResponse)
  | .sendWrapped _ _ => some (.ok (bare 200))
  | .sendAgentSigned _ => some (.ok exchangedResponse)
  | .resourceMetadata _ => some none
  | .keyMaterial => some (.ok botMaterial)
  | .verifyEnv => some env
  | _ => none

abbrev exchangeEnv (o : AgentOp) (r : agentSig.Ans o) : Prop :=
  exchangeAnswer o = some r

/-! ## What the agent reads -/

theorem challengeToken_checks : ResourceTokenChecks fullCrates env
    ⟨challengeToken, some bot.sub, some (thumbprint agentKey)⟩
    (challenge resource personServer agentKey) := by
  have hc : ResourceTokenChecks crates env
      (resourceTokenFor bot (thumbprint agentKey)
        (resourceToken (challenge resource personServer agentKey) resourceKey))
      (challenge resource personServer agentKey) :=
    challenge_checks rfl rfl
  exact ⟨parse_full.trans hc.parsed, hc.unexpired, hc.dwk, hc.agent,
    hc.agentJkt, issuerSigned_full hc.signed⟩

theorem challengeToken_verified :
    verifyResourceChallenge fullCrates env challengeToken resource bot.sub
      (thumbprint agentKey) =
        .ok (challenge resource personServer agentKey) :=
  (verifyResourceChallenge_eq_ok fullCrates_jwtLaws).mpr
    ⟨challengeToken_checks, rfl⟩

theorem personGrant_verified :
    verifyClientAuthToken fullCrates env exchangedBody.authToken resource
      (challenge resource personServer agentKey).aud bot.sub
      (thumbprint agentKey) true = .ok personGrant := by
  have hp : ParsedToken.parse crates exchangedBody.authToken =
      .ok (.auth personGrant) := parse_authToken personKey (.inl rfl)
  have hs : IssuerSigned crates env personServer "aauth-person.json"
      exchangedBody.authToken :=
    signed_authToken _ rfl rfl grant_unexpired (by
      show (0 : Int) ≤ now + 3600
      decide)
  refine (verifyClientAuthToken_eq_ok fullCrates_jwtLaws).mpr
    ⟨parse_full.trans hp, ⟨grant_unexpired, rfl, rfl, thumbprint_eq agentKey,
      rfl, nofun⟩, fun _ => issuerSigned_full hs⟩

theorem challengeToken_compact : IsCompact challengeToken :=
  isCompact_mint _ _ _

theorem headerValue_single {text : String} (h : IsVisible text) :
    headerValue ⟨[("aauth-requirement", text)]⟩ "aauth-requirement" =
      some text := by
  show toStr text = some text
  exact if_pos h

theorem challengeResponse_header :
    headerValue challengeResponse.headers "aauth-requirement" =
      some (AAuthChallenge.toHeader (.authToken challengeToken)) := by
  refine headerValue_single ?_
  rw [AAuthChallenge.authToken_text]
  exact isVisible_append (isVisible_append (by rfl)
    challengeToken_compact.isVisible) (by rfl)

theorem challengeResponse_challenge : AAuthChallenge.fromHeader
    (AAuthChallenge.toHeader (.authToken challengeToken)) =
      .ok (.authToken challengeToken) := by
  refine AAuthChallenge.fromHeader_authToken fun hq => ?_
  exact absurd (challengeToken_compact _ hq) (by decide)

theorem fromSlice_full {α : Type} (read : Json → Option α) (v : Json) :
    fromSlice fullCrates read (jsonBytes fullCrates v) = read v := by
  have h : fullCrates.json.value.fromSlice (jsonBytes fullCrates v) = .ok v :=
    anyJson_written v
  rw [fromSlice, h]
  rfl

theorem exchangedResponse_body :
    fromSlice fullCrates TokenResponseBody.fromJson exchangedResponse.body =
      some exchangedBody :=
  (fromSlice_full _ _).trans (TokenResponseBody.fromJson_toJson (by decide))

/-! ## The run -/

section Run

variable {s s' : AgentState} {l : List AgentEvent}

/-- The world of the run, with the log. -/
abbrev exchangeWorld : World agentSig AgentLog :=
  logged (agentWorld exchangeEnv)

theorem exec_call {o : AgentOp} {r : agentSig.Ans o} {α : Type} {a : α}
    {k : agentSig.Ans o → Prog agentSig α} {s' : AgentState}
    (h : agentWorld exchangeEnv s o r s') (hk : k r = .ret a) :
    Exec exchangeWorld (s, l) (.call o k) a (s', ⟨o, r⟩ :: l) := by
  have hr : Exec exchangeWorld (s', ⟨o, r⟩ :: l) (k r) a
      (s', ⟨o, r⟩ :: l) := by
    rw [hk]
    exact .ret
  exact .call ⟨h, rfl⟩ hr

theorem exec_effect {o : AgentOp} (ho : o.outside) {r : agentSig.Ans o}
    (h : exchangeAnswer o = some r) :
    Exec exchangeWorld (s, l) (effect o).run (.ok r) (s, ⟨o, r⟩ :: l) :=
  exec_call ((agentWorld_outside ho).mpr ⟨h, rfl⟩) rfl

theorem exec_sendWrapped {req : AgentRequest} {attempt : AgentAuthAttempt}
    {response : HttpResponse}
    (h : exchangeAnswer (.sendWrapped req attempt) = some (.ok response)) :
    Exec exchangeWorld (s, l) (sendWrapped req attempt).run (.ok response)
      (s, ⟨.sendWrapped req attempt, .ok response⟩ :: l) :=
  exec_call (o := .sendWrapped req attempt) ⟨h, rfl⟩ rfl

theorem exec_sendAgentSigned {req : AgentRequest} :
    Exec exchangeWorld (s, l) (sendAgentSigned req).run (.ok exchangedResponse)
      (s, ⟨.sendAgentSigned req, .ok exchangedResponse⟩ :: l) :=
  exec_call (o := .sendAgentSigned req) ⟨rfl, rfl⟩ rfl

theorem exec_ofResult {σ ε α : Type} {W : World agentSig σ} {q : σ}
    {f : ε → Halt} {r : Except ε α} {a : α} (h : r = .ok a) :
    Exec W q (ofResult f r).run (.ok a) q := by
  subst h
  exact .ret

/-- One hold of the lock, at time zero. -/
theorem exec_lock {o : AgentAuthOp} {x : o.Ans} {a : AgentAuth}
    (hp : s.poisoned = false)
    (h : s.auth.apply s.auth.tokenCache.keys 0 o = (.ok x, a)) :
    Exec exchangeWorld (s, l) (lock o).run (.ok x)
      (⟨a, false⟩, ⟨.lock o, .ok x⟩ :: l) := by
  have hs : lockStep s o (.ok x) ⟨a, false⟩ := by
    rw [lockStep, if_neg (by rw [hp]; exact Bool.false_ne_true)]
    exact ⟨_, 0, List.Perm.refl _, h.symm, rfl⟩
  exact exec_call (o := .lock o) hs rfl

/-- The request that posts the challenge's token. -/
def tokenRequest : AgentRequest where
  method := "POST"
  url := personServer ++ "/token"
  headers := (HeaderMap.empty.insert "content-type" "application/json").insert
    "prefer" "wait=45"
  body := .bytes (jsonBytes fullCrates
    (exchangeRequestOf botOptions challengeToken).toJson)

/-- What the exchange asks for, newest first. -/
def exchangeCalls : List AgentEvent :=
  [⟨.verifyEnv, env⟩, ⟨.sendAgentSigned tokenRequest, .ok exchangedResponse⟩,
    ⟨.verifyEnv, env⟩, ⟨.keyMaterial, .ok botMaterial⟩]

theorem tokenOfResponse_exec {σ : Type} {W : World agentSig σ} {q : σ}
    {cr : Crates} {endpoint : String} {response : HttpResponse}
    {b : TokenResponseBody}
    (h : fromSlice cr TokenResponseBody.fromJson response.body = some b) :
    Exec W q (tokenOfResponse cr endpoint response).run
      (.ok ⟨b.authToken, b.expiresIn⟩) q := by
  rw [tokenOfResponse, h]
  exact Exec.bind_ok (exec_ofResult (a := b) rfl) .ret

theorem requestToken_exec (fuel : Nat) (metadata : PersonServerMetadata)
    (h : metadata.tokenEndpoint = personServer ++ "/token") :
    Exec exchangeWorld (s, l)
      (requestToken fullCrates fuel botOptions personServer challengeToken
        metadata).run (.ok ⟨exchangedBody.authToken, 3600⟩)
      (s, ⟨.sendAgentSigned tokenRequest, .ok exchangedResponse⟩ :: l) := by
  have hb : Exec exchangeWorld (s, l) (buildRequest fullCrates "POST"
      metadata.tokenEndpoint tokenRequest.headers tokenRequest.body).run
      (.ok tokenRequest) (s, l) := by
    rw [h, buildRequest]
    refine Exec.bind_ok (exec_ofResult rfl) ?_
    exact Exec.bind_ok (exec_ofResult rfl) .ret
  rw [requestToken]
  refine Exec.bind_ok hb ?_
  refine Exec.bind_ok exec_sendAgentSigned ?_
  exact tokenOfResponse_exec exchangedResponse_body

theorem exchange_exec (fuel : Nat) :
    Exec exchangeWorld (s, l)
      (exchangeChallenge fullCrates fuel botOptions resource
        challengeToken).run
      (.ok (personServer, ⟨exchangedBody.authToken, 3600⟩))
      (s, exchangeCalls ++ l) := by
  rw [exchangeChallenge]
  refine Exec.bind_ok (exec_effect (o := .keyMaterial) trivial rfl) ?_
  refine Exec.bind_ok (exec_ofResult rfl) ?_
  refine Exec.bind_ok (exec_ofResult (a := botJwt) rfl) ?_
  refine Exec.bind_ok (exec_ofResult
    (parse_full.trans (parse_agentToken bot providerKey))) ?_
  refine Exec.bind_ok (exec_ofResult (a := bot.sub) rfl) ?_
  refine Exec.bind_ok (exec_ofResult (thumbprint_eq agentKey)) ?_
  refine Exec.bind_ok (exec_effect (o := .verifyEnv) trivial rfl) ?_
  refine Exec.bind_ok (exec_ofResult challengeToken_verified) ?_
  refine Exec.bind_ok (exec_ofResult (a := personServer) rfl) ?_
  refine Exec.bind_ok (Exec.bind_ok .ret (requestToken_exec fuel _ rfl)) ?_
  refine Exec.bind_ok (exec_effect (o := .verifyEnv) trivial rfl) ?_
  exact Exec.bind_ok (exec_ofResult personGrant_verified) .ret

/-- The credentials before the loop. -/
def triedAuth : AgentAuth :=
  ((AgentAuth.fresh none).beginAuthorizeAttempt resource).2

/-- The credentials with the token in them. -/
def exchangedAuth : AgentAuth :=
  let cached : CachedToken :=
    { authToken := exchangedBody.authToken
      expiresAt := 0 + durationFromSecs 3600 }
  { triedAuth with
    tokenCache := triedAuth.tokenCache.insert ⟨resource, personServer⟩ cached }

theorem observe_challenge (order : List AuthTokenCacheKey) :
    triedAuth.apply order 0 (.observeResponse resource .agentSigned
      challengeResponse.status challengeResponse.headers) =
      (.ok (.ok (.exchangeToken challengeToken)), triedAuth) := by
  have h : AgentAuth.observeChallenge challengeResponse.headers =
      .ok (.exchangeToken challengeToken) := by
    rw [AgentAuth.observeChallenge, challengeResponse_header]
    simp only [challengeResponse_challenge]
    rfl
  show (Except.ok (AgentAuth.observeChallenge challengeResponse.headers), _) =
    (_, _)
  rw [h]
  rfl

/-- The first round: a copy, the challenge, the exchange, the recording. -/
theorem round_exec (fuel : Nat) :
    Exec exchangeWorld (⟨triedAuth, false⟩, l)
      (afterResponse fullCrates fuel botOptions resource .agentSigned
        challengeResponse).run (.ok none)
      (⟨exchangedAuth, false⟩,
        ⟨.lock (.recordAuthToken resource personServer exchangedBody.authToken
            3600), .ok ()⟩ :: (exchangeCalls ++
          ⟨.lock (.observeResponse resource .agentSigned
            challengeResponse.status challengeResponse.headers),
            .ok (.ok (.exchangeToken challengeToken))⟩ :: l)) := by
  rw [afterResponse, observe]
  refine Exec.bind_ok (Exec.bind_ok (exec_lock rfl (observe_challenge _))
    (exec_ofResult rfl)) ?_
  refine Exec.bind_ok (exchange_exec fuel) ?_
  exact Exec.bind_ok (exec_lock (a := exchangedAuth) rfl rfl) .ret

/-- What precedes the loop: the resource publishes no metadata. -/
theorem authorize_exec : ∃ d, Exec exchangeWorld (newAgent none, l)
    (tryProactiveAuthorize fullCrates 2 botOptions resource).run (.ok ())
    (⟨triedAuth, false⟩, d) := by
  rw [tryProactiveAuthorize]
  refine ⟨⟨.resourceMetadata (trimEndMatches resource '/' ++
      "/.well-known/aauth-resource.json"), none⟩ ::
    ⟨.lock (.beginAuthorizeAttempt resource), .ok true⟩ :: l, ?_⟩
  refine Exec.bind_ok (a := true) (exec_lock (a := triedAuth) rfl rfl) ?_
  exact Exec.bind_ok (a := (none : Option ResourceServerMetadata))
    (exec_effect (o := .resourceMetadata _) trivial rfl) .ret

/-- The calls of the second round, newest first. -/
def presentCalls : List AgentEvent :=
  [⟨.lock (.observeResponse resource (.authToken exchangedBody.authToken) 200
      .empty), .ok (.ok .finish)⟩,
    ⟨.sendWrapped botRequest (.authToken exchangedBody.authToken),
      .ok (bare 200)⟩,
    ⟨.lock (.nextAttempt resource), .ok (.authToken exchangedBody.authToken)⟩]

/-- The second round: the token is picked, presented and granted. -/
theorem presented_exec (fuel : Nat) :
    Exec exchangeWorld (⟨exchangedAuth, false⟩, l)
      (handleLoop fullCrates botOptions botRequest resource (fuel + 1)).run
      (.ok (bare 200)) (⟨exchangedAuth, false⟩, presentCalls ++ l) := by
  rw [handleLoop]
  refine Exec.bind_ok (a := .authToken exchangedBody.authToken)
    (exec_lock (a := exchangedAuth) rfl rfl) ?_
  refine Exec.bind_ok (exec_ofResult (a := botRequest) rfl) ?_
  refine Exec.bind_ok (a := bare 200) (exec_sendWrapped rfl) ?_
  rw [afterResponse, observe]
  refine Exec.bind_ok (a := some (bare 200)) (Exec.bind_ok
    (a := AgentAuthStep.finish) (Exec.bind_ok (a := .ok .finish)
      (exec_lock (a := exchangedAuth) rfl rfl) (exec_ofResult rfl)) .ret) .ret

/-- The whole call: the token is recorded, and the second copy carries
it. -/
theorem call_exec : ∃ d₁ d₂ s', Exec exchangeWorld (newAgent none, [])
    (handleInner fullCrates botOptions 2 botRequest).run (.ok (bare 200))
    (s', d₁ ++ (⟨.lock (.recordAuthToken resource personServer
      exchangedBody.authToken 3600), .ok ()⟩ : AgentEvent) :: d₂) := by
  obtain ⟨d, hd⟩ := authorize_exec (l := [⟨.lock (.seedOpaque resource),
    .ok ()⟩])
  refine ⟨presentCalls, exchangeCalls ++
    ⟨.lock (.observeResponse resource .agentSigned challengeResponse.status
      challengeResponse.headers), .ok (.ok (.exchangeToken challengeToken))⟩ ::
    ⟨.sendWrapped botRequest .agentSigned, .ok challengeResponse⟩ ::
    ⟨.lock (.nextAttempt resource), .ok .agentSigned⟩ :: d,
    ⟨exchangedAuth, false⟩, ?_⟩
  rw [handleInner]
  refine Exec.bind_ok (exec_ofResult (a := resource) rfl) ?_
  refine Exec.bind_ok (exec_lock (a := AgentAuth.fresh none) rfl rfl) ?_
  refine Exec.bind_ok hd ?_
  rw [handleLoop]
  refine Exec.bind_ok (a := AgentAuthAttempt.agentSigned)
    (exec_lock (a := triedAuth) rfl rfl) ?_
  refine Exec.bind_ok (exec_ofResult (a := botRequest) rfl) ?_
  refine Exec.bind_ok (a := challengeResponse) (exec_sendWrapped rfl) ?_
  exact Exec.bind_ok (round_exec 1) (presented_exec 0)

end Run

end Aauth.Sample
