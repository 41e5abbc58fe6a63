import Aauth.Proofs.Binding
import Aauth.Proofs.Mint
import Aauth.Sample.Lawful

/-!
# Sample parties

An agent, its provider, a Person Server, an Access Server, a resource and
an outsider, with a key each, and the JWKS documents the four servers
serve. Everyone's clock shows `now`.
-/

namespace Aauth.Sample

open Except

def now : Nat := 1000

/-! ## Keys and what is served -/

def keyPair (seed : UInt8) (kid : String) : Ed25519KeyPair where
  signingKey := List.replicate 32 seed
  kid := some kid

def agentKey : Ed25519KeyPair := keyPair 1 "agent"
def providerKey : Ed25519KeyPair := keyPair 2 "provider"
def personKey : Ed25519KeyPair := keyPair 3 "person"
def accessKey : Ed25519KeyPair := keyPair 4 "access"
def resourceKey : Ed25519KeyPair := keyPair 5 "resource"

/-- The key of someone no server vouches for. -/
def outsiderKey : Ed25519KeyPair := keyPair 6 "provider"

def provider : String := "https://agent.example"
def personServer : String := "https://person.example"
def accessServer : String := "https://access.example"
def resource : String := "https://resource.example"
def otherResource : String := "https://other.example"

/-- The key each server publishes. -/
def publishedKey (iss : String) : Option Ed25519KeyPair :=
  if iss = provider then some providerKey
  else if iss = personServer then some personKey
  else if iss = accessServer then some accessKey
  else if iss = resource ∨ iss = otherResource then some resourceKey
  else none

def fetcher : MetadataFetcher where
  resolveJwksUri iss _ := .ok iss
  fetchJwks uri := match publishedKey uri with
    | some key => key.jwkSet crates
    | none => .error (.metadata (.unknownJwksUri uri))

def env : VerifyEnv where
  now := now
  fetcher := fetcher

theorem env_now : env.now = now := rfl

/-- A key as it is served. -/
def servedJwk (key : Ed25519KeyPair) : Jwk where
  keyId := key.kid
  kty := "OKP"
  crv := some "Ed25519"
  x := some (Base64url.encode (ed25519Public key.signingKey))
  y := none

theorem fetchJwks_eq {iss : String} {key : Ed25519KeyPair}
    (h : publishedKey iss = some key) :
    fetcher.fetchJwks iss = .ok ⟨[servedJwk key]⟩ := by
  show (match publishedKey iss with
    | some key => key.jwkSet crates
    | none => _) = _
  rw [h]
  rfl

/-- Everyone in the table serves a key. -/
def serves {iss : String} {key : Ed25519KeyPair} (dwk : String)
    (h : publishedKey iss = some key) {kid : String}
    (hk : key.kid = some kid) : Serves crates env iss dwk key where
  jwksUri := iss
  jwks := ⟨[servedJwk key]⟩
  kid := kid
  jwk := servedJwk key
  resolved := rfl
  fetched := fetchJwks_eq h
  named := hk
  found := by simp [JwkSet.find, servedJwk, hk]
  published := jwkFromPublic_eq key

/-! ## Tokens -/

/-- The token of the given kind and payload, signed with `key`. -/
def mint (typ : JwtTyp) (p : Bytes) (key : Ed25519KeyPair) : String :=
  let h : Header := ⟨some typ.asStr, .edDSA, key.kid⟩
  compact (header.enc h) p
    (signature (ed25519Public key.signingKey) (message h p))

theorem encode_mint (typ : JwtTyp) (p : Bytes) (key : Ed25519KeyPair) :
    crates.jsonwebtoken.encode ⟨some typ.asStr, .edDSA, key.kid⟩ p
      (key.encodingKey crates) = .ok (mint typ p key) := by
  rw [crates_jsonwebtoken]
  exact encode_eq _ p _

def agentToken (c : AgentClaims) (key : Ed25519KeyPair) : String :=
  mint .agent (agentClaims.enc c) key

def authToken (c : AuthClaims) (key : Ed25519KeyPair) : String :=
  mint .auth (authClaims.enc c) key

def resourceToken (c : ResourceClaims) (key : Ed25519KeyPair) : String :=
  mint .resource (resourceClaims.enc c) key

theorem parse_agentToken (c : AgentClaims) (key : Ed25519KeyPair) :
    ParsedToken.parse crates (agentToken c key) = .ok (.agent c) := by
  have he : crates.jsonwebtoken.encode ⟨some JwtTyp.agent.asStr, .edDSA, key.kid⟩
      (crates.json.agentClaims.toVec c) (key.encodingKey crates) =
      .ok (agentToken c key) := by
    rw [crates_agentClaims, serde_toVec]
    exact encode_mint .agent _ key
  exact parse_encode_agent mintLaws he

theorem parse_authToken {c : AuthClaims} (key : Ed25519KeyPair)
    (h : c.sub.isSome ∨ c.scope.isSome) :
    ParsedToken.parse crates (authToken c key) = .ok (.auth c) := by
  have he : crates.jsonwebtoken.encode ⟨some JwtTyp.auth.asStr, .edDSA, key.kid⟩
      (crates.json.authClaims.toVec c) (key.encodingKey crates) =
      .ok (authToken c key) := by
    rw [crates_authClaims, serde_toVec]
    exact encode_mint .auth _ key
  exact parse_encode_auth mintLaws he h

theorem parse_resourceToken (c : ResourceClaims) (key : Ed25519KeyPair) :
    ParsedToken.parse crates (resourceToken c key) = .ok (.resource c) := by
  have he : crates.jsonwebtoken.encode ⟨some JwtTyp.resource.asStr, .edDSA, key.kid⟩
      (crates.json.resourceClaims.toVec c) (key.encodingKey crates) =
      .ok (resourceToken c key) := by
    rw [crates_resourceClaims, serde_toVec]
    exact encode_mint .resource _ key
  exact parse_encode_resource mintLaws he

/-! ## Signed by their issuer -/

section Signed

variable {iss kid : String} {key : Ed25519KeyPair} (dwk : String)
  (hkey : publishedKey iss = some key) (hkid : key.kid = some kid)
include hkey hkid

omit hkey hkid in
theorem leeway_eq (exp : Int) :
    exp + ((verifiedValidation .edDSA).leeway : Int) = exp + 60 := rfl

theorem signed_agentToken {c : AgentClaims}
    (hexp : (now : Int) ≤ c.exp + 60) (h0 : 0 ≤ c.exp) :
    IssuerSigned crates env iss dwk (agentToken c key) := by
  have hs : crates.json.agentClaims.fromSlice (agentClaims.enc c) = .ok c := by
    rw [crates_agentClaims, serde_fromSlice]
  refine issuerSigned_encode mintLaws signLaws (serves dwk hkey hkid)
    (encode_mint .agent _ key) (signLaws.validate_agent hs rfl ?_ h0)
  rw [leeway_eq, env_now]
  exact hexp

theorem signed_authToken {c : AuthClaims}
    (hexp : (now : Int) ≤ c.exp + 60) (h0 : 0 ≤ c.exp) :
    IssuerSigned crates env iss dwk (authToken c key) := by
  have hs : crates.json.authClaims.fromSlice (authClaims.enc c) = .ok c := by
    rw [crates_authClaims, serde_fromSlice]
  refine issuerSigned_encode mintLaws signLaws (serves dwk hkey hkid)
    (encode_mint .auth _ key) (signLaws.validate_auth hs rfl ?_ h0)
  rw [leeway_eq, env_now]
  exact hexp

theorem signed_resourceToken {c : ResourceClaims}
    (hexp : now ≤ c.exp + 60) :
    IssuerSigned crates env iss dwk (resourceToken c key) := by
  have hs : crates.json.resourceClaims.fromSlice (resourceClaims.enc c) =
      .ok c := by
    rw [crates_resourceClaims, serde_fromSlice]
  exact issuerSigned_encode mintLaws signLaws (serves dwk hkey hkid)
    (encode_mint .resource _ key) (signLaws.validate_resource hs rfl hexp)

end Signed

/-! ## Not signed by their issuer -/

theorem verifySignature_mint {typ : JwtTyp} {p bs : Bytes}
    {signer : Ed25519KeyPair} {dk : DecodingKey} {alg : Algorithm}
    (h : verifySignature (mint typ p signer) dk alg = .ok bs) :
    dk.der = ed25519Public signer.signingKey := by
  obtain ⟨head, payload, s, hseg, hs⟩ := signature_of_verified h
  rw [mint, segments_compact] at hseg
  simp only [Except.ok.injEq, Prod.mk.injEq] at hseg
  obtain ⟨rfl, rfl, rfl⟩ := hseg
  rw [base64Decode_encode, Except.ok.injEq, message] at hs
  exact (signature_inj hs).symm

/-- A token signed with another key than the one its issuer serves. -/
theorem not_signed (key : Ed25519KeyPair) {signer : Ed25519KeyPair}
    {iss dwk : String} {typ : JwtTyp} {p : Bytes}
    (hkey : publishedKey iss = some key)
    (hne : ed25519Public key.signingKey ≠ ed25519Public signer.signingKey) :
    ¬ IssuerSigned crates env iss dwk (mint typ p signer) := by
  intro h
  obtain ⟨dk, ⟨uri, jwks, header, kid, jwk, hr, hf, -, -, hfound, hd⟩, _, bs,
    -, hs, -⟩ := h
  cases hr
  have hf := (fetchJwks_eq hkey).symm.trans hf
  cases hf
  have hj : jwk ∈ [servedJwk key] := List.mem_of_find?_eq_some hfound
  have hx : jwk.x = some (Base64url.encode (ed25519Public key.signingKey)) := by
    rw [List.mem_singleton.mp hj, servedJwk]
  rw [fromJwk_eq hx] at hd
  cases hd
  rw [crates_jsonwebtoken] at hs
  exact hne (verifySignature_mint hs)

/-! ## Signed requests -/

/-- The headers of a request by the holder of `key` that presents `jwt`. -/
def signedHeaders (headers : HeaderMap) (method authority path : String)
    (key : Ed25519KeyPair) (jwt : String) : HeaderMap :=
  match sign crates now headers method authority path
      ⟨key.signingJwk crates, .jwt jwt⟩ (aauthSignOptions headers) with
  | .ok headers' => headers'
  | .error _ => headers

theorem sign_signedHeaders {headers : HeaderMap}
    {method authority path jwt : String} {key : Ed25519KeyPair}
    (hkey : key.signingKey.length = 32) (hjwt : IsCompact jwt)
    (hm : IsVisible method) (ha : IsVisible authority) (hp : IsVisible path) :
    sign crates now headers method authority path
      ⟨key.signingJwk crates, .jwt jwt⟩ (aauthSignOptions headers) =
        .ok (signedHeaders headers method authority path key jwt) := by
  have hs : ∃ headers', sign crates now headers method authority path
      ⟨key.signingJwk crates, .jwt jwt⟩ (aauthSignOptions headers) =
        .ok headers' :=
    sign_ok httpsigLaws httpsigTotal (signingPair key hkey) hjwt hm ha hp
  obtain ⟨headers', h⟩ := hs
  rw [signedHeaders, h]

/-- A signature leaves every other header alone. -/
theorem headerValue_signedHeaders {headers : HeaderMap}
    {method authority path jwt name : String} {key : Ed25519KeyPair}
    (h₁ : name ≠ "signature-key") (h₂ : name ≠ "signature-input")
    (h₃ : name ≠ "signature") :
    headerValue (signedHeaders headers method authority path key jwt) name =
      headerValue headers name := by
  rw [signedHeaders]
  split
  · next headers' h =>
      obtain ⟨s⟩ := signed_of_sign h
      rw [s.headers_eq]
      exact headerValue_withSignature h₁ h₂ h₃
  · rfl

theorem getAll_signedHeaders {headers : HeaderMap}
    {method authority path jwt name : String} {key : Ed25519KeyPair}
    (h₁ : name ≠ "signature-key") (h₂ : name ≠ "signature-input")
    (h₃ : name ≠ "signature") :
    (signedHeaders headers method authority path key jwt).getAll name =
      headers.getAll name := by
  rw [signedHeaders]
  split
  · next headers' h =>
      obtain ⟨s⟩ := signed_of_sign h
      rw [s.headers_eq]
      exact getAll_withSignature h₁ h₂ h₃
  · rfl

theorem isCompact_mint (typ : JwtTyp) (p : Bytes) (key : Ed25519KeyPair) :
    IsCompact (mint typ p key) := isCompact_compact _ _ _

/-! ## The parties' tokens -/

def thumbprint (key : Ed25519KeyPair) : String :=
  Base64url.encode (canonicalText [("crv", "Ed25519"), ("kty", "OKP"),
    ("x", Base64url.encode (ed25519Public key.signingKey))]).toUTF8.data.toList

theorem thumbprint_eq (key : Ed25519KeyPair) :
    jwkThumbprint crates (key.publicJwk crates) = .ok (thumbprint key) := rfl

/-- The agent's identity, as its provider states it. -/
def bot : AgentClaims where
  iss := provider
  dwk := "aauth-agent.json"
  sub := "aauth:bot@agent.example"
  jti := "agent-1"
  cnf := { jwk := agentKey.publicJwk crates }
  iat := 900
  exp := 4500
  ps := some personServer
  parentAgent := none

/-- A request signed with the key its token is bound to verifies. -/
theorem verify_signedHeaders_bound {headers : HeaderMap}
    {method authority path jwt : String} {key : Ed25519KeyPair}
    {options : VerifyOptions} (hjwt : IsCompact jwt)
    (hc : cnfJwkFromJwt crates jwt = .ok (key.publicJwk crates))
    (ho : StandardOptions options)
    (hauth : options.requireAuthorization = true → ∃ value,
      headerValue headers "authorization" = some value ∧
        Text.startsWith value "AAuth " = true)
    (hkey : key.signingKey.length = 32)
    (hm : IsVisible method) (ha : IsVisible authority) (hp : IsVisible path) :
    verify crates now method authority path
      (signedHeaders headers method authority path key jwt) options = .ok
        { label := "sig", signatureKey := .jwt jwt,
          publicJwk := key.publicJwk crates, thumbprint := thumbprint key,
          jwt := some jwt } :=
  verify_of_sign httpsigLaws ho hjwt hc
    (jwkThumbprint_eq_ok.mp (thumbprint_eq key)) (signingPair key hkey)
    (sign_signedHeaders hkey hjwt hm ha hp) (by omega) (by omega) hauth

theorem verify_signedHeaders {headers : HeaderMap}
    {method authority path : String} {c : AgentClaims}
    {key signer : Ed25519KeyPair} {options : VerifyOptions}
    (ho : StandardOptions options)
    (hauth : options.requireAuthorization = true → ∃ value,
      headerValue headers "authorization" = some value ∧
        Text.startsWith value "AAuth " = true)
    (hcnf : c.cnf.jwk = key.publicJwk crates)
    (hkey : key.signingKey.length = 32)
    (hm : IsVisible method) (ha : IsVisible authority) (hp : IsVisible path) :
    verify crates now method authority path
      (signedHeaders headers method authority path key (agentToken c signer))
      options = .ok
        { label := "sig", signatureKey := .jwt (agentToken c signer),
          publicJwk := key.publicJwk crates, thumbprint := thumbprint key,
          jwt := some (agentToken c signer) } := by
  have hc := cnfJwkFromJwt_agent cnfLaws (parse_agentToken c signer)
  rw [hcnf] at hc
  exact verify_signedHeaders_bound (isCompact_mint _ _ _) hc ho hauth hkey hm
    ha hp

/-- The same with an auth token. -/
theorem verify_signedHeaders_auth {headers : HeaderMap}
    {method authority path : String} {c : AuthClaims}
    {key signer : Ed25519KeyPair} {options : VerifyOptions}
    (hc : c.sub.isSome ∨ c.scope.isSome)
    (ho : StandardOptions options)
    (hauth : options.requireAuthorization = true → ∃ value,
      headerValue headers "authorization" = some value ∧
        Text.startsWith value "AAuth " = true)
    (hcnf : c.cnf.jwk = key.publicJwk crates)
    (hkey : key.signingKey.length = 32)
    (hm : IsVisible method) (ha : IsVisible authority) (hp : IsVisible path) :
    verify crates now method authority path
      (signedHeaders headers method authority path key (authToken c signer))
      options = .ok
        { label := "sig", signatureKey := .jwt (authToken c signer),
          publicJwk := key.publicJwk crates, thumbprint := thumbprint key,
          jwt := some (authToken c signer) } := by
  have hc := cnfJwkFromJwt_auth cnfLaws (parse_authToken signer hc)
  rw [hcnf] at hc
  exact verify_signedHeaders_bound (isCompact_mint _ _ _) hc ho hauth hkey hm
    ha hp

/-! ## The agent's request -/

def botJwt : String := agentToken bot providerKey

/-- A request for the sample resource, signed with the agent's key. -/
def botHeaders : HeaderMap :=
  signedHeaders HeaderMap.empty "GET" "resource.example" "/" agentKey
    botJwt

theorem signed_botHeaders :
    Nonempty (Signed crates now HeaderMap.empty "GET" "resource.example" "/"
      botJwt (agentKey.signingJwk crates) botHeaders) :=
  signed_of_sign (sign_signedHeaders (by rfl) (isCompact_mint _ _ _)
    (by rfl) (by rfl) (by rfl))

/-- It verifies for as long as it is fresh. -/
theorem verify_botHeaders {t : Nat} (hfuture : now ≤ t + 60)
    (hpast : t ≤ now + 120) :
    verify crates t "GET" "resource.example" "/" botHeaders .default = .ok
      { label := "sig", signatureKey := .jwt botJwt,
        publicJwk := agentKey.publicJwk crates,
        thumbprint := thumbprint agentKey, jwt := some botJwt } := by
  have hc := cnfJwkFromJwt_agent cnfLaws (parse_agentToken bot providerKey)
  exact verify_of_sign httpsigLaws ⟨rfl, rfl, rfl⟩ (isCompact_mint _ _ _) hc
    (jwkThumbprint_eq_ok.mp (thumbprint_eq agentKey))
    (signingPair agentKey (by rfl))
    (sign_signedHeaders (by rfl) (isCompact_mint _ _ _) (by rfl) (by rfl)
      (by rfl)) hfuture hpast (fun h => nomatch h)

-- from here on tokens and signed headers are known by their lemmas only
attribute [irreducible] mint signedHeaders

end Aauth.Sample
