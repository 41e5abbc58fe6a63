import Aauth.Proofs.Acceptance
import Aauth.Proofs.ResourceGate

/-!
# Whose auth tokens a federated resource takes

A resource with an Access Server of its own sends agents there: its
resource tokens name that server as the audience. When an agent comes
back the layer checks the auth token against its own claims and against
the resource URL, and never against the Access Server it is configured
with. So the issuer is bound exactly on the requests that do not present
another server's token for this resource.
-/

namespace Aauth

open Except

section Issuer

variable {cr : Crates} {layer : ResourceAuthLayer} {env : LayerEnv}
  {req : Request} {as : String}

/-- The inner service sees auth tokens of the server at `as` only. -/
def ResourceAuthLayer.IssuerBound (cr : Crates) (layer : ResourceAuthLayer)
    (env : LayerEnv) (req : Request) (as : String) : Prop :=
  ∀ c, layer.call cr env req = .inner (.auth c) →
    normalizeServerUrl cr c.iss = normalizeServerUrl cr as

/-- An auth token that some other server than the one at `as` made for the
key that signed the request and for this resource. -/
structure ResourceAuthLayer.ForeignToken (cr : Crates)
    (layer : ResourceAuthLayer) (env : LayerEnv) (as jwt thumbprint : String)
    (c : AuthClaims) : Prop where
  genuine : TokenChecks cr (layer.verifyEnv env)
    { jwt, httpSignatureThumbprint := thumbprint } (.auth c)
  audience : verifyAuthTokenBinding cr c layer.resourceUrl = .ok ()
  foreign : normalizeServerUrl cr c.iss ≠ normalizeServerUrl cr as

/-- In the PS-asserted mode a request gets in with an auth token exactly
when it presents one that verifies and is for this resource. -/
theorem ResourceAuthLayer.admitJwt_eq_inner (laws : JwtLaws cr)
    {headers : HeaderMap} {jwt thumbprint : String} {c : AuthClaims}
    {required : Bool} {server fallback : Option String}
    (hmode : layer.mode = .psAsserted required server fallback) :
    layer.admitJwt cr env headers jwt thumbprint = .inner (.auth c) ↔
      TokenChecks cr (layer.verifyEnv env)
          { jwt, httpSignatureThumbprint := thumbprint } (.auth c) ∧
        verifyAuthTokenBinding cr c layer.resourceUrl = .ok () := by
  have hpath : layer.admitJwt cr env headers jwt thumbprint =
      layer.verifyAndAdmit cr env jwt thumbprint := by
    simp only [admitJwt, hmode]
  rw [hpath, verifyAndAdmit]
  constructor
  · intro h
    split at h
    · next e _ =>
        have all := layer.rejectToken_all (P := fun _ => False) e
        rw [h] at all
        exact all.elim
    · next t ht =>
        have hc := ((verifyToken_eq_ok laws).mp ht).1
        cases t with
        | agent agent =>
            have all : (layer.byMode env (.agent agent) thumbprint).All
              (· = .agent agent) := byMode_all
            have h : layer.byMode env (.agent agent) thumbprint =
              .inner (.auth c) := h
            rw [h] at all
            cases all
        | auth auth =>
            simp only [byMode, hmode] at h
            split at h
            · cases h
            · next hb =>
                cases h
                exact ⟨hc, hb⟩
        | resource rc => exact absurd ht (verifyToken_ne_resource laws rc)
  · intro h
    have ht : verifyToken cr { now := env.verifyNow, fetcher := layer.fetcher }
        { jwt, httpSignatureThumbprint := thumbprint } = .ok (.auth c) :=
      (verifyToken_eq_ok laws).mpr ⟨h.1, fun rc he => by cases he⟩
    simp only [ht, h.2, byMode, hmode]

/-- The issuer is bound to the configured Access Server exactly when the
request does not present a foreign token for this resource. -/
theorem federated_issuer (laws : JwtLaws cr) {required : Bool}
    {fallback : Option String}
    (hmode : layer.mode = .psAsserted required (some as) fallback) :
    layer.IssuerBound cr env req as ↔
      ∀ jwt thumbprint c, layer.Presents cr env req jwt thumbprint →
        ¬ layer.ForeignToken cr env as jwt thumbprint c := by
  constructor
  · intro h jwt thumbprint c hpres hf
    refine hf.foreign (h c ?_)
    rw [ResourceAuthLayer.call_of_presents hpres]
    exact (layer.admitJwt_eq_inner laws hmode).mpr ⟨hf.genuine, hf.audience⟩
  · intro h c hc
    by_contra hne
    have all : (layer.call cr env req).All (· ≠ .auth c) := by
      refine ResourceAuthLayer.call_all fun jwt thumbprint hpres => ?_
      cases ho : layer.admitJwt cr env req.headers jwt thumbprint with
      | inner t =>
          intro ht
          subst ht
          obtain ⟨hg, ha⟩ := (layer.admitJwt_eq_inner laws hmode).mp ho
          exact h jwt thumbprint c hpres ⟨hg, ha, hne⟩
      | consent ctx => exact nofun
      | respond _ => trivial
      | panic => trivial
    rw [hc] at all
    exact all rfl

end Issuer

/-! ## At the sample parties -/

namespace Sample

/-- A resource with an Access Server of its own. -/
def federatedLayer : ResourceAuthLayer where
  fetcher := fetcher
  resourceUrl := resource
  mode := .psAsserted true (some accessServer) none
  resourceTokenSigner := ed25519ResourceTokenSigner crates resourceKey
  interactionProvider := noResourceInteraction

/-- The agent's request with an auth token that `key` signed for `iss`. -/
def grantedRequest (iss dwk : String) (key : Ed25519KeyPair) : Request where
  method := "GET"
  uri := { host := none, port := none, path := "/data" }
  headers := signedHeaders ⟨[("host", "resource.example")]⟩ "GET"
    "resource.example" "/data" agentKey
    (authToken (grant iss dwk resource) key)

theorem presents_grantedRequest (iss dwk : String) (key : Ed25519KeyPair) :
    federatedLayer.Presents crates layerEnv (grantedRequest iss dwk key)
      (authToken (grant iss dwk resource) key) (thumbprint agentKey) := by
  have hh : headerValue (grantedRequest iss dwk key).headers "host" =
      some "resource.example" := by
    rw [grantedRequest, headerValue_signedHeaders (by decide) (by decide)
      (by decide)]
    decide
  have hparts : signatureParts (grantedRequest iss dwk key) =
      ("GET", "resource.example", "/data") := by
    rw [signatureParts, hh]
    rfl
  have ho : StandardOptions (federatedLayer.sigOptions
      (grantedRequest iss dwk key).headers) := standard_default
  have hauth : federatedLayer.opaqueRetry
      (grantedRequest iss dwk key).headers = true → ∃ value,
        headerValue ⟨[("host", "resource.example")]⟩ "authorization" =
            some value ∧
          Text.startsWith value "AAuth " = true := by
    intro h
    cases h
  rw [ResourceAuthLayer.Presents, hparts]
  rw [grantedRequest] at ho hauth ⊢
  exact ⟨_, verify_signedHeaders_auth (.inl rfl) ho hauth rfl rfl (by rfl)
    (by rfl) (by rfl), rfl, rfl⟩

theorem accepts_grantedRequest {iss dwk kid : String} {key : Ed25519KeyPair}
    (hkey : publishedKey iss = some key) (hkid : key.kid = some kid) :
    federatedLayer.call crates layerEnv (grantedRequest iss dwk key) =
      .inner (.auth (grant iss dwk resource)) := by
  rw [ResourceAuthLayer.call_of_presents (presents_grantedRequest iss dwk key)]
  have haud : (grant iss dwk resource).aud = federatedLayer.resourceUrl := rfl
  have hb : verifyAuthTokenBinding crates (grant iss dwk resource)
      federatedLayer.resourceUrl = .ok () := by
    rw [verifyAuthTokenBinding, failIf_eq_ok, haud]
    exact not_not_intro rfl
  exact (federatedLayer.admitJwt_eq_inner jwtLaws rfl).mpr
    ⟨grant_checks hkey hkid, hb⟩

/-- The token of the agent's own Person Server gets in as well. -/
theorem federated_issuer_foreign :
    ¬ federatedLayer.IssuerBound crates layerEnv
      (grantedRequest personServer "aauth-person.json" personKey)
      accessServer := by
  intro h
  have hiss := h _ (accepts_grantedRequest rfl rfl)
  revert hiss
  decide

/-- A request with the Access Server's token keeps the binding. -/
theorem federated_issuer_bot :
    federatedLayer.IssuerBound crates layerEnv
      (grantedRequest accessServer "aauth-access.json" accessKey)
      accessServer := by
  refine (federated_issuer jwtLaws rfl).mpr fun jwt tp c hpres hf => ?_
  obtain rfl := hpres.jwt_eq (presents_grantedRequest accessServer
    "aauth-access.json" accessKey)
  have hp : ParsedToken.parse crates (authToken (grant accessServer
      "aauth-access.json" resource) accessKey) =
        .ok (.auth (grant accessServer "aauth-access.json" resource)) :=
    parse_authToken accessKey (.inl rfl)
  have hc := hp.symm.trans hf.genuine.parsed
  cases hc
  exact hf.foreign rfl

end Sample

end Aauth
