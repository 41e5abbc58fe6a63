import Aauth.Proofs.Verify

/-!
# What is minted is read back

A token that was encoded parses to the claims it was encoded from, and
when the issuer serves the key it was signed with it counts as signed by
that issuer. These are the facts that tie the minters to the verifiers;
they rest on `MintLaws` and `SignLaws` alone.
-/

namespace Aauth

open Except

variable {cr : Crates} {env : VerifyEnv} {now : Nat} {jwt : String}
  {typ : JwtTyp} {alg : Algorithm} {kid : Option String} {p : Bytes}
  {k : EncodingKey}

/-! ## Reading -/

theorem Algorithm.name_ne_none (alg : Algorithm) :
    Text.asciiLower alg.name ≠ "none" := by
  cases alg <;> decide

theorem rejectAlgNone_encode (laws : MintLaws cr) {h : Header}
    (he : cr.jsonwebtoken.encode h p k = .ok jwt) :
    rejectAlgNone cr jwt = .ok () := by
  obtain ⟨segment, bytes, value, hs, hb, hv, ha⟩ := laws.alg_of_encode he
  simp only [rejectAlgNone, hs, hb, hv, ha, Option.getD_some]
  exact if_neg h.alg.name_ne_none

theorem jwtHeader_encode (laws : MintLaws cr)
    (he : cr.jsonwebtoken.encode ⟨some typ.asStr, alg, kid⟩ p k = .ok jwt) :
    jwtHeader cr jwt = .ok ⟨typ, alg, kid⟩ := by
  simp only [jwtHeader, bind_eq_ok, mapError_eq_ok, Option.okOr_eq_ok]
  exact ⟨(), rejectAlgNone_encode laws he, _, laws.header_of_encode he, _,
    rfl, typ, typ.fromStr_asStr, rfl⟩

theorem decodeUnverified_encode (laws : MintLaws cr) {h : Header}
    {α : Type} {serde : Serde α} {c : α}
    (he : cr.jsonwebtoken.encode h p k = .ok jwt)
    (hc : serde.fromSlice p = .ok c) :
    decodeUnverified cr serde jwt = .ok c :=
  decodeUnverified_eq_ok.mpr ⟨p, laws.payload_of_encode he, hc⟩

theorem parse_encode_agent (laws : MintLaws cr) {c : AgentClaims}
    (he : cr.jsonwebtoken.encode ⟨some JwtTyp.agent.asStr, alg, kid⟩
      (cr.json.agentClaims.toVec c) k = .ok jwt) :
    ParsedToken.parse cr jwt = .ok (.agent c) := by
  simp only [ParsedToken.parse, bind_eq_ok, decodeWith_eq_ok]
  exact ⟨_, jwtHeader_encode laws he, rfl,
    decodeUnverified_encode laws he (laws.agentClaims c)⟩

theorem parse_encode_auth (laws : MintLaws cr) {c : AuthClaims}
    (he : cr.jsonwebtoken.encode ⟨some JwtTyp.auth.asStr, alg, kid⟩
      (cr.json.authClaims.toVec c) k = .ok jwt)
    (hc : c.sub.isSome ∨ c.scope.isSome) :
    ParsedToken.parse cr jwt = .ok (.auth c) := by
  simp only [ParsedToken.parse, bind_eq_ok, decodeWith_eq_ok]
  exact ⟨_, jwtHeader_encode laws he, rfl,
    decodeUnverified_encode laws he (laws.authClaims c),
    AuthClaims.validate_eq_ok.mpr hc⟩

theorem parse_encode_resource (laws : MintLaws cr) {c : ResourceClaims}
    (he : cr.jsonwebtoken.encode ⟨some JwtTyp.resource.asStr, alg, kid⟩
      (cr.json.resourceClaims.toVec c) k = .ok jwt) :
    ParsedToken.parse cr jwt = .ok (.resource c) := by
  simp only [ParsedToken.parse, bind_eq_ok, decodeWith_eq_ok]
  exact ⟨_, jwtHeader_encode laws he, rfl,
    decodeUnverified_encode laws he (laws.resourceClaims c)⟩

/-- What `encode_auth_jwt` mints for a subject is read back. -/
theorem parse_encodeAuthJwt (laws : MintLaws cr) {jti sub : String}
    {p : AuthJwtMintParams} (h : encodeAuthJwt cr now jti p = .ok jwt)
    (hs : p.sub = some sub) :
    ParsedToken.parse cr jwt = .ok (.auth (p.claims now jti)) := by
  have hsub : (p.claims now jti).sub.isSome := by
    show p.sub.isSome
    rw [hs]
    rfl
  exact parse_encode_auth laws (mapError_eq_ok.mp h) (.inl hsub)

/-! ## Signing -/

/-- The issuer serves the public half of `key` under its `kid`. -/
structure Serves (cr : Crates) (env : VerifyEnv) (iss dwk : String)
    (key : Ed25519KeyPair) where
  jwksUri : String
  jwks : JwkSet
  kid : String
  jwk : Jwk
  resolved : env.fetcher.resolveJwksUri iss dwk = .ok jwksUri
  fetched : env.fetcher.fetchJwks jwksUri = .ok jwks
  named : key.kid = some kid
  found : jwks.find kid = some jwk
  published : cr.json.jwkFromPublic (key.publicJwk cr) = .ok jwk

/-- A token signed with a key its issuer serves. -/
theorem issuerSigned_encode (mint : MintLaws cr) (sign : SignLaws cr)
    {iss dwk : String} {key : Ed25519KeyPair}
    (serves : Serves cr env iss dwk key)
    (he : cr.jsonwebtoken.encode ⟨some typ.asStr, .edDSA, key.kid⟩ p
      (key.encodingKey cr) = .ok jwt)
    (hv : cr.jsonwebtoken.validate p (verifiedValidation .edDSA) env.now =
      .ok ()) :
    IssuerSigned cr env iss dwk jwt := by
  obtain ⟨uri, jwks, kid, jwk, hr, hf, hn, hj, hp⟩ := serves
  have hh := jwtHeader_encode mint he
  obtain ⟨jwk', dk, hp', -, hd⟩ := sign.jwk_of_public key
  rw [hp] at hp'
  cases hp'
  refine ⟨dk, ⟨uri, jwks, _, kid, jwk, hr, hf, hh, hn, hj, hd⟩, _, p, hh, ?_,
    hv⟩
  exact sign.verify_of_encode rfl he hp hd

/-- `encode_auth_jwt` does not fail on an Ed25519 key. -/
theorem encodeAuthJwt_ok (laws : SignLaws cr) (now : Nat) (jti : String)
    (p : AuthJwtMintParams) {key : Ed25519KeyPair}
    (hk : p.encodingKey = key.encodingKey cr) :
    ∃ jwt, encodeAuthJwt cr now jti p = .ok jwt := by
  obtain ⟨jwt, he⟩ := laws.encode_ok
    ⟨some JwtTyp.auth.asStr, .edDSA, p.kid⟩
    (cr.json.authClaims.toVec (p.claims now jti)) key rfl
  rw [← hk] at he
  exact ⟨jwt, mapError_eq_ok.mpr he⟩

end Aauth
