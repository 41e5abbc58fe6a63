import Aauth.Proofs.HttpSig
import Aauth.Proofs.Verify

/-!
# The key a token is bound to

`httpsig-key` reads the `cnf` key out of the JWT on its own, before any
token is parsed. Under `CnfLaws` it finds the key the parsed claims name,
so the thumbprint of a verified signature is that of the claims, with
nobody having to compare the two.
-/

namespace Aauth

open Text Except

variable {cr : Crates} {jwt : String}

/-- The bound key of a payload, found by splitting the JWT. -/
theorem cnfJwkFromJwt_of_payload (laws : CnfLaws cr) {p : Bytes}
    {jwk : PublicJwk} (hp : cr.jsonwebtoken.insecurePayload jwt = .ok p)
    (hc : cr.json.jwtPayload.fromSlice p = .ok ⟨some (some jwk)⟩) :
    cnfJwkFromJwt cr jwt = .ok jwk := by
  obtain ⟨segment, hs, hd⟩ := laws.payload_segment hp
  simp only [cnfJwkFromJwt, bind_eq_ok, mapError_eq_ok, Option.okOr_eq_ok]
  refine ⟨segment, hs, p, ?_, _, hc, rfl⟩
  rw [hd]

/-- The payload of a parsed agent token, read by `httpsig-key`. -/
theorem cnfJwkFromJwt_agent (laws : CnfLaws cr) {c : AgentClaims}
    (h : ParsedToken.parse cr jwt = .ok (.agent c)) :
    cnfJwkFromJwt cr jwt = .ok c.cnf.jwk := by
  simp only [ParsedToken.parse, bind_eq_ok, decodeWith_eq_ok,
    decodeUnverified_eq_ok] at h
  obtain ⟨header, -, -, p, hp, hc⟩ := h
  exact cnfJwkFromJwt_of_payload laws hp (laws.cnf_of_agent hc)

/-- The payload of a parsed auth token, read by `httpsig-key`. -/
theorem cnfJwkFromJwt_auth (laws : CnfLaws cr) {c : AuthClaims}
    (h : ParsedToken.parse cr jwt = .ok (.auth c)) :
    cnfJwkFromJwt cr jwt = .ok c.cnf.jwk := by
  simp only [ParsedToken.parse, bind_eq_ok, decodeWith_eq_ok,
    decodeUnverified_eq_ok] at h
  obtain ⟨header, -, -, ⟨p, hp, hc⟩, -⟩ := h
  exact cnfJwkFromJwt_of_payload laws hp (laws.cnf_of_auth hc)

theorem jwkThumbprint_eq_ok {jwk : PublicJwk} {tp : String} :
    jwkThumbprint cr jwk = .ok tp ↔
      httpsigJwkThumbprint cr jwk = .ok tp := mapError_eq_ok

/-- What `httpsig-key` reads out of the JWT a verified request presents. -/
theorem Verified.cnf {now : Nat} {method authority path : String}
    {headers : HeaderMap} {options : VerifyOptions}
    {v : VerifiedHttpSignature}
    (s : Verified cr now method authority path headers options v)
    (hj : v.jwt = some jwt) : cnfJwkFromJwt cr jwt = .ok v.publicJwk := by
  have hres := s.resolved
  rw [hj] at hres
  cases hk : v.signatureKey with
  | jwt j =>
      simp only [hk, resolvePublicJwk, map_eq_ok, Prod.mk.injEq,
        Option.some.injEq] at hres
      obtain ⟨jwk, hcnf, rfl, rfl⟩ := hres
      exact hcnf
  | hwk _ =>
      rw [hk] at hres
      cases hres
  | unsupported _ =>
      rw [hk] at hres
      cases hres

/-- A verified signature that presents a JWT is by the key the JWT is
bound to. -/
theorem verify_bound {now : Nat} {method authority path : String}
    {headers : HeaderMap} {options : VerifyOptions}
    {v : VerifiedHttpSignature}
    (h : verify cr now method authority path headers options = .ok v)
    (hj : v.jwt = some jwt) :
    ∃ jwk, cnfJwkFromJwt cr jwt = .ok jwk ∧
      jwkThumbprint cr jwk = .ok v.thumbprint := by
  obtain ⟨s⟩ := verify_eq_ok.mp h
  exact ⟨_, s.cnf hj, jwkThumbprint_eq_ok.mpr s.thumbprint_eq⟩

/-- The thumbprint of a verified signature is that of the agent token it
presents. -/
theorem verify_bound_agent (laws : CnfLaws cr) {now : Nat}
    {method authority path : String} {headers : HeaderMap}
    {options : VerifyOptions} {v : VerifiedHttpSignature} {c : AgentClaims}
    (h : verify cr now method authority path headers options = .ok v)
    (hj : v.jwt = some jwt)
    (hp : ParsedToken.parse cr jwt = .ok (.agent c)) :
    jwkThumbprint cr c.cnf.jwk = .ok v.thumbprint := by
  obtain ⟨jwk, hcnf, htp⟩ := verify_bound h hj
  rw [cnfJwkFromJwt_agent laws hp] at hcnf
  cases hcnf
  exact htp

end Aauth
