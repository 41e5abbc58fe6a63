import Mathlib.Order.Basic
import Mathlib.Tactic.Common
import Aauth.Ref.CrateLaws
import Aauth.Ref.ResourceVerify

/-!
# What the token verifiers accept

`verifyToken_eq_ok` and `verifyResourceToken_eq_ok` invert the two
verifiers once: acceptance is the conjunction of the checks the code
makes, in terms of the parsed claims, and nothing else. Every later
statement about an accepted token goes through them.

The one assumption is `JwtLaws`. The verifiers check the claims of the
unverified parse and return those of the verified one; that these are
the same claims is the crate's promise that a JWT has one payload.
-/

namespace Aauth

open Text Except

variable {cr : Crates} {env : VerifyEnv} {now : Nat} {jwt : String}

/-! ## The key of the issuer -/

/-- `key` is the key the issuer publishes under the `kid` of the JWT. -/
structure IssuerKey (cr : Crates) (env : VerifyEnv)
    (iss dwk jwt : String) (key : DecodingKey) where
  jwksUri : String
  jwks : JwkSet
  header : JwtHeaderParts
  kid : String
  jwk : Jwk
  resolved : env.fetcher.resolveJwksUri iss dwk = .ok jwksUri
  fetched : env.fetcher.fetchJwks jwksUri = .ok jwks
  headed : jwtHeader cr jwt = .ok header
  named : header.kid = some kid
  found : jwks.find kid = some jwk
  decoded : cr.jsonwebtoken.fromJwk jwk = .ok key

theorem fetchDecodingKey_eq_ok {iss dwk : String} {key : DecodingKey} :
    fetchDecodingKey cr env iss dwk jwt = .ok key ↔
      Nonempty (IssuerKey cr env iss dwk jwt key) := by
  simp only [fetchDecodingKey, bind_eq_ok, mapError_eq_ok, Option.okOr_eq_ok]
  constructor
  · rintro ⟨uri, hu, jwks, hs, header, hh, kid, hk, jwk, hj, hd⟩
    exact ⟨uri, jwks, header, kid, jwk, hu, hs, hh, hk, hj, hd⟩
  · rintro ⟨uri, jwks, header, kid, jwk, hu, hs, hh, hk, hj, hd⟩
    exact ⟨uri, hu, jwks, hs, header, hh, kid, hk, jwk, hj, hd⟩

/-- The signature of the JWT verifies under `key`, with the algorithm its
header names, and its registered claims are valid at `now`. -/
def SignatureVerifies (cr : Crates) (now : Nat) (jwt : String)
    (key : DecodingKey) : Prop :=
  ∃ header payload, jwtHeader cr jwt = .ok header ∧
    cr.jsonwebtoken.verifySignature jwt key header.alg = .ok payload ∧
    cr.jsonwebtoken.validate payload (verifiedValidation header.alg) now =
      .ok ()

/-- The JWT is signed by the issuer it names. -/
def IssuerSigned (cr : Crates) (env : VerifyEnv) (iss dwk jwt : String) :
    Prop :=
  ∃ key, Nonempty (IssuerKey cr env iss dwk jwt key) ∧
    SignatureVerifies cr env.now jwt key

/-! ## Decoding -/

section Decode

variable {α : Type} {serde : Serde α} {key : DecodingKey}

theorem decodeUnverified_eq_ok {c : α} :
    decodeUnverified cr serde jwt = .ok c ↔
      ∃ p, cr.jsonwebtoken.insecurePayload jwt = .ok p ∧
        serde.fromSlice p = .ok c := by
  simp only [decodeUnverified, bind_eq_ok, mapError_eq_ok]

theorem decodeVerified_eq_ok {v : Validation} {c : α} :
    decodeVerified cr now serde jwt key v = .ok c ↔
      ∃ p, cr.jsonwebtoken.verifySignature jwt key v.algorithm = .ok p ∧
        serde.fromSlice p = .ok c ∧
        cr.jsonwebtoken.validate p v now = .ok () := by
  simp only [decodeVerified, bind_eq_ok, mapError_eq_ok, pure_eq_ok]
  constructor
  · rintro ⟨p, hp, c', hc, ⟨⟩, hv, rfl⟩
    exact ⟨p, hp, hc, hv⟩
  · rintro ⟨p, hp, hc, hv⟩
    exact ⟨p, hp, c, hc, (), hv, rfl⟩

/-- Decoding by `typ` succeeds when the decoder does, on auth claims that
validate. -/
theorem decodeWith_eq_ok {typ : JwtTyp}
    {decode : {β : Type} → Serde β → AAuthResult β} {t : ParsedToken} :
    ParsedToken.decodeWith cr typ decode = .ok t ↔ match t with
      | .agent c => typ = .agent ∧ decode cr.json.agentClaims = .ok c
      | .auth c => typ = .auth ∧ decode cr.json.authClaims = .ok c ∧
          c.validate = .ok ()
      | .resource c =>
          typ = .resource ∧ decode cr.json.resourceClaims = .ok c := by
  cases typ with
  | agent => cases t <;> simp [ParsedToken.decodeWith, map_eq_ok,
      mapError_eq_ok]
  | auth =>
      simp only [ParsedToken.decodeWith, bind_eq_ok, mapError_eq_ok,
        pure_eq_ok]
      cases t <;> simp
      exact fun _ => ⟨fun ⟨_, h⟩ => h, fun h => ⟨_, h⟩⟩
  | resource => cases t <;> simp [ParsedToken.decodeWith, map_eq_ok,
      mapError_eq_ok]

/-- The verified decode accepts exactly what the unverified one does, on
JWTs whose signature verifies. -/
theorem verifyWithKey_eq_ok (laws : JwtLaws cr) {t : ParsedToken} :
    ParsedToken.verifyWithKey cr now jwt key = .ok t ↔
      ParsedToken.parse cr jwt = .ok t ∧
        SignatureVerifies cr now jwt key := by
  have payload : ∀ {α : Type} {s : Serde α} {c : α} {header : JwtHeaderParts},
      decodeVerified cr now s jwt key (verifiedValidation header.alg) = .ok c ↔
        decodeUnverified cr s jwt = .ok c ∧ ∃ p : Bytes,
          cr.jsonwebtoken.verifySignature jwt key header.alg = .ok p ∧
          cr.jsonwebtoken.validate p (verifiedValidation header.alg) now =
            .ok () := by
    intro α s c header
    rw [decodeVerified_eq_ok, decodeUnverified_eq_ok]
    constructor
    · rintro ⟨p, hp, hc, hv⟩
      exact ⟨⟨p, laws.payload_of_verified hp, hc⟩, p, hp, hv⟩
    · rintro ⟨⟨p', hp', hc⟩, p, hp, hv⟩
      rw [laws.payload_of_verified hp] at hp'
      cases hp'
      exact ⟨_, hp, hc, hv⟩
  simp only [ParsedToken.verifyWithKey, ParsedToken.parse, bind_eq_ok,
    decodeWith_eq_ok, SignatureVerifies]
  constructor
  · rintro ⟨header, hh, ht⟩
    cases t with
    | agent c =>
        obtain ⟨htyp, hd⟩ := ht
        obtain ⟨hu, p, hp, hv⟩ := payload.mp hd
        exact ⟨⟨header, hh, htyp, hu⟩, header, p, hh, hp, hv⟩
    | auth c =>
        obtain ⟨htyp, hd, hc⟩ := ht
        obtain ⟨hu, p, hp, hv⟩ := payload.mp hd
        exact ⟨⟨header, hh, htyp, hu, hc⟩, header, p, hh, hp, hv⟩
    | resource c =>
        obtain ⟨htyp, hd⟩ := ht
        obtain ⟨hu, p, hp, hv⟩ := payload.mp hd
        exact ⟨⟨header, hh, htyp, hu⟩, header, p, hh, hp, hv⟩
  · rintro ⟨⟨header, hh, ht⟩, header', p, hh', hp, hv⟩
    rw [hh] at hh'
    cases hh'
    refine ⟨header, hh, ?_⟩
    cases t with
    | agent c => exact ⟨ht.1, payload.mpr ⟨ht.2, p, hp, hv⟩⟩
    | auth c => exact ⟨ht.1, payload.mpr ⟨ht.2.1, p, hp, hv⟩, ht.2.2⟩
    | resource c => exact ⟨ht.1, payload.mpr ⟨ht.2, p, hp, hv⟩⟩

end Decode

theorem AuthClaims.validate_eq_ok {c : AuthClaims} :
    c.validate = .ok () ↔ c.sub.isSome ∨ c.scope.isSome := by
  rw [AuthClaims.validate, failIf_eq_ok, not_and_or,
    Option.isSome_iff_ne_none, Option.isSome_iff_ne_none]

/-- A parsed auth token carries a subject or a scope. -/
theorem parse_auth_validate {c : AuthClaims}
    (h : ParsedToken.parse cr jwt = .ok (.auth c)) :
    c.sub.isSome ∨ c.scope.isSome := by
  simp only [ParsedToken.parse, bind_eq_ok, decodeWith_eq_ok] at h
  obtain ⟨-, -, -, -, hv⟩ := h
  exact AuthClaims.validate_eq_ok.mp hv

theorem JwtTyp.fromStr_eq_some {value : String} {t : JwtTyp} :
    JwtTyp.fromStr value = some t ↔ value = t.asStr := by
  constructor
  · intro h
    rw [JwtTyp.fromStr] at h
    split_ifs at h with h₁ h₂ h₃
    · cases h
      exact h₁
    · cases h
      exact h₂
    · cases h
      exact h₃
  · intro h
    rw [h, JwtTyp.fromStr_asStr]

/-- The `typ` of a parsed auth token, as its header has it. -/
theorem parse_auth_typ {c : AuthClaims}
    (h : ParsedToken.parse cr jwt = .ok (.auth c)) : ∃ header,
    cr.jsonwebtoken.decodeHeader jwt = .ok header ∧
      header.typ = some JwtTyp.auth.asStr := by
  simp only [ParsedToken.parse, bind_eq_ok, decodeWith_eq_ok] at h
  obtain ⟨parts, hparts, htyp, -⟩ := h
  simp only [jwtHeader, bind_eq_ok, mapError_eq_ok, Option.okOr_eq_ok,
    pure_eq_ok] at hparts
  obtain ⟨-, -, header, hh, typStr, hs, typ, ht, he⟩ := hparts
  have htyp : typ = .auth := by rw [← htyp, ← he]
  rw [htyp] at ht
  exact ⟨header, hh, by rw [hs, JwtTyp.fromStr_eq_some.mp ht]⟩

/-! ## Agent and auth tokens -/

/-- The claim rules that are checked of an agent token and of no other. -/
structure AgentClaimRules (cr : Crates) (now : Nat) (c : AgentClaims) :
    Prop where
  dwk : c.dwk = "aauth-agent.json"
  iat : c.iat ≤ now + CLOCK_SKEW
  iss : isValidServerIdentifier cr c.iss = true
  ps : ∀ ps ∈ c.ps, isValidServerIdentifier cr ps = true
  parent : ∀ parent ∈ c.parentAgent, isValidAgentIdentifier parent = true

theorem validateAgentTokenClaims_eq_ok {c : AgentClaims} :
    validateAgentTokenClaims cr now c = .ok () ↔
      AgentClaimRules cr now c := by
  simp only [validateAgentTokenClaims, bind_eq_ok, failIf_eq_ok]
  constructor
  · rintro ⟨⟨⟩, h₁, ⟨⟩, h₂, ⟨⟩, h₃, ⟨⟩, h₄, h₅⟩
    refine ⟨not_ne_iff.mp h₁, by omega, by simpa using h₃, ?_, ?_⟩
    · exact fun ps hps => by simpa using fun h => h₄ ⟨ps, hps, h⟩
    · exact fun p hp => by simpa using fun h => h₅ ⟨p, hp, h⟩
  · rintro ⟨h₁, h₂, h₃, h₄, h₅⟩
    refine ⟨(), not_ne_iff.mpr h₁, (), by omega, (), by simpa using h₃, (),
      ?_, ?_⟩
    · rintro ⟨ps, hps, h⟩
      rw [h₄ ps hps] at h
      cases h
    · rintro ⟨p, hp, h⟩
      rw [h₅ p hp] at h
      cases h

/-- The checks `verifyToken` makes of a token, whatever its kind. -/
structure TokenChecks (cr : Crates) (env : VerifyEnv)
    (options : VerifyTokenOptions) (t : ParsedToken) : Prop where
  parsed : ParsedToken.parse cr options.jwt = .ok t
  unexpired : env.now ≤ t.exp + CLOCK_SKEW
  bound : ∃ jwk ∈ t.cnfJwk,
    jwkThumbprint cr jwk = .ok options.httpSignatureThumbprint
  signed : IssuerSigned cr env t.iss t.dwk options.jwt

theorem verifyToken_eq_ok (laws : JwtLaws cr)
    {options : VerifyTokenOptions} {t : ParsedToken} :
    verifyToken cr env options = .ok t ↔
      TokenChecks cr env options t ∧
        ∀ c, t = .agent c → AgentClaimRules cr env.now c := by
  simp only [verifyToken, bind_eq_ok, mapError_eq_ok, failIf_eq_ok,
    Option.okOr_eq_ok, verifyWithKey_eq_ok laws, fetchDecodingKey_eq_ok]
  constructor
  · rintro ⟨t', hp, typ, htyp, ⟨⟩, hexp, jwk, hjwk, tp, htp, ⟨⟩, heq, key,
      hkey, hp', hs⟩
    rw [hp] at hp'
    cases hp'
    refine ⟨⟨hp, ?_, ⟨jwk, hjwk, ?_⟩, key, hkey, hs⟩, ?_⟩
    · omega
    · rw [htp, not_ne_iff.mp heq]
    · rintro c rfl
      simp only [verifyTokenTyp, bind_eq_ok] at htyp
      obtain ⟨⟨⟩, hv, -⟩ := htyp
      exact validateAgentTokenClaims_eq_ok.mp hv
  · rintro ⟨⟨hp, hexp, ⟨jwk, hjwk, htp⟩, key, hkey, hs⟩, hrules⟩
    have htyp : ∃ typ, verifyTokenTyp cr env.now t = .ok typ := by
      cases t with
      | agent c =>
          refine ⟨.agent, bind_eq_ok.mpr ⟨(), ?_, rfl⟩⟩
          exact validateAgentTokenClaims_eq_ok.mpr (hrules c rfl)
      | auth c => exact ⟨.auth, rfl⟩
      | resource c => cases hjwk
    obtain ⟨typ, htyp⟩ := htyp
    exact ⟨t, hp, typ, htyp, (), by omega, jwk, hjwk, _, htp, (),
      not_ne_iff.mpr rfl, key, hkey, hp, hs⟩

/-- A resource token is never accepted where an agent or auth token is
asked for. -/
theorem verifyToken_ne_resource (laws : JwtLaws cr)
    {options : VerifyTokenOptions} (c : ResourceClaims) :
    verifyToken cr env options ≠ .ok (.resource c) := by
  intro h
  obtain ⟨⟨-, -, ⟨jwk, hjwk, -⟩, -⟩, -⟩ := (verifyToken_eq_ok laws).mp h
  cases hjwk

/-! ## Resource tokens -/

/-- The checks `verifyResourceToken` makes. -/
structure ResourceTokenChecks (cr : Crates) (env : VerifyEnv)
    (options : VerifyResourceTokenOptions) (c : ResourceClaims) : Prop where
  parsed : ParsedToken.parse cr options.jwt = .ok (.resource c)
  unexpired : env.now ≤ u64AsI64 c.exp + CLOCK_SKEW
  dwk : c.dwk = "aauth-resource.json"
  agent : ∀ a ∈ options.expectedAgent, c.agent = a
  agentJkt : ∀ jkt ∈ options.expectedAgentJkt, c.agentJkt = jkt
  signed : IssuerSigned cr env c.iss c.dwk options.jwt

theorem expectResource_eq_ok {e : AAuthError} {t : ParsedToken}
    {c : ResourceClaims} :
    t.expectResource e = .ok c ↔ t = .resource c := by
  cases t <;> simp [ParsedToken.expectResource]

theorem expectAuth_eq_ok {e : AAuthError} {t : ParsedToken}
    {c : AuthClaims} : t.expectAuth e = .ok c ↔ t = .auth c := by
  cases t <;> simp [ParsedToken.expectAuth]

theorem verifyResourceToken_eq_ok (laws : JwtLaws cr)
    {options : VerifyResourceTokenOptions} {c : ResourceClaims} :
    verifyResourceToken cr env options = .ok c ↔
      ResourceTokenChecks cr env options c := by
  simp only [verifyResourceToken, bind_eq_ok, failIf_eq_ok,
    expectResource_eq_ok, verifyWithKey_eq_ok laws, fetchDecodingKey_eq_ok]
  constructor
  · rintro ⟨t, hp, c', rfl, ⟨⟩, hexp, ⟨⟩, hdwk, ⟨⟩, hag, ⟨⟩, hjkt, key, hkey,
      t', ⟨hp', hs⟩, rfl⟩
    rw [hp] at hp'
    cases hp'
    refine ⟨hp, by omega, not_ne_iff.mp hdwk, ?_, ?_, key, hkey, hs⟩
    · exact fun a ha => by_contra fun h => hag ⟨a, ha, h⟩
    · exact fun a ha => by_contra fun h => hjkt ⟨a, ha, h⟩
  · rintro ⟨hp, hexp, hdwk, hag, hjkt, key, hkey, hs⟩
    refine ⟨_, hp, c, rfl, (), by omega, (), not_ne_iff.mpr hdwk, (), ?_, (),
      ?_, key, hkey, _, ⟨hp, hs⟩, rfl⟩
    · rintro ⟨a, ha, h⟩
      exact h (hag a ha)
    · rintro ⟨a, ha, h⟩
      exact h (hjkt a ha)

/-- The resource token of a challenge is one of the server that was asked. -/
theorem verifyResourceChallenge_eq_ok (laws : JwtLaws cr)
    {resourceUrl agentSub agentJkt : String} {c : ResourceClaims} :
    verifyResourceChallenge cr env jwt resourceUrl agentSub agentJkt = .ok c ↔
      ResourceTokenChecks cr env ⟨jwt, some agentSub, some agentJkt⟩ c ∧
        normalizeServerUrl cr c.iss = normalizeServerUrl cr resourceUrl := by
  simp only [verifyResourceChallenge, bind_eq_ok, failIf_eq_ok, pure_eq_ok,
    verifyResourceToken_eq_ok laws]
  constructor
  · rintro ⟨c', hc, ⟨⟩, hiss, rfl⟩
    exact ⟨hc, not_ne_iff.mp hiss⟩
  · rintro ⟨hc, hiss⟩
    exact ⟨c, hc, (), not_ne_iff.mpr hiss, rfl⟩

/-! ## Auth tokens of an exchange -/

/-- The checks made of the claims of an exchanged token. -/
structure ClientTokenChecks (cr : Crates) (now : Nat) (auth : AuthClaims)
    (resourceUrl resourceTokenAud agentSub agentJkt : String) : Prop where
  unexpired : now ≤ auth.exp + CLOCK_SKEW
  iss : normalizeServerUrl cr auth.iss =
    normalizeServerUrl cr resourceTokenAud
  aud : normalizeServerUrl cr auth.aud = normalizeServerUrl cr resourceUrl
  bound : jwkThumbprint cr auth.cnf.jwk = .ok agentJkt
  agent : auth.agent = agentSub
  act : ∀ act ∈ auth.act, act.agent.isEmpty = false ∧
    startsWith act.agent "aauth:" = true

theorem verifyClientAuthTokenClaims_eq_ok {auth : AuthClaims}
    {resourceUrl resourceTokenAud agentSub agentJkt : String} :
    verifyClientAuthTokenClaims cr now auth resourceUrl resourceTokenAud
        agentSub agentJkt = .ok () ↔
      ClientTokenChecks cr now auth resourceUrl resourceTokenAud agentSub
        agentJkt := by
  simp only [verifyClientAuthTokenClaims, verifyAuthTokenBinding, bind_eq_ok,
    failIf_eq_ok]
  constructor
  · rintro ⟨⟨⟩, hexp, ⟨⟩, hiss, ⟨⟩, haud, jkt, hjkt, ⟨⟩, hcnf, ⟨⟩, hagent,
      hact⟩
    refine ⟨by omega, not_ne_iff.mp hiss, not_ne_iff.mp haud, ?_,
      not_ne_iff.mp hagent, ?_⟩
    · rw [hjkt, not_ne_iff.mp hcnf]
    · intro act hm
      have hn : ¬ (act.agent.isEmpty = true ∨
          startsWith act.agent "aauth:" = false) :=
        fun h => hact ⟨act, hm, h⟩
      rw [not_or, Bool.not_eq_true, Bool.not_eq_false] at hn
      exact hn
  · rintro ⟨hexp, hiss, haud, hjkt, hagent, hact⟩
    refine ⟨(), by omega, (), not_ne_iff.mpr hiss, (), not_ne_iff.mpr haud,
      _, hjkt, (), not_ne_iff.mpr rfl, (), not_ne_iff.mpr hagent, ?_⟩
    rintro ⟨act, hm, h⟩
    obtain ⟨hne, hs⟩ := hact act hm
    rw [hne, hs] at h
    simp at h

/-- An exchanged token passes its checks; its signature is verified where
that is asked for. -/
theorem verifyClientAuthToken_eq_ok (laws : JwtLaws cr) {auth : AuthClaims}
    {resourceUrl resourceTokenAud agentSub agentJkt : String}
    {verifySignature : Bool} :
    verifyClientAuthToken cr env jwt resourceUrl resourceTokenAud agentSub
        agentJkt verifySignature = .ok auth ↔
      ParsedToken.parse cr jwt = .ok (.auth auth) ∧
        ClientTokenChecks cr env.now auth resourceUrl resourceTokenAud
          agentSub agentJkt ∧
        (verifySignature = true →
          IssuerSigned cr env auth.iss auth.dwk jwt) := by
  simp only [verifyClientAuthToken, bind_eq_ok, expectAuth_eq_ok]
  constructor
  · rintro ⟨t, hp, c, rfl, ⟨⟩, hc, h⟩
    have hc := verifyClientAuthTokenClaims_eq_ok.mp hc
    cases verifySignature with
    | false =>
        cases h
        exact ⟨hp, hc, nofun⟩
    | true =>
        simp only [if_true, bind_eq_ok, expectAuth_eq_ok,
          verifyWithKey_eq_ok laws, fetchDecodingKey_eq_ok] at h
        obtain ⟨key, hkey, t, ⟨hp', hs⟩, rfl⟩ := h
        rw [hp] at hp'
        cases hp'
        exact ⟨hp, hc, fun _ => ⟨key, hkey, hs⟩⟩
  · rintro ⟨hp, hc, hsigned⟩
    refine ⟨_, hp, auth, rfl, (),
      verifyClientAuthTokenClaims_eq_ok.mpr hc, ?_⟩
    cases verifySignature with
    | false => rfl
    | true =>
        obtain ⟨key, hkey, hs⟩ := hsigned rfl
        simp only [if_true, bind_eq_ok, expectAuth_eq_ok,
          verifyWithKey_eq_ok laws, fetchDecodingKey_eq_ok]
        exact ⟨key, hkey, _, ⟨hp, hs⟩, rfl⟩

end Aauth
