import Aauth.Sample.Parties

/-!
# A signed request verifies

`Request.sign` and `verify` at the two ends of a request: the parts the
server computes are the ones the agent signed, because signing adds three
headers and `Host` is not among them, and every optional header is
covered exactly when the server will look for it. The one place where the
ends differ is a value that is not readable as text: the agent does not
cover it, and a server that insists on it finds nothing to verify.
-/

namespace Aauth

open Text Except

variable {cr : Crates}

/-! ## Signing a request -/

section Sign

variable {created : Nat} {req req' : Request} {signing : SigningJwk}
  {jwt : String}

/-- Signing adds headers and changes nothing else. -/
theorem Request.sign_eq_ok :
    req.sign cr created ⟨signing, .jwt jwt⟩ = .ok req' ↔
      (signatureParts req).2.1.isEmpty = false ∧ ∃ headers,
        Aauth.sign cr created req.headers (signatureParts req).1
          (signatureParts req).2.1 (signatureParts req).2.2
          ⟨signing, .jwt jwt⟩ (aauthSignOptions req.headers) =
            .ok headers ∧
        req' = { req with headers } := by
  simp only [Request.sign, SignatureKey.requireJwt, bind_eq_ok,
    mapError_eq_ok, failIf_eq_ok, pure_eq_ok]
  constructor
  · rintro ⟨-, -, -, ha, headers, hs, rfl⟩
    exact ⟨by simpa using ha, headers, hs, rfl⟩
  · rintro ⟨ha, headers, hs, rfl⟩
    exact ⟨(), trivial, (), by simp [ha], headers, hs, rfl⟩

/-- The server computes the parts that were signed. -/
theorem signatureParts_signed
    (hs : req.sign cr created ⟨signing, .jwt jwt⟩ = .ok req') :
    signatureParts req' = signatureParts req := by
  obtain ⟨-, headers, hsign, rfl⟩ := Request.sign_eq_ok.mp hs
  obtain ⟨s⟩ := signed_of_sign hsign
  have hhost : headerValue headers "host" =
      headerValue req.headers "host" := by
    rw [s.headers_eq]
    exact headerValue_withSignature (by decide) (by decide) (by decide)
  simp only [signatureParts, hhost]

end Sign

/-! ## The thumbprint of the signing key -/

/-- A key that `httpsig` can use has a thumbprint. -/
theorem httpsigJwkThumbprint_total (total : ThumbprintTotal cr)
    {jwk : PublicJwk} {key : PublicKey}
    (h : publicKeyFromJwk cr jwk = .ok key) :
    ∃ tp, httpsigJwkThumbprint cr jwk = .ok tp := by
  have hmembers : ∃ members, thumbprintMembers jwk = .ok members := by
    rw [publicKeyFromJwk] at h
    rw [thumbprintMembers]
    by_cases hokp : jwk.kty = "OKP"
    · rw [if_pos hokp]
      exact ⟨_, rfl⟩
    · rw [if_neg hokp]
      by_cases hec : jwk.kty = "EC"
      · rw [if_pos hec]
        exact ⟨_, rfl⟩
      · rw [if_neg fun hk => hokp hk.1, if_neg fun hk => hec hk.1] at h
        cases h
  obtain ⟨members, hm⟩ := hmembers
  obtain ⟨text, ht⟩ := total.mapToString members
  simp only [httpsigJwkThumbprint, bind_eq_ok, mapError_eq_ok, pure_eq_ok]
  exact ⟨_, members, hm, text, ht, rfl⟩

/-! ## Both ends -/

/-- The server asks for a covered `Authorization` exactly when it can read
an AAuth credential there. -/
def AsksForCredential (options : VerifyOptions) (headers : HeaderMap) :
    Prop :=
  options.requireAuthorization = true ↔ ∃ value,
    headerValue headers "authorization" = some value ∧
      startsWith value "AAuth " = true

/-- Every request that has an authority, and whose parts are visible, can
be signed; once signed it verifies for as long as it is fresh, with the
JWT and the thumbprint of the signing key in the result. -/
theorem signed_request_verifies (laws : HttpsigLaws cr)
    (total : HttpsigTotal cr) (thumbprints : ThumbprintTotal cr)
    {created : Nat} {req : Request} {signing : SigningJwk} {jwk : PublicJwk}
    {jwt : String} (pair : Nonempty (SigningPair cr signing jwk))
    (hjwt : IsCompact jwt) (hcnf : cnfJwkFromJwt cr jwt = .ok jwk)
    (hauthority : (signatureParts req).2.1.isEmpty = false) :
    (IsVisible (signatureParts req).1 → IsVisible (signatureParts req).2.1 →
      IsVisible (signatureParts req).2.2 →
        ∃ req', req.sign cr created ⟨signing, .jwt jwt⟩ = .ok req') ∧
    ∃ thumbprint, httpsigJwkThumbprint cr jwk = .ok thumbprint ∧
      ∀ req', req.sign cr created ⟨signing, .jwt jwt⟩ = .ok req' →
      ∀ now options, StandardOptions options →
        AsksForCredential options req.headers →
        created ≤ now + 60 → now ≤ created + 120 →
          verify cr now (signatureParts req').1 (signatureParts req').2.1
            (signatureParts req').2.2 req'.headers options = .ok
              { label := "sig", signatureKey := .jwt jwt, publicJwk := jwk,
                thumbprint, jwt := some jwt } := by
  obtain ⟨pair⟩ := pair
  constructor
  · intro hm ha hp
    obtain ⟨headers, hs⟩ : ∃ headers, Aauth.sign cr created req.headers
        (signatureParts req).1 (signatureParts req).2.1
        (signatureParts req).2.2 ⟨signing, .jwt jwt⟩
        (aauthSignOptions req.headers) = .ok headers :=
      sign_ok laws total pair hjwt hm ha hp
    exact ⟨_, Request.sign_eq_ok.mpr ⟨hauthority, headers, hs, rfl⟩⟩
  · obtain ⟨tp, htp⟩ := httpsigJwkThumbprint_total thumbprints pair.public_eq
    refine ⟨tp, htp, ?_⟩
    intro req' hs now options ho hask hfuture hpast
    have hparts := signatureParts_signed hs
    obtain ⟨-, headers, hsign, rfl⟩ := Request.sign_eq_ok.mp hs
    rw [hparts]
    exact verify_of_sign laws ho hjwt hcnf htp pair hsign hfuture hpast
      hask.mp

/-- A verified signature that had to cover `Authorization` found it
readable. -/
theorem Verified.authorization_read {now : Nat}
    {method authority path : String} {headers : HeaderMap}
    {options : VerifyOptions} {v : VerifiedHttpSignature}
    (s : Verified cr now method authority path headers options v)
    (h : options.requireAuthorization = true) :
    ∃ value, headerValue headers "authorization" = some value := by
  obtain ⟨id, hid, hname⟩ := List.mem_map.mp (s.authorization h)
  obtain ⟨line, -, value, hv, -⟩ := s.lines_eq.exists_of_mem hid
  rw [hname] at hv
  obtain ⟨header, hh, hvalue⟩ := componentValue_of_header (by decide) hv
  have hauth : headerNameFromBytes "authorization" =
      some "authorization" := by decide
  rw [hauth] at hh
  cases hh
  exact ⟨value, hvalue⟩

/-! ## At the sample parties -/

namespace Sample

/-- A request of the agent that is not signed yet. -/
def plainRequest (headers : HeaderMap) : Request where
  method := "GET"
  uri := { host := some "resource.example", port := none, path := "/" }
  headers := headers

theorem bot_cnf :
    cnfJwkFromJwt crates botJwt = .ok (agentKey.publicJwk crates) :=
  cnfJwkFromJwt_agent cnfLaws (parse_agentToken bot providerKey)

/-- A credential and a mission, both readable. -/
def credentialHeaders : HeaderMap :=
  (HeaderMap.empty.insert "authorization" "AAuth opaque-1").insert
    "aauth-mission" "approver=\"https://person.example\"; s256=\"m\""

/-- The agent signs a request with a credential and a mission, and the
server that asks for the credential accepts it two minutes later. -/
theorem signed_request_verifies_credential :
    ∃ thumbprint, ∃ req' : Request,
      (plainRequest credentialHeaders).sign crates now
        ⟨agentKey.signingJwk crates, .jwt botJwt⟩ = .ok req' ∧
      verify crates (now + 120) (signatureParts req').1
        (signatureParts req').2.1 (signatureParts req').2.2 req'.headers
        { VerifyOptions.default with requireAuthorization := true } = .ok
          { label := "sig", signatureKey := .jwt botJwt,
            publicJwk := agentKey.publicJwk crates, thumbprint,
            jwt := some botJwt } := by
  have hparts : signatureParts (plainRequest credentialHeaders) =
      ("GET", "resource.example", "/") := by decide
  obtain ⟨hsign, tp, -, hv⟩ := @signed_request_verifies crates httpsigLaws
    httpsigTotal thumbprintTotal now (plainRequest credentialHeaders)
    (agentKey.signingJwk crates) (agentKey.publicJwk crates) botJwt
    ⟨signingPair agentKey (by rfl)⟩ (isCompact_mint _ _ _) bot_cnf
    (by rw [hparts]; rfl)
  rw [hparts] at hsign
  obtain ⟨req', hs⟩ := hsign (by rfl) (by rfl) (by rfl)
  refine ⟨tp, req', hs, hv req' hs _ _ ⟨rfl, rfl, rfl⟩ ?_ (by omega)
    (by omega)⟩
  exact ⟨fun _ => ⟨"AAuth opaque-1", by decide, by decide⟩, fun _ => rfl⟩

/-- A credential with a byte that is not visible ASCII. -/
def unreadableHeaders : HeaderMap :=
  HeaderMap.empty.insert "authorization" "AAuth é"

/-- The request is signed without its credential, so a server that asks
for the credential refuses it. -/
theorem unreadable_credential_refused :
    (unreadableHeaders.get "authorization").any (startsWith · "AAuth ") =
      true ∧
    ∃ req', (plainRequest unreadableHeaders).sign crates now
      ⟨agentKey.signingJwk crates, .jwt botJwt⟩ = .ok req' ∧
    ∀ v, verify crates now (signatureParts req').1
      (signatureParts req').2.1 (signatureParts req').2.2 req'.headers
      { VerifyOptions.default with requireAuthorization := true } ≠ .ok v := by
  have hparts : signatureParts (plainRequest unreadableHeaders) =
      ("GET", "resource.example", "/") := by decide
  obtain ⟨headers, hs⟩ : ∃ headers, sign crates now unreadableHeaders "GET"
      "resource.example" "/" ⟨agentKey.signingJwk crates, .jwt botJwt⟩
      (aauthSignOptions unreadableHeaders) = .ok headers :=
    sign_ok httpsigLaws httpsigTotal (signingPair agentKey (by rfl))
      (isCompact_mint _ _ _) (by rfl) (by rfl) (by rfl)
  refine ⟨by decide, _, Request.sign_eq_ok.mpr ⟨?_, headers, ?_, rfl⟩, ?_⟩
  · rw [hparts]
    rfl
  · rw [hparts]
    exact hs
  · intro v hv
    obtain ⟨s⟩ := verify_eq_ok.mp hv
    obtain ⟨value, hr⟩ := s.authorization_read rfl
    obtain ⟨signed⟩ := signed_of_sign hs
    have hnone : headerValue unreadableHeaders "authorization" = none := by
      decide
    rw [signed.headers_eq, headerValue_withSignature (by decide) (by decide)
      (by decide), hnone] at hr
    cases hr

end Sample

end Aauth
