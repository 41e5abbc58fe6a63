import Aauth.Sample.Parties

/-!
# The signing key and the bound key are one

Two decoders read the JWT of a request: `httpsig-key` takes the key to
check the signature with, and the token verifiers take the `cnf` claim.
They meet only in the thumbprint, a hash over the members that belong to
the key type. Those members are all that `publicKeyFromJwk` looks at, so
equal thumbprints leave no room for two keys: `y` is in the hash exactly
when the curve has one, and `kid` enters neither side.
-/

namespace Aauth

open Text Except

variable {cr : Crates}

/-! ## What a thumbprint determines -/

theorem httpsigJwkThumbprint_eq_ok {jwk : PublicJwk} {tp : String} :
    httpsigJwkThumbprint cr jwk = .ok tp ↔ ∃ members text,
      thumbprintMembers jwk = .ok members ∧
        cr.json.mapToString members = .ok text ∧
        cr.base64Encode (cr.sha256 text.toUTF8.data.toList) = tp := by
  simp only [httpsigJwkThumbprint, bind_eq_ok, mapError_eq_ok, pure_eq_ok]
  constructor
  · rintro ⟨members, hm, text, ht, htp⟩
    exact ⟨members, text, hm, ht, htp⟩
  · rintro ⟨members, text, hm, ht, htp⟩
    exact ⟨members, hm, text, ht, htp⟩

/-- Keys of one thumbprint have the same members. -/
theorem thumbprintMembers_of_eq (laws : ThumbprintLaws cr)
    {j k : PublicJwk} {tp : String} (hj : httpsigJwkThumbprint cr j = .ok tp)
    (hk : httpsigJwkThumbprint cr k = .ok tp) :
    ∃ members, thumbprintMembers j = .ok members ∧
      thumbprintMembers k = .ok members := by
  obtain ⟨members, text, hm, ht, rfl⟩ := httpsigJwkThumbprint_eq_ok.mp hj
  obtain ⟨members', text', hm', ht', he⟩ := httpsigJwkThumbprint_eq_ok.mp hk
  have hc : IsCanonical cr members text := ⟨j, hm, ht⟩
  have hc' : IsCanonical cr members' text' := ⟨k, hm', ht'⟩
  have htext : text = text' :=
    laws.sha256_inj hc hc' (laws.base64Encode_inj he.symm)
  rw [← htext] at hc'
  rw [laws.mapToString_inj hc' hc] at hm'
  exact ⟨members, hm, hm'⟩

/-- The key type is one of the members, and with it which members there
are. -/
theorem thumbprintMembers_eq_ok {jwk : PublicJwk}
    {members : List (String × String)} :
    thumbprintMembers jwk = .ok members ↔
      (jwk.kty = "OKP" ∧
        members = [("crv", jwk.crv), ("kty", "OKP"), ("x", jwk.x)]) ∨
      (jwk.kty = "EC" ∧
        members = [("crv", jwk.crv), ("kty", "EC"), ("x", jwk.x)] ++
          jwk.y.toList.map fun y => ("y", y)) := by
  have hne : ¬ ("EC" = "OKP") := by decide
  rw [thumbprintMembers]
  by_cases hokp : jwk.kty = "OKP"
  · rw [if_pos hokp, hokp]
    constructor
    · intro h
      cases h
      exact .inl ⟨rfl, rfl⟩
    · intro h
      rcases h with ⟨-, rfl⟩ | ⟨h, -⟩
      · rfl
      · exact absurd h.symm hne
  · rw [if_neg hokp]
    by_cases hec : jwk.kty = "EC"
    · rw [if_pos hec, hec]
      constructor
      · intro h
        cases h
        exact .inr ⟨rfl, rfl⟩
      · intro h
        rcases h with ⟨h, -⟩ | ⟨-, rfl⟩
        · exact absurd h hne
        · rfl
    · rw [if_neg hec]
      constructor
      · exact fun h => nomatch h
      · rintro (⟨h, -⟩ | ⟨h, -⟩)
        · exact absurd h hokp
        · exact absurd h hec

/-- The `y` of a key, when it is a member, can be told from the members. -/
theorem y_of_members {a b : Option String}
    (h : (a.toList.map fun y => ("y", y)) =
      b.toList.map fun y => ("y", y)) : a = b := by
  cases a with
  | none =>
      cases b with
      | none => rfl
      | some _ => cases h
  | some _ =>
      cases b with
      | none => cases h
      | some _ =>
          cases h
          rfl

/-- Keys with the same members are one key to `httpsig`: what it reads
beyond the members, it reads of neither. -/
theorem publicKeyFromJwk_of_members {j k : PublicJwk}
    {members : List (String × String)}
    (hj : thumbprintMembers j = .ok members)
    (hk : thumbprintMembers k = .ok members) :
    publicKeyFromJwk cr j = publicKeyFromJwk cr k := by
  have hne : ¬ ("OKP" = "EC") := by decide
  rcases thumbprintMembers_eq_ok.mp hj with ⟨hjt, hjm⟩ | ⟨hjt, hjm⟩
  · rcases thumbprintMembers_eq_ok.mp hk with ⟨hkt, hkm⟩ | ⟨hkt, hkm⟩
    · rw [hjm] at hkm
      simp only [List.cons.injEq, Prod.mk.injEq, true_and, and_true] at hkm
      obtain ⟨hcrv, hx⟩ := hkm
      -- an `OKP` key has no `y`, so that of the token is not looked at
      simp only [publicKeyFromJwk, hjt, hkt, hcrv, hx, hne, false_and,
        if_false]
    · rw [hjm] at hkm
      simp only [List.cons_append, List.cons.injEq, Prod.mk.injEq,
        true_and] at hkm
      exact absurd hkm.2.1 hne
  · rcases thumbprintMembers_eq_ok.mp hk with ⟨hkt, hkm⟩ | ⟨hkt, hkm⟩
    · rw [hjm] at hkm
      simp only [List.cons_append, List.cons.injEq, Prod.mk.injEq,
        true_and] at hkm
      exact absurd hkm.2.1.symm hne
    · rw [hjm] at hkm
      simp only [List.cons_append, List.nil_append, List.cons.injEq,
        Prod.mk.injEq, true_and] at hkm
      obtain ⟨hcrv, hx, hy⟩ := hkm
      simp only [publicKeyFromJwk, hjt, hkt, hcrv, hx, y_of_members hy]

/-- A thumbprint stands for one public key. -/
theorem publicKeyFromJwk_of_thumbprint (laws : ThumbprintLaws cr)
    {j k : PublicJwk} {tp : String} (hj : httpsigJwkThumbprint cr j = .ok tp)
    (hk : httpsigJwkThumbprint cr k = .ok tp) :
    publicKeyFromJwk cr j = publicKeyFromJwk cr k := by
  obtain ⟨members, hjm, hkm⟩ := thumbprintMembers_of_eq laws hj hk
  exact publicKeyFromJwk_of_members hjm hkm

/-! ## Signature and token -/

/-- The key that verified the signature over a request is the one the
token it presents is bound to. -/
theorem signing_key_bound (jwts : JwtLaws cr) (laws : ThumbprintLaws cr)
    {now : Nat} {method authority path : String} {headers : HeaderMap}
    {options : VerifyOptions} {v : VerifiedHttpSignature} {j : String}
    {env : VerifyEnv} {tok : ParsedToken}
    (hv : verify cr now method authority path headers options = .ok v)
    (hj : v.jwt = some j)
    (ht : verifyToken cr env ⟨j, v.thumbprint⟩ = .ok tok) :
    ∃ (s : Verified cr now method authority path headers options v) (jwk : _),
      cr.httpsig.verify s.base s.key s.sigHeaders = .ok () ∧
      cnfJwkFromJwt cr j = .ok v.publicJwk ∧
      publicKeyFromJwk cr v.publicJwk = .ok s.key ∧
      tok.cnfJwk = some jwk ∧ publicKeyFromJwk cr jwk = .ok s.key := by
  obtain ⟨s⟩ := verify_eq_ok.mp hv
  obtain ⟨checks, -⟩ := (verifyToken_eq_ok jwts).mp ht
  obtain ⟨jwk, hjwk, htp⟩ := checks.bound
  have hkey : publicKeyFromJwk cr jwk = .ok s.key := by
    rw [publicKeyFromJwk_of_thumbprint laws (jwkThumbprint_eq_ok.mp htp)
      s.thumbprint_eq]
    exact s.decoded
  exact ⟨s, jwk, s.verifies, s.cnf hj, s.decoded, hjwk, hkey⟩

namespace Sample

theorem verifyToken_bot :
    verifyToken crates env ⟨botJwt, thumbprint agentKey⟩ =
      .ok (.agent bot) := by
  refine (verifyToken_eq_ok jwtLaws).mpr ⟨⟨parse_agentToken bot providerKey,
    by decide, ⟨_, rfl, thumbprint_eq agentKey⟩, ?_⟩, ?_⟩
  · have hkey : publishedKey provider = some providerKey := rfl
    exact signed_agentToken "aauth-agent.json" hkey rfl (by decide)
      (by decide)
  · rintro c ⟨⟩
    exact ⟨by decide, by decide, by decide, by decide, by decide⟩

/-- The agent's request, and the agent token it presents. -/
theorem signing_key_bound_bot : ∃ v,
    verify crates now "GET" "resource.example" "/" botHeaders .default =
      .ok v ∧
    ∃ (s : Verified crates now "GET" "resource.example" "/" botHeaders
        .default v) (jwk : _),
      crates.httpsig.verify s.base s.key s.sigHeaders = .ok () ∧
      cnfJwkFromJwt crates botJwt = .ok v.publicJwk ∧
      publicKeyFromJwk crates v.publicJwk = .ok s.key ∧
      (ParsedToken.agent bot).cnfJwk = some jwk ∧
      publicKeyFromJwk crates jwk = .ok s.key := by
  have hv := verify_botHeaders (t := now) (by omega) (by omega)
  exact ⟨_, hv, signing_key_bound jwtLaws thumbprintLaws hv rfl
    verifyToken_bot⟩

end Sample

end Aauth
