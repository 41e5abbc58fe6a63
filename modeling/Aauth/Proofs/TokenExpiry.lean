import Aauth.Proofs.Acceptance

/-!
# The expiry test

Three verifiers compare `exp` with the clock before they look a key up.
The comparison is made at 64-bit signed integers: `exp` is one in agent
and auth tokens, and in resource tokens it is an unsigned one that is cast.
The cast is the identity below `2 ^ 63` and negative from there on, so a
resource token that expires in the far future is turned away as expired.

That a test is made before any key lookup is said by its independence of
the fetcher: the verification fails with the error whatever the fetcher
would have answered.
-/

namespace Aauth

open Except

/-! ## The cast -/

theorem u64AsI64_of_lt {n : Nat} (h : n < 2 ^ 63) : u64AsI64 n = n := by
  have hm : n % 2 ^ 64 = n := Nat.mod_eq_of_lt (by omega)
  rw [u64AsI64, hm, if_pos h]

theorem u64AsI64_of_ge {n : Nat} (h : 2 ^ 63 ≤ n) (hr : n < 2 ^ 64) :
    u64AsI64 n < 0 := by
  have hm : n % 2 ^ 64 = n := Nat.mod_eq_of_lt hr
  rw [u64AsI64, hm, if_neg (by omega)]
  omega

namespace ParsedToken

/-- `exp` as the claims have it. -/
def claimedExp : ParsedToken → Int
  | agent c => c.exp
  | auth c => c.exp
  | resource c => (c.exp : Int)

/-- `exp` is in the range of the type the claims give it. -/
def ExpTyped (t : ParsedToken) : Prop :=
  ∀ c, t = .resource c → c.exp < 2 ^ 64

/-- The cast leaves `exp` as it is. -/
def ExpFits (t : ParsedToken) : Prop :=
  ∀ c, t = .resource c → c.exp < 2 ^ 63

variable {t : ParsedToken}

theorem exp_of_fits (h : t.ExpFits) : t.exp = t.claimedExp := by
  cases t with
  | agent c => rfl
  | auth c => rfl
  | resource c => exact u64AsI64_of_lt (h c rfl)

theorem exp_of_not_fits (hr : t.ExpTyped) (h : ¬ t.ExpFits) :
    t.exp < 0 ∧ 2 ^ 63 ≤ t.claimedExp := by
  cases t with
  | agent c => exact absurd (fun _ he => nomatch he) h
  | auth c => exact absurd (fun _ he => nomatch he) h
  | resource c =>
      have hge : 2 ^ 63 ≤ c.exp := by
        by_contra hlt
        refine h fun c' he => ?_
        cases he
        omega
      refine ⟨u64AsI64_of_ge hge (hr c rfl), ?_⟩
      show (2 : Int) ^ 63 ≤ (c.exp : Int)
      omega

theorem exp_eq_claimedExp_iff (hr : t.ExpTyped) :
    t.exp = t.claimedExp ↔ t.ExpFits := by
  constructor
  · intro he
    by_contra h
    have := exp_of_not_fits hr h
    omega
  · exact exp_of_fits

/-- The test agrees with the unbounded comparison as long as the cast does
nothing, and again once the token has expired. -/
theorem expired_iff (hr : t.ExpTyped) {now : Nat} (hnow : 60 ≤ now) :
    (t.exp < now - CLOCK_SKEW ↔ t.claimedExp + 60 < now) ↔
      t.ExpFits ∨ t.claimedExp + 60 < now := by
  rw [CLOCK_SKEW]
  by_cases h : t.ExpFits
  · have := exp_of_fits h
    rw [iff_true_right (.inl h)]
    omega
  · have := exp_of_not_fits hr h
    rw [or_iff_right h]
    omega

end ParsedToken

/-! ## Errors other than expiry -/

theorem jwkThumbprint_error {cr : Crates} {jwk : PublicJwk} {e : AAuthError}
    (h : jwkThumbprint cr jwk = .error e) : ∃ j, e = .jwt j := by
  rw [jwkThumbprint] at h
  cases hx : httpsigJwkThumbprint cr jwk with
  | ok s =>
      rw [hx] at h
      cases h
  | error x =>
      rw [hx] at h
      cases x <;> exact ⟨_, (Except.error.inj h).symm⟩

theorem jwkThumbprint_ne_expired {cr : Crates} {jwk : PublicJwk}
    {typ : JwtTyp} :
    jwkThumbprint cr jwk ≠ .error (.verify (.expired typ)) := by
  intro h
  obtain ⟨j, hj⟩ := jwkThumbprint_error h
  cases hj

/-- A fetcher that knows nobody. -/
def MetadataFetcher.silent : MetadataFetcher where
  resolveJwksUri _ _ := .error (.verify .noAudience)
  fetchJwks _ := .error (.verify .noAudience)

theorem fetchDecodingKey_silent (cr : Crates) (now : Nat)
    (iss dwk jwt : String) :
    fetchDecodingKey cr ⟨now, .silent⟩ iss dwk jwt =
      .error (.verify .noAudience) := rfl

/-! ## The three tests -/

section Tests

variable {cr : Crates} {now : Nat} {jwt : String} {t : ParsedToken}

/-- The verification fails before it looks a key up. -/
def FailsEarly {α : Type} (verify : MetadataFetcher → AAuthResult α)
    (e : AAuthError) : Prop :=
  ∀ fetcher, verify fetcher = .error e

theorem failsEarly_iff {α : Type} {c : Prop} {typ : JwtTyp}
    {verify : MetadataFetcher → AAuthResult α}
    (hpos : c → ∀ fetcher, verify fetcher = .error (.verify (.expired typ)))
    (hneg : ¬ c → verify .silent ≠ .error (.verify (.expired typ))) :
    FailsEarly verify (.verify (.expired typ)) ↔ c := by
  constructor
  · intro h
    by_contra hc
    exact hneg hc (h .silent)
  · exact hpos

theorem verifyToken_expired_iff {typ : JwtTyp} {thumbprint : String}
    (hp : ParsedToken.parse cr jwt = .ok t)
    (ht : verifyTokenTyp cr now t = .ok typ) :
    FailsEarly (fun f => verifyToken cr ⟨now, f⟩ ⟨jwt, thumbprint⟩)
        (.verify (.expired typ)) ↔ t.exp < now - CLOCK_SKEW := by
  refine failsEarly_iff (fun h f => ?_) (fun h => ?_)
  · rw [verifyToken, hp, ok_bind, ht, ok_bind, failIf, if_pos h]
    rfl
  · rw [verifyToken, hp, ok_bind, ht, ok_bind, failIf_of_not h, ok_bind]
    refine bind_ne_error (Option.okOr_ne_error (by simp)) fun jwk _ => ?_
    refine bind_ne_error jwkThumbprint_ne_expired fun tp _ => ?_
    refine bind_ne_error (failIf_ne_error (by simp)) fun _ _ => ?_
    rw [fetchDecodingKey_silent, error_bind]
    simp

theorem verifyResourceToken_expired_iff {c : ResourceClaims}
    {agent agentJkt : Option String}
    (hp : ParsedToken.parse cr jwt = .ok (.resource c)) :
    FailsEarly (fun f => verifyResourceToken cr ⟨now, f⟩
        ⟨jwt, agent, agentJkt⟩) (.verify (.expired .resource)) ↔
      u64AsI64 c.exp < now - CLOCK_SKEW := by
  refine failsEarly_iff (fun h f => ?_) (fun h => ?_)
  · rw [verifyResourceToken, hp, ok_bind, ParsedToken.expectResource, ok_bind,
      failIf, if_pos h]
    rfl
  · rw [verifyResourceToken, hp, ok_bind, ParsedToken.expectResource, ok_bind,
      failIf_of_not h, ok_bind]
    refine bind_ne_error (failIf_ne_error (by simp)) fun _ _ => ?_
    refine bind_ne_error (failIf_ne_error (by simp)) fun _ _ => ?_
    refine bind_ne_error (failIf_ne_error (by simp)) fun _ _ => ?_
    rw [fetchDecodingKey_silent, error_bind]
    simp

theorem verifyClientAuthTokenClaims_ne_expired {c : AuthClaims}
    {resourceUrl resourceTokenAud agentSub agentJkt : String}
    (h : ¬ c.exp < now - CLOCK_SKEW) :
    verifyClientAuthTokenClaims cr now c resourceUrl resourceTokenAud agentSub
      agentJkt ≠ .error (.verify (.expired .auth)) := by
  rw [verifyClientAuthTokenClaims, failIf_of_not h, ok_bind]
  refine bind_ne_error (failIf_ne_error (by simp)) fun _ _ => ?_
  refine bind_ne_error (failIf_ne_error (by simp)) fun _ _ => ?_
  refine bind_ne_error jwkThumbprint_ne_expired fun _ _ => ?_
  refine bind_ne_error (failIf_ne_error (by simp)) fun _ _ => ?_
  refine bind_ne_error (failIf_ne_error (by simp)) fun _ _ => ?_
  exact failIf_ne_error (by simp)

theorem verifyClientAuthToken_expired_iff {c : AuthClaims}
    {resourceUrl resourceTokenAud agentSub agentJkt : String}
    {verifySignature : Bool}
    (hp : ParsedToken.parse cr jwt = .ok (.auth c)) :
    FailsEarly (fun f => verifyClientAuthToken cr ⟨now, f⟩ jwt resourceUrl
        resourceTokenAud agentSub agentJkt verifySignature)
        (.verify (.expired .auth)) ↔ c.exp < now - CLOCK_SKEW := by
  refine failsEarly_iff (fun h f => ?_) (fun h => ?_)
  · rw [verifyClientAuthToken, hp, ok_bind, ParsedToken.expectAuth, ok_bind,
      verifyClientAuthTokenClaims, failIf, if_pos h]
    rfl
  · rw [verifyClientAuthToken, hp, ok_bind, ParsedToken.expectAuth, ok_bind]
    refine bind_ne_error (verifyClientAuthTokenClaims_ne_expired h)
      fun _ _ => ?_
    cases verifySignature with
    | false =>
        intro hn
        cases hn
    | true =>
        rw [if_pos rfl, fetchDecodingKey_silent, error_bind]
        simp

/-! ## One rule for all -/

/-- A verification rejects the token as expired, before any key lookup,
exactly when its `exp` lies more than a minute back. -/
def TestsExpiry {α : Type} (verify : MetadataFetcher → AAuthResult α)
    (typ : JwtTyp) (t : ParsedToken) (now : Nat) : Prop :=
  FailsEarly verify (.verify (.expired typ)) ↔ t.claimedExp + 60 < now

/-- The three verifiers test the token alike, where it comes to the test:
`verifyToken` when its checks before the test succeed, the other two when
it is of their kind. -/
structure UniformExpiry (cr : Crates) (jwt : String) (t : ParsedToken)
    (now : Nat) : Prop where
  token : ∀ typ thumbprint, verifyTokenTyp cr now t = .ok typ →
    TestsExpiry (fun f => verifyToken cr ⟨now, f⟩ ⟨jwt, thumbprint⟩) typ t now
  resource : ∀ c agent agentJkt, t = .resource c →
    TestsExpiry (fun f => verifyResourceToken cr ⟨now, f⟩
      ⟨jwt, agent, agentJkt⟩) .resource t now
  client : ∀ c resourceUrl resourceTokenAud agentSub agentJkt verifySignature,
    t = .auth c →
      TestsExpiry (fun f => verifyClientAuthToken cr ⟨now, f⟩ jwt resourceUrl
        resourceTokenAud agentSub agentJkt verifySignature) .auth t now

/-- The tests are uniform when the comparison at 64 bits is the unbounded
one. -/
theorem uniformExpiry_of_exact (hp : ParsedToken.parse cr jwt = .ok t)
    (h : t.exp < now - CLOCK_SKEW ↔ t.claimedExp + 60 < now) :
    UniformExpiry cr jwt t now where
  token typ thumbprint ht := (verifyToken_expired_iff hp ht).trans h
  resource c agent agentJkt he := by
    cases he
    exact (verifyResourceToken_expired_iff hp).trans h
  client c url aud sub jkt vs he := by
    cases he
    exact (verifyClientAuthToken_expired_iff hp).trans h

/-- The verifier of a resource token makes the comparison, so where the
tests are uniform the comparison is exact. -/
theorem exact_of_uniformExpiry (hp : ParsedToken.parse cr jwt = .ok t)
    (h : UniformExpiry cr jwt t now) :
    t.exp < now - CLOCK_SKEW ↔ t.claimedExp + 60 < now := by
  cases t with
  | agent c =>
      rw [CLOCK_SKEW]
      show c.exp < (now : Int) - 60 ↔ c.exp + 60 < (now : Int)
      omega
  | auth c =>
      rw [CLOCK_SKEW]
      show c.exp < (now : Int) - 60 ↔ c.exp + 60 < (now : Int)
      omega
  | resource c =>
      exact (verifyResourceToken_expired_iff hp).symm.trans
        (h.resource c none none rfl)

/-- At a time from the first minute on, the tests reject a token exactly
when its `exp` lies more than a minute back, if and only if the `exp` of a
resource token fits `i64` or the token has expired anyway; and
`ParsedToken::exp` is the `exp` of the claims if and only if it fits. -/
theorem expiry_uniform_iff (hp : ParsedToken.parse cr jwt = .ok t)
    (hr : t.ExpTyped) :
    (∀ now : Nat, 60 ≤ now →
      (UniformExpiry cr jwt t now ↔
        t.ExpFits ∨ t.claimedExp + 60 < now)) ∧
    (t.exp = t.claimedExp ↔ t.ExpFits) := by
  refine ⟨fun now hnow => ?_, ParsedToken.exp_eq_claimedExp_iff hr⟩
  rw [← ParsedToken.expired_iff hr hnow]
  constructor
  · exact exact_of_uniformExpiry hp
  · exact uniformExpiry_of_exact hp

end Tests

/-! ## At the sample parties -/

namespace Sample

/-- What a resource asks of the agent, until the given time. -/
def askedUntil (exp : Nat) : ResourceClaims where
  iss := resource
  dwk := "aauth-resource.json"
  aud := personServer
  jti := "asked-1"
  agent := bot.sub
  agentJkt := thumbprint agentKey
  iat := now
  exp := exp
  scope := none
  mission := none
  interaction := none

/-- A resource token that expires in the year 292 billion is rejected as
expired today, whatever keys its resource publishes. -/
theorem far_expiry_rejected :
    FailsEarly (fun f => verifyResourceToken crates ⟨now, f⟩
        ⟨resourceToken (askedUntil (2 ^ 63)) resourceKey, none, none⟩)
      (.verify (.expired .resource)) ∧
    ¬ (ParsedToken.resource (askedUntil (2 ^ 63))).claimedExp + 60 < now ∧
    (ParsedToken.resource (askedUntil (2 ^ 63))).exp ≠
      (ParsedToken.resource (askedUntil (2 ^ 63))).claimedExp := by
  refine ⟨?_, by decide, by decide⟩
  exact (verifyResourceToken_expired_iff (parse_resourceToken _ _)).mpr
    (by decide)

/-- The last `exp` below the sign bit is tested right at all times. -/
theorem last_expiry_tested :
    (∀ now : Nat, 60 ≤ now → UniformExpiry crates
      (resourceToken (askedUntil (2 ^ 63 - 1)) resourceKey)
      (.resource (askedUntil (2 ^ 63 - 1))) now) ∧
    (ParsedToken.resource (askedUntil (2 ^ 63 - 1))).exp = 2 ^ 63 - 1 := by
  have hfits : (ParsedToken.resource (askedUntil (2 ^ 63 - 1))).ExpFits := by
    intro c he
    cases he
    decide
  have hp := parse_resourceToken (askedUntil (2 ^ 63 - 1)) resourceKey
  have h := expiry_uniform_iff hp
    (fun c he => Nat.lt_trans (hfits c he) (by decide))
  exact ⟨fun now hnow => (h.1 now hnow).mpr (.inl hfits), h.2.mpr hfits⟩

end Sample

end Aauth
