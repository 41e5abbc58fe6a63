import Mathlib
import Aauth.Proofs.DeferredPolling
import Aauth.Ref.AccessPoll

/-!
# Numbers a server chooses

The lifetime of a token and the delay before the next poll are numbers of
sixty-four bits that the other side writes. An expiry beyond the clock is a
panic, with the credentials locked: no later operation gets them. A delay in
milliseconds that does not fit in sixty-four bits wraps, or panics in a build
that checks for it. Up to these bounds the numbers are honoured.
-/

namespace Aauth

open Effect Except

/-- Not earlier than was asked for, as far as it can be represented. -/
def Honours (asked largest got : Nat) : Prop := min asked largest ≤ got

def U64_MAX : Nat := 2 ^ 64 - 1

/-- A product of `u64`s, with overflow checked as in a debug build or not;
`none` is a panic. -/
def mulU64 (checked : Bool) (a b : Nat) : Option Nat :=
  if a * b ≤ U64_MAX then some (a * b)
  else if checked then none
  else some (a * b % 2 ^ 64)

/-! ## Delays -/

section Delays

variable {seconds b : Nat}

/-- A product that wraps is even, and so short of the largest number. -/
theorem honours_wrapped :
    Honours (seconds * 1000) U64_MAX (seconds * 1000 % 2 ^ 64) ↔
      seconds * 1000 ≤ U64_MAX := by
  rw [Honours, U64_MAX]
  omega

theorem honours_mulU64 (checked : Bool) :
    (∃ ms, mulU64 checked seconds 1000 = some ms ∧
      Honours (seconds * 1000) U64_MAX ms) ↔ seconds * 1000 ≤ U64_MAX := by
  rw [mulU64]
  by_cases h : seconds * 1000 ≤ U64_MAX
  · rw [if_pos h]
    exact ⟨fun _ => h, fun _ => ⟨_, rfl, Nat.min_le_left _ _⟩⟩
  · rw [if_neg h]
    refine ⟨fun hex => ?_, fun hle => absurd hle h⟩
    obtain ⟨ms, hms, hhon⟩ := hex
    cases checked with
    | true => cases hms
    | false =>
        cases hms
        exact honours_wrapped.mp hhon

/-- Without checks the two loops compute this product. -/
theorem retryDelayFromSecs_eq :
    mulU64 false seconds 1000 =
      some (retryDelayFromSecs (some seconds) b) := by
  show (if seconds * 1000 ≤ U64_MAX then _ else _) =
    some (seconds * 1000 % 2 ^ 64)
  split
  · next h =>
    rw [Nat.mod_eq_of_lt]
    rw [U64_MAX] at h
    omega
  · rfl

theorem retryWait_eq : ReqwestAccessServerClient.retryWait (some seconds) b =
    retryDelayFromSecs (some seconds) b := rfl

theorem delaySeconds_repr :
    Polling.delaySeconds seconds.repr = some seconds := by
  have hdigits : ∀ c ∈ seconds.repr.toList, c.isDigit = true := by
    intro c hc
    rw [Nat.toList_repr] at hc
    exact Nat.isDigit_of_mem_toDigits (by omega) (by omega) hc
  rw [Polling.delaySeconds, if_pos, Nat.toNat?_repr]
  rw [Bool.and_eq_true, List.all_eq_true]
  exact ⟨by simp, hdigits⟩

/-- The delay a poll loop takes from a header that names the number. -/
theorem header_delay {headers : HeaderMap} (h : seconds ≤ U64_MAX)
    (hv : headers.get "retry-after" = some seconds.repr) :
    (headerValue headers "retry-after").bind parseU64 = some seconds := by
  have hlt : seconds < 2 ^ 64 := by
    rw [U64_MAX] at h
    omega
  obtain ⟨hstr, hparse⟩ :=
    Polling.parseU64_of_delaySeconds delaySeconds_repr hlt
  rw [headerValue, hv]
  show ((toStr seconds.repr).bind parseU64) = _
  rw [hstr]
  exact hparse

end Delays

/-! ## Lifetimes -/

section Lifetimes

variable {order : List AuthTokenCacheKey} {now : Instant} {a : AgentAuth}
  {origin personServer token : String} {expiresIn : Nat}

/-- The token is recorded, to expire no earlier than the server says. -/
def ExpiryHonoured (order : List AuthTokenCacheKey) (now : Instant)
    (a : AgentAuth) (origin personServer token : String) (expiresIn : Nat) :
    Prop :=
  ∃ a' cached, a.apply order now
      (.recordAuthToken origin personServer token expiresIn) = (.ok (), a') ∧
    a'.tokenCache.lookup ⟨origin, personServer⟩ = some cached ∧
    cached.authToken = token ∧
    Honours (now + durationFromSecs expiresIn) (INSTANT_LIMIT - 1)
      cached.expiresAt

theorem record_overflow
    (h : ¬ now + durationFromSecs expiresIn < INSTANT_LIMIT) :
    a.apply order now (.recordAuthToken origin personServer token expiresIn) =
      (.error "overflow when adding duration to instant", a) := by
  have hnone : a.recordAuthToken now origin personServer token expiresIn =
      none := by
    rw [AgentAuth.recordAuthToken, Instant.add, if_neg h]
    rfl
  rw [AgentAuth.apply]
  simp only [hnone]

theorem recorded_iff :
    ExpiryHonoured order now a origin personServer token expiresIn ↔
      now + durationFromSecs expiresIn < INSTANT_LIMIT := by
  by_cases h : now + durationFromSecs expiresIn < INSTANT_LIMIT
  · refine ⟨fun _ => h, fun _ => ?_⟩
    have happly : ∃ a', a.apply order now
          (.recordAuthToken origin personServer token expiresIn) =
            (.ok (), a') ∧
        a'.tokenCache = a.tokenCache.insert ⟨origin, personServer⟩
          ⟨token, now + durationFromSecs expiresIn⟩ := by
      rw [AgentAuth.apply, AgentAuth.recordAuthToken, Instant.add, if_pos h]
      exact ⟨_, rfl, rfl⟩
    obtain ⟨a', ha, hcache⟩ := happly
    refine ⟨a', ⟨token, now + durationFromSecs expiresIn⟩, ha, ?_, rfl,
      Nat.min_le_left _ _⟩
    rw [hcache]
    exact AList.lookup_insert _
  · refine ⟨fun hrec => ?_, fun hlt => absurd hlt h⟩
    obtain ⟨a', cached, ha, -⟩ := hrec
    rw [record_overflow h] at ha
    cases ha

/-- The panic happens under the lock, and from then on every operation of
every clone of the client fails. -/
theorem record_overflow_poisons {s : AgentState} (hs : s.poisoned = false)
    (horder : order.Perm s.auth.tokenCache.keys)
    (h : ¬ now + durationFromSecs expiresIn < INSTANT_LIMIT) :
    lockStep s (.recordAuthToken origin personServer token expiresIn)
      (.error "overflow when adding duration to instant") ⟨s.auth, true⟩ ∧
    ∀ o r s', lockStep ⟨s.auth, true⟩ o r s' →
      r = .error "PoisonError" ∧ s' = ⟨s.auth, true⟩ := by
  constructor
  · rw [lockStep, if_neg (by rw [hs]; exact Bool.false_ne_true)]
    exact ⟨order, now, horder, (record_overflow h).symm, rfl⟩
  · intro o r s' hstep
    rw [lockStep, if_pos rfl] at hstep
    exact hstep

end Lifetimes

/-- The numbers of a token response and of a poll response are honoured if
and only if they stay in range: the expiry on the clock, and the delay in
milliseconds in sixty-four bits, in a build that checks for overflow and in
one that does not, and in both poll loops. -/
theorem server_numbers_honoured_iff (order : List AuthTokenCacheKey)
    (now : Instant) (a : AgentAuth) (origin personServer token : String)
    (expiresIn : Nat) (checked : Bool) (headers : HeaderMap)
    (seconds backoff : Nat) :
    (ExpiryHonoured order now a origin personServer token expiresIn ↔
      now + durationFromSecs expiresIn < INSTANT_LIMIT) ∧
    ((∃ ms, mulU64 checked seconds 1000 = some ms ∧
        Honours (seconds * 1000) U64_MAX ms) ↔ seconds * 1000 ≤ U64_MAX) ∧
    (seconds ≤ U64_MAX → headers.get "retry-after" = some seconds.repr →
      (Honours (seconds * 1000) U64_MAX (retryDelayFromSecs
          ((headerValue headers "retry-after").bind parseU64) backoff) ↔
        seconds * 1000 ≤ U64_MAX)) ∧
    (seconds ≤ U64_MAX →
      (ReqwestAccessServerClient.responseHeadersToHttp headers).get
        "retry-after" = some seconds.repr →
      (Honours (seconds * 1000) U64_MAX (ReqwestAccessServerClient.retryWait
          (ReqwestAccessServerClient.parseRetryAfter
            (ReqwestAccessServerClient.responseHeadersToHttp headers))
          backoff) ↔ seconds * 1000 ≤ U64_MAX)) := by
  refine ⟨recorded_iff, honours_mulU64 checked, ?_, ?_⟩
  · intro hs hv
    rw [header_delay hs hv]
    exact honours_wrapped
  · intro hs hv
    rw [ReqwestAccessServerClient.parseRetryAfter, header_delay hs hv]
    exact honours_wrapped

namespace Sample

/-- A lifetime of the largest `u64` is not recorded, and a delay of
18446744073709552 seconds is one of 384 milliseconds. -/
theorem server_numbers_overflow :
    ¬ ExpiryHonoured [] 0 (AgentAuth.fresh none) "https://r.example"
      "https://p.example" "t1" U64_MAX ∧
    mulU64 true 18446744073709552 1000 = none ∧
    retryDelayFromSecs (some 18446744073709552) 1000 = 384 ∧
    ReqwestAccessServerClient.retryWait (some 18446744073709552) 1000 =
      384 := by
  refine ⟨fun h => ?_, rfl, rfl, rfl⟩
  exact absurd (recorded_iff.mp h) (by decide)

/-- An hour is honoured. -/
theorem hour_honoured :
    ExpiryHonoured [] 0 (AgentAuth.fresh none) "https://r.example"
      "https://p.example" "t1" 3600 ∧
    Honours (3600 * 1000) U64_MAX (retryDelayFromSecs ((headerValue
      (HeaderMap.empty.insert "retry-after" (3600 : Nat).repr)
        "retry-after").bind parseU64) 1000) := by
  obtain ⟨hexpiry, -, hdelay, -⟩ := server_numbers_honoured_iff [] 0
    (AgentAuth.fresh none) "https://r.example" "https://p.example" "t1" 3600
    true (HeaderMap.empty.insert "retry-after" (3600 : Nat).repr) 3600 1000
  exact ⟨hexpiry.mpr (by decide),
    (hdelay (by decide) rfl).mpr (by decide)⟩

end Sample

end Aauth
