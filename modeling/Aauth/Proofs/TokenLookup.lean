import Aauth.Proofs.Invalidation

/-!
# Which cached tokens are found

The cache may hold tokens of several Person Servers for one origin, and a
lookup asks only the first key of the origin that the scan meets: when its
entry is stale the lookup drops it and finds nothing, though another entry
may have hours left. So a live entry is found in every order of the scan if
and only if the origin has no stale one beside it.
-/

namespace Aauth

/-- More than a minute left. -/
def CachedToken.Live (now : Instant) (cached : CachedToken) : Prop :=
  now + durationFromSecs 60 < cached.expiresAt

namespace AgentAuth

variable {order : List AuthTokenCacheKey} {now : Instant}
  {a a' : AgentAuth} {origin : String}

/-- The next attempt presents an auth token cached for the origin. -/
def PresentsCached (order : List AuthTokenCacheKey) (now : Instant)
    (a : AgentAuth) (origin : String) : Prop :=
  ∃ key cached, key.origin = origin ∧
    a.tokenCache.lookup key = some cached ∧
    (a.nextAttempt order now origin).1 = .authToken cached.authToken

/-- The first key of the origin, in the order of the scan, has a live
entry. -/
def FirstLive (order : List AuthTokenCacheKey) (now : Instant)
    (a : AgentAuth) (origin : String) : Prop :=
  ∃ key cached, findCachedTokenKey order origin = some key ∧
    a.tokenCache.lookup key = some cached ∧ cached.Live now

/-- Some entry of the origin is live. -/
def HasLive (now : Instant) (a : AgentAuth) (origin : String) : Prop :=
  ∃ key cached, key.origin = origin ∧
    a.tokenCache.lookup key = some cached ∧ cached.Live now

/-- Every entry of the origin is. -/
def AllLive (now : Instant) (a : AgentAuth) (origin : String) : Prop :=
  ∀ key cached, key.origin = origin →
    a.tokenCache.lookup key = some cached → cached.Live now

/-! ## One lookup -/

theorem nextAttempt_live {key : AuthTokenCacheKey} {cached : CachedToken}
    (hk : findCachedTokenKey order origin = some key)
    (hc : a.tokenCache.lookup key = some cached) (hlive : cached.Live now) :
    a.nextAttempt order now origin = (.authToken cached.authToken, a) := by
  have hf : findCachedToken order now a origin = (some cached, a) := by
    simp only [findCachedToken, hk, hc]
    exact if_pos hlive
  rw [nextAttempt, hf]

theorem presentsCached_iff :
    a.PresentsCached order now origin ↔ a.FirstLive order now origin := by
  constructor
  · intro h
    obtain ⟨key, cached, -, -, ha⟩ := h
    cases hn : a.nextAttempt order now origin with
    | mk attempt a' =>
        rw [hn] at ha
        rcases nextAttempt_cases hn with ⟨key', c, hk, hc, hlive, -⟩ |
          ⟨-, ⟨token, -, ho⟩ | ⟨-, ho⟩⟩
        · exact ⟨key', c, hk, hc, hlive⟩
        · cases ha.symm.trans ho
        · cases ha.symm.trans ho
  · intro h
    obtain ⟨key, cached, hk, hc, hlive⟩ := h
    refine ⟨key, cached, findCachedTokenKey_origin hk, hc, ?_⟩
    rw [nextAttempt_live hk hc hlive]

/-! ## Every order of the scan -/

theorem mem_keys_of_lookup {key : AuthTokenCacheKey} {cached : CachedToken}
    (h : a.tokenCache.lookup key = some cached) :
    key ∈ a.tokenCache.keys := by
  have hs : (a.tokenCache.lookup key).isSome := by
    rw [h]
    rfl
  exact AList.mem_keys.mp (AList.lookup_isSome.mp hs)

theorem lookup_of_mem_keys {key : AuthTokenCacheKey}
    (h : key ∈ a.tokenCache.keys) :
    ∃ cached, a.tokenCache.lookup key = some cached :=
  Option.isSome_iff_exists.mp (AList.lookup_isSome.mpr (AList.mem_keys.mpr h))

/-- A key of the origin is met, when there is one. -/
theorem findCachedTokenKey_of_mem {key : AuthTokenCacheKey}
    (h : key ∈ order) (ho : key.origin = origin) :
    ∃ found, findCachedTokenKey order origin = some found := by
  have hs : (findCachedTokenKey order origin).isSome :=
    List.find?_isSome.mpr ⟨key, h, beq_iff_eq.mpr ho⟩
  exact Option.isSome_iff_exists.mp hs

/-- Where all is live, the first key is. -/
theorem AllLive.first (hall : a.AllLive now origin)
    (hlive : a.HasLive now origin) (hp : order.Perm a.tokenCache.keys) :
    a.FirstLive order now origin := by
  obtain ⟨key, cached, ho, hc, -⟩ := hlive
  have hmem : key ∈ order := hp.mem_iff.mpr (mem_keys_of_lookup hc)
  obtain ⟨found, hf⟩ := findCachedTokenKey_of_mem hmem ho
  have hfound : found ∈ a.tokenCache.keys :=
    hp.mem_iff.mp (findCachedTokenKey_mem hf)
  obtain ⟨c, hc'⟩ := lookup_of_mem_keys hfound
  exact ⟨found, c, hf, hc', hall found c (findCachedTokenKey_origin hf) hc'⟩

/-- An order that meets a key first asks its entry. -/
theorem allLive_of_first (h : ∀ order, order.Perm a.tokenCache.keys →
    a.FirstLive order now origin) : a.AllLive now origin := by
  intro key cached ho hc
  obtain ⟨order, hp, hf⟩ := exists_order_first (mem_keys_of_lookup hc)
  obtain ⟨k, c, hk, hc', hlive⟩ := h order hp
  rw [ho] at hf
  rw [hf] at hk
  cases hk
  rw [hc] at hc'
  cases hc'
  exact hlive

theorem always_presented_iff (hlive : a.HasLive now origin) :
    (∀ order, order.Perm a.tokenCache.keys →
      a.PresentsCached order now origin) ↔ a.AllLive now origin := by
  constructor
  · intro h
    exact allLive_of_first fun order hp => presentsCached_iff.mp (h order hp)
  · intro h order hp
    exact presentsCached_iff.mpr (h.first hlive hp)

/-! ## After a token is recorded -/

variable {recorded : Instant} {personServer token : String} {expiresIn : Nat}

theorem recordAuthToken_eq_some
    (h : a.recordAuthToken recorded origin personServer token expiresIn =
      some a') :
    a' = { a with
      tokenCache := a.tokenCache.insert ⟨origin, personServer⟩
        ⟨token, recorded + durationFromSecs expiresIn⟩ } := by
  obtain ⟨expiresAt, he, ha⟩ := Option.map_eq_some_iff.mp h
  rw [Instant.add] at he
  by_cases hlim : recorded + durationFromSecs expiresIn < INSTANT_LIMIT
  · rw [if_pos hlim] at he
    cases he
    exact ha.symm
  · rw [if_neg hlim] at he
    cases he

/-- The recorded entry is live as long as a minute is left of it, and the
others are as they were. -/
theorem record_live
    (h : a.recordAuthToken recorded origin personServer token expiresIn =
      some a')
    (ht : now + durationFromSecs 60 < recorded + durationFromSecs expiresIn) :
    a'.HasLive now origin ∧ (a'.AllLive now origin ↔
      ∀ key cached, key.origin = origin → key ≠ ⟨origin, personServer⟩ →
        a.tokenCache.lookup key = some cached → cached.Live now) := by
  rw [recordAuthToken_eq_some h]
  refine ⟨⟨_, _, rfl, AList.lookup_insert _, ht⟩, ?_⟩
  constructor
  · intro hall key cached ho hne hc
    exact hall key cached ho ((AList.lookup_insert_ne hne).trans hc)
  · intro hothers key cached ho hc
    by_cases hk : key = ⟨origin, personServer⟩
    · rw [hk] at hc
      cases (AList.lookup_insert _).symm.trans hc
      exact ht
    · exact hothers key cached ho hk ((AList.lookup_insert_ne hk).symm.trans hc)

/-- A lookup presents a cached token if and only if the first entry it meets
is live. So a live token is presented in every order of the scan if and only
if the origin has no stale entry, and after a token has been recorded if and
only if the entries of the other Person Servers are live. -/
theorem cached_token_found_iff (now : Instant) (a : AgentAuth)
    (origin : String) :
    (∀ order, order.Perm a.tokenCache.keys →
      (a.PresentsCached order now origin ↔ a.FirstLive order now origin)) ∧
    ((a.HasLive now origin → ∀ order, order.Perm a.tokenCache.keys →
        a.PresentsCached order now origin) ↔
      (a.HasLive now origin → a.AllLive now origin)) ∧
    ∀ recorded personServer token expiresIn a',
      a.recordAuthToken recorded origin personServer token expiresIn =
        some a' →
      now + durationFromSecs 60 < recorded + durationFromSecs expiresIn →
      ((∀ order, order.Perm a'.tokenCache.keys →
          a'.PresentsCached order now origin) ↔
        ∀ key cached, key.origin = origin → key ≠ ⟨origin, personServer⟩ →
          a.tokenCache.lookup key = some cached → cached.Live now) := by
  refine ⟨fun _ _ => presentsCached_iff, ?_, ?_⟩
  · constructor
    · intro h hlive
      exact (always_presented_iff hlive).mp (h hlive)
    · intro h hlive
      exact (always_presented_iff hlive).mpr (h hlive)
  · intro recorded personServer token expiresIn a' h ht
    obtain ⟨hlive, hall⟩ := record_live h ht
    exact (always_presented_iff hlive).trans hall

end AgentAuth

namespace Sample

open AgentAuth

/-- Two Person Servers have given tokens for one origin, the first with
`left` seconds. -/
def tokenBeside (left : Nat) : AgentAuth :=
  { AgentAuth.fresh none with
    tokenCache := (∅ : AList fun _ : AuthTokenCacheKey => CachedToken).insert
      firstKey ⟨"t1", durationFromSecs left⟩ }

/-- A token of an hour is recorded beside one with a minute left, and the
scan meets the old one: none is presented, though the new one is live. -/
theorem live_token_missed :
    ∃ a', (tokenBeside 60).recordAuthToken 0 "https://r.example"
        "https://q.example" "t2" 3600 = some a' ∧
      a'.HasLive 0 "https://r.example" ∧
      ¬ ∀ order, order.Perm a'.tokenCache.keys →
        a'.PresentsCached order 0 "https://r.example" := by
  refine ⟨_, rfl, ⟨secondKey, ⟨"t2", durationFromSecs 3600⟩, rfl, rfl,
    by unfold CachedToken.Live; decide⟩, fun h => ?_⟩
  obtain ⟨key, cached, -, -, ha⟩ :=
    h [firstKey, secondKey] (List.Perm.swap _ _ _)
  cases ha

/-- Beside a token of an hour the new one is found in every order. -/
theorem live_tokens_found :
    ∀ order, order.Perm
        ((tokenBeside 3600).tokenCache.insert secondKey
          ⟨"t2", durationFromSecs 3600⟩).keys →
      ({ tokenBeside 3600 with
        tokenCache := (tokenBeside 3600).tokenCache.insert secondKey
          ⟨"t2", durationFromSecs 3600⟩ } : AgentAuth).PresentsCached order 0
            "https://r.example" := by
  refine ((cached_token_found_iff 0 (tokenBeside 3600)
    "https://r.example").2.2 0 "https://q.example" "t2" 3600 _ rfl
      (by decide)).mpr ?_
  intro key cached ho hne hc
  by_cases hk : key = firstKey
  · rw [hk] at hc
    cases hc
    unfold CachedToken.Live
    decide
  · cases (AList.lookup_insert_ne hk).symm.trans hc

end Sample

end Aauth
