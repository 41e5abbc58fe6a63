import Aauth.Ref.Agent

/-!
# What the agent keeps, and for whom

The two caches of `AgentAuth` over whole sequences of operations. `CacheChange`
says once what an operation can do to the state, always at its own origin
(`apply_cacheChange`); everything below is read off it. The second half follows
an entry back to the operation that made it: a token found for an origin
was recorded for that origin, and an opaque one is the configured seed or
came in a response of that origin.
-/

namespace Aauth

open Except

namespace AgentAuth

variable {order : List AuthTokenCacheKey} {now : Instant}
  {a a' : AgentAuth} {origin : String}

/-! ## One operation -/

theorem findCachedTokenKey_origin {key : AuthTokenCacheKey}
    (h : findCachedTokenKey order origin = some key) :
    key.origin = origin := by
  have hp := List.find?_some h
  exact beq_iff_eq.mp hp

theorem findCachedTokenKey_mem {key : AuthTokenCacheKey}
    (h : findCachedTokenKey order origin = some key) : key ∈ order :=
  List.mem_of_find?_eq_some h

/-- A lookup finds a live entry and changes nothing, or drops a key of the
origin, or finds none. -/
theorem findCachedToken_cases {found : Option CachedToken}
    (h : findCachedToken order now a origin = (found, a')) :
    (∃ key cached, findCachedTokenKey order origin = some key ∧
      a.tokenCache.lookup key = some cached ∧
      cached.expiresAt > now + durationFromSecs 60 ∧
      found = some cached ∧ a' = a) ∨
    (∃ key, findCachedTokenKey order origin = some key ∧ found = none ∧
      a' = { a with tokenCache := a.tokenCache.erase key }) ∨
    (found = none ∧ a' = a) := by
  rw [findCachedToken] at h
  cases hk : findCachedTokenKey order origin with
  | none =>
      simp only [hk] at h
      obtain ⟨rfl, rfl⟩ := Prod.mk.inj h
      exact .inr (.inr ⟨rfl, rfl⟩)
  | some key =>
      simp only [hk] at h
      cases hc : a.tokenCache.lookup key with
      | none =>
          simp only [hc] at h
          obtain ⟨rfl, rfl⟩ := Prod.mk.inj h
          exact .inr (.inr ⟨rfl, rfl⟩)
      | some cached =>
          simp only [hc] at h
          by_cases hlive : cached.expiresAt > now + durationFromSecs 60
          · rw [if_pos hlive] at h
            obtain ⟨rfl, rfl⟩ := Prod.mk.inj h
            exact .inl ⟨key, cached, rfl, hc, hlive, rfl, rfl⟩
          · rw [if_neg hlive] at h
            obtain ⟨rfl, rfl⟩ := Prod.mk.inj h
            exact .inr (.inl ⟨key, rfl, rfl, rfl⟩)

/-- What an attempt is picked from. -/
theorem nextAttempt_cases {attempt : AgentAuthAttempt}
    (h : a.nextAttempt order now origin = (attempt, a')) :
    (∃ key cached, findCachedTokenKey order origin = some key ∧
      a.tokenCache.lookup key = some cached ∧
      cached.expiresAt > now + durationFromSecs 60 ∧
      attempt = .authToken cached.authToken ∧ a' = a) ∨
    ((a' = a ∨ ∃ key, findCachedTokenKey order origin = some key ∧
        a' = { a with tokenCache := a.tokenCache.erase key }) ∧
      ((∃ token, a.opaqueCache.lookup origin = some token ∧
        attempt = .opaqueToken token) ∨
      (a.opaqueCache.lookup origin = none ∧ attempt = .agentSigned))) := by
  rw [nextAttempt] at h
  cases hf : findCachedToken order now a origin with
  | mk found b =>
      rw [hf] at h
      have hb := findCachedToken_cases hf
      cases found with
      | some cached =>
          obtain ⟨rfl, rfl⟩ := Prod.mk.inj h
          rcases hb with ⟨key, c, hk, hc, hlive, hcc, rfl⟩ |
            ⟨_, _, hn, _⟩ | ⟨hn, _⟩
          · cases hcc
            exact .inl ⟨key, cached, hk, hc, hlive, rfl, rfl⟩
          · cases hn
          · cases hn
      | none =>
          have hstate : b = a ∨ ∃ key,
              findCachedTokenKey order origin = some key ∧
                b = { a with tokenCache := a.tokenCache.erase key } := by
            rcases hb with ⟨_, _, _, _, _, hn, _⟩ | ⟨key, hk, -, hb⟩ |
              ⟨-, hb⟩
            · cases hn
            · exact .inr ⟨key, hk, hb⟩
            · exact .inl hb
          have hob : b.opaqueCache = a.opaqueCache := by
            rcases hstate with rfl | ⟨_, _, rfl⟩
            · rfl
            · rfl
          simp only [hob] at h
          refine .inr ?_
          cases ho : a.opaqueCache.lookup origin with
          | none =>
              simp only [ho] at h
              obtain ⟨rfl, rfl⟩ := Prod.mk.inj h
              exact ⟨hstate, .inr ⟨rfl, rfl⟩⟩
          | some token =>
              simp only [ho] at h
              obtain ⟨rfl, rfl⟩ := Prod.mk.inj h
              exact ⟨hstate, .inl ⟨token, rfl, rfl⟩⟩

variable (origin) in
theorem seedOpaque_cases :
    a.seedOpaque origin = a ∨
      ∃ seed, a.opaqueSeed = some seed ∧
        a.opaqueCache.lookup origin = none ∧
        a.seedOpaque origin =
          { a with opaqueCache := a.opaqueCache.insert origin seed } := by
  rw [seedOpaque]
  cases hs : a.opaqueSeed with
  | none => exact .inl rfl
  | some seed =>
      by_cases ho : a.opaqueCache.lookup origin = none
      · simp only [if_pos ho]
        exact .inr ⟨seed, rfl, ho, rfl⟩
      · simp only [if_neg ho]
        exact .inl trivial

theorem cacheOpaque_cases {headers : HeaderMap} {changed : Bool}
    (h : a.cacheOpaqueFromHeaders origin headers = (changed, a')) :
    (changed = false ∧ a' = a ∧ ∀ token, accessToken headers = some token →
      a.opaqueCache.lookup origin = some token) ∨
    ∃ token, accessToken headers = some token ∧ changed = true ∧
      a.opaqueCache.lookup origin ≠ some token ∧
      a' = { a with opaqueCache := a.opaqueCache.insert origin token } := by
  rw [cacheOpaqueFromHeaders] at h
  cases ht : accessToken headers with
  | none =>
      simp only [ht] at h
      obtain ⟨rfl, rfl⟩ := Prod.mk.inj h
      exact .inl ⟨rfl, rfl, nofun⟩
  | some token =>
      simp only [ht] at h
      by_cases ho : a.opaqueCache.lookup origin = some token
      · rw [if_pos ho] at h
        obtain ⟨rfl, rfl⟩ := Prod.mk.inj h
        refine .inl ⟨rfl, rfl, fun t ht => ?_⟩
        cases ht
        exact ho
      · rw [if_neg ho] at h
        obtain ⟨rfl, rfl⟩ := Prod.mk.inj h
        exact .inr ⟨token, rfl, rfl, ho, rfl⟩

variable (order a origin) in
/-- What a response other than a `401` calls for; the state is that after
its `AAuth-Access` was looked at. -/
theorem observe_other (attempt : AgentAuthAttempt) {status : Nat}
    (headers : HeaderMap) (hs : status ≠ 401) :
    ∃ step, a.observeResponse order origin attempt status headers =
        (.ok step, (a.cacheOpaqueFromHeaders origin headers).2) ∧
      (status = 202 ∧ step = .pollDeferred ∨
        status ≠ 202 ∧ (step = .finish ∨ step = .retryWithOpaque ∧
          (accessToken headers).isSome = true)) := by
  cases hc : a.cacheOpaqueFromHeaders origin headers with
  | mk changed b =>
      by_cases h2 : status = 202
      · refine ⟨.pollDeferred, ?_, .inl ⟨h2, rfl⟩⟩
        simp only [observeResponse, if_pos hs, hc, if_pos h2]
      · by_cases hr : changed = true ∧ attempt = .agentSigned
        · refine ⟨.retryWithOpaque, ?_, .inr ⟨h2, .inr ⟨rfl, ?_⟩⟩⟩
          · simp only [observeResponse, if_pos hs, hc, if_neg h2, if_pos hr]
          · rcases cacheOpaque_cases hc with ⟨hf, _⟩ | ⟨token, ht, _⟩
            · rw [hr.1] at hf
              cases hf
            · rw [ht]
              rfl
        · refine ⟨.finish, ?_, .inr ⟨h2, .inl rfl⟩⟩
          simp only [observeResponse, if_pos hs, hc, if_neg h2, if_neg hr]

/-- A `401` drops what was presented, or shows a challenge. -/
theorem observe_authToken {token : String} {headers : HeaderMap} :
    a.observeResponse order origin (.authToken token) 401 headers =
      match findCachedTokenKey order origin with
      | none => (.ok (.invalidate (.authToken token)), a)
      | some key => (.ok (.invalidate (.authToken token)),
          { a with tokenCache := a.tokenCache.erase key }) := rfl

variable (order a origin) in
theorem observe_authToken_step (token : String) (headers : HeaderMap) :
    (a.observeResponse order origin (.authToken token) 401 headers).1 =
      .ok (.invalidate (.authToken token)) := by
  rw [observe_authToken]
  cases findCachedTokenKey order origin with
  | none => rfl
  | some key => rfl

theorem observe_opaqueToken {token : String} {headers : HeaderMap} :
    a.observeResponse order origin (.opaqueToken token) 401 headers =
      (.ok (.invalidate (.opaqueToken token)),
        { a with opaqueCache := a.opaqueCache.erase origin }) := rfl

theorem observe_agentSigned {headers : HeaderMap} :
    a.observeResponse order origin .agentSigned 401 headers =
      (observeChallenge headers, a) := rfl

/-- A challenge is taken up, or the response is final. -/
theorem observeChallenge_cases {headers : HeaderMap} {step : AgentAuthStep}
    (h : observeChallenge headers = .ok step) :
    step = .finish ∨ ∃ header resourceToken,
      headerValue headers "aauth-requirement" = some header ∧
      AAuthChallenge.fromHeader header = .ok (.authToken resourceToken) ∧
      step = .exchangeToken resourceToken := by
  rw [observeChallenge] at h
  split at h
  · cases h
    exact .inl rfl
  · next header hh =>
      obtain ⟨challenge, hc, hstep⟩ := bind_eq_ok.mp h
      cases challenge with
      | authToken resourceToken =>
          cases hstep
          exact .inr ⟨header, resourceToken, hh, hc, rfl⟩
      | _ =>
          cases hstep
          exact .inl rfl

/-- What an observation calls for, and when. -/
theorem observe_step {attempt : AgentAuthAttempt} {status : Nat}
    {headers : HeaderMap} {step : AgentAuthStep}
    (h : a.observeResponse order origin attempt status headers =
      (.ok step, a')) :
    (status = 202 ∧ step = .pollDeferred) ∨
    ((status ≠ 401 ∧ status ≠ 202) ∧ (step = .finish ∨
      step = .retryWithOpaque ∧ (accessToken headers).isSome = true)) ∨
    (status = 401 ∧ attempt ≠ .agentSigned ∧ step = .invalidate attempt) ∨
    (status = 401 ∧ attempt = .agentSigned ∧ (step = .finish ∨
      ∃ header resourceToken,
        headerValue headers "aauth-requirement" = some header ∧
        AAuthChallenge.fromHeader header = .ok (.authToken resourceToken) ∧
        step = .exchangeToken resourceToken)) := by
  by_cases hs : status = 401
  · subst hs
    cases attempt with
    | authToken token =>
        have hi := observe_authToken_step order a origin token headers
        rw [h] at hi
        cases hi
        exact .inr (.inr (.inl ⟨rfl, nofun, rfl⟩))
    | opaqueToken token =>
        rw [observe_opaqueToken] at h
        cases (Prod.mk.inj h).1
        exact .inr (.inr (.inl ⟨rfl, nofun, rfl⟩))
    | agentSigned =>
        rw [observe_agentSigned] at h
        have hc := observeChallenge_cases (Prod.mk.inj h).1
        exact .inr (.inr (.inr ⟨rfl, rfl, hc⟩))
  · obtain ⟨step', ho, hcase⟩ := observe_other order a origin attempt headers hs
    rw [ho] at h
    cases (Prod.mk.inj h).1
    rcases hcase with h202 | ⟨hne, hc⟩
    · exact .inl h202
    · exact .inr (.inl ⟨⟨hs, hne⟩, hc⟩)

end AgentAuth

/-- The opaque tokens an operation may put in the cache: the seed, or the
one a response other than a `401` carries. -/
def AgentAuthOp.Issues (seed : Option String) : AgentAuthOp → String → Prop
  | .seedOpaque _, token => seed = some token
  | .observeResponse _ _ status headers, token =>
      status ≠ 401 ∧ AgentAuth.accessToken headers = some token
  | _, _ => False

namespace AgentAuth

variable {order : List AuthTokenCacheKey} {now : Instant}
  {a a' : AgentAuth} {op : AgentAuthOp} {r : Except String op.Ans}

/-- What an operation can do to the state. -/
inductive CacheChange (order : List AuthTokenCacheKey) (now : Instant)
    (a : AgentAuth) (op : AgentAuthOp) : AgentAuth → Prop where
  | keep : CacheChange order now a op a
  | tried (origins : Finset String) :
      CacheChange order now a op { a with authorizeTried := origins }
  /-- The first entry the scan meets, stale or rejected. -/
  | dropToken {key : AuthTokenCacheKey} :
      findCachedTokenKey order op.origin = some key →
      (op = .nextAttempt op.origin ∨ ∃ token headers,
        op = .observeResponse op.origin (.authToken token) 401 headers) →
      CacheChange order now a op
        { a with tokenCache := a.tokenCache.erase key }
  | dropOpaque {token : String} {headers : HeaderMap} :
      op = .observeResponse op.origin (.opaqueToken token) 401 headers →
      CacheChange order now a op
        { a with opaqueCache := a.opaqueCache.erase op.origin }
  | issue {token : String} : op.Issues a.opaqueSeed token →
      a.opaqueCache.lookup op.origin ≠ some token →
      CacheChange order now a op
        { a with opaqueCache := a.opaqueCache.insert op.origin token }
  | record {ps token : String} {expiresIn : Nat} {expiresAt : Instant} :
      op = .recordAuthToken op.origin ps token expiresIn →
      now.add (durationFromSecs expiresIn) = some expiresAt →
      CacheChange order now a op { a with
        tokenCache := a.tokenCache.insert ⟨op.origin, ps⟩
          ⟨token, expiresAt⟩ }

theorem apply_cacheChange (h : a.apply order now op = (r, a')) :
    CacheChange order now a op a' := by
  cases op with
  | seedOpaque origin =>
      rw [apply] at h
      obtain ⟨-, rfl⟩ := Prod.mk.inj h
      rcases seedOpaque_cases (a := a) origin with hs |
        ⟨seed, hseed, hn, hs⟩
      · rw [hs]
        exact .keep
      · rw [hs]
        refine .issue hseed ?_
        show a.opaqueCache.lookup origin ≠ some seed
        rw [hn]
        exact Option.some_ne_none seed |>.symm
  | beginAuthorizeAttempt origin =>
      rw [apply] at h
      obtain ⟨-, rfl⟩ := Prod.mk.inj h
      show CacheChange order now a _ (a.beginAuthorizeAttempt origin).2
      by_cases ho : a.opaqueCache.lookup origin ≠ none
      · rw [beginAuthorizeAttempt, if_pos ho]
        exact .keep
      · rw [beginAuthorizeAttempt, if_neg ho]
        exact .tried _
  | nextAttempt origin =>
      cases hn : a.nextAttempt order now origin with
      | mk attempt b =>
          rw [apply, hn] at h
          obtain ⟨-, rfl⟩ := Prod.mk.inj h
          rcases nextAttempt_cases hn with ⟨_, _, _, _, _, _, rfl⟩ |
            ⟨rfl | ⟨key, hk, rfl⟩, _⟩
          · exact .keep
          · exact .keep
          · exact .dropToken hk (.inl rfl)
  | observeResponse origin attempt status headers =>
      cases ho : a.observeResponse order origin attempt status headers with
      | mk step b =>
          rw [apply, ho] at h
          obtain ⟨-, rfl⟩ := Prod.mk.inj h
          by_cases hs : status = 401
          · subst hs
            cases attempt with
            | authToken t =>
                rw [observe_authToken] at ho
                cases hk : findCachedTokenKey order origin with
                | none =>
                    simp only [hk] at ho
                    obtain ⟨-, rfl⟩ := Prod.mk.inj ho
                    exact .keep
                | some key =>
                    simp only [hk] at ho
                    obtain ⟨-, rfl⟩ := Prod.mk.inj ho
                    exact .dropToken hk (.inr ⟨t, headers, rfl⟩)
            | opaqueToken t =>
                rw [observe_opaqueToken] at ho
                obtain ⟨-, rfl⟩ := Prod.mk.inj ho
                exact .dropOpaque rfl
            | agentSigned =>
                rw [observe_agentSigned] at ho
                obtain ⟨-, rfl⟩ := Prod.mk.inj ho
                exact .keep
          · obtain ⟨step', ho', -⟩ := observe_other order a origin
              attempt headers hs
            rw [ho'] at ho
            obtain ⟨-, rfl⟩ := Prod.mk.inj ho
            cases hc : a.cacheOpaqueFromHeaders origin headers with
            | mk changed b =>
                rcases cacheOpaque_cases hc with ⟨_, rfl, _⟩ |
                  ⟨token, ht, _, hne, rfl⟩
                · exact .keep
                · exact .issue ⟨hs, ht⟩ hne
  | recordAuthToken origin ps token expiresIn =>
      rw [apply, recordAuthToken] at h
      cases ht : now.add (durationFromSecs expiresIn) with
      | none =>
          rw [ht, Option.map_none] at h
          obtain ⟨-, rfl⟩ := Prod.mk.inj h
          exact .keep
      | some expiresAt =>
          rw [ht, Option.map_some] at h
          obtain ⟨-, rfl⟩ := Prod.mk.inj h
          exact .record rfl ht

theorem CacheChange.opaqueSeed (h : CacheChange order now a op a') :
    a'.opaqueSeed = a.opaqueSeed := by
  cases h <;> rfl

/-- The entries of other origins stay. -/
theorem CacheChange.tokens_elsewhere (h : CacheChange order now a op a')
    {key : AuthTokenCacheKey} (hk : key.origin ≠ op.origin) :
    a'.tokenCache.lookup key = a.tokenCache.lookup key := by
  cases h with
  | keep => rfl
  | tried origins => rfl
  | dropOpaque he => rfl
  | issue hi hne => rfl
  | dropToken hf he =>
      refine AList.lookup_erase_ne fun heq => hk ?_
      rw [heq]
      exact findCachedTokenKey_origin hf
  | record he ht =>
      refine AList.lookup_insert_ne fun heq => hk ?_
      rw [heq]

theorem CacheChange.opaque_elsewhere (h : CacheChange order now a op a')
    {origin : String} (ho : origin ≠ op.origin) :
    a'.opaqueCache.lookup origin = a.opaqueCache.lookup origin := by
  cases h with
  | keep => rfl
  | tried origins => rfl
  | dropToken hf he => rfl
  | record he ht => rfl
  | dropOpaque he => exact AList.lookup_erase_ne ho
  | issue hi hne => exact AList.lookup_insert_ne ho

end AgentAuth

/-- The operations that may drop or record an auth token. -/
def AgentAuthOp.TouchesTokens : AgentAuthOp → Prop
  | .nextAttempt _ | .recordAuthToken _ _ _ _ => True
  | .observeResponse _ (.authToken _) status _ => status = 401
  | _ => False

namespace AgentAuth

variable {order : List AuthTokenCacheKey} {now : Instant}
  {a a' : AgentAuth} {op : AgentAuthOp}

theorem CacheChange.tokenCache (h : CacheChange order now a op a')
    (hn : ¬ op.TouchesTokens) : a'.tokenCache = a.tokenCache := by
  cases h with
  | keep => rfl
  | tried origins => rfl
  | dropOpaque he => rfl
  | issue hi hne => rfl
  | dropToken hf he =>
      refine absurd ?_ hn
      rcases he with he | ⟨_, _, he⟩
      · rw [he]
        trivial
      · rw [he]
        rfl
  | record he ht =>
      refine absurd ?_ hn
      rw [he]
      trivial

end AgentAuth

/-- The operations that may drop or put in an opaque token. -/
def AgentAuthOp.TouchesOpaque : AgentAuthOp → Prop
  | .seedOpaque _ => True
  | .observeResponse _ attempt status headers =>
      if status = 401 then ∃ token, attempt = .opaqueToken token
      else (AgentAuth.accessToken headers).isSome = true
  | _ => False

namespace AgentAuth

variable {order : List AuthTokenCacheKey} {now : Instant}
  {a a' : AgentAuth} {op : AgentAuthOp}

theorem CacheChange.opaqueCache (h : CacheChange order now a op a')
    (hn : ¬ op.TouchesOpaque) : a'.opaqueCache = a.opaqueCache := by
  cases h with
  | keep => rfl
  | tried origins => rfl
  | dropToken hf he => rfl
  | record he ht => rfl
  | @dropOpaque token headers he =>
      refine absurd ?_ hn
      rw [he, AgentAuthOp.TouchesOpaque, if_pos rfl]
      exact ⟨token, rfl⟩
  | issue hi hne =>
      refine absurd ?_ hn
      cases op with
      | seedOpaque o => trivial
      | observeResponse o attempt status headers =>
          rw [AgentAuthOp.TouchesOpaque, if_neg hi.1, hi.2]
          rfl
      | _ => exact hi.elim

/-- Where a cached token comes from: it was there, or it was recorded. -/
theorem CacheChange.token_from (h : CacheChange order now a op a')
    {key : AuthTokenCacheKey} {cached : CachedToken}
    (hl : a'.tokenCache.lookup key = some cached) :
    a.tokenCache.lookup key = some cached ∨ ∃ expiresIn,
      op = .recordAuthToken key.origin key.personServer cached.authToken
        expiresIn ∧
      now.add (durationFromSecs expiresIn) = some cached.expiresAt := by
  cases h with
  | keep => exact .inl hl
  | tried origins => exact .inl hl
  | dropOpaque he => exact .inl hl
  | issue hi hne => exact .inl hl
  | @dropToken dropped hf he =>
      by_cases hk : key = dropped
      · rw [hk, AList.lookup_erase] at hl
        cases hl
      · rw [AList.lookup_erase_ne hk] at hl
        exact .inl hl
  | @record ps token expiresIn expiresAt he ht =>
      by_cases hk : key = ⟨op.origin, ps⟩
      · subst hk
        rw [AList.lookup_insert] at hl
        cases hl
        exact .inr ⟨expiresIn, he, ht⟩
      · rw [AList.lookup_insert_ne hk] at hl
        exact .inl hl

/-- Where an opaque entry comes from: it was there, or it is the seed put
where there was none, or it came in a response. -/
theorem apply_opaque_from {r : Except String op.Ans}
    (h : a.apply order now op = (r, a')) {origin token : String}
    (hl : a'.opaqueCache.lookup origin = some token) :
    a.opaqueCache.lookup origin = some token ∨
      (op = .seedOpaque origin ∧ a.opaqueSeed = some token ∧
        a.opaqueCache.lookup origin = none) ∨
      ∃ attempt status headers,
        op = .observeResponse origin attempt status headers ∧
        status ≠ 401 ∧ accessToken headers = some token := by
  have hc := apply_cacheChange h
  by_cases ho : origin = op.origin
  · by_cases ht : op.TouchesOpaque
    · cases op with
      | seedOpaque o =>
          replace ho : origin = o := ho
          subst ho
          rw [apply] at h
          obtain ⟨-, rfl⟩ := Prod.mk.inj h
          rcases seedOpaque_cases (a := a) origin with hs |
            ⟨seed, hseed, hn, hs⟩
          · rw [hs] at hl
            exact .inl hl
          · rw [hs, AList.lookup_insert] at hl
            rw [hl] at hseed
            exact .inr (.inl ⟨rfl, hseed, hn⟩)
      | observeResponse o attempt status headers =>
          replace ho : origin = o := ho
          subst ho
          cases hc with
          | keep => exact .inl hl
          | tried origins => exact .inl hl
          | dropToken hf he => exact .inl hl
          | record he ht => exact .inl hl
          | dropOpaque he =>
              have hn : (a.opaqueCache.erase origin).lookup origin = none :=
                AList.lookup_erase _ _
              have hl : (a.opaqueCache.erase origin).lookup origin =
                some token := hl
              rw [hn] at hl
              cases hl
          | @issue issued hi hne =>
              have hl : (a.opaqueCache.insert origin issued).lookup origin =
                some token := hl
              rw [AList.lookup_insert] at hl
              cases hl
              exact .inr (.inr ⟨attempt, status, headers, rfl, hi⟩)
      | _ => exact ht.elim
    · rw [hc.opaqueCache ht] at hl
      exact .inl hl
  · rw [hc.opaque_elsewhere ho] at hl
    exact .inl hl

/-! ## Sequences of operations -/

end AgentAuth

/-- An operation with the order of its scan, the time it read, and its
answer. -/
structure AuthEvent where
  op : AgentAuthOp
  order : List AuthTokenCacheKey
  now : Instant
  ans : Except String op.Ans

/-- Operations one after another, newest first. -/
inductive AuthRun (init : AgentAuth) : List AuthEvent → AgentAuth → Prop where
  | nil : AuthRun init [] init
  | step {t : List AuthEvent} {a a' : AgentAuth} {e : AuthEvent} :
      AuthRun init t a → e.order.Perm a.tokenCache.keys →
      a.apply e.order e.now e.op = (e.ans, a') → AuthRun init (e :: t) a'

namespace AgentAuth

/-- The entry was recorded, under its key and with its lifetime. -/
def TokenFrom (t : List AuthEvent) (key : AuthTokenCacheKey)
    (cached : CachedToken) : Prop :=
  ∃ e ∈ t, ∃ expiresIn, e.op = .recordAuthToken key.origin key.personServer
      cached.authToken expiresIn ∧
    e.now.add (durationFromSecs expiresIn) = some cached.expiresAt

/-- The token was issued at the origin. -/
def OpaqueFrom (seed : Option String) (t : List AuthEvent)
    (origin token : String) : Prop :=
  ∃ e ∈ t, e.op.origin = origin ∧ e.op.Issues seed token

/-- Everything cached has an operation it comes from. -/
structure Provenance (seed : Option String) (t : List AuthEvent)
    (a : AgentAuth) : Prop where
  seeded : a.opaqueSeed = seed
  tokens : ∀ {key cached}, a.tokenCache.lookup key = some cached →
    TokenFrom t key cached
  opaques : ∀ {origin token}, a.opaqueCache.lookup origin = some token →
    OpaqueFrom seed t origin token

theorem TokenFrom.cons {t : List AuthEvent} {key : AuthTokenCacheKey}
    {cached : CachedToken} (e : AuthEvent) (h : TokenFrom t key cached) :
    TokenFrom (e :: t) key cached := by
  obtain ⟨d, hd, h⟩ := h
  exact ⟨d, List.mem_cons_of_mem e hd, h⟩

theorem OpaqueFrom.cons {seed : Option String} {t : List AuthEvent}
    {origin token : String} (e : AuthEvent)
    (h : OpaqueFrom seed t origin token) :
    OpaqueFrom seed (e :: t) origin token := by
  obtain ⟨d, hd, h⟩ := h
  exact ⟨d, List.mem_cons_of_mem e hd, h⟩

theorem Provenance.fresh (seed : Option String) :
    Provenance seed [] (.fresh seed) where
  seeded := rfl
  tokens h := by rw [AgentAuth.fresh, AList.lookup_empty] at h; cases h
  opaques h := by rw [AgentAuth.fresh, AList.lookup_empty] at h; cases h

/-- The step lemma: an entry found after an operation was there before it,
or is the one it made. -/
theorem Provenance.step {seed : Option String} {t : List AuthEvent}
    {a a' : AgentAuth} (hp : Provenance seed t a) (e : AuthEvent)
    (h : CacheChange e.order e.now a e.op a') : Provenance seed (e :: t) a' where
  seeded := h.opaqueSeed.trans hp.seeded
  tokens {key cached} hl := by
    rcases h.token_from hl with hl | ⟨expiresIn, he, ht⟩
    · exact (hp.tokens hl).cons e
    · exact ⟨e, List.mem_cons_self, expiresIn, he, ht⟩
  opaques {origin token} hl := by
    cases h with
    | keep => exact (hp.opaques hl).cons e
    | tried origins => exact (hp.opaques hl).cons e
    | dropToken hf he => exact (hp.opaques hl).cons e
    | record he ht => exact (hp.opaques hl).cons e
    | dropOpaque he =>
        by_cases ho : origin = e.op.origin
        · rw [ho, AList.lookup_erase] at hl
          cases hl
        · rw [AList.lookup_erase_ne ho] at hl
          exact (hp.opaques hl).cons e
    | @issue issued hi hne =>
        by_cases ho : origin = e.op.origin
        · rw [ho, AList.lookup_insert] at hl
          cases hl
          rw [hp.seeded] at hi
          exact ⟨e, List.mem_cons_self, ho.symm, hi⟩
        · rw [AList.lookup_insert_ne ho] at hl
          exact (hp.opaques hl).cons e

theorem AuthRun.provenance {seed : Option String} {t : List AuthEvent}
    {a : AgentAuth} (run : AuthRun (.fresh seed) t a) :
    Provenance seed t a := by
  induction run with
  | nil => exact .fresh seed
  | @step t a a' e _ _ h ih => exact ih.step e (apply_cacheChange h)

theorem accessToken_eq_some {headers : HeaderMap} {token : String}
    (h : accessToken headers = some token) :
    ∃ value, headers.getAll "aauth-access" = [value] ∧
      value.toList.all isVisibleAscii = true ∧
      token = Text.trim value ∧ isToken68 token = true := by
  rw [accessToken] at h
  split at h
  · next value hv =>
      obtain ⟨raw, hraw, hp⟩ := Option.bind_eq_some_iff.mp h
      rw [toStr] at hraw
      split at hraw
      · next hvis =>
          cases hraw
          rw [Except.toOption_eq_some, parseAauthAccessHeader, bind_eq_ok]
            at hp
          obtain ⟨_, hf, hr⟩ := hp
          rw [failIf_eq_ok, Bool.not_eq_false] at hf
          cases hr
          exact ⟨value, hv, hvis, rfl, hf⟩
      · cases hraw
  · cases h

/-! ## Isolation -/

/-- Credentials are kept apart by origin. In every state a sequence of
operations reaches, an operation leaves the entries of other origins alone;
an auth token is picked for an origin only if it was recorded for that
origin and its entry has more than a minute left; an opaque one only if it
is the seed, put there for the origin, or the one valid `AAuth-Access` of a
response of that origin. -/
theorem credentials_isolated {seed : Option String} {t : List AuthEvent}
    {a : AgentAuth} (run : AuthRun (.fresh seed) t a) :
    (∀ order now op r a', a.apply order now op = (r, a') →
      (∀ key, key.origin ≠ op.origin →
        a'.tokenCache.lookup key = a.tokenCache.lookup key) ∧
      ∀ origin, origin ≠ op.origin →
        a'.opaqueCache.lookup origin = a.opaqueCache.lookup origin) ∧
    (∀ order now origin token a',
      a.nextAttempt order now origin = (.authToken token, a') →
      ∃ e ∈ t, ∃ ps expiresIn expiresAt,
        e.op = .recordAuthToken origin ps token expiresIn ∧
        e.now.add (durationFromSecs expiresIn) = some expiresAt ∧
        a.tokenCache.lookup ⟨origin, ps⟩ = some ⟨token, expiresAt⟩ ∧
        now + durationFromSecs 60 < expiresAt) ∧
    (∀ order now origin token a',
      a.nextAttempt order now origin = (.opaqueToken token, a') →
      (seed = some token ∧ ∃ e ∈ t, e.op = .seedOpaque origin) ∨
      ∃ e ∈ t, ∃ attempt status headers value,
        e.op = .observeResponse origin attempt status headers ∧
        status ≠ 401 ∧ headers.getAll "aauth-access" = [value] ∧
        value.toList.all isVisibleAscii = true ∧
        token = Text.trim value ∧ isToken68 token = true) := by
  have hp := AuthRun.provenance run
  refine ⟨?_, ?_, ?_⟩
  · intro order now op r a' h
    have hc := apply_cacheChange h
    exact ⟨fun _ hk => hc.tokens_elsewhere hk,
      fun _ ho => hc.opaque_elsewhere ho⟩
  · intro order now origin token a' h
    rcases nextAttempt_cases h with ⟨key, cached, hk, hl, hlive, he, -⟩ |
      ⟨-, ⟨_, _, he⟩ | ⟨_, he⟩⟩
    · cases he
      obtain ⟨e, hm, expiresIn, hop, hadd⟩ := hp.tokens hl
      have ho := findCachedTokenKey_origin hk
      obtain ⟨o, ps⟩ := key
      cases ho
      exact ⟨e, hm, ps, expiresIn, _, hop, hadd, hl, hlive⟩
    · cases he
    · cases he
  · intro order now origin token a' h
    rcases nextAttempt_cases h with ⟨_, _, _, _, _, he, -⟩ |
      ⟨-, ⟨found, hl, he⟩ | ⟨_, he⟩⟩
    · cases he
    · cases he
      obtain ⟨⟨op, order', now', ans⟩, hm, ho, hi⟩ := hp.opaques hl
      cases op with
      | seedOpaque o =>
          cases ho
          exact .inl ⟨hi, _, hm, rfl⟩
      | observeResponse o attempt status headers =>
          cases ho
          obtain ⟨value, hv⟩ := accessToken_eq_some hi.2
          exact .inr ⟨_, hm, attempt, status, headers, value, rfl, hi.1, hv⟩
      | beginAuthorizeAttempt o => exact hi.elim
      | nextAttempt o => exact hi.elim
      | recordAuthToken o ps tok e => exact hi.elim
    · cases he

/-- The configured seed, put there for an origin. -/
def seedEvent : AuthEvent where
  op := .seedOpaque "https://r.example"
  order := []
  now := 0
  ans := .ok ()

theorem credentials_isolated_seed :
    ((fresh (some "abc")).seedOpaque "https://r.example").nextAttempt [] 0
      "https://r.example" = (.opaqueToken "abc",
        (fresh (some "abc")).seedOpaque "https://r.example") ∧
    ∃ e ∈ [seedEvent], e.op = .seedOpaque "https://r.example" := by
  have run : AuthRun (.fresh (some "abc")) [seedEvent]
      ((fresh (some "abc")).seedOpaque "https://r.example") :=
    .step .nil (List.Perm.refl _) rfl
  have hn : ((fresh (some "abc")).seedOpaque "https://r.example").nextAttempt
      [] 0 "https://r.example" = (.opaqueToken "abc",
        (fresh (some "abc")).seedOpaque "https://r.example") := rfl
  refine ⟨hn, ?_⟩
  rcases (credentials_isolated run).2.2 _ _ _ _ _ hn with ⟨-, h⟩ |
    ⟨e, he, _, _, _, _, hop, _⟩
  · exact h
  · rw [List.mem_singleton] at he
    subst he
    cases hop

end AgentAuth

/-! ## The lock -/

/-- What a hold of the lock does to the credentials; a poisoned one leaves
them. -/
theorem lockStep_apply {s s' : AgentState} {o : AgentAuthOp}
    {r : Except String o.Ans} (h : lockStep s o r s') :
    s'.auth = s.auth ∨ ∃ order now, order.Perm s.auth.tokenCache.keys ∧
      s.auth.apply order now o = (r, s'.auth) := by
  rw [lockStep] at h
  by_cases hp : s.poisoned = true
  · rw [if_pos hp] at h
    rw [h.2]
    exact .inl rfl
  · rw [if_neg hp] at h
    obtain ⟨order, now, ho, ha, -⟩ := h
    exact .inr ⟨order, now, ho, ha.symm⟩

/-- A lock that answers was not poisoned, and is not afterwards. -/
theorem lockStep_ok {s s' : AgentState} {o : AgentAuthOp} {x : o.Ans}
    (h : lockStep s o (.ok x) s') :
    s.poisoned = false ∧ s'.poisoned = false ∧
      ∃ order now, order.Perm s.auth.tokenCache.keys ∧
        s.auth.apply order now o = (.ok x, s'.auth) := by
  rw [lockStep] at h
  by_cases hp : s.poisoned = true
  · rw [if_pos hp] at h
    exact nomatch h.1
  · rw [if_neg hp] at h
    obtain ⟨order, now, ho, ha, hq⟩ := h
    exact ⟨Bool.eq_false_iff.mpr hp, hq, order, now, ho, ha.symm⟩

theorem lockStep_tokenCache {s s' : AgentState} {o : AgentAuthOp}
    {x : o.Ans} (h : lockStep s o (.ok x) s') (hn : ¬ o.TouchesTokens) :
    s'.auth.tokenCache = s.auth.tokenCache := by
  obtain ⟨-, -, order, now, -, ha⟩ := lockStep_ok h
  exact (AgentAuth.apply_cacheChange ha).tokenCache hn

theorem lockStep_nextAttempt {s s' : AgentState} {origin : String}
    {attempt : AgentAuthAttempt}
    (h : lockStep s (.nextAttempt origin) (.ok attempt) s') :
    ∃ order now, order.Perm s.auth.tokenCache.keys ∧
      s.auth.nextAttempt order now origin = (attempt, s'.auth) := by
  obtain ⟨-, -, order, now, hp, ha⟩ := lockStep_ok h
  refine ⟨order, now, hp, ?_⟩
  cases hn : s.auth.nextAttempt order now origin with
  | mk attempt' b =>
      rw [AgentAuth.apply, hn] at ha
      obtain ⟨hr, rfl⟩ := Prod.mk.inj ha
      cases hr
      rfl

theorem lockStep_observe {s s' : AgentState} {origin : String}
    {attempt : AgentAuthAttempt} {status : Nat} {headers : HeaderMap}
    {step : AAuthResult AgentAuthStep}
    (h : lockStep s (.observeResponse origin attempt status headers)
      (.ok step) s') :
    ∃ order, order.Perm s.auth.tokenCache.keys ∧
      s.auth.observeResponse order origin attempt status headers =
        (step, s'.auth) := by
  obtain ⟨-, -, order, now, hp, ha⟩ := lockStep_ok h
  refine ⟨order, hp, ?_⟩
  cases ho : s.auth.observeResponse order origin attempt status headers with
  | mk step' b =>
      rw [AgentAuth.apply, ho] at ha
      obtain ⟨hr, rfl⟩ := Prod.mk.inj ha
      cases hr
      rfl

/-- Only a `202` is polled for. -/
theorem observe_pollDeferred {s s' : AgentState} {origin : String}
    {attempt : AgentAuthAttempt} {status : Nat} {headers : HeaderMap}
    (h : lockStep s (.observeResponse origin attempt status headers)
      (.ok (.ok .pollDeferred)) s') : status = 202 := by
  obtain ⟨order, -, ho⟩ := lockStep_observe h
  rcases AgentAuth.observe_step ho with ⟨hs, -⟩ | ⟨-, hc | ⟨hc, -⟩⟩ |
    ⟨-, -, hc⟩ | ⟨-, -, hc | ⟨_, _, _, _, hc⟩⟩
  · exact hs
  all_goals cases hc

/-- A challenge is taken up from the `401` to an agent-signed copy. -/
theorem observe_exchangeToken {s s' : AgentState} {origin : String}
    {attempt : AgentAuthAttempt} {status : Nat} {headers : HeaderMap}
    {resourceToken : String}
    (h : lockStep s (.observeResponse origin attempt status headers)
      (.ok (.ok (.exchangeToken resourceToken))) s') :
    status = 401 ∧ attempt = .agentSigned ∧ ∃ header,
      headerValue headers "aauth-requirement" = some header ∧
      AAuthChallenge.fromHeader header = .ok (.authToken resourceToken) := by
  obtain ⟨order, -, ho⟩ := lockStep_observe h
  rcases AgentAuth.observe_step ho with ⟨-, hc⟩ | ⟨-, hc | ⟨hc, -⟩⟩ |
    ⟨-, -, hc⟩ | ⟨hs, ha, hc | ⟨header, _, hh, hf, hc⟩⟩
  on_goal 6 =>
    cases hc
    exact ⟨hs, ha, header, hh, hf⟩
  all_goals cases hc

end Aauth
