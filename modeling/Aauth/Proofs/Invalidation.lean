import Aauth.Proofs.AgentCalls
import Aauth.Sample.Agent

/-!
# Which entries a rejection removes

Requests share the credentials, and between the choice of a token and the
answer to it others may have changed them. An observed `401` removes
whichever entry of the origin the scan meets first, or the opaque entry the
origin has by now; the entry removed is the rejected one exactly when the
origin has no other (`Matches`). Over a run whose rejections all find the
cache so, an entry stays until it is picked over, recorded anew or rejected
itself.
-/

namespace Aauth

open Effect Except

/-! ## What is rejected and what is removed -/

/-- The token an attempt presents. -/
def AgentAuthAttempt.token : AgentAuthAttempt → Option String
  | authToken t | opaqueToken t => some t
  | agentSigned => none

namespace AgentAuth

variable {order : List AuthTokenCacheKey} {now : Instant}
  {a a' : AgentAuth} {origin token : String}

/-- The entries that are gone or changed all held the token. -/
def OnlyRejected (token : String) (a a' : AgentAuth) : Prop :=
  (∀ key cached, a.tokenCache.lookup key = some cached →
    a'.tokenCache.lookup key = some cached ∨ cached.authToken = token) ∧
  ∀ origin t, a.opaqueCache.lookup origin = some t →
    a'.opaqueCache.lookup origin = some t ∨ t = token

/-- The origin has no entry but those of the attempt's token, in the cache
the attempt was picked from. -/
def Matches (a : AgentAuth) (origin : String) : AgentAuthAttempt → Prop
  | .authToken token => ∀ key cached, key.origin = origin →
      a.tokenCache.lookup key = some cached → cached.authToken = token
  | .opaqueToken token => ∀ t, a.opaqueCache.lookup origin = some t →
      t = token
  | .agentSigned => True

theorem OnlyRejected.refl : OnlyRejected token a a :=
  ⟨fun _ _ h => .inl h, fun _ _ h => .inl h⟩

theorem onlyRejected_eraseToken {key : AuthTokenCacheKey} :
    OnlyRejected token a { a with tokenCache := a.tokenCache.erase key } ↔
      ∀ cached, a.tokenCache.lookup key = some cached →
        cached.authToken = token := by
  constructor
  · intro h cached hl
    rcases h.1 key cached hl with he | he
    · have hn : (a.tokenCache.erase key).lookup key = none :=
        AList.lookup_erase _ _
      have he : (a.tokenCache.erase key).lookup key = some cached := he
      rw [hn] at he
      cases he
    · exact he
  · intro h
    refine ⟨fun k cached hl => ?_, fun _ _ hl => .inl hl⟩
    by_cases hk : k = key
    · rw [hk] at hl
      exact .inr (h cached hl)
    · exact .inl ((AList.lookup_erase_ne hk).trans hl)

theorem onlyRejected_eraseOpaque :
    OnlyRejected token a
        { a with opaqueCache := a.opaqueCache.erase origin } ↔
      ∀ t, a.opaqueCache.lookup origin = some t → t = token := by
  constructor
  · intro h t hl
    rcases h.2 origin t hl with he | he
    · have hn : (a.opaqueCache.erase origin).lookup origin = none :=
        AList.lookup_erase _ _
      have he : (a.opaqueCache.erase origin).lookup origin = some t := he
      rw [hn] at he
      cases he
    · exact he
  · intro h
    refine ⟨fun _ _ hl => .inl hl, fun o t hl => ?_⟩
    by_cases ho : o = origin
    · rw [ho] at hl
      exact .inr (h t hl)
    · exact .inl ((AList.lookup_erase_ne ho).trans hl)

/-- Some order of the keys has any one of them first. -/
theorem exists_order_first {key : AuthTokenCacheKey}
    (hk : key ∈ a.tokenCache.keys) :
    ∃ order, order.Perm a.tokenCache.keys ∧
      findCachedTokenKey order key.origin = some key := by
  refine ⟨key :: a.tokenCache.keys.erase key,
    (List.perm_cons_erase hk).symm, ?_⟩
  rw [findCachedTokenKey, List.find?_cons_of_pos]
  exact beq_self_eq_true key.origin

/-- A rejection removes nothing else, whatever the order of the scan, if
and only if there is nothing else to meet. -/
theorem observe_onlyRejected_iff {attempt : AgentAuthAttempt}
    (headers : HeaderMap) (ht : attempt.token = some token) :
    (∀ order, order.Perm a.tokenCache.keys → OnlyRejected token a
        (a.observeResponse order origin attempt 401 headers).2) ↔
      a.Matches origin attempt := by
  cases attempt with
  | agentSigned => cases ht
  | opaqueToken t =>
      cases ht
      simp only [observe_opaqueToken, onlyRejected_eraseOpaque]
      constructor
      · intro h
        exact h _ (List.Perm.refl _)
      · intro h _ _
        exact h
  | authToken t =>
      cases ht
      simp only [observe_authToken]
      constructor
      · intro h key cached ho hl
        have hmem : key ∈ a.tokenCache.keys :=
          AList.mem_keys.mp (AList.lookup_isSome.mp (by rw [hl]; rfl))
        obtain ⟨order, hp, hf⟩ := exists_order_first hmem
        have hr := h order hp
        rw [← ho, hf] at hr
        exact onlyRejected_eraseToken.mp hr cached hl
      · intro h order _
        cases hf : findCachedTokenKey order origin with
        | none => exact .refl
        | some key =>
            refine onlyRejected_eraseToken.mpr fun cached hl => ?_
            exact h key cached (findCachedTokenKey_origin hf) hl

end AgentAuth

/-! ## Entries over a run -/

namespace AgentAuthOp

/-- The operations that may take an entry away: a pick for its origin,
which drops a stale one, a recording under its key, and the rejection of
its token. -/
def TakesToken (key : AuthTokenCacheKey) (cached : CachedToken) :
    AgentAuthOp → Prop
  | nextAttempt origin => origin = key.origin
  | recordAuthToken origin ps _ _ => origin = key.origin ∧
      ps = key.personServer
  | observeResponse origin attempt status _ => origin = key.origin ∧
      status = 401 ∧ attempt = .authToken cached.authToken
  | _ => False

/-- So for an opaque entry: another token in a response of the origin, or
the rejection of its own. -/
def TakesOpaque (origin token : String) : AgentAuthOp → Prop
  | observeResponse o attempt status headers => o = origin ∧
      (status = 401 ∧ attempt = .opaqueToken token ∨
        status ≠ 401 ∧ (AgentAuth.accessToken headers).isSome = true)
  | _ => False

/-- The operation observes the rejection of the token. -/
def Rejects (token : String) : AgentAuthOp → Prop
  | observeResponse _ attempt status _ => status = 401 ∧
      attempt.token = some token
  | _ => False

/-- A `401` finds the cache with nothing else for its origin. -/
def FindsOwn (a : AgentAuth) : AgentAuthOp → Prop
  | observeResponse origin attempt status _ =>
      status = 401 → a.Matches origin attempt
  | _ => True

end AgentAuthOp

namespace AgentAuth

variable {order : List AuthTokenCacheKey} {now : Instant}
  {a a' : AgentAuth} {op : AgentAuthOp}

theorem CacheChange.keeps_token (h : CacheChange order now a op a')
    (hf : op.FindsOwn a) {key : AuthTokenCacheKey} {cached : CachedToken}
    (hl : a.tokenCache.lookup key = some cached)
    (hn : ¬ op.TakesToken key cached) :
    a'.tokenCache.lookup key = some cached := by
  cases h with
  | keep => exact hl
  | tried origins => exact hl
  | dropOpaque he => exact hl
  | issue hi hne => exact hl
  | @record ps token expiresIn expiresAt he ht =>
      refine (AList.lookup_insert_ne fun heq => hn ?_).trans hl
      rw [he, heq]
      exact ⟨rfl, rfl⟩
  | @dropToken dropped hd he =>
      refine (AList.lookup_erase_ne fun heq => hn ?_).trans hl
      have ho := findCachedTokenKey_origin hd
      rw [← heq] at ho
      rcases he with he | ⟨token, headers, he⟩
      · rw [he]
        exact ho.symm
      · rw [he] at hf ⊢
        refine ⟨ho.symm, rfl, ?_⟩
        rw [hf rfl key cached ho hl]

theorem apply_keeps_opaque {r : Except String op.Ans}
    (h : a.apply order now op = (r, a')) (hf : op.FindsOwn a)
    {origin token : String} (hl : a.opaqueCache.lookup origin = some token)
    (hn : ¬ op.TakesOpaque origin token) :
    a'.opaqueCache.lookup origin = some token := by
  have hc := apply_cacheChange h
  by_cases ho : origin = op.origin
  · by_cases ht : op.TouchesOpaque
    · cases op with
      | seedOpaque o =>
          rw [apply] at h
          obtain ⟨-, rfl⟩ := Prod.mk.inj h
          rcases seedOpaque_cases (a := a) o with hs | ⟨_, _, hnone, _⟩
          · rw [hs]
            exact hl
          · rw [ho] at hl
            have hnone : a.opaqueCache.lookup
              (AgentAuthOp.seedOpaque o).origin = none := hnone
            rw [hl] at hnone
            cases hnone
      | observeResponse o attempt status headers =>
          refine absurd ?_ hn
          refine ⟨ho.symm, ?_⟩
          by_cases hs : status = 401
          · rw [AgentAuthOp.TouchesOpaque, if_pos hs] at ht
            obtain ⟨rejected, rfl⟩ := ht
            have hl' : a.opaqueCache.lookup o = some token := by
              rw [← hl, ho]
              rfl
            have hm : token = rejected := hf hs token hl'
            exact .inl ⟨hs, by rw [hm]⟩
          · rw [AgentAuthOp.TouchesOpaque, if_neg hs] at ht
            exact .inr ⟨hs, ht⟩
      | _ => exact ht.elim
    · rw [hc.opaqueCache ht]
      exact hl
  · exact (hc.opaque_elsewhere ho).trans hl

end AgentAuth

/-! ## Runs -/

section Runs

variable {ι α : Type} [DecidableEq ι]
  {env : (o : AgentOp) → agentSig.Ans o → Prop}
  {P P' P₀ : Pool agentSig AgentState ι α} {i : ι}
  {t : List (ι × Event agentSig)}

/-- Every rejection is observed while the cache has nothing else for the
origin. -/
def FindsOwn (P : Pool agentSig AgentState ι α) (_ : ι) : AgentOp → Prop
  | .lock o => o.FindsOwn P.state.auth
  | _ => True

omit [DecidableEq ι] in
theorem FindsOwn.lock {o : AgentOp} (h : FindsOwn P i o) (op : AgentAuthOp)
    (ho : o = .lock op) : op.FindsOwn P.state.auth := by
  subst ho
  exact h

/-- An entry is kept by a call that does not take it. -/
theorem agentWorld_keeps {s s' : AgentState} {o : AgentOp}
    {r : agentSig.Ans o} (h : agentWorld env s o r s')
    (hf : ∀ op, o = .lock op → op.FindsOwn s.auth) :
    (∀ key cached, s.auth.tokenCache.lookup key = some cached →
      (∀ op, o = .lock op → ¬ op.TakesToken key cached) →
      s'.auth.tokenCache.lookup key = some cached) ∧
    ∀ origin token, s.auth.opaqueCache.lookup origin = some token →
      (∀ op, o = .lock op → ¬ op.TakesOpaque origin token) →
      s'.auth.opaqueCache.lookup origin = some token := by
  cases o with
  | lock op =>
      rcases lockStep_apply h with hs | ⟨order, now, -, ha⟩
      · rw [hs]
        exact ⟨fun _ _ hl _ => hl, fun _ _ hl _ => hl⟩
      · have hown := hf op rfl
        refine ⟨fun key cached hl hn => ?_, fun origin token hl hn => ?_⟩
        · exact (AgentAuth.apply_cacheChange ha).keeps_token hown hl
            (hn op rfl)
        · exact AgentAuth.apply_keeps_opaque ha hown hl (hn op rfl)
  | _ =>
      obtain ⟨-, hs⟩ := h
      rw [hs]
      exact ⟨fun _ _ hl _ => hl, fun _ _ hl _ => hl⟩

/-- The world in which a rejection takes nothing but the rejected token
away. -/
def sparingWorld (env : (o : AgentOp) → agentSig.Ans o → Prop) :
    World agentSig AgentState := fun s o r s' =>
  agentWorld env s o r s' ∧ ∀ op token, o = .lock op → op.Rejects token →
    AgentAuth.OnlyRejected token s.auth s'.auth

theorem agentWorld_sparing {s s' : AgentState} {o : AgentOp}
    {r : agentSig.Ans o} (h : agentWorld env s o r s')
    (hf : ∀ op, o = .lock op → op.FindsOwn s.auth) :
    sparingWorld env s o r s' := by
  refine ⟨h, fun op token ho hr => ?_⟩
  subst ho
  cases op with
  | observeResponse origin attempt status headers =>
      obtain ⟨rfl, ht⟩ := hr
      rcases lockStep_apply h with hs | ⟨order, now, hp, ha⟩
      · rw [hs]
        exact .refl
      · have hm := hf _ rfl rfl
        have honly := (AgentAuth.observe_onlyRejected_iff headers
          ht).mpr hm order hp
        obtain ⟨-, hs⟩ := Prod.mk.inj ha
        rw [← hs]
        exact honly
  | _ => exact hr.elim

/-- Every order of the scan is one the observation may meet. -/
theorem step_of_order {origin : String} {attempt : AgentAuthAttempt}
    {headers : HeaderMap} {k : Except String (AAuthResult AgentAuthStep) →
      Prog agentSig α} {order : List AuthTokenCacheKey}
    (hk : P.thread i =
      .call (.lock (.observeResponse origin attempt 401 headers)) k)
    (hu : P.state.poisoned = false)
    (hp : order.Perm P.state.auth.tokenCache.keys) :
    ∃ r P', Step (agentWorld env) P i
        ⟨.lock (.observeResponse origin attempt 401 headers), r⟩ P' ∧
      P'.state.auth = (P.state.auth.observeResponse order origin attempt 401 headers).2 := by
  let after := P.state.auth.observeResponse order origin attempt 401 headers
  have hw : agentWorld env P.state
      (.lock (.observeResponse origin attempt 401 headers)) (.ok after.1)
      ⟨after.2, false⟩ := by
    show lockStep _ _ _ _
    rw [lockStep, if_neg (by rw [hu]; exact Bool.false_ne_true)]
    exact ⟨order, 0, hp, rfl, rfl⟩
  exact ⟨_, _, .mk hk hw, rfl⟩

/-- Invalidation hits the rejected credential only, as long as every
rejection finds nothing else cached for its origin. A run of any programs
that share the credentials is then one in which no rejection takes another
token away, and an entry stays until it is picked over, recorded anew or
rejected itself; and the condition is what each rejection needs, for one
order of the scan or another. -/
theorem invalidation_spares (run : Steps (agentWorld env) FindsOwn P₀ t P) :
    Steps (sparingWorld env) (fun _ _ _ => True) P₀ t P ∧
    (∀ key cached, P₀.state.auth.tokenCache.lookup key = some cached →
      (∀ e ∈ t, ∀ op, e.2.op = .lock op → ¬ op.TakesToken key cached) →
      P.state.auth.tokenCache.lookup key = some cached) ∧
    (∀ origin token, P₀.state.auth.opaqueCache.lookup origin = some token →
      (∀ e ∈ t, ∀ op, e.2.op = .lock op → ¬ op.TakesOpaque origin token) →
      P.state.auth.opaqueCache.lookup origin = some token) ∧
    ∀ i origin attempt headers token k, P.thread i =
        .call (.lock (.observeResponse origin attempt 401 headers)) k →
      attempt.token = some token → P.state.poisoned = false →
      ((∀ e P', Step (agentWorld env) P i e P' →
        AgentAuth.OnlyRejected token P.state.auth P'.state.auth) ↔
        P.state.auth.Matches origin attempt) := by
  refine ⟨?_, ?_, ?_, ?_⟩
  · induction run with
    | nil => exact .nil
    | @step t P P' i e _ hg hs ih =>
        cases hs with
        | mk hk hw =>
            exact .step ih trivial (.mk hk (agentWorld_sparing hw hg.lock))
  · intro key cached hl
    induction run with
    | nil => exact fun _ => hl
    | @step t P P' i e _ hg hs ih =>
        intro hn
        have hl := ih fun d hd => hn d (List.mem_cons_of_mem _ hd)
        cases hs with
        | mk hk hw =>
            exact (agentWorld_keeps hw hg.lock).1 key cached hl
              (hn _ List.mem_cons_self)
  · intro origin token hl
    induction run with
    | nil => exact fun _ => hl
    | @step t P P' i e _ hg hs ih =>
        intro hn
        have hl := ih fun d hd => hn d (List.mem_cons_of_mem _ hd)
        cases hs with
        | mk hk hw =>
            exact (agentWorld_keeps hw hg.lock).2 origin token hl
              (hn _ List.mem_cons_self)
  · intro i origin attempt headers token k hk ht hu
    rw [← AgentAuth.observe_onlyRejected_iff headers ht]
    constructor
    · intro h order hp
      obtain ⟨r, P', hs, he⟩ := step_of_order hk hu hp
      rw [← he]
      exact h _ P' hs
    · intro h e P' hs
      cases hs with
      | @mk o k' r s' hk' hw =>
          rw [hk] at hk'
          cases hk'
          rcases lockStep_apply hw with hs | ⟨order, now, hp, ha⟩
          · show AgentAuth.OnlyRejected token _ s'.auth
            rw [hs]
            exact .refl
          · obtain ⟨-, hs⟩ := Prod.mk.inj ha
            show AgentAuth.OnlyRejected token _ s'.auth
            rw [← hs]
            exact h order hp

end Runs

namespace Sample

/-! ## Two requests of one client -/

/-- A function that answers the calls of a pool. -/
def poolAnswer (env : (o : AgentOp) → Option (agentSig.Ans o))
    (now : Instant) : AgentState → (o : AgentOp) →
      Option (agentSig.Ans o × AgentState)
  | s, .lock o =>
      if s.poisoned = true then none
      else
        let (r, a) := s.auth.apply s.auth.tokenCache.keys now o
        some (r, ⟨a, !r.isOk⟩)
  | s, o => (env o).map fun r => (r, s)

theorem poolAnswer_world {env : (o : AgentOp) → Option (agentSig.Ans o)}
    {now : Instant} (s : AgentState) (o : AgentOp) (r : agentSig.Ans o)
    (s' : AgentState) (h : poolAnswer env now s o = some (r, s')) :
    agentWorld (fun o r => env o = some r) s o r s' := by
  cases o with
  | lock o =>
      rw [poolAnswer] at h
      by_cases hp : s.poisoned = true
      · rw [if_pos hp] at h
        cases h
      · rw [if_neg hp] at h
        cases h
        show lockStep s o _ _
        rw [lockStep, if_neg hp]
        exact ⟨_, now, List.Perm.refl _, rfl, rfl⟩
  | _ =>
      obtain ⟨r', hr, he⟩ := Option.map_eq_some_iff.mp h
      cases he
      exact ⟨hr, rfl⟩

def firstKey : AuthTokenCacheKey := ⟨"https://r.example", "https://p.example"⟩

def secondKey : AuthTokenCacheKey :=
  ⟨"https://r.example", "https://q.example"⟩

/-- A first token with little more than a minute left, and another. -/
def heldTokens (other : AuthTokenCacheKey) : AgentState where
  auth := { AgentAuth.fresh none with
    tokenCache := (AList.insert other ⟨"t2", durationFromSecs 3600⟩
      ∅).insert firstKey ⟨"t1", durationFromSecs 61⟩ }
  poisoned := false

/-- Every copy is rejected. -/
def rejecting : (o : AgentOp) → Option (agentSig.Ans o)
  | .sendWrapped _ _ => some (.ok (bare 401))
  | .resourceMetadata _ => some none
  | _ => none

abbrev rejectingWorld : World agentSig AgentState :=
  agentWorld fun o r => rejecting o = some r

def bothClients (other : AuthTokenCacheKey) :
    Pool agentSig AgentState Bool (Except Halt HttpResponse) :=
  clients crates agentOptions (fun _ => 3) (fun _ => getRequest)
    (heldTokens other)

def rejectedFirst : AgentOp :=
  .lock (.observeResponse "https://r.example" (.authToken "t1") 401 .empty)

/-- Two Person Servers have given tokens for one origin. A request is sent
with the first one; two seconds later another request drops it as stale;
then the first request's `401` is observed and the other token removed. -/
theorem other_token_removed : ¬ ∀ t P i op r P' token,
    Steps rejectingWorld (fun _ _ _ => True) (bothClients secondKey) t P →
    Step rejectingWorld P i ⟨.lock op, r⟩ P' → op.Rejects token →
    AgentAuth.OnlyRejected token P.state.auth P'.state.auth := by
  intro h
  have hrun : ∃ t P k P', Pool.play (poolAnswer rejecting 0)
        [true, true, true, true, true, false, false]
        ([], bothClients secondKey) = some (t, P) ∧
      Pool.play (poolAnswer rejecting 2000000000) [false] (t, P) = some P' ∧
      P'.2.thread true = .call rejectedFirst k ∧
      P'.2.state.poisoned = false ∧
      P'.2.state.auth.tokenCache.lookup secondKey =
        some ⟨"t2", durationFromSecs 3600⟩ ∧
      ∃ order, order.Perm P'.2.state.auth.tokenCache.keys ∧
        (P'.2.state.auth.observeResponse order "https://r.example"
          (.authToken "t1") 401 .empty).2.tokenCache.lookup secondKey =
            none :=
    ⟨_, _, _, _, rfl, rfl, rfl, rfl, rfl, _, .refl _, rfl⟩
  obtain ⟨t, P, k, ⟨t', P'⟩, hp, hp', hk, hu, hl, order, ho, hn⟩ := hrun
  have run := Steps.play poolAnswer_world
    (Steps.play poolAnswer_world .nil hp) hp'
  obtain ⟨r, Q, hs, hq⟩ := step_of_order hk hu ho
  have hr := h t' P' true (.observeResponse "https://r.example"
    (.authToken "t1") 401 .empty) r Q "t1" run hs ⟨rfl, rfl⟩
  rw [hq] at hr
  rcases hr.1 secondKey _ hl with hl' | ht
  · rw [hn] at hl'
    cases hl'
  · exact absurd ht (by decide)

/-- The token of another origin, beside a rejection that finds its own. -/
def elsewhereKey : AuthTokenCacheKey :=
  ⟨"https://s.example", "https://p.example"⟩

/-- The calls before the rejection. -/
def callsBefore : List AgentOp :=
  [.sendWrapped getRequest (.authToken "t1"),
    .lock (.nextAttempt "https://r.example"),
    .resourceMetadata "https://r.example/.well-known/aauth-resource.json",
    .lock (.beginAuthorizeAttempt "https://r.example"),
    .lock (.seedOpaque "https://r.example")]

theorem callsBefore_harmless {o : AgentOp} (ho : o ∈ callsBefore)
    {op : AgentAuthOp} (hop : o = .lock op) : (∀ a, op.FindsOwn a) ∧
      ¬ op.TakesToken elsewhereKey ⟨"t2", durationFromSecs 3600⟩ := by
  simp only [callsBefore, List.mem_cons, List.not_mem_nil, or_false] at ho
  rcases ho with rfl | rfl | rfl | rfl | rfl
  · cases hop
  · cases hop
    exact ⟨fun _ => trivial, by unfold AgentAuthOp.TakesToken; decide⟩
  · cases hop
  · cases hop
    exact ⟨fun _ => trivial, fun h => h⟩
  · cases hop
    exact ⟨fun _ => trivial, fun h => h⟩

theorem invalidation_spares_elsewhere : ∃ t P,
    Steps (sparingWorld fun o r => rejecting o = some r)
      (fun _ _ _ => True) (bothClients elsewhereKey) t P ∧
    t.map (·.2.op) = rejectedFirst :: callsBefore ∧
    P.state.auth.tokenCache.lookup elsewhereKey =
      some ⟨"t2", durationFromSecs 3600⟩ := by
  have hrun : ∃ t P k, Pool.play (poolAnswer rejecting 0)
        [true, true, true, true, true] ([], bothClients elsewhereKey) =
          some (t, P) ∧
      t.map (·.2.op) = callsBefore ∧
      P.thread true = .call rejectedFirst k ∧
      P.state.poisoned = false ∧
      P.state.auth.tokenCache = (heldTokens elsewhereKey).auth.tokenCache :=
    ⟨_, _, _, rfl, rfl, rfl, rfl, rfl⟩
  obtain ⟨t, P, k, hp, ht, hk, hu, hcache⟩ := hrun
  have hplay := Steps.play poolAnswer_world .nil hp
  have hcalls : ∀ e ∈ t, e.2.op ∈ callsBefore := by
    intro e he
    rw [← ht]
    exact List.mem_map_of_mem he
  have hguard : Steps rejectingWorld FindsOwn (bothClients elsewhereKey)
      t P := by
    refine hplay.guarded fun e he Q => ?_
    have hm := hcalls e he
    cases ho : e.2.op with
    | lock op => exact (callsBefore_harmless hm ho).1 Q.state.auth
    | _ => trivial
  have hown : P.state.auth.Matches "https://r.example" (.authToken "t1") := by
    intro key cached hkey hl
    rw [hcache] at hl
    by_cases h₁ : key = firstKey
    · subst h₁
      cases hl
      rfl
    · by_cases h₂ : key = elsewhereKey
      · rw [h₂] at hkey
        exact absurd hkey (by decide)
      · have hn : (heldTokens elsewhereKey).auth.tokenCache.lookup key =
            none :=
          (AList.lookup_insert_ne h₁).trans ((AList.lookup_insert_ne h₂).trans
            (AList.lookup_empty key))
        rw [hn] at hl
        cases hl
  obtain ⟨r, Q, hs, -⟩ := step_of_order hk hu (.refl _)
  have hfinds : FindsOwn P true rejectedFirst := fun _ => hown
  have run := hguard.step hfinds hs
  obtain ⟨hspare, hkept, -⟩ := invalidation_spares run
  refine ⟨_, Q, hspare, ?_, hkept elsewhereKey _ rfl ?_⟩
  · rw [List.map_cons, ht]
    rfl
  · intro e he op hop
    rcases List.mem_cons.mp he with rfl | he
    · cases hop
      unfold AgentAuthOp.TakesToken
      decide
    · exact (callsBefore_harmless (hcalls e he) hop).2

end Sample

end Aauth
