import Aauth.Proofs.AgentCalls
import Aauth.Sample.Agent

/-!
# How often a request is sent

`handleLoop` sends a copy of the original request in every round. A round
that is followed by another either lost one of the credentials the agent
held for the origin, or was answered by a response that refills the loop: a
`202`, a `401` with an auth-token challenge, or an `AAuth-Access` token. The
credentials are a potential: a refill adds at most one to it, any other
round takes one away. So the copies are bounded by the credentials held at
the start and the refills among the answers, and by nothing else
(`copies_le`); since every refill answers a copy, the loop is bounded
exactly when the refills are (`copies_bounded_iff`).
-/

namespace Aauth

open Effect Except

/-! ## The potential -/

namespace AgentAuth

variable {a a' : AgentAuth} {origin : String}
  {order : List AuthTokenCacheKey} {now : Instant}

/-- The auth tokens cached for an origin. -/
def tokensFor (a : AgentAuth) (origin : String) : Nat :=
  a.tokenCache.keys.countP (·.origin == origin)

/-- The credentials held for an origin. -/
def credit (a : AgentAuth) (origin : String) : Nat :=
  a.tokensFor origin + if a.opaqueCache.lookup origin = none then 0 else 1

variable (a origin) in
theorem credit_le : a.credit origin ≤ a.tokensFor origin + 1 := by
  rw [credit]
  split <;> omega

variable (a origin) in
theorem tokensFor_le_credit : a.tokensFor origin ≤ a.credit origin := by
  rw [credit]
  omega

theorem tokensFor_congr (h : a'.tokenCache = a.tokenCache) :
    a'.tokensFor origin = a.tokensFor origin := by
  rw [tokensFor, tokensFor, h]

theorem tokensFor_erase {key : AuthTokenCacheKey}
    (hm : key ∈ a.tokenCache.keys) (ho : key.origin = origin) :
    ({ a with tokenCache := a.tokenCache.erase key } :
      AgentAuth).tokensFor origin + 1 = a.tokensFor origin := by
  have hp := (List.perm_cons_erase hm).countP_eq (·.origin == origin)
  have hk : (key.origin == origin) = true := beq_iff_eq.mpr ho
  rw [List.countP_cons, if_pos hk] at hp
  rw [tokensFor, tokensFor, AList.keys_erase]
  exact hp.symm

variable (a origin) in
theorem tokensFor_insert (key : AuthTokenCacheKey) (cached : CachedToken) :
    ({ a with tokenCache := a.tokenCache.insert key cached } :
      AgentAuth).tokensFor origin ≤ a.tokensFor origin + 1 := by
  have hs := (List.erase_sublist (a := key)
    (l := a.tokenCache.keys)).countP_le (p := (·.origin == origin))
  rw [tokensFor, tokensFor, AList.keys_insert, List.countP_cons]
  split <;> omega

/-- A scan of the keys finds one of the origin as long as there is one. -/
theorem findCachedTokenKey_isSome (hp : order.Perm a.tokenCache.keys)
    (h : 0 < a.tokensFor origin) :
    ∃ key, findCachedTokenKey order origin = some key ∧
      key ∈ a.tokenCache.keys := by
  rw [tokensFor, ← hp.countP_eq, List.countP_pos_iff] at h
  obtain ⟨k, hk, ho⟩ := h
  cases hf : findCachedTokenKey order origin with
  | none =>
      rw [findCachedTokenKey, List.find?_eq_none] at hf
      exact absurd ho (hf k hk)
  | some key => exact ⟨key, rfl, hp.mem_iff.mp (findCachedTokenKey_mem hf)⟩

/-- What was picked is still held. -/
def Picked (a : AgentAuth) (origin : String) : AgentAuthAttempt → Prop
  | .authToken _ => 0 < a.tokensFor origin
  | .opaqueToken _ => a.opaqueCache.lookup origin ≠ none
  | .agentSigned => True

/-- Picking an attempt costs nothing. -/
theorem nextAttempt_credit (hp : order.Perm a.tokenCache.keys)
    {attempt : AgentAuthAttempt}
    (h : a.nextAttempt order now origin = (attempt, a')) :
    a'.credit origin ≤ a.credit origin ∧ a'.Picked origin attempt := by
  rcases nextAttempt_cases h with ⟨key, cached, hk, hl, -, rfl, rfl⟩ |
    ⟨hstate, hpick⟩
  · refine ⟨Nat.le_refl _, ?_⟩
    show 0 < List.countP _ _
    rw [List.countP_pos_iff]
    refine ⟨key, hp.mem_iff.mp (findCachedTokenKey_mem hk), ?_⟩
    exact beq_iff_eq.mpr (findCachedTokenKey_origin hk)
  · have ho : a'.opaqueCache = a.opaqueCache := by
      rcases hstate with rfl | ⟨_, _, rfl⟩
      · rfl
      · rfl
    refine ⟨?_, ?_⟩
    · rcases hstate with rfl | ⟨key, hk, rfl⟩
      · exact Nat.le_refl _
      · have hm := hp.mem_iff.mp (findCachedTokenKey_mem hk)
        have := tokensFor_erase hm (findCachedTokenKey_origin hk)
        rw [credit, credit]
        show _ + (if a.opaqueCache.lookup origin = none then 0 else 1) ≤ _
        omega
    · rcases hpick with ⟨token, hl, rfl⟩ | ⟨-, rfl⟩
      · show a'.opaqueCache.lookup origin ≠ none
        rw [ho, hl]
        exact Option.some_ne_none token
      · trivial

end AgentAuth

/-! ## Copies and refills -/

/-- Whether the headers of a `401` hold an auth-token challenge. -/
def challenges (headers : HeaderMap) : Bool :=
  match AgentAuth.observeChallenge headers with
  | .ok (.exchangeToken _) => true
  | _ => false

/-- A response that gives the loop something new to go on with. -/
def refills (r : HttpResponse) : Bool :=
  r.status == 202 || (r.status == 401 && challenges r.headers) ||
    (r.status != 401 && (AgentAuth.accessToken r.headers).isSome)

def isCopy (e : AgentEvent) : Bool :=
  match e.op with
  | .sendWrapped _ _ => true
  | _ => false

/-- A copy that was answered by a refill. -/
def isRefill : AgentEvent → Bool
  | ⟨.sendWrapped _ _, .ok r⟩ => refills r
  | _ => false

/-- The copies of the original request in a log. -/
def copyCount (l : List AgentEvent) : Nat := l.countP isCopy

/-- The copies in a log that were answered by a refill. -/
def refillCount (l : List AgentEvent) : Nat := l.countP isRefill

theorem refillCount_le (l : List AgentEvent) :
    refillCount l ≤ copyCount l := by
  refine List.countP_mono_left fun e _ he => ?_
  obtain ⟨o, r⟩ := e
  cases o with
  | sendWrapped req attempt => rfl
  | _ => cases he

/-- The log has grown by calls that are no copies. -/
def SameCounts (l l' : List AgentEvent) : Prop :=
  copyCount l' = copyCount l ∧ refillCount l' = refillCount l

theorem SameCounts.own {l l' : List AgentEvent} (o : AgentOp)
    (r : agentSig.Ans o) (ho : o.own) (h : SameCounts l l') :
    SameCounts l (⟨o, r⟩ :: l') := by
  cases o with
  | lock o => exact ho.elim
  | sendWrapped req attempt => exact ho.elim
  | _ => exact h

theorem SameCounts.lock {l l' : List AgentEvent} (o : AgentAuthOp)
    (r : Except String o.Ans) (h : SameCounts l l') :
    SameCounts l (⟨.lock o, r⟩ :: l') := h

theorem SameCounts.refl (l : List AgentEvent) : SameCounts l l := ⟨rfl, rfl⟩

/-! ## One round -/

section Round

variable {cr : Crates} {options : AgentOptions} {fuel : Nat}
  {env : (o : AgentOp) → agentSig.Ans o → Prop} {origin : String}

/-- What a round that is followed by another does to the potential. -/
def Afforded (origin : String) (response : HttpResponse)
    (a a' : AgentAuth) : Prop :=
  if refills response = true then a'.credit origin ≤ a.credit origin + 1
  else a'.credit origin + 1 ≤ a.credit origin

theorem Afforded.of_refill {response : HttpResponse} {a a' : AgentAuth}
    (hr : refills response = true)
    (h : a'.tokensFor origin = a.tokensFor origin) :
    Afforded origin response a a' := by
  rw [Afforded, if_pos hr]
  have hle := a'.credit_le origin
  have hle' := a.tokensFor_le_credit origin
  omega

theorem Afforded.of_loss {response : HttpResponse} {a a' : AgentAuth}
    (h : a'.credit origin + 1 ≤ a.credit origin) :
    Afforded origin response a a' := by
  rw [Afforded]
  split <;> omega

/-- A rejected credential is gone. -/
theorem observe_rejected_credit {a a' : AgentAuth}
    {order : List AuthTokenCacheKey} {attempt : AgentAuthAttempt}
    {headers : HeaderMap} {step : AAuthResult AgentAuthStep}
    (hp : order.Perm a.tokenCache.keys) (hpick : a.Picked origin attempt)
    (hn : attempt ≠ .agentSigned)
    (h : a.observeResponse order origin attempt 401 headers = (step, a')) :
    a'.credit origin + 1 ≤ a.credit origin ∧
      step = .ok (.invalidate attempt) := by
  cases attempt with
  | agentSigned => exact absurd rfl hn
  | authToken token =>
      obtain ⟨key, hk, hm⟩ := AgentAuth.findCachedTokenKey_isSome hp hpick
      rw [AgentAuth.observe_authToken] at h
      simp only [hk] at h
      obtain ⟨rfl, rfl⟩ := Prod.mk.inj h
      refine ⟨?_, rfl⟩
      have := AgentAuth.tokensFor_erase hm
        (AgentAuth.findCachedTokenKey_origin hk)
      rw [AgentAuth.credit, AgentAuth.credit]
      show _ + (if a.opaqueCache.lookup origin = none then 0 else 1) + 1 ≤ _
      omega
  | opaqueToken token =>
      rw [AgentAuth.observe_opaqueToken] at h
      obtain ⟨rfl, rfl⟩ := Prod.mk.inj h
      refine ⟨?_, rfl⟩
      have hl : a.opaqueCache.lookup origin ≠ none := hpick
      rw [AgentAuth.credit, AgentAuth.credit, if_neg hl]
      show _ + (if (a.opaqueCache.erase origin).lookup origin = none then 0
        else 1) + 1 ≤ _
      rw [AList.lookup_erase, if_pos rfl]
      exact Nat.le_refl _

/-- The round of a response that was polled for. -/
theorem afterPoll_credit {s : AgentState} {l l' : List AgentEvent}
    {attempt : AgentAuthAttempt} {response polled : HttpResponse}
    {a : AgentAuth} (hr : refills response = true)
    (ha : s.auth.tokensFor origin = a.tokensFor origin)
    (hl : SameCounts l l') :
    wp (logged (agentWorld env)) (fun _ _ => True) (do
        let step ← observe origin attempt polled
        if step = .finish ∨ step = .retryWithOpaque then return none
        else return some polled : AgentTask (Option HttpResponse)).run
      (fun r q => SameCounts l q.2 ∧
        (r = .ok none → Afforded origin response a q.1.auth)) (s, l') := by
  rw [wp_bind_except, wp_observe]
  refine ⟨trivial, fun r s' h => ?_⟩
  cases r with
  | error e => exact ⟨hl.lock _ _, nofun⟩
  | ok step =>
      obtain ⟨order, hp, ho⟩ := lockStep_observe h
      cases step with
      | error e => exact ⟨hl.lock _ _, nofun⟩
      | ok step =>
          show wp _ _ (if step = .finish ∨ step = .retryWithOpaque then _
            else _ : AgentTask (Option HttpResponse)).run _ _
          by_cases hs : step = .finish ∨ step = .retryWithOpaque
          · rw [if_pos hs]
            refine ⟨hl.lock _ _, fun _ => .of_refill hr ?_⟩
            rw [← ha]
            refine AgentAuth.tokensFor_congr (lockStep_tokenCache h ?_)
            intro hn
            cases attempt with
            | authToken token =>
                have hst : polled.status = 401 := hn
                have hi := AgentAuth.observe_authToken_step order
                  s.auth origin token polled.headers
                rw [hst] at ho
                rw [ho] at hi
                cases hi
                rcases hs with hs | hs
                · cases hs
                · cases hs
            | opaqueToken token => exact hn
            | agentSigned => exact hn
          · rw [if_neg hs]
            exact ⟨hl.lock _ _, nofun⟩

/-- Recording adds one token at most. -/
theorem record_credit {s s' : AgentState} {ps token : String}
    {expiresIn : Nat} {x : Unit}
    (h : lockStep s (.recordAuthToken origin ps token expiresIn) (.ok x)
      s') : s'.auth.credit origin ≤ s.auth.credit origin + 1 := by
  obtain ⟨-, -, order, now, -, ha⟩ := lockStep_ok h
  rw [AgentAuth.apply, AgentAuth.recordAuthToken] at ha
  cases ht : now.add (durationFromSecs expiresIn) with
  | none =>
      rw [ht, Option.map_none] at ha
      cases (Prod.mk.inj ha).1
  | some expiresAt =>
      rw [ht, Option.map_some] at ha
      obtain ⟨-, hs⟩ := Prod.mk.inj ha
      rw [← hs, AgentAuth.credit, AgentAuth.credit]
      have h := Nat.add_le_add_right (s.auth.tokensFor_insert
        origin ⟨origin, ps⟩ ⟨token, expiresAt⟩)
        (if s.auth.opaqueCache.lookup origin = none then 0 else 1)
      rw [Nat.add_right_comm] at h
      exact h

/-- The step lemma: a round sends nothing after its copy, and is followed
by another only if it could be afforded. -/
theorem afterResponse_credit {s : AgentState} {l : List AgentEvent}
    {attempt : AgentAuthAttempt} {response : HttpResponse}
    (hpick : s.auth.Picked origin attempt) :
    wp (logged (agentWorld env)) (fun _ _ => True)
      (afterResponse cr fuel options origin attempt response).run
      (fun r q => SameCounts l q.2 ∧
        (r = .ok none → Afforded origin response s.auth q.1.auth))
      (s, l) := by
  rw [afterResponse, wp_bind_except, wp_observe]
  refine ⟨trivial, fun r s' h => ?_⟩
  have hl : SameCounts l (⟨.lock (.observeResponse origin attempt
      response.status response.headers), r⟩ :: l) :=
    (SameCounts.refl l).lock _ _
  cases r with
  | error e => exact ⟨hl, nofun⟩
  | ok step =>
      obtain ⟨order, hp, ho⟩ := lockStep_observe h
      cases step with
      | error e => exact ⟨hl, nofun⟩
      | ok step =>
          by_cases hs : response.status = 401
          · -- a rejected credential, or a challenge to take up
            rw [hs] at ho
            by_cases hn : attempt = .agentSigned
            · subst hn
              rw [AgentAuth.observe_agentSigned] at ho
              obtain ⟨hstep, hauth⟩ := Prod.mk.inj ho
              rcases AgentAuth.observeChallenge_cases hstep with rfl |
                ⟨_, rt, _, _, rfl⟩
              · exact ⟨hl, nofun⟩
              · have hr : refills response = true := by
                  rw [refills, challenges, hstep, hs]
                  rfl
                refine wp_own_bind exchangeChallenge_calls
                  (J := SameCounts l) (fun _ o r ho => .own o r ho) hl
                  (fun e l' hl' => ⟨hl', nofun⟩) fun ⟨ps, result⟩ l' hl' => ?_
                rw [wp_bind_except, wp_lock]
                refine ⟨trivial, fun r s'' h' => ?_⟩
                cases r with
                | error e => exact ⟨hl'.lock _ _, nofun⟩
                | ok x =>
                    refine ⟨hl'.lock _ _, fun _ => ?_⟩
                    rw [Afforded, if_pos hr, hauth]
                    exact record_credit h'
            · obtain ⟨hc, hstep⟩ := observe_rejected_credit hp hpick hn ho
              cases hstep
              exact ⟨hl, fun _ => .of_loss hc⟩
          · have hkeep : s'.auth.tokensFor origin =
                s.auth.tokensFor origin := by
              refine AgentAuth.tokensFor_congr (lockStep_tokenCache h ?_)
              intro hn
              cases attempt with
              | authToken token => exact hs hn
              | opaqueToken token => exact hn
              | agentSigned => exact hn
            obtain ⟨step', ho', hcase⟩ := AgentAuth.observe_other
              order s.auth origin attempt response.headers hs
            rw [ho'] at ho
            cases (Prod.mk.inj ho).1
            rcases hcase with ⟨h202, rfl⟩ | ⟨-, rfl | ⟨rfl, ht⟩⟩
            · have hr : refills response = true := by
                rw [refills, h202]
                rfl
              exact wp_own_bind pollResponse_calls (J := SameCounts l)
                (fun _ o r ho => .own o r ho) hl
                (fun e l' hl' => ⟨hl', nofun⟩)
                fun polled l' hl' => afterPoll_credit hr hkeep hl'
            · exact ⟨hl, nofun⟩
            · have hr : refills response = true := by
                have hne : (response.status != 401) = true :=
                  bne_iff_ne.mpr hs
                rw [refills, hne, ht, Bool.true_and, Bool.or_true]
              exact ⟨hl, fun _ => .of_refill hr hkeep⟩

/-! ## The loop -/

/-- The copies sent since `l` are paid for by the credentials and the
refills. -/
def Paid (credit : Nat) (l l' : List AgentEvent) : Prop :=
  copyCount l' + 2 * refillCount l ≤
    copyCount l + 1 + credit + 2 * refillCount l'

theorem Paid.of_same {credit : Nat} {l l' : List AgentEvent}
    (h : SameCounts l l') : Paid credit l l' := by
  obtain ⟨hc, hr⟩ := h
  rw [Paid]
  omega

theorem Paid.of_copy {credit : Nat} {l l' : List AgentEvent}
    (hc : copyCount l' = copyCount l + 1)
    (hr : refillCount l ≤ refillCount l') : Paid credit l l' := by
  rw [Paid]
  omega

/-- A copy and its answer in the log. -/
theorem copyCount_send (req : AgentRequest) (attempt : AgentAuthAttempt)
    (r : Except AgentError HttpResponse) (l : List AgentEvent) :
    copyCount (⟨.sendWrapped req attempt, r⟩ :: l) = copyCount l + 1 :=
  List.countP_cons_of_pos rfl

theorem refillCount_send (req : AgentRequest) (attempt : AgentAuthAttempt)
    (response : HttpResponse) (l : List AgentEvent) :
    refillCount (⟨.sendWrapped req attempt, .ok response⟩ :: l) =
      refillCount l + if refills response = true then 1 else 0 :=
  List.countP_cons

/-- The run lemma, by induction on the rounds: the potential pays for a
round without a refill, and a refill for itself and for what it added. -/
theorem handleLoop_paid {req : AgentRequest} {s : AgentState}
    {l : List AgentEvent} :
    wp (logged (agentWorld env)) (fun _ _ => True)
      (handleLoop cr options req origin fuel).run
      (fun _ q => Paid (s.auth.credit origin) l q.2) (s, l) := by
  induction fuel generalizing s l with
  | zero => exact Paid.of_same (.refl l)
  | succ fuel ih =>
      rw [handleLoop, wp_bind_except, wp_lock]
      refine ⟨trivial, fun r s₁ hlock => ?_⟩
      cases r with
      | error e => exact Paid.of_same ((SameCounts.refl l).lock _ _)
      | ok attempt =>
          obtain ⟨order, now, hp, hn⟩ := lockStep_nextAttempt hlock
          obtain ⟨hle, hpick⟩ := AgentAuth.nextAttempt_credit hp hn
          show wp _ _ _ _ _
          rw [wp_bind_except, wp_ofResult]
          cases req.tryClone with
          | none => exact Paid.of_same ((SameCounts.refl l).lock _ _)
          | some copy =>
              show wp _ _ _ _ _
              rw [wp_bind_except, wp_sendWrapped]
              refine ⟨trivial, fun r _ => ?_⟩
              cases r with
              | error e =>
                  exact Paid.of_copy (copyCount_send _ _ _ _) (Nat.le_refl _)
              | ok response =>
                  have hc := copyCount_send copy attempt (.ok response)
                    (⟨.lock (.nextAttempt origin), .ok attempt⟩ :: l)
                  have hr := refillCount_send copy attempt response
                    (⟨.lock (.nextAttempt origin), .ok attempt⟩ :: l)
                  have hs : SameCounts l
                      (⟨.lock (.nextAttempt origin), .ok attempt⟩ :: l) :=
                    (SameCounts.refl l).lock _ _
                  rw [hs.1] at hc
                  rw [hs.2] at hr
                  show wp _ _ _ _ _
                  rw [wp_bind_except]
                  refine wp_mono ?_ (afterResponse_credit hpick)
                  intro r ⟨s₂, l₂⟩ h
                  obtain ⟨⟨hc₂, hr₂⟩, hafford⟩ := h
                  replace hc₂ : copyCount l₂ = copyCount l + 1 := hc₂.trans hc
                  replace hr₂ : refillCount l₂ = refillCount l +
                    if refills response = true then 1 else 0 := hr₂.trans hr
                  have hle₂ : refillCount l ≤ refillCount l₂ := by
                    rw [hr₂]
                    exact Nat.le_add_right _ _
                  cases r with
                  | error e => exact Paid.of_copy hc₂ hle₂
                  | ok found =>
                      cases found with
                      | some response => exact Paid.of_copy hc₂ hle₂
                      | none =>
                          -- another round: the potential went down, or a
                          -- refill was counted
                          have ha := hafford rfl
                          refine wp_mono ?_ ih
                          intro _ ⟨s₃, l₃⟩ h₃
                          replace h₃ : Paid (s₂.auth.credit origin) l₂ l₃ :=
                            h₃
                          show Paid (s.auth.credit origin) l l₃
                          rw [Paid] at h₃ ⊢
                          replace ha : Afforded origin response s₁.auth
                            s₂.auth := ha
                          rw [Afforded] at ha
                          split at ha
                          · next hrefill =>
                              rw [if_pos hrefill] at hr₂
                              omega
                          · next hrefill =>
                              rw [if_neg hrefill] at hr₂
                              omega

/-! ## One request -/

/-- What comes before the loop sends no copy and leaves the auth tokens. -/
def Prepared {α : Type} (s : AgentState) (l : List AgentEvent)
    (r : Except Halt α) (q : AgentLog) : Prop :=
  SameCounts l q.2 ∧
    ∀ x, r = .ok x → q.1.auth.tokenCache = s.auth.tokenCache

section Setup

variable {s s₁ : AgentState} {l l₁ : List AgentEvent}

theorem lock_prepared {o : AgentAuthOp} (hn : ¬ o.TouchesTokens)
    (hs : s₁.auth.tokenCache = s.auth.tokenCache) (hl : SameCounts l l₁) :
    wp (logged (agentWorld env)) (fun _ _ => True) (lock o).run
      (Prepared s l) (s₁, l₁) := by
  rw [wp_lock]
  refine ⟨trivial, fun r s' h => ⟨hl.lock _ _, ?_⟩⟩
  intro x hr
  cases r with
  | error e => cases hr
  | ok y => exact (lockStep_tokenCache h hn).trans hs

theorem observe_prepared {response : HttpResponse}
    (hs : s₁.auth.tokenCache = s.auth.tokenCache) (hl : SameCounts l l₁) :
    wp (logged (agentWorld env)) (fun _ _ => True)
      (observe origin .agentSigned response).run (Prepared s l)
      (s₁, l₁) := by
  rw [wp_observe]
  refine ⟨trivial, fun r s' h => ⟨hl.lock _ _, ?_⟩⟩
  intro x hr
  cases r with
  | error e => cases hr
  | ok y => exact (lockStep_tokenCache h id).trans hs

theorem authorizeAt_prepared {endpoint : String}
    (hs : s₁.auth.tokenCache = s.auth.tokenCache) (hl : SameCounts l l₁) :
    wp (logged (agentWorld env)) (fun _ _ => True)
      (authorizeAt cr fuel options origin endpoint).run (Prepared s l)
      (s₁, l₁) := by
  rw [authorizeAt]
  refine wp_own_bind (ownCalls_ofResult _ _) (J := SameCounts l)
    (fun _ o r ho => .own o r ho) hl (fun e l' hl' => ⟨hl', nofun⟩) ?_
  intro _ l₂ hl₂
  refine wp_own_bind (ownCalls_sendAgentSigned _) (J := SameCounts l)
    (fun _ o r ho => .own o r ho) hl₂ (fun e l' hl' => ⟨hl', nofun⟩) ?_
  intro response l₃ hl₃
  rw [wp_bind_except]
  refine wp_mono ?_ (observe_prepared hs hl₃)
  intro r ⟨s₄, l₄⟩ h
  obtain ⟨hl₄, hs₄⟩ := h
  cases r with
  | error e => exact ⟨hl₄, nofun⟩
  | ok step =>
      replace hs₄ := hs₄ step rfl
      show wp _ _ (if step = .pollDeferred then _ else _ :
        AgentTask Unit).run _ _
      split
      · refine wp_own_bind pollResponse_calls (J := SameCounts l)
          (fun _ o r ho => .own o r ho) hl₄
          (fun e l' hl' => ⟨hl', nofun⟩) ?_
        intro polled l₅ hl₅
        rw [wp_bind_except]
        refine wp_mono ?_ (observe_prepared hs₄ hl₅)
        intro r q h
        cases r with
        | error e => exact ⟨h.1, nofun⟩
        | ok step => exact ⟨h.1, fun _ _ => h.2 step rfl⟩
      · exact ⟨hl₄, fun _ _ => hs₄⟩

theorem tryProactiveAuthorize_prepared
    (hs : s₁.auth.tokenCache = s.auth.tokenCache) (hl : SameCounts l l₁) :
    wp (logged (agentWorld env)) (fun _ _ => True)
      (tryProactiveAuthorize cr fuel options origin).run (Prepared s l)
      (s₁, l₁) := by
  rw [tryProactiveAuthorize, wp_bind_except]
  refine wp_mono ?_ (lock_prepared (fun h => h) hs hl)
  intro r ⟨s₂, l₂⟩ h
  obtain ⟨hl₂, hs₂⟩ := h
  cases r with
  | error e => exact ⟨hl₂, nofun⟩
  | ok first =>
      replace hs₂ := hs₂ first rfl
      show wp _ _ (if first = false then _ else _ : AgentTask Unit).run _ _
      split
      · exact ⟨hl₂, fun _ _ => hs₂⟩
      · refine wp_own_bind (ownCalls_effect (by trivial))
          (J := SameCounts l) (fun _ o r ho => .own o r ho) hl₂
          (fun e l' hl' => ⟨hl', nofun⟩) ?_
        intro metadata l₃ hl₃
        split
        · exact ⟨hl₃, fun _ _ => hs₂⟩
        · exact authorizeAt_prepared hs₂ hl₃

end Setup

/-- The auth tokens cached for the origin of a request. -/
def heldFor (cr : Crates) (a : AgentAuth) (req : AgentRequest) : Nat :=
  match AgentAuth.resourceOrigin cr req.url with
  | .ok origin => a.tokensFor origin
  | .error _ => 0

/-- A request is sent at most twice, once more for every auth token the
agent holds for it, and twice more for every refill. -/
theorem copies_le {req : AgentRequest} {s s' : AgentState}
    {r : Except Halt HttpResponse} {l : List AgentEvent}
    (hx : Exec (logged (agentWorld env)) (s, [])
      (handleInner cr options fuel req).run r (s', l)) :
    copyCount l ≤ heldFor cr s.auth req + 2 + 2 * refillCount l := by
  have h : wp (logged (agentWorld env)) (fun _ _ => True)
      (handleInner cr options fuel req).run
      (fun _ q => copyCount q.2 ≤
        heldFor cr s.auth req + 2 + 2 * refillCount q.2) (s, []) := by
    rw [handleInner, wp_bind_except, wp_ofAauth, heldFor]
    cases AgentAuth.resourceOrigin cr req.url with
    | error e => exact Nat.zero_le _
    | ok origin =>
        show wp _ _ _ _ _
        have early : ∀ l', SameCounts [] l' → copyCount l' ≤
            s.auth.tokensFor origin + 2 + 2 * refillCount l' := by
          intro l' h
          have : copyCount l' = 0 := h.1
          omega
        rw [wp_bind_except]
        refine wp_mono ?_ (lock_prepared (fun h => h) rfl (.refl []))
        intro r ⟨s₁, l₁⟩ h
        obtain ⟨hl₁, hs₁⟩ := h
        cases r with
        | error e => exact early l₁ hl₁
        | ok x =>
            replace hs₁ := hs₁ x rfl
            show wp _ _ _ _ _
            rw [wp_bind_except]
            refine wp_mono ?_ (tryProactiveAuthorize_prepared hs₁ hl₁)
            intro r ⟨s₂, l₂⟩ h
            obtain ⟨hl₂, hs₂⟩ := h
            cases r with
            | error e => exact early l₂ hl₂
            | ok y =>
                replace hs₂ := hs₂ y rfl
                refine wp_mono ?_ handleLoop_paid
                intro _ ⟨s₃, l₃⟩ hp
                replace hp : Paid (s₂.auth.credit origin) l₂ l₃ := hp
                have hcredit := s₂.auth.credit_le origin
                rw [AgentAuth.tokensFor_congr hs₂] at hcredit
                have hc : copyCount l₂ = 0 := hl₂.1
                have hr : refillCount l₂ = 0 := hl₂.2
                rw [Paid, hc, hr] at hp
                show copyCount l₃ ≤
                  s.auth.tokensFor origin + 2 + 2 * refillCount l₃
                omega
  have hc := Exec.post h hx
  exact hc

end Round

/-! ## When the loop is bounded -/

/-- Everything one request does, against servers that answer as `env`
allows, satisfies `P`. -/
def EveryRun (cr : Crates) (options : AgentOptions) (req : AgentRequest)
    (env : (o : AgentOp) → agentSig.Ans o → Prop) (s : AgentState)
    (P : List AgentEvent → Prop) : Prop :=
  ∀ fuel r s' l, Exec (logged (agentWorld env)) (s, [])
    (handleInner cr options fuel req).run r (s', l) → P l

/-- One call sends boundedly many copies of the request exactly when the
servers give it boundedly many refills. -/
theorem copies_bounded_iff (cr : Crates) (options : AgentOptions)
    (req : AgentRequest) (env : (o : AgentOp) → agentSig.Ans o → Prop)
    (s : AgentState) :
    (∃ bound, EveryRun cr options req env s fun l => copyCount l ≤ bound) ↔
      ∃ k, EveryRun cr options req env s fun l => refillCount l ≤ k := by
  constructor
  · intro h
    obtain ⟨bound, hb⟩ := h
    refine ⟨bound, fun fuel r s' l hx => ?_⟩
    exact (refillCount_le l).trans (hb fuel r s' l hx)
  · intro h
    obtain ⟨k, hk⟩ := h
    refine ⟨heldFor cr s.auth req + 2 + 2 * k, fun fuel r s' l hx => ?_⟩
    have hr : refillCount l ≤ k := hk fuel r s' l hx
    have hc := copies_le hx
    omega

/-! ## A server that keeps the loop going -/

namespace Sample

/-- The sample agent once it has looked for the resource's metadata. -/
def triedAgent : AgentState where
  auth :=
    { AgentAuth.fresh none with authorizeTried := {"https://r.example"} }
  poisoned := false

/-- The poll of a deferral. -/
def pollRequest : AgentRequest where
  method := "GET"
  url := "https://r.example/p"
  headers := ⟨[("prefer", "wait=45")]⟩
  body := .none

/-- One round against a server that defers a copy and then grants it. -/
def deferredRound : List AgentEvent :=
  [⟨.lock (.observeResponse "https://r.example" .agentSigned 200 .empty),
      .ok (.ok .finish)⟩,
    ⟨.sendAgentSigned pollRequest, .ok (bare 200)⟩,
    ⟨.instantNow, (0 : Nat)⟩, ⟨.instantNow, (0 : Nat)⟩,
    ⟨.lock (.observeResponse "https://r.example" .agentSigned 202
      deferral.headers), .ok (.ok .pollDeferred)⟩,
    ⟨.sendWrapped getRequest .agentSigned, .ok deferral⟩,
    ⟨.lock (.nextAttempt "https://r.example"), .ok .agentSigned⟩]

abbrev deferredLoop (fuel : Nat) (l : List AgentEvent) :
    Option (Except Halt HttpResponse × AgentLog) :=
  (handleLoop crates agentOptions getRequest "https://r.example"
    fuel).run.eval (agentAnswer (deferring 200) 0) (triedAgent, l)

set_option maxRecDepth 4000 in
theorem deferredLoop_round (n : Nat) (l : List AgentEvent) :
    deferredLoop (n + 2) l = deferredLoop (n + 1) (deferredRound ++ l) := by
  unfold deferredLoop
  rw [handleLoop]
  -- what follows the round is not looked at
  generalize handleLoop crates agentOptions getRequest "https://r.example"
    (n + 1) = rest
  rfl

set_option maxRecDepth 4000 in
theorem deferredLoop_one (l : List AgentEvent) :
    ∃ r l', deferredLoop 1 l = some (r, (triedAgent, l')) ∧
      copyCount l' = copyCount l + 1 := by
  refine ⟨_, _, rfl, ?_⟩
  simp [copyCount, List.countP_cons, isCopy]

/-- Every round sends a copy. -/
theorem deferredLoop_copies (n : Nat) (l : List AgentEvent) :
    ∃ r l', deferredLoop (n + 1) l = some (r, (triedAgent, l')) ∧
      copyCount l' = copyCount l + n + 1 := by
  induction n generalizing l with
  | zero => exact deferredLoop_one l
  | succ n ih =>
      obtain ⟨r, l', he, hc⟩ := ih (deferredRound ++ l)
      refine ⟨r, l', (deferredLoop_round n l).trans he, ?_⟩
      have hround : copyCount (deferredRound ++ l) = copyCount l + 1 := by
        rw [copyCount, List.countP_append, Nat.add_comm]
        exact congrArg (copyCount l + ·) rfl
      omega

/-- Against such a server no bound holds. -/
theorem copies_unbounded : ¬ ∃ bound, EveryRun crates agentOptions getRequest
    (deferring 200).rel (newAgent none) fun l => copyCount l ≤ bound := by
  intro h
  obtain ⟨bound, hb⟩ := h
  have hsetup : ∃ l, (handleInner crates agentOptions (bound + 1)
      getRequest).run.eval (agentAnswer (deferring 200) 0)
        (newAgent none, []) = deferredLoop (bound + 1) l := by
    simp only [deferredLoop, handleInner]
    generalize handleLoop crates agentOptions getRequest = loop
    exact ⟨_, rfl⟩
  obtain ⟨l, hsetup⟩ := hsetup
  obtain ⟨r, l', he, hc⟩ := deferredLoop_copies bound l
  have hx := exec_of_agentAnswer (hsetup.trans he)
  have := hb (bound + 1) r triedAgent l' hx
  omega

end Sample

end Aauth
