import Aauth.Proofs.AgentCalls
import Aauth.Sample.Agent

/-!
# Rejected opaque tokens

What a log says about an opaque token is settled by the newest event about
it: a `401` to a copy that presented it, or a response of the origin that
carried it. A rejected token is out of the cache from the moment its `401`
is observed, and only a response or the configured seed puts one back
(`apply_opaque_from`). So no rejected token is picked, as long as the seed
is not put back where it was rejected.

Two readings of the calls of one client: interleaved in any way, where the
observations count, and one after another, where the answers do. For the
second the program says what comes next (`handleInner_follows`): a copy is
sent right after its credential was picked, and its answer observed right
after that.
-/

namespace Aauth

open Effect Except

/-! ## Rejections in a log -/

/-- Whether the newest event of either kind is of the first. -/
def since (p q : AgentEvent → Bool) : List AgentEvent → Bool
  | [] => false
  | e :: l => p e || (!q e && since p q l)

theorem since_cons {p q : AgentEvent → Bool} {e : AgentEvent}
    {l : List AgentEvent} (h : since p q (e :: l) = true) :
    p e = true ∨ q e = false ∧ since p q l = true := by
  rw [since, Bool.or_eq_true, Bool.and_eq_true, Bool.not_eq_true'] at h
  exact h

/-- A copy that presented the token at the origin was answered `401`. -/
def isRejection (cr : Crates) (origin token : String) : AgentEvent → Bool
  | ⟨.sendWrapped req (.opaqueToken t), .ok r⟩ =>
      t == token && r.status == 401 &&
        (AgentAuth.resourceOrigin cr req.url).toOption == some origin
  | _ => false

/-- The `401` was observed. -/
def isDrop (origin token : String) : AgentEvent → Bool
  | ⟨.lock (.observeResponse o attempt status _), _⟩ =>
      o == origin && attempt == .opaqueToken token && status == 401
  | _ => false

/-- A response of the origin, other than a `401`, carried the token. -/
def isReissue (origin token : String) : AgentEvent → Bool
  | ⟨.lock (.observeResponse o _ status headers), _⟩ =>
      o == origin && status != 401 &&
        AgentAuth.accessToken headers == some token
  | _ => false

/-- The token was presented at the origin and answered `401`, and no
response of the origin has carried it since. -/
def rejected (cr : Crates) (origin token : String) :
    List AgentEvent → Bool :=
  since (isRejection cr origin token) (isReissue origin token)

/-- The same of the observed rejections. -/
def dropped (origin token : String) : List AgentEvent → Bool :=
  since (isDrop origin token) (isReissue origin token)

/-! ## One call -/

section Step

variable {env : (o : AgentOp) → agentSig.Ans o → Prop}
  {s s' : AgentState} {o : AgentOp} {r : agentSig.Ans o}
  {origin token : String}

theorem agentWorld_poisoned (h : agentWorld env s o r s')
    (hp : s.poisoned = true) : s'.poisoned = true := by
  cases o with
  | lock o =>
      have h : lockStep s o r s' := h
      rw [lockStep, if_pos hp] at h
      rw [h.2]
      exact hp
  | _ =>
      rw [h.2]
      exact hp

/-- An observed rejection leaves the origin without an opaque token. -/
theorem drop_clears (h : agentWorld env s o r s')
    (hd : isDrop origin token ⟨o, r⟩ = true) :
    s'.poisoned = true ∨ s'.auth.opaqueCache.lookup origin = none := by
  cases o with
  | lock op =>
      cases op with
      | observeResponse o attempt status headers =>
          have hd : (o == origin && attempt == .opaqueToken token &&
            status == 401) = true := hd
          rw [Bool.and_eq_true, Bool.and_eq_true, beq_iff_eq, beq_iff_eq,
            beq_iff_eq] at hd
          obtain ⟨⟨rfl, rfl⟩, rfl⟩ := hd
          by_cases hp : s.poisoned = true
          · exact .inl (agentWorld_poisoned h hp)
          · have h : lockStep s _ r s' := h
            rw [lockStep, if_neg hp] at h
            obtain ⟨order, now, -, ha, -⟩ := h
            obtain ⟨-, hs⟩ := Prod.mk.inj ha
            rw [hs]
            exact .inr (AList.lookup_erase _ _)
      | _ => cases hd
  | _ => cases hd

/-- A token found after a call that did not issue it was there before. -/
theorem lookup_before (h : agentWorld env s o r s')
    (hr : isReissue origin token ⟨o, r⟩ = false)
    (hseed : o = .lock (.seedOpaque origin) →
      s.auth.opaqueSeed = some token →
      s.auth.opaqueCache.lookup origin ≠ none)
    (hl : s'.auth.opaqueCache.lookup origin = some token) :
    s.auth.opaqueCache.lookup origin = some token := by
  cases o with
  | lock op =>
      rcases lockStep_apply h with hs | ⟨order, now, -, ha⟩
      · rw [hs] at hl
        exact hl
      · rcases AgentAuth.apply_opaque_from ha hl with hb |
          ⟨rfl, hs, hn⟩ | ⟨attempt, status, headers, rfl, hs, ht⟩
        · exact hb
        · exact absurd hn (hseed rfl hs)
        · have hr : (origin == origin && status != 401 &&
              AgentAuth.accessToken headers == some token) = false := hr
          rw [ht, beq_self_eq_true, beq_self_eq_true, Bool.true_and,
            Bool.and_true, bne_eq_false_iff_eq] at hr
          exact absurd hr hs
  | _ =>
      rw [h.2] at hl
      exact hl

/-- A token is picked from the cache. -/
theorem picked_from (h : agentWorld env s (.lock (.nextAttempt origin))
      (.ok (.opaqueToken token)) s') :
    s.poisoned = false ∧ s'.poisoned = false ∧
      s.auth.opaqueCache.lookup origin = some token ∧
      s'.auth.opaqueCache.lookup origin = some token := by
  have h : lockStep s (.nextAttempt origin) _ s' := h
  obtain ⟨hp, hp', order, now, -, ha⟩ := lockStep_ok h
  obtain ⟨order, now, -, hn⟩ := lockStep_nextAttempt h
  have hsame := (AgentAuth.apply_cacheChange ha).opaqueCache fun hf => hf
  rw [hsame]
  rcases AgentAuth.nextAttempt_cases hn with ⟨_, _, _, _, _, he, -⟩ |
    ⟨-, ⟨found, hl, he⟩ | ⟨_, he⟩⟩
  · cases he
  · cases he
    exact ⟨hp, hp', hl, hl⟩
  · cases he

end Step

/-! ## Calls in any interleaving -/

section Interleaved

variable {ι α : Type} [DecidableEq ι]
  {env : (o : AgentOp) → agentSig.Ans o → Prop}
  {P P' P₀ : Pool agentSig AgentLog ι α} {i : ι}
  {t : List (ι × AgentEvent)}

/-- The seed is not put back where it stands rejected. -/
def SeedFresh (R : String → String → List AgentEvent → Bool)
    (P : Pool agentSig AgentLog ι α) (_ : ι) : AgentOp → Prop
  | .lock (.seedOpaque origin) => ∀ seed,
      P.state.1.auth.opaqueSeed = some seed →
      P.state.1.auth.opaqueCache.lookup origin = none →
      R origin seed P.state.2 = false
  | _ => True

omit [DecidableEq ι] in
theorem SeedFresh.seed {R : String → String → List AgentEvent → Bool}
    {o : AgentOp} (h : SeedFresh R P i o) {origin token : String}
    (hr : R origin token P.state.2 = true)
    (ho : o = .lock (.seedOpaque origin))
    (hs : P.state.1.auth.opaqueSeed = some token) :
    P.state.1.auth.opaqueCache.lookup origin ≠ none := by
  subst ho
  intro hn
  rw [h token hs hn] at hr
  cases hr

/-- The world in which no rejected token is picked. -/
def pickingWorld (env : (o : AgentOp) → agentSig.Ans o → Prop) :
    World agentSig AgentLog := fun q o r q' =>
  logged (agentWorld env) q o r q' ∧ ∀ origin token,
    (⟨o, r⟩ : AgentEvent) =
      ⟨.lock (.nextAttempt origin), .ok (.opaqueToken token)⟩ →
    dropped origin token q.2 = false

/-- What is dropped is not cached. -/
def DroppedOut (q : AgentLog) : Prop :=
  q.1.poisoned = true ∨ ∀ origin token, dropped origin token q.2 = true →
    q.1.auth.opaqueCache.lookup origin ≠ some token

/-- The step lemma. -/
theorem DroppedOut.step {q q' : AgentLog} {o : AgentOp} {r : agentSig.Ans o}
    (hq : DroppedOut q) (h : logged (agentWorld env) q o r q')
    (hseed : ∀ origin token, dropped origin token q.2 = true →
      o = .lock (.seedOpaque origin) → q.1.auth.opaqueSeed = some token →
      q.1.auth.opaqueCache.lookup origin ≠ none) : DroppedOut q' := by
  obtain ⟨s, l⟩ := q
  obtain ⟨s', l'⟩ := q'
  obtain ⟨hw, hl'⟩ := h
  cases hl'
  rcases hq with hp | hq
  · exact .inl (agentWorld_poisoned hw hp)
  by_cases hp' : s'.poisoned = true
  · exact .inl hp'
  refine .inr fun origin token hd hlook => ?_
  rcases since_cons hd with hdrop | ⟨hre, hd⟩
  · rcases drop_clears hw hdrop with hp | hn
    · exact hp' hp
    · have hlook : s'.auth.opaqueCache.lookup origin = some token := hlook
      rw [hn] at hlook
      cases hlook
  · exact hq origin token hd
      (lookup_before hw hre (hseed origin token hd) hlook)

theorem logged_picking {q q' : AgentLog} {o : AgentOp} {r : agentSig.Ans o}
    (hq : DroppedOut q) (h : logged (agentWorld env) q o r q') :
    pickingWorld env q o r q' := by
  refine ⟨h, fun origin token he => ?_⟩
  cases he
  obtain ⟨hp, -, hl, -⟩ := picked_from h.1
  rcases hq with hp' | hq
  · rw [hp] at hp'
    cases hp'
  · exact Bool.eq_false_iff.mpr fun hd => hq origin token hd hl

/-- The run lemma. -/
theorem picks_fresh (h₀ : DroppedOut P₀.state)
    (run : Steps (logged (agentWorld env)) (SeedFresh dropped) P₀ t P) :
    Steps (pickingWorld env) (fun _ _ _ => True) P₀ t P ∧
      DroppedOut P.state := by
  induction run with
  | nil => exact ⟨.nil, h₀⟩
  | step _ hg hs ih =>
      obtain ⟨hrun, hq⟩ := ih
      cases hs with
      | mk hk hw =>
          refine ⟨.step hrun trivial (.mk hk (logged_picking hq hw)), ?_⟩
          exact hq.step hw fun _ _ => hg.seed

end Interleaved

/-! ## What comes next in a call -/

section Follows

variable {cr : Crates} {options : AgentOptions} {fuel : Nat}
  {origin : String} {l : List AgentEvent}

/-- A copy is sent with what was picked just before, and its answer is the
next thing observed. -/
def Follows (cr : Crates) (l : List AgentEvent) (o : AgentOp) : Prop :=
  (∀ req attempt, o = .sendWrapped req attempt → ∃ origin l',
    AgentAuth.resourceOrigin cr req.url = .ok origin ∧
    l = ⟨.lock (.nextAttempt origin), .ok attempt⟩ :: l') ∧
  ∀ req attempt r l', l = ⟨.sendWrapped req attempt, .ok r⟩ :: l' →
    ∃ origin, AgentAuth.resourceOrigin cr req.url = .ok origin ∧
      o = .lock (.observeResponse origin attempt r.status r.headers)

/-- The newest event is no answered copy. -/
def AllObserved (l : List AgentEvent) : Prop :=
  ∀ req attempt r l', l ≠ ⟨.sendWrapped req attempt, .ok r⟩ :: l'

theorem AllObserved.follows (hl : AllObserved l) {o : AgentOp} (ho : o.NoCopy) :
    Follows cr l o := by
  refine ⟨fun req attempt he => ?_, fun req attempt r l' he => ?_⟩
  · rw [he] at ho
    exact ho.elim
  · exact absurd he (hl req attempt r l')

theorem allObserved_cons {o : AgentOp} (ho : o.NoCopy) (r : agentSig.Ans o) :
    AllObserved (⟨o, r⟩ :: l) := by
  intro req attempt r' l' he
  cases he
  exact ho

theorem NoCopies.follows {α : Type} {t : AgentTask α} (ht : NoCopies t)
    (hl : AllObserved l) :
    wp recorder (Follows cr) t.run (fun _ l' => AllObserved l') l := by
  have ht : Prog.Calls AgentOp.NoCopy t.run := ht
  refine wp_of_calls ht (fun _ _ ho hq => hq.follows ho) ?_ hl
  intro l o r l' ho _ hr
  rw [hr]
  exact allObserved_cons ho r

theorem afterResponse_follows {copy : AgentRequest}
    {attempt : AgentAuthAttempt} {response : HttpResponse}
    (ho : AgentAuth.resourceOrigin cr copy.url = .ok origin) :
    wp recorder (Follows cr)
      (afterResponse cr fuel options origin attempt response).run
      (fun _ l' => AllObserved l')
      (⟨.sendWrapped copy attempt, .ok response⟩ :: l) := by
  rw [afterResponse, wp_bind_except, observe, wp_bind_except,
    wp_recorder_lock]
  refine ⟨?_, fun r => ?_⟩
  · refine ⟨?_, fun req attempt' r l' he => ?_⟩
    · intro req attempt' he
      cases he
    cases he
    exact ⟨origin, ho, rfl⟩
  · have hq : AllObserved (⟨.lock (.observeResponse origin attempt response.status
        response.headers), r⟩ ::
          ⟨.sendWrapped copy attempt, .ok response⟩ :: l) :=
      allObserved_cons (by trivial) r
    cases r with
    | error m => exact hq
    | ok step =>
        cases step with
        | error e => exact hq
        | ok step =>
            cases step with
            | finish => exact hq
            | retryWithOpaque => exact hq
            | invalidate attempt' => exact hq
            | pollDeferred =>
                exact afterPoll_prepares.noCopies.follows hq
            | exchangeToken resourceToken =>
                refine NoCopies.follows ?_ hq
                refine exchangeChallenge_calls.noCopies.bind fun _ => ?_
                exact (lock_noCopies _).bind fun _ =>
                  (ownCalls_pure _).noCopies

theorem handleLoop_follows {req : AgentRequest}
    (ho : AgentAuth.resourceOrigin cr req.url = .ok origin) (hl : AllObserved l) :
    wp recorder (Follows cr) (handleLoop cr options req origin fuel).run
      (fun _ l' => AllObserved l') l := by
  induction fuel generalizing l with
  | zero => exact hl
  | succ fuel ih =>
      rw [handleLoop, wp_bind_except, wp_recorder_lock]
      refine ⟨hl.follows (by trivial), fun r => ?_⟩
      have hq : AllObserved (⟨.lock (.nextAttempt origin), r⟩ :: l) :=
        allObserved_cons (by trivial) r
      cases r with
      | error m => exact hq
      | ok attempt =>
          show wp _ _ _ _ _
          rw [wp_bind_except, wp_ofResult, AgentRequest.tryClone]
          by_cases hb : req.body = .stream
          · rw [if_pos hb]
            exact hq
          · rw [if_neg hb]
            show wp _ _ _ _ _
            rw [wp_bind_except, wp_recorder_sendWrapped]
            refine ⟨?_, fun r => ?_⟩
            · refine ⟨fun req' attempt' he => ?_, fun _ _ _ _ he => ?_⟩
              · cases he
                exact ⟨origin, l, ho, rfl⟩
              · exact absurd he (hq _ _ _ _)
            · cases r with
              | error e =>
                  intro _ _ _ _ he
                  cases he
              | ok response =>
                  show wp _ _ _ _ _
                  rw [wp_bind_except]
                  refine wp_mono ?_ (afterResponse_follows ho)
                  intro r l' hl'
                  cases r with
                  | error e => exact hl'
                  | ok found =>
                      cases found with
                      | some response => exact hl'
                      | none => exact ih hl'

theorem handleInner_follows {req : AgentRequest} :
    wp recorder (Follows cr) (handleInner cr options fuel req).run
      (fun _ l' => AllObserved l') [] := by
  have h₀ : AllObserved [] := nofun
  rw [handleInner, wp_bind_except, wp_ofAauth]
  cases ho : AgentAuth.resourceOrigin cr req.url with
  | error e => exact h₀
  | ok origin =>
      show wp _ _ _ _ _
      rw [wp_bind_except]
      refine wp_mono ?_ ((lock_noCopies _).follows h₀)
      intro r l₁ h₁
      cases r with
      | error e => exact h₁
      | ok x =>
          show wp _ _ _ _ _
          rw [wp_bind_except]
          refine wp_mono ?_ (tryProactiveAuthorize_prepares.noCopies.follows h₁)
          intro r l₂ h₂
          cases r with
          | error e => exact h₂
          | ok y => exact handleLoop_follows ho h₂

end Follows

/-! ## Calls one after another -/

section Sequential

variable {ι : Type} [DecidableEq ι] {cr : Crates} {options : AgentOptions}
  {fuel : ι → Nat} {req : ι → AgentRequest} {s : AgentState}
  {env : (o : AgentOp) → agentSig.Ans o → Prop}
  {P P' : Pool agentSig AgentLog ι (Except Halt HttpResponse)} {i : ι}
  {t : List (ι × AgentEvent)}

/-- A call goes on only while every other has not begun or is over. -/
def OneAtATime {σ α : Type} (P₀ P : Pool agentSig σ ι α) (i : ι) : Prop :=
  ∀ j, j ≠ i → P.thread j = P₀.thread j ∨ ∃ a, P.thread j = .ret a

/-- No request is sent with a token that stands rejected. -/
def SendsFresh {α : Type} (cr : Crates) (P : Pool agentSig AgentLog ι α)
    (_ : ι) : AgentOp → Prop
  | .sendWrapped req (.opaqueToken token) => ∀ origin,
      AgentAuth.resourceOrigin cr req.url = .ok origin →
      rejected cr origin token P.state.2 = false
  | _ => True

/-- The thread is about to observe the rejection. -/
def AboutToDrop {α : Type} (P : Pool agentSig AgentLog ι α) (i : ι)
    (origin token : String) : Prop :=
  ∃ headers k, P.thread i = .call
    (.lock (.observeResponse origin (.opaqueToken token) 401 headers)) k

/-- What is rejected is not cached, or about to be dropped; and what a
thread is about to send is cached. -/
structure Sequential (cr : Crates)
    (P : Pool agentSig AgentLog ι (Except Halt HttpResponse)) : Prop where
  out : ∀ {origin token}, rejected cr origin token P.state.2 = true →
    P.state.1.poisoned = true ∨
    P.state.1.auth.opaqueCache.lookup origin ≠ some token ∨
    ∃ i, AboutToDrop P i origin token
  sending : ∀ {i req token k origin},
    P.thread i = .call (.sendWrapped req (.opaqueToken token)) k →
    AgentAuth.resourceOrigin cr req.url = .ok origin →
    P.state.1.poisoned = false ∧
      P.state.1.auth.opaqueCache.lookup origin = some token

/-- A call begins with the seed, if it makes a call at all. -/
theorem handleInner_start (cr : Crates) (options : AgentOptions)
    (fuel : Nat) (req : AgentRequest) :
    (∃ a, (handleInner cr options fuel req).run = .ret a) ∨
      ∃ origin k, (handleInner cr options fuel req).run =
        .call (.lock (.seedOpaque origin)) k := by
  rw [handleInner]
  cases AgentAuth.resourceOrigin cr req.url with
  | error e => exact .inl ⟨_, rfl⟩
  | ok origin => exact .inr ⟨origin, _, rfl⟩

theorem OneAtATime.eq_of_call
    (h : OneAtATime (clients cr options fuel req (s, ([] : List AgentEvent)))
      P i) {j : ι} {o : AgentOp}
    {k : agentSig.Ans o → Prog agentSig (Except Halt HttpResponse)}
    (hj : P.thread j = .call o k)
    (ho : ∀ origin, o ≠ .lock (.seedOpaque origin)) : j = i := by
  by_contra hne
  rcases h j hne with hs | ⟨a, hs⟩
  · rcases handleInner_start cr options (fuel j) (req j) with ⟨a, he⟩ | ⟨origin, k', he⟩
    · have hs : P.thread j = (handleInner cr options (fuel j)
        (req j)).run := hs
      rw [hs, he] at hj
      cases hj
    · have hs : P.thread j = (handleInner cr options (fuel j)
        (req j)).run := hs
      rw [hs, he] at hj
      cases hj
      exact ho origin rfl
  · rw [hs] at hj
    cases hj

/-- The runs of such calls, with the seed fresh throughout. -/
abbrev SequentialSteps (cr : Crates) (options : AgentOptions)
    (fuel : ι → Nat) (req : ι → AgentRequest) (s : AgentState)
    (env : (o : AgentOp) → agentSig.Ans o → Prop) :=
  Steps (logged (agentWorld env))
    (fun P i o => OneAtATime (clients cr options fuel req (s, [])) P i ∧
      SeedFresh (rejected cr) P i o)
    (clients cr options fuel req (s, []))

/-- The answer to a copy is what its thread observes next. -/
theorem observes_next {e : AgentEvent} {l : List AgentEvent}
    {p : Prog agentSig (Except Halt HttpResponse)}
    (h : wp recorder (Follows cr) p (fun _ l' => AllObserved l') (e :: l))
    {q : AgentRequest} {attempt : AgentAuthAttempt} {r : HttpResponse}
    (he : e = ⟨.sendWrapped q attempt, .ok r⟩) :
    ∃ origin k, AgentAuth.resourceOrigin cr q.url = .ok origin ∧
      p = .call (.lock (.observeResponse origin attempt r.status
        r.headers)) k := by
  cases p with
  | ret a => exact absurd (congrArg (· :: l) he) (h q attempt r l)
  | call o k =>
      obtain ⟨origin, ho, rfl⟩ :=
        h.1.2 q attempt r l (congrArg (· :: l) he)
      exact ⟨origin, k, ho, rfl⟩

/-- What a thread is about to send was picked in its last step. -/
theorem picked_last {e : AgentEvent} {l : List AgentEvent}
    {p : Prog agentSig (Except Halt HttpResponse)}
    (h : wp recorder (Follows cr) p (fun _ l' => AllObserved l') (e :: l))
    {q : AgentRequest} {attempt : AgentAuthAttempt}
    {k : Except AgentError HttpResponse →
      Prog agentSig (Except Halt HttpResponse)}
    (hp : p = .call (.sendWrapped q attempt) k) {origin : String}
    (ho : AgentAuth.resourceOrigin cr q.url = .ok origin) :
    e = ⟨.lock (.nextAttempt origin), .ok attempt⟩ := by
  subst hp
  obtain ⟨origin', l', ho', he⟩ := h.1.1 q attempt rfl
  rw [ho] at ho'
  cases ho'
  exact (List.cons.inj he).1

theorem isRejection_eq {origin token : String} {e : AgentEvent}
    (h : isRejection cr origin token e = true) : ∃ q r,
    e = ⟨.sendWrapped q (.opaqueToken token), .ok r⟩ ∧ r.status = 401 ∧
      AgentAuth.resourceOrigin cr q.url = .ok origin := by
  obtain ⟨o, r⟩ := e
  cases o with
  | sendWrapped q attempt =>
      cases attempt with
      | opaqueToken t =>
          cases r with
          | ok r =>
              rw [isRejection, Bool.and_eq_true, Bool.and_eq_true,
                beq_iff_eq, beq_iff_eq, beq_iff_eq,
                Except.toOption_eq_some] at h
              obtain ⟨⟨rfl, hs⟩, ho⟩ := h
              exact ⟨q, r, rfl, hs, ho⟩
          | error e => cases h
      | _ => cases h
  | _ => cases h

/-- The step lemma. -/
theorem Sequential.step (hP : Sequential cr P) {e : AgentEvent}
    (h₁ : OneAtATime (clients cr options fuel req (s, ([] : List AgentEvent)))
      P i)
    (hseed : SeedFresh (rejected cr) P i e.op)
    (hs : Step (logged (agentWorld env)) P i e P') {l : List AgentEvent}
    (hf : wp recorder (Follows cr) (P'.thread i)
      (fun _ l' => AllObserved l') (e :: l)) : Sequential cr P' := by
  obtain ⟨k, hk, -, hw, hlog⟩ := hs.self
  constructor
  · intro origin token hr
    rw [hlog] at hr
    rcases since_cons hr with hrej | ⟨hre, hr⟩
    · obtain ⟨q, r, he, h401, ho⟩ := isRejection_eq hrej
      obtain ⟨origin', k', ho', hp⟩ := observes_next hf he
      rw [ho] at ho'
      cases ho'
      rw [h401] at hp
      exact .inr (.inr ⟨i, r.headers, k', hp⟩)
    · rcases hP.out hr with hp | hn | ⟨j, headers, k', hj⟩
      · exact .inl (agentWorld_poisoned hw hp)
      · refine .inr (.inl fun hl => hn ?_)
        exact lookup_before hw hre (hseed.seed hr) hl
      · have hji := h₁.eq_of_call hj nofun
        subst hji
        obtain ⟨o, r⟩ := e
        rw [hj] at hk
        cases hk
        have hdrop : isDrop origin token ⟨.lock (.observeResponse origin
            (.opaqueToken token) 401 headers), r⟩ = true := by
          show (origin == origin && AgentAuthAttempt.opaqueToken token ==
            .opaqueToken token && 401 == 401) = true
          rw [beq_self_eq_true, beq_self_eq_true]
          rfl
        rcases drop_clears hw hdrop with hp | hn
        · exact .inl hp
        · refine .inr (.inl ?_)
          rw [hn]
          exact (Option.some_ne_none token).symm
  · intro j q token k' origin hj ho
    by_cases hji : j = i
    · subst hji
      have he := picked_last hf hj ho
      subst he
      obtain ⟨-, hp, -, hl⟩ := picked_from hw
      exact ⟨hp, hl⟩
    · rw [hs.frame hji] at hj
      exact absurd (h₁.eq_of_call hj nofun) hji

theorem Sequential.sends_fresh (hP : Sequential cr P) {o : AgentOp}
    {k : agentSig.Ans o → Prog agentSig (Except Halt HttpResponse)}
    (h₁ : OneAtATime (clients cr options fuel req (s, ([] : List AgentEvent)))
      P i) (hk : P.thread i = .call o k) : SendsFresh cr P i o := by
  cases o with
  | sendWrapped q attempt =>
      cases attempt with
      | opaqueToken token =>
          intro origin ho
          obtain ⟨hp, hl⟩ := hP.sending hk ho
          refine Bool.eq_false_iff.mpr fun hr => ?_
          rcases hP.out hr with hp' | hn | ⟨j, headers, k', hj⟩
          · rw [hp] at hp'
            cases hp'
          · exact hn hl
          · have hji := h₁.eq_of_call hj nofun
            subst hji
            rw [hk] at hj
            cases hj
      | _ => trivial
  | _ => trivial

/-- The run lemma. -/
theorem sequential_runs (run : SequentialSteps cr options fuel req s env t P) :
    Steps (logged (agentWorld env)) (SendsFresh cr)
      (clients cr options fuel req (s, [])) t P ∧ Sequential cr P := by
  induction run with
  | nil =>
      refine ⟨.nil, ⟨fun h => ?_, fun {i} _ _ _ _ hi _ => ?_⟩⟩
      · cases h
      · rcases handleInner_start cr options (fuel i) (req i) with
          ⟨a, he⟩ | ⟨o, k', he⟩
        · exact nomatch he.symm.trans hi
        · exact nomatch he.symm.trans hi
  | @step t P P' i e hr hg hs ih =>
      obtain ⟨hsends, hP⟩ := ih
      obtain ⟨h₁, hseed⟩ := hg
      obtain ⟨k, hk, -, -⟩ := hs.self
      have run' : SequentialSteps cr options fuel req s env ((i, e) :: t)
        P' := .step hr ⟨h₁, hseed⟩ hs
      have hf := run'.wp (i := i) handleInner_follows
      rw [proj_cons_self] at hf
      exact ⟨.step hsends (hP.sends_fresh h₁ hk) hs,
        hP.step h₁ hseed hs hf⟩

/-- A rejected opaque token is not replayed, as long as the seed is put
back nowhere where it stands rejected. However the calls are interleaved,
no token is picked of which a `401` was observed, unless a response of the
origin has carried it since; and when they come one after another, no
request is sent with a token that was answered `401`, unless a response of
the origin has carried it since. -/
theorem rejected_not_replayed :
    (∀ t P, Steps (logged (agentWorld env)) (SeedFresh dropped)
        (clients cr options fuel req (s, [])) t P →
      Steps (pickingWorld env) (fun _ _ _ => True)
        (clients cr options fuel req (s, [])) t P) ∧
    ∀ t P, SequentialSteps cr options fuel req s env t P →
      Steps (logged (agentWorld env)) (SendsFresh cr)
        (clients cr options fuel req (s, [])) t P := by
  constructor
  · intro t P run
    have h₀ : DroppedOut (s, []) := .inr fun _ _ h => nomatch h
    exact (picks_fresh h₀ run).1
  · intro t P run
    exact (sequential_runs run).1

end Sequential

namespace Sample

/-- An opaque token is rejected, anything else granted. -/
def refusing : Answers
  | _, .sendWrapped _ (.opaqueToken _) => some (.ok (bare 401))
  | _, .sendWrapped _ _ => some (.ok (bare 200))
  | _, .resourceMetadata _ => some none
  | _, _ => none

/-- Two calls over one seed. -/
def seededCalls : Pool agentSig AgentLog Bool (Except Halt HttpResponse) :=
  clients crates agentOptions (fun _ => 3) (fun _ => getRequest)
    (newAgent (some "abc"), [])

theorem refusing_world (s : AgentLog) (o : AgentOp) (r : agentSig.Ans o)
    (s' : AgentLog) (h : agentAnswer refusing 0 s o = some (r, s')) :
    logged (agentWorld refusing.rel) s o r s' := agentAnswer_world h

set_option maxRecDepth 4000 in
/-- The first call presents the seed, is rejected and goes on without it;
the second presents the seed again. -/
theorem seed_replayed : ¬ ∀ t P, Steps (logged (agentWorld refusing.rel))
      (fun P i _ => OneAtATime seededCalls P i) seededCalls t P →
    ∀ i o k, P.thread i = .call o k → SendsFresh crates P i o := by
  intro h
  have hrun : ∃ t P t' Q a k, Pool.play (agentAnswer refusing 0)
        (List.replicate 8 true) ([], seededCalls) = some (t, P) ∧
      P.thread true = .ret a ∧
      Pool.play (agentAnswer refusing 0) (List.replicate 3 false) (t, P) =
        some (t', Q) ∧
      Q.thread false =
        .call (.sendWrapped getRequest (.opaqueToken "abc")) k ∧
      rejected crates "https://r.example" "abc" Q.state.2 = true :=
    ⟨_, _, _, _, _, _, rfl, rfl, rfl, rfl, rfl⟩
  obtain ⟨t, P, t', Q, a, k, hp, ha, hq, hk, hr⟩ := hrun
  obtain ⟨u, rfl⟩ := Pool.play_trace hp
  obtain ⟨v, rfl⟩ := Pool.play_trace hq
  have hone : ∀ (i : Bool) (R R' : Pool agentSig AgentLog Bool
      (Except Halt HttpResponse)), (∀ j, j ≠ i → R.thread j =
        seededCalls.thread j ∨ ∃ a, R.thread j = .ret a) →
      (∀ j, j ≠ i → R'.thread j = R.thread j) →
      OneAtATime seededCalls R' i := by
    intro i R R' hR hR' j hj
    rw [hR' j hj]
    exact hR j hj
  obtain ⟨hrun, hP⟩ := Steps.play_one
    (G := fun P i _ => OneAtATime seededCalls P i) (C := fun _ => True)
    refusing_world (fun R _ _ hR => hone true _ R (fun _ _ => .inl rfl) hR)
    .nil hp fun _ _ => trivial
  obtain ⟨hrun, -⟩ := Steps.play_one
    (G := fun P i _ => OneAtATime seededCalls P i) (C := fun _ => True)
    refusing_world (fun R _ _ hR => hone false _ R (fun j hj => by
      cases j with
      | true => exact .inr ⟨a, ha⟩
      | false => exact absurd rfl hj) hR) hrun hq fun _ _ => trivial
  have hfresh := h _ Q hrun false _ k hk "https://r.example" rfl
  rw [hr] at hfresh
  cases hfresh

/-- What the first call does after its seed. -/
def callsAfterSeed : List AgentOp :=
  [.lock (.observeResponse "https://r.example" .agentSigned 200 .empty),
    .sendWrapped getRequest .agentSigned,
    .lock (.nextAttempt "https://r.example"),
    .lock (.observeResponse "https://r.example" (.opaqueToken "abc") 401
      .empty),
    .sendWrapped getRequest (.opaqueToken "abc"),
    .lock (.nextAttempt "https://r.example"),
    .lock (.beginAuthorizeAttempt "https://r.example")]

theorem callsAfterSeed_no_seed {o : AgentOp} (ho : o ∈ callsAfterSeed)
    (origin : String) : o ≠ .lock (.seedOpaque origin) := by
  simp only [callsAfterSeed, List.mem_cons, List.not_mem_nil, or_false] at ho
  intro he
  rw [he] at ho
  rcases ho with h | h | h | h | h | h | h <;> cases h

set_option maxRecDepth 4000 in
/-- The first of the two calls, whose seed is fresh. -/
theorem rejected_not_replayed_first : ∃ t P,
    Steps (logged (agentWorld refusing.rel)) (SendsFresh crates) seededCalls
      t P ∧
    rejected crates "https://r.example" "abc" P.state.2 = true ∧
    ∃ a, P.thread true = .ret a := by
  have hrun : ∃ e P₁ t P a, Step (logged (agentWorld refusing.rel))
        seededCalls true e P₁ ∧
      e.op = .lock (.seedOpaque "https://r.example") ∧
      Pool.play (agentAnswer refusing 0) (List.replicate 7 true)
        ([(true, e)], P₁) = some (t, P) ∧
      t.map (·.2.op) = callsAfterSeed ++ [e.op] ∧
      rejected crates "https://r.example" "abc" P.state.2 = true ∧
      P.thread true = .ret a :=
    ⟨_, _, _, _, _, .mk rfl (refusing_world _ _ _ _ rfl), rfl, rfl, rfl, rfl,
      rfl⟩
  obtain ⟨e, P₁, t, P, a, hs, he, hp, ht, hr, ha⟩ := hrun
  obtain ⟨u, rfl⟩ := Pool.play_trace hp
  rw [List.map_append] at ht
  have hu : u.map (·.2.op) = callsAfterSeed := List.append_cancel_right ht
  have hg : SeedFresh (rejected crates) seededCalls true e.op := by
    rw [he]
    intro seed _ _
    rfl
  have hone : OneAtATime seededCalls seededCalls true :=
    fun _ _ => .inl rfl
  have run : SequentialSteps crates agentOptions (fun _ => 3)
      (fun _ => getRequest) (newAgent (some "abc")) refusing.rel [(true, e)]
      P₁ := .step .nil ⟨hone, hg⟩ hs
  have hall := Steps.play_one
    (C := fun o => ∀ origin, o ≠ AgentOp.lock (.seedOpaque origin))
    refusing_world
    (fun R o ho hR => ⟨fun j hj => .inl ((hR j hj).trans (hs.frame hj)), by
      cases o with
      | lock op =>
          cases op with
          | seedOpaque origin => exact absurd rfl (ho origin)
          | _ => trivial
      | _ => trivial⟩) run hp fun d hd => by
        refine callsAfterSeed_no_seed ?_
        rw [← hu]
        exact List.mem_map_of_mem hd
  exact ⟨_, P, rejected_not_replayed.2 _ _ hall.1, hr, a, ha⟩

end Sample

end Aauth
