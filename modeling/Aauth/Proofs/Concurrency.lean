import Aauth.Proofs.Expiry
import Aauth.Proofs.PersonPaths

/-!
# Settling calls that overlap

Any number of `resume_pending` and `resolve_interaction_callback` calls on
one request, interleaved between any two of their effects. A call loads a
record, waits for the policy or an Access Server, and then writes over
whatever is stored by that time, so two calls may each grant. What does
hold is said for the runs in which a call writes only over a record that
still waits, and obtains a token only while no other call has one to
store.
-/

namespace Aauth

open Effect

section Pools

variable {E ι : Type} {cr : Crates} {config : PersonServerConfig}
  {id : String}

abbrev SettlePool (E ι : Type) :=
  Pool (personSig E) (ServiceState PersonPendingContext) ι (FlowReply E)

/-- A call that may settle the request under `id`. -/
inductive SettleCall (cr : Crates) (config : PersonServerConfig)
    (id : String) : Prog (personSig E) (FlowReply E) → Prop where
  | resumePending {input : PendingInput} :
      SettleCall cr config id (resumePending cr config id input).run
  | resolveInteractionCallback {err : Option String} :
      SettleCall cr config id
        (resolveInteractionCallback cr config id err).run

theorem SettleCall.path {p : Prog (personSig E) (FlowReply E)}
    (h : SettleCall cr config id p) :
    wp recorder (SettleOp id) p (SettleReply id) [] := by
  cases h with
  | resumePending => exact resumePending_path fun h => h
  | resolveInteractionCallback =>
      exact resolveInteractionCallback_path fun h => h

/-! ## Tokens in flight -/

/-- The next call of the program stores a token under `id`. -/
def AtToken (id : String) (p : Prog (personSig E) (FlowReply E)) : Prop :=
  ∃ body k, p = .call (.store (.complete id (.authToken body))) k

/-- No call begins with storing a token. -/
theorem SettleCall.not_atToken {p : Prog (personSig E) (FlowReply E)}
    (h : SettleCall cr config id p) : ¬ AtToken id p := by
  rintro ⟨body, k, rfl⟩
  obtain ⟨-, e, l', hl, -⟩ := h.path.1
  cases hl

/-- The outcome that the event stored. -/
def PersonEvent.completion : PersonEvent E → Option PendingOutcome
  | ⟨.store (.complete _ o), _⟩ => some o
  | _ => none

/-- The event minted a token. -/
def PersonEvent.mints : PersonEvent E → Bool
  | ⟨.ext (.mintPersonAuthJwt _ _ _ _ _ _), answer⟩ =>
      (answer : AAuthResult String).isOk
  | _ => false

/-- The outcomes that were stored in a run, and by which call. -/
def completions (t : List (ι × PersonEvent E)) :
    List (ι × PendingOutcome) :=
  t.filterMap fun e => (PersonEvent.completion e.2).map (e.1, ·)

/-- How many tokens were minted in a run. -/
def mintCount (t : List (ι × PersonEvent E)) : Nat :=
  t.countP fun e => PersonEvent.mints e.2

/-- Call `i` obtained a token, minted or checked: it is about to store it,
or did. -/
def HasToken (id : String) (t : List (ι × PersonEvent E))
    (P : SettlePool E ι) (i : ι) : Prop :=
  AtToken id (P.thread i) ∨ ∃ body, (i, .authToken body) ∈ completions t

section Program

variable {p : Prog (personSig E) (FlowReply E)} {l : List (PersonEvent E)}
  {e : PersonEvent E}

/-- After a mint there is nothing to do but store the token. -/
theorem atToken_of_mints (he : PersonEvent.mints e = true)
    (h : wp recorder (SettleOp id) p (SettleReply id) (e :: l)) :
    AtToken id p := by
  obtain ⟨o, answer⟩ := e
  have hloaded : Loaded (⟨o, answer⟩ :: l) ∧
      ∀ body, ¬ ∃ l', (⟨o, answer⟩ :: l : List (PersonEvent E)) =
        ⟨.store (.complete id body), .ok ()⟩ :: l' := by
    cases o with
    | store _ | now | pendingIdBytes => cases he
    | ext o =>
        cases o with
        | mintPersonAuthJwt iss aud agent agentJwk sub scope =>
            refine ⟨?_, fun body ⟨l', h⟩ => by cases h⟩
            cases answer with
            | error _ => cases he
            | ok jwt => exact ⟨jwt, rfl⟩
        | _ => cases he
  obtain ⟨hl, hne⟩ := hloaded
  cases p with
  | ret reply =>
      cases reply with
      | error _ => exact absurd hl h
      | ok reply =>
          cases reply with
          | granted _ | denied _ => exact absurd h (hne _)
          | deferred _ | gone | unauthorized | badGateway =>
              exact absurd hl h
  | call o' k =>
      obtain ⟨ho, -⟩ := h
      cases o' with
      | store o' =>
          cases o' with
          | complete id' outcome =>
              cases outcome with
              | authToken body =>
                  obtain ⟨rfl, -⟩ := ho
                  exact ⟨body, k, rfl⟩
              | opaqueAccess _ => exact ho.elim
              | error _ => exact absurd hl ho.2
          | load _ | remove _ => exact absurd hl ho.2
          | save _ _ =>
              obtain ⟨-, r₀, l', heq, -⟩ := ho
              rw [heq] at hl
              exact hl.elim
          | create _ | findIf _ => exact ho.elim
      | now | ext _ => exact absurd hl ho
      | pendingIdBytes => exact ho.elim

/-- A token is about to be stored right after it was obtained, and that was
no store. -/
theorem AtToken.completion (ht : AtToken id p)
    (h : wp recorder (SettleOp id) p (SettleReply id) (e :: l)) :
    PersonEvent.completion e = none := by
  obtain ⟨body, k, rfl⟩ := ht
  obtain ⟨-, d, l', heq, hd⟩ := h.1
  cases heq
  obtain ⟨o, answer⟩ := e
  cases o with
  | store _ | now | pendingIdBytes => exact hd.elim
  | ext _ => rfl

end Program

/-! ## The condition on a step -/

variable {env : (o : PersonOp) → personExt.Ans o → Prop}
  {clock : Nat → Prop}

/-- The request is there and waits. -/
def Waits (id : String) (s : ServiceState PersonPendingContext) : Prop :=
  ∃ r, s.records.lookup id = some r ∧
    ∃ status requirement, r.snapshot = .waiting status requirement

/-- Call `i` may make its next call `o` without disturbing the others. -/
structure Undisturbed (env : (o : PersonOp) → personExt.Ans o → Prop)
    (clock : Nat → Prop) (id : String) (P : SettlePool E ι) (i : ι)
    (o : (personSig E).Op) : Prop where
  /-- A token is obtained for a request that waits, and while no other call
  has one to store. -/
  token : ∀ k r s', P.thread i = .call o k →
    serviceWorld env clock P.state o r s' → AtToken id (k r) →
    Waits id P.state ∧ ∀ j, j ≠ i → ¬ AtToken id (P.thread j)
  /-- An outcome is stored for a request that waits. -/
  complete : ∀ outcome, o = .store (.complete id outcome) →
    Waits id P.state
  /-- A record is saved over one that waits. -/
  save : ∀ r, o = .store (.save id r) → Waits id P.state
  /-- What is removed waits, or has expired. -/
  remove : o = .store (.remove id) → Waits id P.state ∨
    ∀ r, P.state.records.lookup id = some r →
      ∃ now, clock now ∧ r.isExpired now = true

/-! ## What a step does to the record -/

/-- What one effect of a settling call, made after those of `l`, does to
the record under `id`. -/
inductive Effected (id : String) (s : ServiceState PersonPendingContext)
    (l : List (PersonEvent E)) :
    PersonEvent E → ServiceState PersonPendingContext → Prop where
  | kept {e : PersonEvent E} : PersonEvent.completion e = none →
      (∀ r, e = ⟨.store (.load id), .ok (some r)⟩ →
        s.records.lookup id = some r) → Effected id s l e s
  | saved {r r₁ : PersonPendingRecord} {l' : List (PersonEvent E)}
      {answer : Except E Unit} {s' : ServiceState PersonPendingContext} :
      l = ⟨.store (.load id), .ok (some r₁)⟩ :: l' →
      r.expiresAt = r₁.expiresAt →
      s'.records = s.records.insert id r →
      Effected id s l ⟨.store (.save id r), answer⟩ s'
  | removed {answer : Except E Unit}
      {s' : ServiceState PersonPendingContext} :
      s'.records = s.records.erase id →
      Effected id s l ⟨.store (.remove id), answer⟩ s'
  | completed {o : PendingOutcome} {answer : Except E Unit}
      {s' : ServiceState PersonPendingContext} :
      s'.records = completed s.records id o →
      Effected id s l ⟨.store (.complete id o), answer⟩ s'

theorem effected_of_step {s s' : ServiceState PersonPendingContext}
    {l : List (PersonEvent E)} {e : PersonEvent E}
    (ho : SettleOp id l e.op)
    (hw : serviceWorld env clock s e.op e.ans s') :
    Effected id s l e s' := by
  obtain ⟨o, answer⟩ := e
  cases o with
  | now | ext _ =>
      obtain ⟨-, rfl⟩ := hw
      refine .kept rfl fun r he => ?_
      have ho := congrArg Event.op he
      cases ho
  | pendingIdBytes => exact ho.elim
  | store o =>
      obtain ⟨hw, hi⟩ := hw
      cases o with
      | create _ | findIf _ => exact ho.elim
      | load id' =>
          obtain ⟨rfl, -⟩ := ho
          obtain ⟨ha, hm⟩ := hw
          have hs : s' = s := by
            cases s
            cases s'
            cases hm
            cases hi
            rfl
          subst hs
          refine .kept rfl fun r he => ?_
          cases he
          exact (Except.ok.inj ha).symm
      | save id' r =>
          obtain ⟨rfl, r₁, l', hl, hr⟩ := ho
          exact .saved hl hr hw.2
      | remove id' =>
          obtain ⟨rfl, -⟩ := ho
          exact .removed hw.2
      | complete id' outcome =>
          have hid : id' = id := by
            cases outcome with
            | authToken _ | error _ => exact ho.1
            | opaqueAccess _ => exact ho.elim
          subst hid
          exact .completed hw.2

/-! ## The invariant -/

/-- The stored outcome of the request is `o`, or the request expired and
was removed. -/
def Stays (clock : Nat → Prop) (r₀ : PersonPendingRecord) (id : String)
    (o : PendingOutcome) (s : ServiceState PersonPendingContext) : Prop :=
  Completed s id o ∨ s.records.lookup id = none ∧
    ∃ now, clock now ∧ r₀.isExpired now = true

/-- What holds of a run of calls that leave each other undisturbed, from a
request that was stored as `r₀`. -/
structure SettledOnce (clock : Nat → Prop) (r₀ : PersonPendingRecord)
    (id : String) (t : List (ι × PersonEvent E)) (P : SettlePool E ι) :
    Prop where
  expiry : ∀ r, P.state.records.lookup id = some r →
    r.expiresAt = r₀.expiresAt
  loaded : ∀ i r, (i, ⟨.store (.load id), .ok (some r)⟩) ∈ t →
    r.expiresAt = r₀.expiresAt
  stored : completions t = [] ∨ ∃ i o, completions t = [(i, o)] ∧
    Stays clock r₀ id o P.state
  holders : ∀ i j, HasToken id t P i → HasToken id t P j → i = j
  minted : mintCount t ≤ 1 ∧ (mintCount t ≠ 0 → ∃ i, HasToken id t P i)

section Step

variable {r₀ : PersonPendingRecord} {t : List (ι × PersonEvent E)}
  {P P' : SettlePool E ι} {i : ι} {e : PersonEvent E}

theorem completions_cons_none (h : PersonEvent.completion e = none) :
    completions ((i, e) :: t) = completions t := by
  simp [completions, h]

theorem completions_cons_some {o : PendingOutcome}
    (h : PersonEvent.completion e = some o) :
    completions ((i, e) :: t) = (i, o) :: completions t := by
  simp [completions, h]

theorem mem_completions_of_mem {j : ι} {o : PendingOutcome}
    (h : (j, o) ∈ completions t) : (j, o) ∈ completions ((i, e) :: t) := by
  cases hc : PersonEvent.completion e with
  | none =>
      rw [completions_cons_none hc]
      exact h
  | some o' =>
      rw [completions_cons_some hc]
      exact List.mem_cons_of_mem _ h

/-- Nothing was stored for a request that waits. -/
theorem SettledOnce.unsettled (h : SettledOnce clock r₀ id t P)
    (hw : Waits id P.state) : completions t = [] := by
  obtain ⟨r, hl, status, requirement, hr⟩ := hw
  rcases h.stored with h | ⟨i, o, -, ⟨r', hl', hr'⟩ | ⟨hl', -⟩⟩
  · exact h
  · cases hl.symm.trans hl'
    cases hr.symm.trans hr'
  · cases hl.symm.trans hl'

variable [DecidableEq ι]

/-- The record and what is stored in it, after a step. -/
theorem SettledOnce.stored_step (h : SettledOnce clock r₀ id t P)
    (hg : Undisturbed env clock id P i e.op)
    (he : Effected id P.state (proj i t) e P'.state) :
    (∀ r, P'.state.records.lookup id = some r →
      r.expiresAt = r₀.expiresAt) ∧
    (∀ j r, (j, ⟨.store (.load id), .ok (some r)⟩) ∈ (i, e) :: t →
      r.expiresAt = r₀.expiresAt) ∧
    (completions ((i, e) :: t) = [] ∨ ∃ j o,
      completions ((i, e) :: t) = [(j, o)] ∧
        Stays clock r₀ id o P'.state) := by
  generalize hs : P'.state = s' at he ⊢
  cases he with
  | kept hc hload =>
      refine ⟨h.expiry, fun j r hm => ?_, ?_⟩
      · rcases List.mem_cons.mp hm with heq | hm
        · cases heq
          exact h.expiry r (hload r rfl)
        · exact h.loaded j r hm
      · rw [completions_cons_none hc]
        exact h.stored
  | @saved r r₁ l' answer _ hl hr hm =>
      have hr₁ : r₁.expiresAt = r₀.expiresAt := by
        refine h.loaded i r₁ (mem_proj.mp ?_)
        rw [hl]
        exact List.mem_cons_self
      have hc : completions ((i, (⟨.store (.save id r), answer⟩ :
          PersonEvent E)) :: t) = [] := by
        rw [completions_cons_none rfl]
        exact h.unsettled (hg.save r rfl)
      refine ⟨fun r' hl' => ?_, fun j r' hm' => ?_, .inl hc⟩
      · rw [hm, AList.lookup_insert] at hl'
        cases hl'
        exact hr.trans hr₁
      · rcases List.mem_cons.mp hm' with heq | hm'
        · have ho := congrArg (fun q => q.2.op) heq
          cases ho
        · exact h.loaded j r' hm'
  | @removed answer _ hm =>
      have hnone : s'.records.lookup id = none := by
        rw [hm, AList.lookup_erase]
      refine ⟨fun r hl => ?_, fun j r hm' => ?_, ?_⟩
      · cases hnone.symm.trans hl
      · rcases List.mem_cons.mp hm' with heq | hm'
        · have ho := congrArg (fun q => q.2.op) heq
          cases ho
        · exact h.loaded j r hm'
      · rw [completions_cons_none rfl]
        rcases hg.remove rfl with hw | hexp
        · exact .inl (h.unsettled hw)
        · rcases h.stored with hc | ⟨j, o, hc, ⟨r, hl, -⟩ | ⟨-, hx⟩⟩
          · exact .inl hc
          · obtain ⟨now, hnow, hx⟩ := hexp r hl
            refine .inr ⟨j, o, hc, .inr ⟨hnone, now, hnow, ?_⟩⟩
            rw [PendingRecord.isExpired, ← h.expiry r hl]
            exact hx
          · exact .inr ⟨j, o, hc, .inr ⟨hnone, hx⟩⟩
  | @completed o answer _ hm =>
      have hw := hg.complete o rfl
      have hc := h.unsettled hw
      obtain ⟨r, hl, -⟩ := hw
      rw [completed_of_lookup hl] at hm
      refine ⟨fun r' hl' => ?_, fun j r' hm' => ?_, .inr ⟨i, o, ?_, ?_⟩⟩
      · rw [hm, AList.lookup_insert] at hl'
        cases hl'
        exact h.expiry r hl
      · rcases List.mem_cons.mp hm' with heq | hm'
        · have ho := congrArg (fun q => q.2.op) heq
          cases ho
        · exact h.loaded j r' hm'
      · rw [completions_cons_some rfl, hc]
      · refine .inl ⟨{ r with snapshot := .complete o }, ?_, rfl⟩
        rw [hm]
        exact AList.lookup_insert _

/-- A call that has a token to store, stores it next. -/
theorem AtToken.stores {p : Prog (personSig E) (FlowReply E)}
    {k : (personSig E).Ans e.op → Prog (personSig E) (FlowReply E)}
    (h : AtToken id p) (hk : p = .call e.op k) :
    ∃ body, PersonEvent.completion e = some (.authToken body) := by
  obtain ⟨body, k', rfl⟩ := h
  obtain ⟨o, answer⟩ := e
  injection hk with ho
  cases ho
  exact ⟨body, rfl⟩

theorem Effected.op {s s' : ServiceState PersonPendingContext}
    {l : List (PersonEvent E)} {o : PendingOutcome}
    (h : Effected id s l e s') (hc : PersonEvent.completion e = some o) :
    e.op = .store (.complete id o) := by
  cases h with
  | kept hn _ => cases hn.symm.trans hc
  | saved _ _ _ | removed _ => cases hc
  | completed _ =>
      cases hc
      rfl

/-- Whoever had a token before a step has it after. -/
theorem HasToken.step {j : ι} (h : HasToken id t P j)
    (hs : Effect.Step (serviceWorld env clock) P i e P') :
    HasToken id ((i, e) :: t) P' j := by
  rcases h with h | ⟨body, h⟩
  · by_cases hj : j = i
    · subst hj
      obtain ⟨k, hk, -, -⟩ := hs.self
      obtain ⟨body, hc⟩ := h.stores hk
      refine .inr ⟨body, ?_⟩
      rw [completions_cons_some hc]
      exact List.mem_cons_self
    · rw [HasToken, hs.frame hj]
      exact .inl h
  · exact .inr ⟨body, mem_completions_of_mem h⟩

/-- Whoever has a token after a step had it before, or obtained it in the
step. -/
theorem HasToken.of_step {j : ι} (h : HasToken id ((i, e) :: t) P' j)
    (hs : Effect.Step (serviceWorld env clock) P i e P')
    (he : Effected id P.state (proj i t) e P'.state)
    (hat : ¬ AtToken id (P'.thread i)) : HasToken id t P j := by
  rcases h with h | ⟨body, h⟩
  · by_cases hj : j = i
    · rw [hj] at h
      exact absurd h hat
    · rw [hs.frame hj] at h
      exact .inl h
  · cases hc : PersonEvent.completion e with
    | none =>
        rw [completions_cons_none hc] at h
        exact .inr ⟨body, h⟩
    | some o =>
        rw [completions_cons_some hc] at h
        rcases List.mem_cons.mp h with heq | h
        · cases heq
          obtain ⟨k, hk, -, -⟩ := hs.self
          have ho := he.op hc
          revert k
          rw [ho]
          intro k hk
          exact .inl ⟨body, k, hk⟩
        · exact .inr ⟨body, h⟩

/-- The tokens that are obtained, after a step. -/
theorem SettledOnce.tokens_step (h : SettledOnce clock r₀ id t P)
    (hg : Undisturbed env clock id P i e.op)
    (hs : Effect.Step (serviceWorld env clock) P i e P')
    (he : Effected id P.state (proj i t) e P'.state)
    (hp : wp recorder (SettleOp id) (P'.thread i) (SettleReply id)
      (e :: proj i t)) :
    (∀ j k, HasToken id ((i, e) :: t) P' j → HasToken id ((i, e) :: t) P' k →
      j = k) ∧
    mintCount ((i, e) :: t) ≤ 1 ∧ (mintCount ((i, e) :: t) ≠ 0 →
      ∃ j, HasToken id ((i, e) :: t) P' j) := by
  by_cases hat : AtToken id (P'.thread i)
  · -- the step obtains a token, so nobody had one
    have hc := hat.completion hp
    obtain ⟨k, hk, hk', hw⟩ := hs.self
    obtain ⟨hwaits, hothers⟩ := hg.token k e.ans P'.state hk hw (hk' ▸ hat)
    have hnone : ∀ j, ¬ HasToken id t P j := by
      rintro j (hj | ⟨body, hj⟩)
      · by_cases hji : j = i
        · subst hji
          obtain ⟨body, hc'⟩ := hj.stores hk
          cases hc.symm.trans hc'
        · exact hothers j hji hj
      · rw [h.unsettled hwaits] at hj
        cases hj
    have honly : ∀ {j}, HasToken id ((i, e) :: t) P' j → j = i := by
      rintro j (hj | ⟨body, hj⟩)
      · by_contra hne
        rw [hs.frame hne] at hj
        exact hothers j hne hj
      · rw [completions_cons_none hc] at hj
        exact absurd (.inr ⟨body, hj⟩) (hnone j)
    have hzero : mintCount t = 0 := by
      by_contra hne
      obtain ⟨j, hj⟩ := h.minted.2 hne
      exact hnone j hj
    refine ⟨fun j k hj hk => (honly hj).trans (honly hk).symm, ?_,
      fun _ => ⟨i, .inl hat⟩⟩
    rw [mintCount, List.countP_cons, ← mintCount, hzero]
    split <;> omega
  · have hm : PersonEvent.mints e = false := by
      rw [← Bool.not_eq_true]
      exact fun hm => hat (atToken_of_mints hm hp)
    have hcount : mintCount ((i, e) :: t) = mintCount t := by
      simp [mintCount, hm]
    refine ⟨fun j k hj hk => h.holders j k (hj.of_step hs he hat)
      (hk.of_step hs he hat), hcount ▸ h.minted.1, fun hne => ?_⟩
    rw [hcount] at hne
    obtain ⟨j, hj⟩ := h.minted.2 hne
    exact ⟨j, hj.step hs⟩

end Step

/-- Calls that leave each other undisturbed settle a request once. -/
theorem settledOnce_of_steps [DecidableEq ι] {r₀ : PersonPendingRecord}
    {t : List (ι × PersonEvent E)} {P₀ P : SettlePool E ι}
    (hcalls : ∀ i, SettleCall cr config id (P₀.thread i))
    (hl : P₀.state.records.lookup id = some r₀)
    (run : Steps (serviceWorld env clock)
      (fun P i o => Undisturbed env clock id P i o) P₀ t P) :
    SettledOnce clock r₀ id t P := by
  refine run.induction (I := SettledOnce clock r₀ id) ?_ ?_
  · refine ⟨fun r hr => ?_, fun i r hm => absurd hm List.not_mem_nil,
      .inl rfl, fun i j hi => ?_, Nat.zero_le 1, fun h => absurd rfl h⟩
    · cases hl.symm.trans hr
      rfl
    · rcases hi with hi | ⟨_, hi⟩
      · exact absurd hi (hcalls i).not_atToken
      · cases hi
  · intro t P i e P' run ih hg hs
    have hp := (Steps.step run hg hs).wp (hcalls i).path
    rw [proj_cons_self] at hp
    obtain ⟨k, hk, -, hw⟩ := hs.self
    have hop : SettleOp id (proj i t) e.op := by
      have hp := run.wp (hcalls i).path
      rw [hk] at hp
      exact hp.1
    have he := effected_of_step hop hw
    obtain ⟨hexp, hload, hstored⟩ := ih.stored_step hg he
    obtain ⟨hholders, hminted⟩ := ih.tokens_step hg hs he hp
    exact ⟨hexp, hload, hstored, hholders, hminted⟩

/-! ## One outcome -/

/-- At most one call grants, for at most one token, and after a denial
none does and the denial stays. -/
structure OneOutcome (clock : Nat → Prop) (r₀ : PersonPendingRecord)
    (id : String) (t : List (ι × PersonEvent E)) (P : SettlePool E ι) :
    Prop where
  granted : ∀ i j body body', P.thread i = .ret (.ok (.granted body)) →
    P.thread j = .ret (.ok (.granted body')) → i = j
  obtained : ∀ i j, HasToken id t P i → HasToken id t P j → i = j
  minted : mintCount t ≤ 1
  stored : (completions t).length ≤ 1
  denied : ∀ i e, P.thread i = .ret (.ok (.denied e)) →
    (∀ j body, P.thread j ≠ .ret (.ok (.granted body))) ∧
      Stays clock r₀ id (.error e) P.state

/-- The outcome a call returns with is one it stored. -/
theorem mem_completions_of_proj [DecidableEq ι]
    {t : List (ι × PersonEvent E)} {i : ι} {o : PendingOutcome}
    {answer : Except E Unit} {l : List (PersonEvent E)}
    (h : proj i t = ⟨.store (.complete id o), answer⟩ :: l) :
    (i, o) ∈ completions t := by
  have hm : (⟨.store (.complete id o), answer⟩ : PersonEvent E) ∈
      proj i t := by
    rw [h]
    exact List.mem_cons_self
  exact List.mem_filterMap.mpr ⟨_, mem_proj.mp hm, rfl⟩

/-- Any number of settling calls on one waiting request, interleaved in
any way in which they leave each other undisturbed. -/
theorem settles_once [DecidableEq ι] {r₀ : PersonPendingRecord}
    {t : List (ι × PersonEvent E)} {P₀ P : SettlePool E ι}
    (hcalls : ∀ i, SettleCall cr config id (P₀.thread i))
    (hl : P₀.state.records.lookup id = some r₀)
    (run : Steps (serviceWorld env clock)
      (fun P i o => Undisturbed env clock id P i o) P₀ t P) :
    OneOutcome clock r₀ id t P := by
  have h := settledOnce_of_steps hcalls hl run
  have hgranted : ∀ i body, P.thread i = .ret (.ok (.granted body)) →
      (i, .authToken body) ∈ completions t := by
    intro i body hi
    have hp := run.wp (hcalls i).path
    rw [hi] at hp
    obtain ⟨l, hl⟩ := hp
    exact mem_completions_of_proj hl
  refine ⟨fun i j body body' hi hj => ?_, h.holders, h.minted.1, ?_,
    fun i e hi => ?_⟩
  · exact h.holders i j (.inr ⟨body, hgranted i body hi⟩)
      (.inr ⟨body', hgranted j body' hj⟩)
  · rcases h.stored with hc | ⟨_, _, hc, -⟩
    · rw [hc]
      exact Nat.zero_le 1
    · rw [hc]
      exact Nat.le_refl 1
  · have hp := run.wp (hcalls i).path
    rw [hi] at hp
    obtain ⟨l, hl⟩ := hp
    have hm := mem_completions_of_proj hl
    rcases h.stored with hc | ⟨j, o, hc, hstays⟩
    · rw [hc] at hm
      cases hm
    · rw [hc] at hm
      cases List.mem_singleton.mp hm
      refine ⟨fun k body hk => ?_, hstays⟩
      have hm' := hgranted k body hk
      rw [hc] at hm'
      cases List.mem_singleton.mp hm'

end Pools

/-! ## At the sample parties -/

namespace Sample

/-- Two calls that bring the same request on. -/
def overlapping : SettlePool Empty Bool where
  state := asked
  thread _ := (resumePending crates personConfig firstId
    .interactionCompleted).run

theorem overlapping_calls (i : Bool) :
    SettleCall crates personConfig firstId (overlapping.thread i) :=
  .resumePending

theorem waits_asked : Waits firstId asked :=
  ⟨askedRecord, lookup_asked, _, _, rfl⟩

abbrev LenientSteps := Steps (S := personSig Empty) (ι := Bool)
  (serviceWorld lenientEnv (· = now))
  (fun P i o => Undisturbed lenientEnv (· = now) firstId P i o) overlapping

/-- The pool when only the first call has moved, and stored nothing. -/
def alone (p : Prog (personSig Empty) (FlowReply Empty)) :
    SettlePool Empty Bool :=
  ⟨asked, Function.update overlapping.thread false p⟩

theorem alone_undisturbed {p : Prog (personSig Empty) (FlowReply Empty)}
    {o : (personSig Empty).Op} :
    Undisturbed lenientEnv (· = now) firstId (alone p) false o := by
  have hothers : ∀ j, j ≠ false →
      ¬ AtToken firstId ((alone p).thread j) := by
    intro j hj
    show ¬ AtToken firstId (Function.update overlapping.thread false p j)
    rw [Function.update_of_ne hj]
    exact (overlapping_calls j).not_atToken
  exact ⟨fun _ _ _ _ _ _ => ⟨waits_asked, hothers⟩, fun _ _ => waits_asked,
    fun _ _ => waits_asked, fun _ => .inl waits_asked⟩

theorem alone_step {t : List (Bool × PersonEvent Empty)}
    {p : Prog (personSig Empty) (FlowReply Empty)}
    {o : (personSig Empty).Op}
    {k : (personSig Empty).Ans o → Prog (personSig Empty) (FlowReply Empty)}
    {r : (personSig Empty).Ans o} {u : ServiceState PersonPendingContext}
    (run : LenientSteps t (alone p)) (hp : p = .call o k)
    (hw : serviceWorld lenientEnv (· = now) asked o r u) :
    LenientSteps ((false, ⟨o, r⟩) :: t)
      ⟨u, Function.update overlapping.thread false (k r)⟩ := by
  have hthread : (alone p).thread false = .call o k := by
    show Function.update overlapping.thread false p false = .call o k
    rw [Function.update_self, hp]
  have hs := run.step alone_undisturbed (.mk hthread hw)
  rw [alone, Function.update_idem] at hs
  exact hs

/-- The first call runs to its end before the second starts. -/
theorem first_alone : ∃ t P, LenientSteps t P ∧
    P.thread false = .ret (.ok (.granted grantedBody)) := by
  have h₀ : LenientSteps [] (alone (overlapping.thread false)) := by
    rw [alone, Function.update_eq_self]
    exact .nil
  have h₁ := alone_step (o := .store (.load firstId))
    (r := .ok (some askedRecord)) (u := asked) h₀ rfl ⟨⟨rfl, rfl⟩, rfl⟩
  have h₂ := alone_step (o := .now) (r := now) (u := asked) h₁ rfl
    ⟨rfl, rfl⟩
  have h₃ := alone_step
    (o := .ext (.resume plainContext.toTokenContext .interactionCompleted))
    (r := .ok (.grant { sub := "user-1", scope := none })) (u := asked) h₂
    rfl ⟨rfl, rfl⟩
  have h₄ := alone_step (o := .ext (.mintPersonAuthJwt personServer resource
      bot.identifier bot.cnf.jwk (some "user-1") none))
    (r := .ok grantedBody.authToken) (u := asked) h₃ rfl ⟨rfl, rfl⟩
  have h₅ := alone_step
    (o := .store (.complete firstId (.authToken grantedBody))) (r := .ok ())
    (u := ended (.authToken grantedBody)) h₄ rfl ⟨⟨rfl, rfl⟩, rfl⟩
  exact ⟨_, _, h₅, rfl⟩

theorem settles_once_alone : ∃ t P, LenientSteps t P ∧
    P.thread false = .ret (.ok (.granted grantedBody)) ∧
    OneOutcome (· = now) askedRecord firstId t P := by
  obtain ⟨t, P, run, hP⟩ := first_alone
  exact ⟨t, P, run, hP, settles_once overlapping_calls lookup_asked run⟩

/-- The two calls take turns. -/
def alternating : List Bool :=
  [false, true, false, true, false, true, false, true, false, true]

def lenientAnswer : ServiceState PersonPendingContext →
    (o : (personSig Empty).Op) →
      Option ((personSig Empty).Ans o × ServiceState PersonPendingContext) :=
  answer (personAnswer (.defer .approval) lenient) now

theorem alternating_plays :
    ∃ t P, Pool.play lenientAnswer alternating ([], overlapping) =
        some (t, P) ∧
      P.thread false = .ret (.ok (.granted grantedBody)) ∧
      P.thread true = .ret (.ok (.granted grantedBody)) := by
  refine ⟨_, _, rfl, ?_, ?_⟩ <;> rfl

/-- Both calls load the waiting request before either settles it, and
both grant. -/
theorem settled_twice : ∃ t P,
    Steps (serviceWorld lenientEnv (· = now)) (fun _ _ _ => True)
      overlapping t P ∧
    (∀ i, SettleCall crates personConfig firstId (overlapping.thread i)) ∧
    overlapping.state.records.lookup firstId = some askedRecord ∧
    ¬ OneOutcome (· = now) askedRecord firstId t P := by
  obtain ⟨t, P, hplay, hf, ht⟩ := alternating_plays
  refine ⟨t, P, Steps.play answer_sound .nil hplay, overlapping_calls,
    lookup_asked, fun h => ?_⟩
  cases h.granted false true grantedBody grantedBody hf ht

end Sample

end Aauth
