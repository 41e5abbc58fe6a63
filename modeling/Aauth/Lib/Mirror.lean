import Aauth.Lib.Pool

/-!
# Runs that two states have in common

Two states are alike for a set of calls when whatever a call of the set is
answered in the one it may be answered in the other, and they stay alike.
A pool whose threads make only such calls then runs from either state in
the same way: the same schedules, the same answers, the same replies. Which
calls a thread makes depends on what it was answered before, so the set is
stated beside what the answers are known to be (`Asks`).
-/

namespace Effect

variable {S : Sig} {σ τ α β ε ι : Type}

/-! ## What a program asks -/

/-- The world that remembers nothing and answers as `A` allows. -/
def oracle (A : (o : S.Op) → S.Ans o → Prop) : World S Unit :=
  fun _ o r _ => A o r

/-- As long as it is answered as `A` allows, `p` makes only calls of `C`. -/
def Asks (A : (o : S.Op) → S.Ans o → Prop) (C : S.Op → Prop)
    (p : Prog S α) : Prop :=
  wp (oracle A) (fun _ => C) p (fun _ _ => True) ()

section Asks

variable {A : (o : S.Op) → S.Ans o → Prop} {C : S.Op → Prop}

theorem asks_ret {a : α} : Asks A C (.ret a : Prog S α) := trivial

theorem asks_call {o : S.Op} {k : S.Ans o → Prog S α} :
    Asks A C (.call o k) ↔ C o ∧ ∀ r, A o r → Asks A C (k r) :=
  and_congr_right fun _ => forall_congr' fun _ =>
    ⟨fun h ha => h () ha, fun h _ ha => h ha⟩

theorem Asks.bind {p : Prog S α} {f : α → Prog S β} (hp : Asks A C p)
    (hf : ∀ a, Asks A C (f a)) : Asks A C (p >>= f) :=
  wp_bind.mpr (wp_mono (fun a _ _ => hf a) hp)

theorem Asks.bind_except {x : ExceptT ε (Prog S) α}
    {f : α → ExceptT ε (Prog S) β} (hx : Asks A C x.run)
    (hf : ∀ a, Asks A C (f a).run) : Asks A C (x >>= f).run := by
  refine wp_bind_except.mpr (wp_mono (fun r _ _ => ?_) hx)
  cases r with
  | ok a => exact hf a
  | error e => trivial

/-- What a program is known to call after it was answered in some way tells
what it asks of answers of that kind. -/
theorem asks_of_recorder {pre : List (Event S) → S.Op → Prop}
    {post : α → List (Event S) → Prop} {p : Prog S α} {l : List (Event S)}
    (hC : ∀ l o, (∀ e ∈ l, A e.op e.ans) → pre l o → C o)
    (hl : ∀ e ∈ l, A e.op e.ans) (hp : wp recorder pre p post l) :
    Asks A C p := by
  induction p generalizing l with
  | ret a => exact asks_ret
  | call o k ih =>
      refine asks_call.mpr ⟨hC l o hl hp.1, fun r hr => ?_⟩
      refine ih r (fun e he => ?_) (hp.2 r _ rfl)
      rcases List.mem_cons.mp he with rfl | he
      · exact hr
      · exact hl e he

end Asks

/-! ## States that are alike -/

/-- In states that `R` relates, an answer to a call of `C` in the first is
one that `A` allows, and an answer in the second that keeps them related. -/
def Mirrors (W : World S σ) (W' : World S τ) (R : σ → τ → Prop)
    (A : (o : S.Op) → S.Ans o → Prop) (C : S.Op → Prop) : Prop :=
  ∀ s t o r s', R s t → C o → W s o r s' →
    A o r ∧ ∃ t', W' t o r t' ∧ R s' t'

section Mirror

variable {W : World S σ} {W' : World S τ} {R : σ → τ → Prop}
  {A : (o : S.Op) → S.Ans o → Prop} {C : S.Op → Prop}

/-- One call at a time, an execution is followed in the other state. -/
theorem Exec.mirror (h : Mirrors W W' R A C) {p : Prog S α} {s s' : σ}
    {t : τ} {a : α} (hx : Exec W s p a s') (hp : Asks A C p) (hR : R s t) :
    ∃ t', Exec W' t p a t' ∧ R s' t' := by
  induction hx generalizing t with
  | ret => exact ⟨t, .ret, hR⟩
  | call hw _ ih =>
      obtain ⟨hc, hk⟩ := asks_call.mp hp
      obtain ⟨ha, t₁, hw', hR'⟩ := h _ _ _ _ _ hR hc hw
      obtain ⟨t', hx', hR''⟩ := ih (hk _ ha) hR'
      exact ⟨t', .call hw' hx', hR''⟩

variable [DecidableEq ι]

/-- The step lemma: a thread's call in one pool is the thread's call in the
other. -/
theorem Step.mirror (h : Mirrors W W' R A C) {P P' : Pool S σ ι α}
    {Q : Pool S τ ι α} {i : ι} {e : Event S}
    (hp : ∀ j, Asks A C (P.thread j)) (hR : R P.state Q.state)
    (ht : Q.thread = P.thread) (hs : Step W P i e P') :
    ∃ Q', Step W' Q i e Q' ∧ R P'.state Q'.state ∧
      Q'.thread = P'.thread ∧ ∀ j, Asks A C (P'.thread j) := by
  cases hs with
  | @mk o k r s' hk hw =>
      have hi := hp i
      rw [hk] at hi
      obtain ⟨hc, hnext⟩ := asks_call.mp hi
      obtain ⟨ha, t', hw', hR'⟩ := h _ _ _ _ _ hR hc hw
      refine ⟨_, .mk (by rw [ht]; exact hk) hw', hR', ?_, fun j => ?_⟩
      · show Function.update Q.thread i (k r) =
          Function.update P.thread i (k r)
        rw [ht]
      · show Asks A C (Function.update P.thread i (k r) j)
        by_cases hj : j = i
        · subst hj
          rw [Function.update_self]
          exact hnext r ha
        · rw [Function.update_of_ne hj]
          exact hp j

/-- The run lemma: the runs of a pool that starts in the one state are runs
of the pool that starts in the other. -/
theorem Steps.mirror (h : Mirrors W W' R A C) {P P' : Pool S σ ι α}
    {Q : Pool S τ ι α} {l : List (ι × Event S)}
    (hp : ∀ j, Asks A C (P.thread j)) (hR : R P.state Q.state)
    (ht : Q.thread = P.thread) (run : Steps W (fun _ _ _ => True) P l P') :
    ∃ Q', Steps W' (fun _ _ _ => True) Q l Q' ∧ R P'.state Q'.state ∧
      Q'.thread = P'.thread ∧ ∀ j, Asks A C (P'.thread j) := by
  induction run with
  | nil => exact ⟨Q, .nil, hR, ht, hp⟩
  | step _ _ hs ih =>
      obtain ⟨Q₁, run', hR', ht', hp'⟩ := ih
      obtain ⟨Q', hs', hR'', ht'', hp''⟩ := hs.mirror h hp' hR' ht'
      exact ⟨Q', .step run' trivial hs', hR'', ht'', hp''⟩

end Mirror

end Effect
