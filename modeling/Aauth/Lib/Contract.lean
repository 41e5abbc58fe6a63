import Aauth.Lib.Mirror

/-!
# Contracts between programs that share a state

What a program may rely on when it is answered, what it keeps to when it
asks, and what holds of its result: three conditions that do not mention
the state. An invariant of the state ties them together when whatever an
allowed call leaves behind keeps it, and whatever is answered under it can
be relied on. Programs that meet their contracts then meet them beside one
another, however they are interleaved.
-/

namespace Effect

variable {S : Sig} {σ α β ε ι : Type}
  {A : (o : S.Op) → S.Ans o → Prop} {C : S.Op → Prop}

/-- Relying on `A`, `p` makes only calls of `C` and ends as `Q` says. -/
def Meets (A : (o : S.Op) → S.Ans o → Prop) (C : S.Op → Prop)
    (Q : α → Prop) (p : Prog S α) : Prop :=
  wp (oracle A) (fun _ => C) p (fun a _ => Q a) ()

/-! ## One program -/

section Meets

variable {Q : α → Prop} {R : β → Prop}

theorem meets_ret {a : α} : Meets A C Q (.ret a : Prog S α) ↔ Q a := Iff.rfl

theorem meets_call {o : S.Op} {k : S.Ans o → Prog S α} :
    Meets A C Q (.call o k) ↔ C o ∧ ∀ r, A o r → Meets A C Q (k r) :=
  and_congr_right fun _ => forall_congr' fun _ =>
    ⟨fun h ha => h () ha, fun h _ ha => h ha⟩

theorem Meets.mono {Q' : α → Prop} {p : Prog S α} (h : Meets A C Q p)
    (hQ : ∀ a, Q a → Q' a) : Meets A C Q' p :=
  wp_mono (fun a _ ha => hQ a ha) h

theorem Meets.bind {p : Prog S α} {f : α → Prog S β} (hp : Meets A C Q p)
    (hf : ∀ a, Q a → Meets A C R (f a)) : Meets A C R (p >>= f) :=
  wp_bind.mpr (wp_mono (fun a _ ha => hf a ha) hp)

/-- The same of a program that may fail, its value alone spoken of. -/
def Yields (A : (o : S.Op) → S.Ans o → Prop) (C : S.Op → Prop)
    (Q : α → Prop) (x : ExceptT ε (Prog S) α) : Prop :=
  Meets A C (fun r => ∀ a, r = .ok a → Q a) x.run

theorem yields_pure {a : α} (h : Q a) :
    Yields A C Q (pure a : ExceptT ε (Prog S) α) :=
  meets_ret.mpr fun _ hb => Except.ok.inj hb ▸ h

theorem yields_throw {e : ε} :
    Yields A C Q (throw e : ExceptT ε (Prog S) α) :=
  meets_ret.mpr fun _ hb => by cases hb

theorem Yields.mono {Q' : α → Prop} {x : ExceptT ε (Prog S) α}
    (h : Yields A C Q x) (hQ : ∀ a, Q a → Q' a) : Yields A C Q' x :=
  Meets.mono h fun _ hr a ha => hQ a (hr a ha)

theorem Yields.bind {x : ExceptT ε (Prog S) α}
    {f : α → ExceptT ε (Prog S) β} (hx : Yields A C Q x)
    (hf : ∀ a, Q a → Yields A C R (f a)) : Yields A C R (x >>= f) := by
  refine wp_bind_except.mpr (wp_mono (fun r _ hr => ?_) hx)
  cases r with
  | ok a => exact hf a (hr a rfl)
  | error e =>
      intro b hb
      cases hb

/-- The same of a program that may fail, with what its failures are. -/
def Delivers (A : (o : S.Op) → S.Ans o → Prop) (C : S.Op → Prop)
    (F : ε → Prop) (Q : α → Prop) (x : ExceptT ε (Prog S) α) : Prop :=
  Meets A C (fun r => (∀ a, r = .ok a → Q a) ∧ ∀ e, r = .error e → F e) x.run

section Delivers

variable {F : ε → Prop}

theorem delivers_ret {r : Except ε α} :
    Delivers A C F Q (ExceptT.mk (.ret r : Prog S (Except ε α))) ↔
      (∀ a, r = .ok a → Q a) ∧ ∀ e, r = .error e → F e := Iff.rfl

theorem delivers_pure {a : α} (h : Q a) :
    Delivers A C F Q (pure a : ExceptT ε (Prog S) α) := by
  refine delivers_ret.mpr ⟨fun b hb => Except.ok.inj hb ▸ h, ?_⟩
  intro e he
  cases he

theorem delivers_throw {e : ε} (h : F e) :
    Delivers A C F Q (throw e : ExceptT ε (Prog S) α) := by
  refine delivers_ret.mpr ⟨?_, fun e' he => Except.error.inj he ▸ h⟩
  intro b hb
  cases hb

theorem Delivers.mono {Q' : α → Prop} {x : ExceptT ε (Prog S) α}
    (h : Delivers A C F Q x) (hQ : ∀ a, Q a → Q' a) :
    Delivers A C F Q' x :=
  Meets.mono h fun _ hr => ⟨fun a ha => hQ a (hr.1 a ha), hr.2⟩

theorem Delivers.weaken {C' : S.Op → Prop} {F' : ε → Prop} {Q' : α → Prop}
    {x : ExceptT ε (Prog S) α} (h : Delivers A C F Q x)
    (hC : ∀ o, C o → C' o) (hF : ∀ e, F e → F' e) (hQ : ∀ a, Q a → Q' a) :
    Delivers A C' F' Q' x :=
  wp_weaken (fun _ o ho => hC o ho)
    (fun _ _ hr => ⟨fun a ha => hQ a (hr.1 a ha),
      fun e he => hF e (hr.2 e he)⟩) h

theorem Delivers.bind {x : ExceptT ε (Prog S) α}
    {f : α → ExceptT ε (Prog S) β} (hx : Delivers A C F Q x)
    (hf : ∀ a, Q a → Delivers A C F R (f a)) :
    Delivers A C F R (x >>= f) := by
  refine wp_bind_except.mpr (wp_mono (fun r _ hr => ?_) hx)
  cases r with
  | ok a => exact hf a (hr.1 a rfl)
  | error e =>
      refine ⟨?_, ?_⟩
      · intro b hb
        cases hb
      · intro e' he
        cases he
        exact hr.2 e rfl

end Delivers

end Meets

/-! ## Side by side -/

/-- What an allowed call finds and leaves under the invariant. -/
def Sound (W : World S σ) (I : σ → Prop)
    (A : (o : S.Op) → S.Ans o → Prop) (C : S.Op → Prop) : Prop :=
  ∀ s o r s', I s → C o → W s o r s' → A o r ∧ I s'

variable [DecidableEq ι] {W : World S σ} {I : σ → Prop}
  {K : ι → S.Op → Prop} {Q : ι → α → Prop} {P P' : Pool S σ ι α}

/-- The step lemma. -/
theorem Step.meets {i : ι} {e : Event S}
    (hs : ∀ i, Sound W I A (K i)) (hI : I P.state)
    (hp : ∀ i, Meets A (K i) (Q i) (P.thread i)) (step : Step W P i e P') :
    I P'.state ∧ ∀ i, Meets A (K i) (Q i) (P'.thread i) := by
  cases step with
  | @mk o k r s' hk hw =>
      have hi := hp i
      rw [hk] at hi
      obtain ⟨hc, hnext⟩ := meets_call.mp hi
      obtain ⟨ha, hI'⟩ := hs i _ _ _ _ hI hc hw
      refine ⟨hI', fun j => ?_⟩
      show Meets A (K j) (Q j) (Function.update P.thread i (k r) j)
      by_cases hj : j = i
      · subst hj
        rw [Function.update_self]
        exact hnext r ha
      · rw [Function.update_of_ne hj]
        exact hp j

/-- The run lemma. -/
theorem Steps.meets {l : List (ι × Event S)}
    (hs : ∀ i, Sound W I A (K i)) (hI : I P.state)
    (hp : ∀ i, Meets A (K i) (Q i) (P.thread i))
    (run : Steps W (fun _ _ _ => True) P l P') :
    I P'.state ∧ ∀ i, Meets A (K i) (Q i) (P'.thread i) := by
  induction run with
  | nil => exact ⟨hI, hp⟩
  | step _ _ hstep ih => exact hstep.meets hs ih.1 ih.2

/-- A thread that has returned has kept its contract. -/
theorem Steps.ends {l : List (ι × Event S)}
    (hs : ∀ i, Sound W I A (K i)) (hI : I P.state)
    (hp : ∀ i, Meets A (K i) (Q i) (P.thread i))
    (run : Steps W (fun _ _ _ => True) P l P') {i : ι} {a : α}
    (ha : P'.thread i = .ret a) : Q i a := by
  have h := (run.meets hs hI hp).2 i
  rw [ha] at h
  exact meets_ret.mp h

/-- A thread that is about to make a call is allowed to. -/
theorem Steps.keeps {l : List (ι × Event S)}
    (hs : ∀ i, Sound W I A (K i)) (hI : I P.state)
    (hp : ∀ i, Meets A (K i) (Q i) (P.thread i))
    (run : Steps W (fun _ _ _ => True) P l P') {i : ι} {o : S.Op}
    {k : S.Ans o → Prog S α} (ho : P'.thread i = .call o k) : K i o := by
  have h := (run.meets hs hI hp).2 i
  rw [ho] at h
  exact (meets_call.mp h).1

end Effect
