import Mathlib.Logic.Function.Basic
import Aauth.Lib.Prog

/-!
# Programs that run side by side

A pool holds a shared state and one program for each call in flight. A
step lets one of them make its next call; everything between two calls is
private to the program, so the interleavings of a pool are exactly the
interleavings at the granularity of the calls. A program that has
returned stays as `ret`, which is where its reply is read off.

Two views of a run are kept in step. The pool itself says how the shared
state evolves. The projection of the run to one thread is a *path* of
that thread's own program, whatever the others did in between
(`Steps.path`); facts about such paths come from `wp` in the world that
only records calls (`recorder`), so they are proved once for each
program, without a scheduler in sight.
-/

/-- Of two members of a list one is before the other. -/
theorem List.Pairwise.or_of_mem {α : Type} {R : α → α → Prop} {l : List α}
    {a b : α} (h : l.Pairwise R) (ha : a ∈ l) (hb : b ∈ l) (hne : a ≠ b) :
    R a b ∨ R b a := by
  induction h with
  | nil => cases ha
  | cons hall _ ih =>
      rcases List.mem_cons.mp ha with rfl | ha'
      · rcases List.mem_cons.mp hb with rfl | hb'
        · exact absurd rfl hne
        · exact .inl (hall b hb')
      · rcases List.mem_cons.mp hb with rfl | hb'
        · exact .inr (hall a ha')
        · exact ih ha' hb'

namespace Effect

variable {S : Sig} {σ α ι : Type}

/-! ## Paths of one program -/

/-- `Path p l q`: `p` makes the calls of `l` (newest first) and is then at
`q`. -/
inductive Path : Prog S α → List (Event S) → Prog S α → Prop where
  | nil {p : Prog S α} : Path p [] p
  | cons {p : Prog S α} {l : List (Event S)} {o : S.Op}
      {k : S.Ans o → Prog S α} (r : S.Ans o) :
      Path p l (.call o k) → Path p (⟨o, r⟩ :: l) (k r)

/-- The world that answers anything and writes down what was called. -/
def recorder : World S (List (Event S)) :=
  fun l o r l' => l' = ⟨o, r⟩ :: l

theorem wp_recorder_call {pre : List (Event S) → S.Op → Prop} {o : S.Op}
    {k : S.Ans o → Prog S α} {post : α → List (Event S) → Prop}
    {l : List (Event S)} :
    wp recorder pre (.call o k) post l ↔
      pre l o ∧ ∀ r, wp recorder pre (k r) post (⟨o, r⟩ :: l) := by
  refine and_congr_right fun _ => forall_congr' fun r => ?_
  constructor
  · exact fun h => h _ rfl
  · rintro h _ rfl
    exact h

/-- A single call, recorded. -/
theorem wp_recorder_perform {pre : List (Event S) → S.Op → Prop} {o : S.Op}
    {post : S.Ans o → List (Event S) → Prop} {l : List (Event S)} :
    wp recorder pre (.call o .ret) post l ↔
      pre l o ∧ ∀ r, post r (⟨o, r⟩ :: l) := wp_recorder_call

/-- A specification in the recording world holds at every point of every
path. -/
theorem Path.wp {pre : List (Event S) → S.Op → Prop} {p q : Prog S α}
    {post : α → List (Event S) → Prop} {l : List (Event S)}
    (hp : wp recorder pre p post []) (path : Path p l q) :
    wp recorder pre q post l := by
  induction path with
  | nil => exact hp
  | cons r _ ih => exact (wp_recorder_call.mp ih).2 r

/-! ## Tasks run on their own -/

section Traces

variable {ε β : Type} {pre : List (Event S) → S.Op → Prop}

/-- A program that starts where another left off adds its calls to the log
of that one. -/
theorem wp_recorder_after {pre' : List (Event S) → S.Op → Prop}
    {p : Prog S α} {post : α → List (Event S) → Prop}
    {l : List (Event S)} (l₀ : List (Event S))
    (hpre : ∀ l o, pre l o → pre' (l ++ l₀) o)
    (hp : wp recorder pre p post l) :
    wp recorder pre' p (fun a l' => ∃ d, l' = d ++ l₀ ∧ post a d)
      (l ++ l₀) := by
  induction p generalizing l with
  | ret a => exact ⟨l, rfl, hp⟩
  | call o k ih =>
      obtain ⟨ho, hk⟩ := wp_recorder_call.mp hp
      exact wp_recorder_call.mpr ⟨hpre l o ho, fun r => ih r (hk r)⟩

/-- What a task ends with when it succeeds, and the calls it made. -/
def Traces (t : ExceptT ε (Prog S) α) (post : α → List (Event S) → Prop) :
    Prop :=
  wp recorder (fun _ _ => True) t.run
    (fun r l => ∀ a, r = .ok a → post a l) []

theorem Traces.mono {t : ExceptT ε (Prog S) α}
    {post post' : α → List (Event S) → Prop}
    (h : ∀ a l, post a l → post' a l) (ht : Traces t post) :
    Traces t post' :=
  wp_mono (fun _ l hr a ha => h a l (hr a ha)) ht

theorem Traces.and {t : ExceptT ε (Prog S) α}
    {post post' : α → List (Event S) → Prop} (ht : Traces t post)
    (ht' : Traces t post') : Traces t fun a l => post a l ∧ post' a l :=
  wp_mono (fun _ _ hr a ha => ⟨hr.1 a ha, hr.2 a ha⟩) (wp_and ht ht')

theorem Traces.pure {a : α} {post : α → List (Event S) → Prop}
    (h : post a []) : Traces (pure a : ExceptT ε (Prog S) α) post := by
  intro b hb
  cases hb
  exact h

theorem Traces.throw {e : ε} {post : α → List (Event S) → Prop} :
    Traces (throw e : ExceptT ε (Prog S) α) post := by
  intro b hb
  cases hb

/-- The calls of a sequence are those of its parts. -/
theorem Traces.bind {x : ExceptT ε (Prog S) α}
    {f : α → ExceptT ε (Prog S) β} {mid : α → List (Event S) → Prop}
    {post : β → List (Event S) → Prop} (hx : Traces x mid)
    (hf : ∀ a l, mid a l → Traces (f a) fun b d => post b (d ++ l)) :
    Traces (x >>= f) post := by
  rw [Traces, wp_bind_except]
  refine wp_mono ?_ hx
  intro r l hr
  cases r with
  | error e =>
      intro b hb
      cases hb
  | ok a =>
      refine wp_mono ?_ (wp_recorder_after l (fun _ _ _ => trivial)
        (hf a l (hr a rfl)))
      intro r l' h b hb
      obtain ⟨d, rfl, hd⟩ := h
      exact hd b hb

/-- All the calls are of one kind. -/
theorem Traces.of_calls {t : ExceptT ε (Prog S) α} {C : S.Op → Prop}
    (hc : Prog.Calls C t.run) : Traces t fun _ l => ∀ e ∈ l, C e.op := by
  refine wp_mono (fun _ _ h _ _ => h) (wp_of_calls hc (fun _ _ _ _ => trivial)
    (I := fun l => ∀ e ∈ l, C e.op) ?_ ?_)
  · intro l o r l' ho hl hl' e he
    rw [hl'] at he
    rcases List.mem_cons.mp he with rfl | he
    · exact ho
    · exact hl e he
  · intro e he
    exact absurd he List.not_mem_nil

/-- A task whose calls are all allowed, run where a log has been begun. -/
theorem Traces.after {t : ExceptT ε (Prog S) α}
    {post : α → List (Event S) → Prop} {C : S.Op → Prop}
    (ht : Traces t post) (hc : Prog.Calls C t.run)
    (hpre : ∀ l o, C o → pre l o) (l₀ : List (Event S)) :
    wp recorder pre t.run
      (fun r l => ∃ d, l = d ++ l₀ ∧ ∀ a, r = .ok a → post a d) l₀ :=
  wp_recorder_after l₀ (fun l o h => hpre (l ++ l₀) o h) (wp_calls hc ht)

end Traces

/-! ## Pools -/

/-- A shared state and the programs in flight over it. -/
structure Pool (S : Sig) (σ ι α : Type) where
  state : σ
  thread : ι → Prog S α

variable [DecidableEq ι] {W : World S σ}
  {G : Pool S σ ι α → ι → S.Op → Prop}

/-- Thread `i` makes its next call. -/
inductive Step (W : World S σ) (P : Pool S σ ι α) (i : ι) :
    Event S → Pool S σ ι α → Prop where
  | mk {o : S.Op} {k : S.Ans o → Prog S α} {r : S.Ans o} {s' : σ} :
      P.thread i = .call o k → W P.state o r s' →
      Step W P i ⟨o, r⟩ ⟨s', Function.update P.thread i (k r)⟩

/-- Interleaved runs whose steps were each taken when `G` allowed it; the
trace is newest first. -/
inductive Steps (W : World S σ) (G : Pool S σ ι α → ι → S.Op → Prop)
    (P₀ : Pool S σ ι α) : List (ι × Event S) → Pool S σ ι α → Prop where
  | nil : Steps W G P₀ [] P₀
  | step {t : List (ι × Event S)} {P P' : Pool S σ ι α} {i : ι}
      {e : Event S} : Steps W G P₀ t P → G P i e.op → Step W P i e P' →
      Steps W G P₀ ((i, e) :: t) P'

/-- What thread `i` did in a run. -/
def proj (i : ι) (t : List (ι × Event S)) : List (Event S) :=
  t.filterMap fun e => if e.1 = i then some e.2 else none

@[simp] theorem proj_nil (i : ι) : proj (S := S) i [] = [] := rfl

@[simp] theorem proj_cons_self (i : ι) (e : Event S)
    (t : List (ι × Event S)) : proj i ((i, e) :: t) = e :: proj i t := by
  simp [proj]

theorem proj_cons_of_ne {i j : ι} (h : j ≠ i) (e : Event S)
    (t : List (ι × Event S)) : proj i ((j, e) :: t) = proj i t := by
  simp [proj, h]

theorem mem_proj {i : ι} {e : Event S} {t : List (ι × Event S)} :
    e ∈ proj i t ↔ (i, e) ∈ t := by
  simp only [proj, List.mem_filterMap]
  constructor
  · rintro ⟨⟨j, d⟩, hm, hd⟩
    split at hd
    · next h => cases h; cases hd; exact hm
    · cases hd
  · exact fun h => ⟨(i, e), h, by simp⟩

/-- One step of thread `i` leaves every other thread where it was. -/
theorem Step.frame {P P' : Pool S σ ι α} {i j : ι} {e : Event S}
    (h : Step W P i e P') (hj : j ≠ i) : P'.thread j = P.thread j := by
  cases h with
  | mk _ _ => exact Function.update_of_ne hj _ _

theorem Step.self {P P' : Pool S σ ι α} {i : ι} {e : Event S}
    (h : Step W P i e P') : ∃ k, P.thread i = .call e.op k ∧
      P'.thread i = k e.ans ∧ W P.state e.op e.ans P'.state := by
  cases h with
  | mk ht hw => exact ⟨_, ht, Function.update_self _ _ _, hw⟩

/-- The projection of a run to a thread is a path of that thread. -/
theorem Steps.path {P₀ P : Pool S σ ι α} {t : List (ι × Event S)}
    (run : Steps W G P₀ t P) (i : ι) :
    Path (P₀.thread i) (proj i t) (P.thread i) := by
  induction run with
  | nil => exact .nil
  | @step t P P' j e _ _ hs ih =>
      by_cases hj : j = i
      · subst hj
        obtain ⟨k, hk, hk', -⟩ := hs.self
        rw [proj_cons_self, hk']
        rw [hk] at ih
        exact .cons e.ans ih
      · rw [proj_cons_of_ne hj, hs.frame (Ne.symm hj)]
        exact ih

/-- The run lemma for pools. -/
theorem Steps.induction {P₀ : Pool S σ ι α}
    {I : List (ι × Event S) → Pool S σ ι α → Prop} (base : I [] P₀)
    (step : ∀ {t P i e P'}, Steps W G P₀ t P → I t P → G P i e.op →
      Step W P i e P' → I ((i, e) :: t) P')
    {t : List (ι × Event S)} {P : Pool S σ ι α}
    (run : Steps W G P₀ t P) : I t P := by
  induction run with
  | nil => exact base
  | step hr hg hs ih => exact step hr ih hg hs

/-- A run whose calls are allowed in every state is allowed. -/
theorem Steps.guarded {G' : Pool S σ ι α → ι → S.Op → Prop}
    {P₀ P : Pool S σ ι α} {t : List (ι × Event S)}
    (run : Steps W G P₀ t P)
    (h : ∀ e ∈ t, ∀ Q, G' Q e.1 e.2.op) : Steps W G' P₀ t P := by
  induction run with
  | nil => exact .nil
  | step _ _ hs ih =>
      have hr := ih fun d hd => h d (List.mem_cons_of_mem _ hd)
      exact .step hr (h _ List.mem_cons_self _) hs

/-- A specification of a thread's program in the recording world holds of
the thread at every point of every run. -/
theorem Steps.wp {pre : List (Event S) → S.Op → Prop}
    {post : α → List (Event S) → Prop} {P₀ P : Pool S σ ι α}
    {t : List (ι × Event S)} {i : ι}
    (hp : Effect.wp recorder pre (P₀.thread i) post [])
    (run : Steps W G P₀ t P) :
    Effect.wp recorder pre (P.thread i) post (proj i t) :=
  (run.path i).wp hp

/-- What a run was like when one of its events took place. -/
theorem Steps.split {P₀ P : Pool S σ ι α} {t₁ t₂ : List (ι × Event S)}
    {i : ι} {e : Event S} (run : Steps W G P₀ (t₁ ++ (i, e) :: t₂) P) :
    ∃ Q Q', Steps W G P₀ t₂ Q ∧ G Q i e.op ∧ Step W Q i e Q' := by
  induction t₁ generalizing P with
  | nil =>
      cases run with
      | step run hg hs => exact ⟨_, _, run, hg, hs⟩
  | cons d t₁ ih =>
      cases run with
      | step run _ _ => exact ih run

/-- What a specification in the recording world asks of a call held of
what its thread had done by then. -/
theorem Steps.pre_at {pre : List (Event S) → S.Op → Prop}
    {post : α → List (Event S) → Prop} {P₀ P : Pool S σ ι α}
    {t₁ t₂ : List (ι × Event S)} {i : ι} {e : Event S}
    (hp : Effect.wp recorder pre (P₀.thread i) post [])
    (run : Steps W G P₀ (t₁ ++ (i, e) :: t₂) P) :
    pre (proj i t₂) e.op := by
  obtain ⟨Q, Q', run, -, hs⟩ := run.split
  obtain ⟨k, hk, -, -⟩ := hs.self
  have h := run.wp hp
  rw [hk] at h
  exact h.1

/-! ## A condition on every step -/

/-- Every event of the trace met the condition on what was before it. -/
def Along (C : List (ι × Event S) → ι × Event S → Prop) :
    List (ι × Event S) → Prop
  | [] => True
  | e :: t => C t e ∧ Along C t

omit [DecidableEq ι] in
theorem Along.of_mem {C : List (ι × Event S) → ι × Event S → Prop}
    {t : List (ι × Event S)} {e : ι × Event S} (h : Along C t)
    (he : e ∈ t) : ∃ t', C t' e := by
  induction t with
  | nil => cases he
  | cons d t ih =>
      rcases List.mem_cons.mp he with rfl | he
      · exact ⟨t, h.1⟩
      · exact ih h.2 he

theorem proj_eq_cons {i : ι} {e : Event S} {l : List (Event S)}
    {t : List (ι × Event S)} (h : proj i t = e :: l) :
    ∃ t₁ t₂, t = t₁ ++ (i, e) :: t₂ ∧ (∀ d ∈ t₁, d.1 ≠ i) ∧
      proj i t₂ = l := by
  induction t with
  | nil => cases h
  | cons d t ih =>
      obtain ⟨j, d⟩ := d
      by_cases hj : j = i
      · subst hj
        rw [proj_cons_self] at h
        cases h
        exact ⟨[], t, rfl, nofun, rfl⟩
      · rw [proj_cons_of_ne hj] at h
        obtain ⟨t₁, t₂, rfl, ht₁, hl⟩ := ih h
        refine ⟨(j, d) :: t₁, t₂, rfl, ?_, hl⟩
        intro c hc
        rcases List.mem_cons.mp hc with rfl | hc
        · exact hj
        · exact ht₁ c hc

/-! ## Playing a schedule -/

/-- Lets the threads of the schedule make one call each, in order, against
a function that answers each call. -/
def Pool.play (h : σ → (o : S.Op) → Option (S.Ans o × σ)) :
    List ι → List (ι × Event S) × Pool S σ ι α →
      Option (List (ι × Event S) × Pool S σ ι α)
  | [], q => some q
  | i :: is, (t, P) =>
      match P.thread i with
      | .ret _ => none
      | .call o k =>
          match h P.state o with
          | none => none
          | some (r, s') => play h is
              ((i, ⟨o, r⟩) :: t, ⟨s', Function.update P.thread i (k r)⟩)

theorem Steps.play {h : σ → (o : S.Op) → Option (S.Ans o × σ)}
    (hW : ∀ s o r s', h s o = some (r, s') → W s o r s')
    {is : List ι} {t t' : List (ι × Event S)} {P₀ P P' : Pool S σ ι α}
    (run : Steps W (fun _ _ _ => True) P₀ t P)
    (hp : Pool.play h is (t, P) = some (t', P')) :
    Steps W (fun _ _ _ => True) P₀ t' P' := by
  induction is generalizing t P with
  | nil =>
      cases hp
      exact run
  | cons i is ih =>
      rw [Pool.play] at hp
      split at hp
      · cases hp
      · next o k hk =>
          split at hp
          · cases hp
          · next r s' hr =>
              exact ih (.step run trivial (.mk hk (hW _ _ _ _ hr))) hp

/-- A played schedule adds to the trace. -/
theorem Pool.play_trace {h : σ → (o : S.Op) → Option (S.Ans o × σ)}
    {is : List ι} {t t' : List (ι × Event S)} {P P' : Pool S σ ι α}
    (hp : Pool.play h is (t, P) = some (t', P')) : ∃ u, t' = u ++ t := by
  induction is generalizing t P with
  | nil =>
      cases hp
      exact ⟨[], rfl⟩
  | cons i is ih =>
      rw [Pool.play] at hp
      split at hp
      · cases hp
      · next o k hk =>
          split at hp
          · cases hp
          · next r s' hr =>
              obtain ⟨u, hu⟩ := ih hp
              exact ⟨u ++ [(i, ⟨o, r⟩)], by rw [hu, List.append_assoc]; rfl⟩

/-- A thread that runs to its end alone is a run. -/
theorem Steps.exec {P₀ P : Pool S σ ι α} {t : List (ι × Event S)} {i : ι}
    {l l' : List (Event S)} {s' : σ} {a : α}
    (run : Steps W (fun _ _ _ => True) P₀ t P)
    (hx : Exec (logged W) (P.state, l) (P.thread i) a (s', l')) :
    ∃ d P', l' = d ++ l ∧ P'.state = s' ∧ P'.thread i = .ret a ∧
      Steps W (fun _ _ _ => True) P₀ (d.map (Prod.mk i) ++ t) P' := by
  generalize hq : (P.state, l) = q at hx
  generalize hq' : (s', l') = q' at hx
  generalize hp : P.thread i = p at hx
  induction hx generalizing P l t with
  | ret =>
      rw [← hq] at hq'
      cases hq'
      exact ⟨[], P, rfl, rfl, hp, run⟩
  | @call q q₁ _ o k r _ hw _ ih =>
      subst hq
      obtain ⟨s₁, l₁⟩ := q₁
      obtain ⟨hw, hl₁⟩ := hw
      have hl₁ : l₁ = ⟨o, r⟩ :: l := hl₁
      subst hl₁
      have hs : Step W P i ⟨o, r⟩ ⟨s₁, Function.update P.thread i (k r)⟩ :=
        .mk hp hw
      obtain ⟨d, P', hd, hst, hret, run'⟩ := ih (.step run trivial hs) rfl
        hq' (Function.update_self _ _ _)
      refine ⟨d ++ [⟨o, r⟩], P', ?_, hst, hret, ?_⟩
      · rw [hd, List.append_assoc]
        rfl
      · rw [List.map_append, List.append_assoc]
        exact run'

/-- One thread is played for a while: its calls need be allowed only while
the others stand where they are. -/
theorem Steps.play_one {h : σ → (o : S.Op) → Option (S.Ans o × σ)}
    (hW : ∀ s o r s', h s o = some (r, s') → W s o r s')
    {C : S.Op → Prop} {i : ι} {n : Nat} {t u : List (ι × Event S)}
    {P₀ P P' : Pool S σ ι α}
    (hG : ∀ Q o, C o → (∀ j, j ≠ i → Q.thread j = P.thread j) → G Q i o)
    (run : Steps W G P₀ t P)
    (hp : Pool.play h (List.replicate n i) (t, P) = some (u ++ t, P'))
    (hC : ∀ e ∈ u, C e.2.op) :
    Steps W G P₀ (u ++ t) P' ∧ ∀ j, j ≠ i → P'.thread j = P.thread j := by
  induction n generalizing t u P with
  | zero =>
      obtain ⟨ht, hP⟩ := Prod.mk.inj (Option.some.inj hp)
      rw [← ht, ← hP]
      exact ⟨run, fun _ _ => rfl⟩
  | succ n ih =>
      rw [List.replicate_succ, Pool.play] at hp
      split at hp
      · cases hp
      · next o k hk =>
          split at hp
          · cases hp
          · next r s' hr =>
              obtain ⟨v, hv⟩ := Pool.play_trace hp
              have hu : u = v ++ [(i, ⟨o, r⟩)] := by
                refine List.append_cancel_right (hv.trans ?_)
                rw [List.append_assoc]
                rfl
              subst hu
              have hs : Step W P i ⟨o, r⟩
                  ⟨s', Function.update P.thread i (k r)⟩ :=
                .mk hk (hW _ _ _ _ hr)
              have hg : G P i o :=
                hG P o (hC _ (List.mem_append_right v
                  List.mem_cons_self)) fun _ _ => rfl
              have hframe : ∀ j, j ≠ i →
                  Function.update P.thread i (k r) j = P.thread j :=
                fun j hj => hs.frame hj
              rw [List.append_assoc]
              obtain ⟨hrun, hP⟩ := ih (fun Q o ho hQ => hG Q o ho fun j hj =>
                (hQ j hj).trans (hframe j hj)) (.step run hg hs)
                (by rw [hp, List.append_assoc]; rfl)
                fun e he => hC e (List.mem_append_left _ he)
              exact ⟨hrun, fun j hj => (hP j hj).trans (hframe j hj)⟩

end Effect
