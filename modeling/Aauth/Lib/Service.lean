import Aauth.Lib.Prog

/-!
# Services called one after another

A service offers calls, each implemented by a program over the same
effects. What the world answers may depend on the moment a call is served
at, so there is one world for each moment. A *history* lists the calls
served so far, newest first, each with the state it found, the moment,
the reply it gave and the state it left. `History.induction` is the rule
behind every statement about whole runs: an invariant that holds of the
empty history and survives one more served call holds of every history.
-/

namespace Effect

/-- The calls of a service and the program behind each. -/
structure Service (S : Sig) where
  Call : Type
  Reply : Call → Type
  prog : (c : Call) → Prog S (Reply c)

/-- One call that was served. -/
structure Served {S : Sig} (V : Service S) (σ τ : Type) where
  pre : σ
  moment : τ
  call : V.Call
  reply : V.Reply call
  post : σ

variable {S : Sig} {V : Service S} {σ τ : Type} {W : τ → World S σ}
  {G : List (Served V σ τ) → σ → τ → V.Call → Prop}

/-- The histories that start in `init` and whose calls were each made
when the guard `G` allowed it. -/
inductive History (W : τ → World S σ)
    (G : List (Served V σ τ) → σ → τ → V.Call → Prop) (init : σ) :
    List (Served V σ τ) → σ → Prop where
  | nil : History W G init [] init
  | serve {h : List (Served V σ τ)} {s s' : σ} {m : τ} {c : V.Call}
      {r : V.Reply c} : History W G init h s → G h s m c →
      Exec (W m) s (V.prog c) r s' →
      History W G init (⟨s, m, c, r, s'⟩ :: h) s'

/-- The run lemma: what one served call preserves holds in every
history. -/
theorem History.induction {init : σ}
    {I : List (Served V σ τ) → σ → Prop} (base : I [] init)
    (step : ∀ {h s m} {c : V.Call} {r : V.Reply c} {s'},
      I h s → G h s m c → Exec (W m) s (V.prog c) r s' →
      I (⟨s, m, c, r, s'⟩ :: h) s')
    {h : List (Served V σ τ)} {s : σ} (run : History W G init h s) :
    I h s := by
  induction run with
  | nil => exact base
  | serve _ hg hx ih => exact step ih hg hx

/-- Any served call of a history can be brought to its front. -/
theorem History.split {init : σ} {h₁ h₂ : List (Served V σ τ)}
    {e : Served V σ τ} {s : σ} (run : History W G init (h₁ ++ e :: h₂) s) :
    History W G init (e :: h₂) e.post := by
  induction h₁ generalizing s with
  | nil => cases run with
    | serve hr hg hx => exact .serve hr hg hx
  | cons d h₁ ih => cases run with
    | serve hr _ _ => exact ih hr

/-- What the front call of a history did. -/
theorem History.front {init : σ} {h : List (Served V σ τ)}
    {e : Served V σ τ} {s : σ} (run : History W G init (e :: h) s) :
    s = e.post ∧ History W G init h e.pre ∧ G h e.pre e.moment e.call ∧
      Exec (W e.moment) e.pre (V.prog e.call) e.reply e.post := by
  cases run with
  | serve hr hg hx => exact ⟨rfl, hr, hg, hx⟩

/-- Every call of a history was made when the guard allowed it. -/
theorem History.guard_of_mem {init : σ} {h : List (Served V σ τ)}
    {s : σ} (run : History W G init h s) {e : Served V σ τ} (he : e ∈ h) :
    ∃ h', G h' e.pre e.moment e.call := by
  induction run with
  | nil => cases he
  | serve _ hg _ ih =>
      rcases List.mem_cons.mp he with rfl | he
      · exact ⟨_, hg⟩
      · exact ih he

/-- A weaker guard admits every history a stronger one does. -/
theorem History.weaken {G' : List (Served V σ τ) → σ → τ → V.Call → Prop}
    {init : σ} (hG : ∀ h s m c, G h s m c → G' h s m c)
    {h : List (Served V σ τ)} {s : σ} (run : History W G init h s) :
    History W G' init h s := by
  induction run with
  | nil => exact .nil
  | serve _ hg hx ih => exact .serve ih (hG _ _ _ _ hg) hx

/-- What the front call of a history preserves, and answers on the
strength of it, is preserved and answered by every later call. -/
theorem History.later {init : σ} {P : σ → Prop}
    {Q : Served V σ τ → Prop}
    (step : ∀ {e : Served V σ τ} {h}, History W G init (e :: h) e.post →
      P e.pre → P e.post ∧ Q e)
    {h₁ h₂ : List (Served V σ τ)} {d : Served V σ τ} {s : σ}
    (run : History W G init (h₁ ++ d :: h₂) s) (hd : P d.post) :
    P s ∧ ∀ e ∈ h₁, Q e := by
  induction h₁ generalizing s with
  | nil =>
      obtain ⟨rfl, -⟩ := run.front
      exact ⟨hd, fun e he => absurd he List.not_mem_nil⟩
  | cons e h₁ ih =>
      obtain ⟨rfl, hr, -⟩ := run.front
      obtain ⟨hp, hall⟩ := ih hr
      obtain ⟨hp', hq⟩ := step run hp
      refine ⟨hp', fun e' he' => ?_⟩
      rcases List.mem_cons.mp he' with rfl | he'
      · exact hq
      · exact hall e' he'

end Effect
