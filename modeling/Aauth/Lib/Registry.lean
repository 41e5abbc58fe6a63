import Mathlib.Data.List.AList

/-!
# What a registry says after a run

A map that entries are put into and struck from. What it holds under a key
is decided by the last event of that key, whatever happened to the others
and in whatever order the earlier ones came.
-/

namespace Registry

variable {κ ν : Type} [DecidableEq κ]

inductive Event (κ ν : Type) where
  | put (k : κ) (v : ν)
  | strike (k : κ)

/-- The key an event is about. -/
def Event.key : Event κ ν → κ
  | put k _ => k
  | strike k => k

def apply (m : AList fun _ : κ => ν) : Event κ ν → AList fun _ : κ => ν
  | .put k v => m.insert k v
  | .strike k => m.erase k

/-- The map after a run, the last event in front. -/
def run (l : List (Event κ ν)) : AList fun _ : κ => ν :=
  l.foldr (fun e m => apply m e) ∅

@[simp] theorem run_nil : run ([] : List (Event κ ν)) = ∅ := rfl

@[simp] theorem run_cons (e : Event κ ν) (l : List (Event κ ν)) :
    run (e :: l) = apply (run l) e := rfl

/-- An event leaves the other keys alone. -/
theorem lookup_apply_of_ne {m : AList fun _ : κ => ν} {e : Event κ ν}
    {k : κ} (h : e.key ≠ k) : (apply m e).lookup k = m.lookup k := by
  cases e with
  | put k' v => exact AList.lookup_insert_ne h.symm
  | strike k' => exact AList.lookup_erase_ne h.symm

theorem lookup_apply_put (m : AList fun _ : κ => ν) (k : κ) (v : ν) :
    (apply m (.put k v)).lookup k = some v :=
  AList.lookup_insert m

theorem lookup_apply_strike (m : AList fun _ : κ => ν) (k : κ) :
    (apply m (.strike k)).lookup k = none :=
  AList.lookup_erase k m

/-- Events about other keys change nothing. -/
theorem lookup_run_append {later earlier : List (Event κ ν)} {k : κ}
    (h : ∀ e ∈ later, e.key ≠ k) :
    (run (later ++ earlier)).lookup k = (run earlier).lookup k := by
  induction later with
  | nil => rfl
  | cons e later ih =>
      rw [List.cons_append, run_cons,
        lookup_apply_of_ne (h e List.mem_cons_self),
        ih fun e he => h e (List.mem_cons_of_mem _ he)]

/-- The last event of the key put the value. -/
theorem lookup_run_iff {l : List (Event κ ν)} {k : κ} {v : ν} :
    (run l).lookup k = some v ↔
      ∃ later earlier, l = later ++ .put k v :: earlier ∧
        ∀ e ∈ later, e.key ≠ k := by
  constructor
  · intro h
    induction l with
    | nil => cases (AList.lookup_empty k).symm.trans h
    | cons e l ih =>
        rw [run_cons] at h
        by_cases he : e.key = k
        · subst he
          cases e with
          | put k v' =>
              cases (lookup_apply_put _ _ _).symm.trans h
              exact ⟨[], l, rfl, fun e he => absurd he List.not_mem_nil⟩
          | strike k => cases (lookup_apply_strike _ _).symm.trans h
        · rw [lookup_apply_of_ne he] at h
          obtain ⟨later, earlier, rfl, hl⟩ := ih h
          refine ⟨e :: later, earlier, rfl, fun e' he' => ?_⟩
          rcases List.mem_cons.mp he' with rfl | he'
          · exact he
          · exact hl e' he'
  · intro h
    obtain ⟨later, earlier, rfl, hl⟩ := h
    rw [lookup_run_append hl]
    exact lookup_apply_put _ _ _

/-- Whatever was struck last is gone. -/
theorem lookup_run_strike {later earlier : List (Event κ ν)} {k : κ}
    (h : ∀ e ∈ later, e.key ≠ k) :
    (run (later ++ .strike k :: earlier)).lookup k = none := by
  rw [lookup_run_append h]
  exact lookup_apply_strike _ _

end Registry
