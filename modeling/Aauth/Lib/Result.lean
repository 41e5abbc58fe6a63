import Mathlib.Data.List.Forall2

/-!
# Results

Two ways to fail inside a chain of steps, and what a successful chain
says about its parts: the rules turn "the chain succeeded" into "each
step succeeded, with these values".
-/

namespace Except

variable {ε ε' α β : Type}

/-- Returns early with `e` when `c` holds. -/
def failIf (c : Prop) [Decidable c] (e : ε) : Except ε Unit :=
  if c then .error e else .ok ()

theorem bind_eq_ok {x : Except ε α} {f : α → Except ε β} {b : β} :
    (x >>= f) = .ok b ↔ ∃ a, x = .ok a ∧ f a = .ok b := by
  cases x with
  | error e => exact ⟨fun h => (nomatch h), fun ⟨_, h, _⟩ => (nomatch h)⟩
  | ok a => exact ⟨fun h => ⟨a, rfl, h⟩, fun ⟨_, h, h'⟩ => by cases h; exact h'⟩

theorem ok_bind (a : α) (f : α → Except ε β) : (.ok a >>= f) = f a := rfl

theorem error_bind (e : ε) (f : α → Except ε β) :
    (.error e >>= f) = .error e := rfl

theorem mapError_eq_ok {f : ε → ε'} {x : Except ε α} {a : α} :
    x.mapError f = .ok a ↔ x = .ok a := by
  cases x <;> simp [Except.mapError]

theorem map_eq_ok {f : α → β} {x : Except ε α} {b : β} :
    x.map f = .ok b ↔ ∃ a, x = .ok a ∧ f a = b := by
  cases x <;> simp [Except.map]

theorem pure_eq_ok {a b : α} : (pure a : Except ε α) = .ok b ↔ a = b :=
  ⟨fun h => Except.ok.inj h, fun h => congrArg _ h⟩

theorem throw_ne_ok {e : ε} {a : α} : (throw e : Except ε α) = .ok a ↔ False :=
  ⟨fun h => (nomatch h), False.elim⟩

theorem toOption_eq_some {x : Except ε α} {a : α} :
    x.toOption = some a ↔ x = .ok a := by
  cases x <;> simp [Except.toOption]

theorem failIf_eq_ok {c : Prop} [Decidable c] {e : ε} {u : Unit} :
    failIf c e = .ok u ↔ ¬ c := by
  by_cases h : c <;> simp [failIf, h]

theorem failIf_of_not {c : Prop} [Decidable c] (h : ¬ c) (e : ε) :
    failIf c e = .ok () := if_neg h

/-- An error that no step of a chain raises is not the chain's. -/
theorem bind_ne_error {x : Except ε α} {f : α → Except ε β} {e : ε}
    (hx : x ≠ .error e) (hf : ∀ a, x = .ok a → f a ≠ .error e) :
    (x >>= f) ≠ .error e := by
  cases x with
  | error e' => exact fun h => hx (by cases h; rfl)
  | ok a => exact hf a rfl

theorem failIf_ne_error {c : Prop} [Decidable c] {e e' : ε} (h : e' ≠ e) :
    failIf c e' ≠ .error e := by
  by_cases hc : c
  · rw [failIf, if_pos hc]
    exact fun he => h (Except.error.inj he)
  · rw [failIf_of_not hc]
    exact nofun

/-- A step for each element of a list: all of them succeeded. -/
theorem mapM_eq_ok {f : α → Except ε β} {l : List α} {l' : List β} :
    l.mapM f = .ok l' ↔ List.Forall₂ (fun a b => f a = .ok b) l l' := by
  induction l generalizing l' with
  | nil =>
      rw [List.mapM_nil, pure_eq_ok, List.forall₂_nil_left_iff]
      exact eq_comm
  | cons a l ih =>
      simp only [List.mapM_cons, bind_eq_ok, pure_eq_ok, ih,
        List.forall₂_cons_left_iff]
      constructor
      · intro h
        obtain ⟨b, hb, bs, hbs, rfl⟩ := h
        exact ⟨b, bs, hb, hbs, rfl⟩
      · intro h
        obtain ⟨b, bs, hb, hbs, rfl⟩ := h
        exact ⟨b, hb, bs, hbs, rfl⟩

/-- What holds at the start and is kept by every step holds at the end of a
fold that succeeds. -/
theorem foldlM_ok {P : β → Prop} {f : β → α → Except ε β} {l : List α}
    {b b' : β} (h : l.foldlM f b = .ok b') (hb : P b)
    (hf : ∀ a ∈ l, ∀ b b', P b → f b a = .ok b' → P b') : P b' := by
  induction l generalizing b with
  | nil =>
      cases h
      exact hb
  | cons a l ih =>
      rw [List.foldlM_cons, bind_eq_ok] at h
      obtain ⟨b₁, hfirst, hrest⟩ := h
      exact ih hrest (hf a List.mem_cons_self b b₁ hb hfirst)
        fun c hc => hf c (List.mem_cons_of_mem a hc)

/-- A step for each element of a list, for its effect alone. -/
theorem forM_eq_ok {f : α → Except ε Unit} {l : List α} {u : Unit} :
    l.forM f = .ok u ↔ ∀ a ∈ l, f a = .ok () := by
  induction l with
  | nil => exact ⟨fun _ a h => (nomatch h), fun _ => rfl⟩
  | cons a l ih =>
      show (f a >>= fun _ => l.forM f) = .ok u ↔ _
      rw [List.forall_mem_cons, bind_eq_ok]
      simp only [ih]
      constructor
      · intro h
        obtain ⟨⟨⟩, ha, hl⟩ := h
        exact ⟨ha, hl⟩
      · intro h
        exact ⟨(), h⟩

end Except

namespace Option

variable {ε α : Type}

/-- The value, or the failure `e` when there is none. -/
def okOr (o : Option α) (e : ε) : Except ε α :=
  match o with
  | some a => .ok a
  | none => .error e

theorem okOr_eq_ok {o : Option α} {e : ε} {a : α} :
    o.okOr e = .ok a ↔ o = some a := by
  cases o <;> simp [okOr]

theorem okOr_ne_error {o : Option α} {e e' : ε} (h : e' ≠ e) :
    o.okOr e' ≠ .error e := by
  cases o <;> simp [okOr, h]

end Option

namespace List

variable {α β : Type} {R : α → β → Prop} {l : List α}

/-- A step for each element, when every step succeeds. -/
theorem forall₂_of_forall (h : ∀ a ∈ l, ∃ b, R a b) :
    ∃ l', Forall₂ R l l' := by
  induction l with
  | nil => exact ⟨[], .nil⟩
  | cons a l ih =>
      obtain ⟨b, hb⟩ := h a mem_cons_self
      obtain ⟨l', hl⟩ := ih fun a' ha => h a' (mem_cons_of_mem a ha)
      exact ⟨b :: l', .cons hb hl⟩

/-- Every element has its step. -/
theorem Forall₂.exists_of_mem {l' : List β} (h : Forall₂ R l l') {a : α}
    (ha : a ∈ l) : ∃ b ∈ l', R a b := by
  induction h with
  | nil => cases ha
  | cons hab _ ih =>
      rcases mem_cons.mp ha with rfl | ha
      · exact ⟨_, mem_cons_self, hab⟩
      · obtain ⟨b, hb, hr⟩ := ih ha
        exact ⟨b, mem_cons_of_mem _ hb, hr⟩

end List
