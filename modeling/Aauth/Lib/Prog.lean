/-!
# Programs over an effect signature

A program is a finite tree of calls: each node names an operation and
says how to go on for every answer. Nothing is said about what the
operations do; that is the business of a *world*, a relation between a
state, a call, its answer and the state after it. The same program can
then be run against several worlds: a store, a recorder of its own
calls, or a store that other programs write to between two calls.

`wp` computes, by recursion on the tree, what must hold before a program
for a postcondition to hold after it and a precondition to hold at each
of its calls. `wp_iff_exec` ties it to the big-step semantics, and
`wp_bind` is the rule every longer proof is assembled from.
-/

namespace Effect

/-- An effect signature: the operations and the type each answers with. -/
structure Sig where
  Op : Type
  Ans : Op → Type

/-- A program: a result, or a call and a continuation for its answer. -/
inductive Prog (S : Sig) (α : Type) where
  | ret (a : α)
  | call (o : S.Op) (k : S.Ans o → Prog S α)

/-- One call together with the answer it got. -/
structure Event (S : Sig) where
  op : S.Op
  ans : S.Ans op

namespace Prog

variable {S : Sig} {α β γ : Type}

protected def bind : Prog S α → (α → Prog S β) → Prog S β
  | ret a, f => f a
  | call o k, f => call o fun r => (k r).bind f

instance : Monad (Prog S) where
  pure := ret
  bind := Prog.bind

/-- A single call as a program. -/
def perform (o : S.Op) : Prog S (S.Ans o) := call o ret

@[simp] theorem pure_def (a : α) : (pure a : Prog S α) = ret a := rfl

@[simp] theorem ret_bind (a : α) (f : α → Prog S β) :
    (ret a >>= f) = f a := rfl

@[simp] theorem call_bind (o : S.Op) (k : S.Ans o → Prog S α)
    (f : α → Prog S β) :
    (call o k >>= f) = call o fun r => k r >>= f := rfl

@[simp] theorem perform_bind (o : S.Op) (f : S.Ans o → Prog S β) :
    (perform o >>= f) = call o f := rfl

theorem bind_ret (p : Prog S α) : (p >>= ret) = p := by
  induction p with
  | ret a => rfl
  | call o k ih => rw [call_bind, funext ih]

theorem bind_assoc (p : Prog S α) (f : α → Prog S β) (g : β → Prog S γ) :
    (p >>= f >>= g) = p >>= fun a => f a >>= g := by
  induction p with
  | ret a => rfl
  | call o k ih => simp only [call_bind, ih]

theorem bind_assoc_except {ε : Type} (x : ExceptT ε (Prog S) α)
    (f : α → ExceptT ε (Prog S) β) (g : β → ExceptT ε (Prog S) γ) :
    x >>= f >>= g = x >>= fun a => f a >>= g := by
  refine (Prog.bind_assoc x.run _ _).trans ?_
  refine congrArg (Prog.bind x.run) (funext fun r => ?_)
  cases r with
  | ok a => rfl
  | error e => rfl

end Prog

/-! ## Worlds and the big-step semantics -/

/-- What a call may answer in a state, and the state it leaves. -/
abbrev World (S : Sig) (σ : Type) := σ → (o : S.Op) → S.Ans o → σ → Prop

/-- `p`, started in the first state, ends with a result in the second. -/
inductive Exec {S : Sig} {σ α : Type} (W : World S σ) :
    σ → Prog S α → α → σ → Prop where
  | ret {s : σ} {a : α} : Exec W s (.ret a) a s
  | call {s s' s'' : σ} {o : S.Op} {k : S.Ans o → Prog S α} {r : S.Ans o}
      {a : α} : W s o r s' → Exec W s' (k r) a s'' →
      Exec W s (.call o k) a s''

section Wp

variable {S : Sig} {σ α β ε : Type} {W : World S σ}
  {pre : σ → S.Op → Prop}

/-- The weakest precondition of `p`: `pre` holds at every call it makes
and `post` at the end, whatever the world answers. -/
def wp (W : World S σ) (pre : σ → S.Op → Prop) :
    Prog S α → (α → σ → Prop) → σ → Prop
  | .ret a, post, s => post a s
  | .call o k, post, s =>
      pre s o ∧ ∀ r s', W s o r s' → wp W pre (k r) post s'

@[simp] theorem wp_ret {a : α} {post : α → σ → Prop} {s : σ} :
    wp W pre (.ret a) post s ↔ post a s := Iff.rfl

theorem wp_call {o : S.Op} {k : S.Ans o → Prog S α} {post : α → σ → Prop}
    {s : σ} :
    wp W pre (.call o k) post s ↔
      pre s o ∧ ∀ r s', W s o r s' → wp W pre (k r) post s' := Iff.rfl

theorem wp_bind {p : Prog S α} {f : α → Prog S β} {post : β → σ → Prop}
    {s : σ} :
    wp W pre (p >>= f) post s ↔
      wp W pre p (fun a s' => wp W pre (f a) post s') s := by
  induction p generalizing s with
  | ret a => exact Iff.rfl
  | call o k ih =>
      refine and_congr_right fun _ => ?_
      exact forall_congr' fun r => forall_congr' fun s' =>
        imp_congr_right fun _ => ih r

theorem wp_mono {p : Prog S α} {post post' : α → σ → Prop}
    (h : ∀ a s, post a s → post' a s) {s : σ}
    (hp : wp W pre p post s) : wp W pre p post' s := by
  induction p generalizing s with
  | ret a => exact h a s hp
  | call o k ih => exact ⟨hp.1, fun r s' hw => ih r (hp.2 r s' hw)⟩

/-- Less is asked of the calls and of the end. -/
theorem wp_weaken {pre' : σ → S.Op → Prop} {p : Prog S α}
    {post post' : α → σ → Prop} (hpre : ∀ s o, pre s o → pre' s o)
    (hpost : ∀ a s, post a s → post' a s) {s : σ}
    (hp : wp W pre p post s) : wp W pre' p post' s := by
  induction p generalizing s with
  | ret a => exact hpost a s hp
  | call o k ih =>
      exact ⟨hpre s o hp.1, fun r s' hw => ih r (hp.2 r s' hw)⟩

/-- Two postconditions proved apart hold together. -/
theorem wp_and {p : Prog S α} {post post' : α → σ → Prop} {s : σ}
    (hp : wp W pre p post s) (hp' : wp W pre p post' s) :
    wp W pre p (fun a s' => post a s' ∧ post' a s') s := by
  induction p generalizing s with
  | ret a => exact ⟨hp, hp'⟩
  | call o k ih =>
      exact ⟨hp.1, fun r s' hw => ih r (hp.2 r s' hw) (hp'.2 r s' hw)⟩

/-- With nothing asked of the calls, `wp` is exactly what every complete
execution delivers. -/
theorem wp_iff_exec {p : Prog S α} {post : α → σ → Prop} {s : σ} :
    wp W (fun _ _ => True) p post s ↔
      ∀ a s', Exec W s p a s' → post a s' := by
  induction p generalizing s with
  | ret a =>
      constructor
      · rintro h _ _ ⟨⟩
        exact h
      · exact fun h => h a s .ret
  | call o k ih =>
      constructor
      · rintro ⟨-, h⟩ a s'' (_ | ⟨hw, hx⟩)
        exact (ih _).mp (h _ _ hw) a s'' hx
      · exact fun h => ⟨trivial, fun r s' hw =>
          (ih r).mpr fun a s'' hx => h a s'' (.call hw hx)⟩

theorem Exec.post {p : Prog S α} {post : α → σ → Prop} {s s' : σ} {a : α}
    (h : wp W pre p post s) (hx : Exec W s p a s') : post a s' :=
  wp_iff_exec.mp (wp_weaken (fun _ _ _ => trivial) (fun _ _ h => h) h) a s' hx

/-- The call has an answer. -/
def HasAnswer (W : World S σ) (s : σ) (o : S.Op) : Prop :=
  ∃ r s', W s o r s'

/-- A program whose every call has an answer has an execution, and it ends
as they all do. -/
theorem exec_of_wp {p : Prog S α} {post : α → σ → Prop} {s : σ}
    (h : wp W (HasAnswer W) p post s) :
    ∃ a s', Exec W s p a s' ∧ post a s' := by
  induction p generalizing s with
  | ret a => exact ⟨a, s, .ret, h⟩
  | call o k ih =>
      obtain ⟨⟨r, s', hw⟩, hk⟩ := h
      obtain ⟨a, s'', hx, hp⟩ := ih r (hk r s' hw)
      exact ⟨a, s'', .call hw hx, hp⟩

/-! ## Which calls a program makes -/

/-- Every call `p` can make is one of `C`. -/
def Prog.Calls (C : S.Op → Prop) : Prog S α → Prop
  | .ret _ => True
  | .call o k => C o ∧ ∀ r, (k r).Calls C

theorem Prog.calls_mono {C C' : S.Op → Prop} (h : ∀ o, C o → C' o)
    {p : Prog S α} (hp : p.Calls C) : p.Calls C' := by
  induction p with
  | ret a => trivial
  | call o k ih => exact ⟨h o hp.1, fun r => ih r (hp.2 r)⟩

theorem Prog.calls_bind {C : S.Op → Prop} {p : Prog S α}
    {f : α → Prog S β} (hp : p.Calls C) (hf : ∀ a, (f a).Calls C) :
    (p >>= f).Calls C := by
  induction p with
  | ret a => exact hf a
  | call o k ih => exact ⟨hp.1, fun r => ih r (hp.2 r)⟩

theorem Prog.calls_bind_except {C : S.Op → Prop}
    {x : ExceptT ε (Prog S) α} {f : α → ExceptT ε (Prog S) β}
    (hx : Prog.Calls C x.run) (hf : ∀ a, Prog.Calls C (f a).run) :
    Prog.Calls C (x >>= f).run := by
  refine Prog.calls_bind (p := x.run) hx fun r => ?_
  cases r with
  | ok a => exact hf a
  | error e => trivial

/-- A program whose calls all preserve `I` preserves it. -/
theorem wp_of_calls {C : S.Op → Prop} {I : σ → Prop} {p : Prog S α}
    (hp : p.Calls C) (hpre : ∀ s o, C o → I s → pre s o)
    (step : ∀ s o r s', C o → I s → W s o r s' → I s') {s : σ}
    (hs : I s) : wp W pre p (fun _ s' => I s') s := by
  induction p generalizing s with
  | ret a => exact hs
  | call o k ih =>
      refine ⟨hpre s o hp.1 hs, fun r s' hw => ?_⟩
      exact ih r (hp.2 r) (step s o r s' hp.1 hs hw)

/-- The calls a program makes are among those it can make. -/
theorem wp_calls {C : S.Op → Prop} {p : Prog S α} {post : α → σ → Prop}
    {s : σ} (hc : p.Calls C) (hp : wp W pre p post s) :
    wp W (fun _ o => C o) p post s := by
  induction p generalizing s with
  | ret a => exact hp
  | call o k ih => exact ⟨hc.1, fun r s' hw => ih r (hc.2 r) (hp.2 r s' hw)⟩

/-! ## Writing down what was called -/

/-- A world together with the calls made so far, newest first. -/
def logged (W : World S σ) : World S (σ × List (Event S)) :=
  fun q o r q' => W q.1 o r q'.1 ∧ q'.2 = ⟨o, r⟩ :: q.2

theorem wp_logged_call {pre : σ × List (Event S) → S.Op → Prop}
    {o : S.Op} {k : S.Ans o → Prog S α}
    {post : α → σ × List (Event S) → Prop} {s : σ} {l : List (Event S)} :
    wp (logged W) pre (.call o k) post (s, l) ↔
      pre (s, l) o ∧ ∀ r s', W s o r s' →
        wp (logged W) pre (k r) post (s', ⟨o, r⟩ :: l) := by
  refine and_congr_right fun _ => forall_congr' fun r => ?_
  constructor
  · exact fun h s' hw => h (s', _) ⟨hw, rfl⟩
  · rintro h ⟨s', l'⟩ ⟨hw, rfl⟩
    exact h s' hw

/-! ## Programs that may fail -/

/-- The rule for the early return of a failing step. -/
theorem wp_bind_except {x : ExceptT ε (Prog S) α}
    {f : α → ExceptT ε (Prog S) β} {post : Except ε β → σ → Prop} {s : σ} :
    wp W pre (x >>= f).run post s ↔
      wp W pre x.run (fun r s' => match r with
        | .ok a => wp W pre (f a).run post s'
        | .error e => post (.error e) s') s := by
  refine (wp_bind (p := x.run)).trans ?_
  constructor <;> refine wp_mono fun r s' h => ?_
  · cases r <;> exact h
  · cases r <;> exact h

@[simp] theorem wp_pure_except {a : α} {post : Except ε α → σ → Prop}
    {s : σ} :
    wp W pre (pure a : ExceptT ε (Prog S) α).run post s ↔
      post (.ok a) s := Iff.rfl

@[simp] theorem wp_throw_except {e : ε} {post : Except ε α → σ → Prop}
    {s : σ} :
    wp W pre (throw e : ExceptT ε (Prog S) α).run post s ↔
      post (.error e) s := Iff.rfl

end Wp

/-! ## Composing executions -/

section Exec

variable {S : Sig} {σ α β ε : Type} {W : World S σ} {s s' s'' : σ}

theorem Exec.bind {p : Prog S α} {f : α → Prog S β} {a : α} {b : β}
    (h : Exec W s p a s') (h' : Exec W s' (f a) b s'') :
    Exec W s (p >>= f) b s'' := by
  induction h with
  | ret => exact h'
  | call hw _ ih => exact .call hw (ih h')

/-- A step that succeeds hands its value on. -/
theorem Exec.bind_ok {x : ExceptT ε (Prog S) α} {f : α → ExceptT ε (Prog S) β}
    {a : α} {r : Except ε β} (h : Exec W s x.run (.ok a) s')
    (h' : Exec W s' (f a).run r s'') : Exec W s (x >>= f).run r s'' :=
  Exec.bind h h'

/-- A step that fails ends the program. -/
theorem Exec.bind_error {x : ExceptT ε (Prog S) α}
    {f : α → ExceptT ε (Prog S) β} {e : ε}
    (h : Exec W s x.run (.error e) s') :
    Exec W s (x >>= f).run (.error e) s' :=
  Exec.bind h .ret

end Exec

/-! ## Triples

A task that may fail, in a state that `I` holds of: what holds of the state
it leaves, with its value or with its error. -/

section Triple

variable {S : Sig} {σ α β ε : Type} {W : World S σ} {I : σ → Prop}
  {fail : ε → σ → Prop}

/-- What holds at the end, by how the task ended. -/
def Ends (post : α → σ → Prop) (fail : ε → σ → Prop) : Except ε α → σ → Prop
  | .ok a, s => post a s
  | .error e, s => fail e s

def Triple (W : World S σ) (I : σ → Prop) (t : ExceptT ε (Prog S) α)
    (post : α → σ → Prop) (fail : ε → σ → Prop) : Prop :=
  ∀ s, I s → wp W (fun _ _ => True) t.run (Ends post fail) s

theorem Triple.bind {x : ExceptT ε (Prog S) α}
    {f : α → ExceptT ε (Prog S) β} {mid : α → σ → Prop}
    {post : β → σ → Prop} (hx : Triple W I x mid fail)
    (hf : ∀ a, Triple W (mid a) (f a) post fail) :
    Triple W I (x >>= f) post fail := by
  intro s hs
  rw [wp_bind_except]
  refine wp_mono ?_ (hx s hs)
  intro r s' h
  cases r with
  | ok a => exact hf a s' h
  | error e => exact h

theorem Triple.pure {a : α} {post : α → σ → Prop}
    (h : ∀ s, I s → post a s) :
    Triple W I (pure a : ExceptT ε (Prog S) α) post fail :=
  fun s hs => h s hs

theorem Triple.throw {e : ε} {post : α → σ → Prop}
    (h : ∀ s, I s → fail e s) :
    Triple W I (throw e : ExceptT ε (Prog S) α) post fail :=
  fun s hs => h s hs

theorem Triple.weaken {t : ExceptT ε (Prog S) α} {J : σ → Prop}
    {post : α → σ → Prop} (h : Triple W I t post fail)
    (hI : ∀ s, J s → I s) : Triple W J t post fail :=
  fun s hs => h s (hI s hs)

theorem Triple.strengthen {t : ExceptT ε (Prog S) α} {post post' : α → σ → Prop}
    {fail' : ε → σ → Prop} (h : Triple W I t post fail)
    (hpost : ∀ a s, post a s → post' a s)
    (hfail : ∀ e s, fail e s → fail' e s) : Triple W I t post' fail' := by
  intro s hs
  refine wp_mono ?_ (h s hs)
  intro r s' hr
  cases r with
  | ok a => exact hpost a s' hr
  | error e => exact hfail e s' hr

theorem Triple.exec {t : ExceptT ε (Prog S) α} {post : α → σ → Prop}
    (h : Triple W I t post fail) {s s' : σ} {r : Except ε α} (hs : I s)
    (hx : Exec W s t.run r s') : Ends post fail r s' :=
  Exec.post (h s hs) hx

end Triple

/-! ## Runs that keep to a condition -/

section Guarded

variable {S : Sig} {σ α : Type} {W : World S σ} {P : σ → Prop}

/-- The calls after which `P` holds. -/
def guarded (P : σ → Prop) (W : World S σ) : World S σ :=
  fun s o r s' => W s o r s' ∧ P s'

/-- A condition that no call restores held all along when it holds in the
end. -/
theorem Exec.guarded (hback : ∀ s o r s', W s o r s' → P s' → P s)
    {p : Prog S α} {s s' : σ} {a : α} (hx : Exec W s p a s') (h : P s') :
    Exec (guarded P W) s p a s' ∧ P s := by
  induction hx with
  | ret => exact ⟨.ret, h⟩
  | call hw _ ih =>
      obtain ⟨hx, hs⟩ := ih h
      exact ⟨.call ⟨hw, hs⟩ hx, hback _ _ _ _ hw hs⟩

end Guarded

/-! ## Running a program

A world that is a function can be evaluated. `none` stands for a call
that has no answer. -/

/-- Runs `p` against a function that answers each call. -/
def Prog.eval {S : Sig} {σ α : Type}
    (h : σ → (o : S.Op) → Option (S.Ans o × σ)) :
    Prog S α → σ → Option (α × σ)
  | .ret a, s => some (a, s)
  | .call o k, s =>
      match h s o with
      | none => none
      | some (r, s') => (k r).eval h s'

theorem Prog.exec_of_eval {S : Sig} {σ α : Type} {W : World S σ}
    {h : σ → (o : S.Op) → Option (S.Ans o × σ)}
    (hW : ∀ s o r s', h s o = some (r, s') → W s o r s')
    {p : Prog S α} {s s' : σ} {a : α}
    (he : p.eval h s = some (a, s')) : Exec W s p a s' := by
  induction p generalizing s with
  | ret b =>
      obtain ⟨rfl, rfl⟩ := by simpa [Prog.eval] using he
      exact .ret
  | call o k ih =>
      simp only [Prog.eval] at he
      split at he
      · cases he
      · next r t hr => exact .call (hW s o r t hr) (ih r he)

end Effect
