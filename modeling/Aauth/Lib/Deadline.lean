import Mathlib.Algebra.GroupWithZero.Nat
import Aauth.Lib.Prog

/-!
# Loops that watch a clock

A loop that reads the clock before each of its rounds and stops at a
deadline, and whose rounds end with a sleep. How long a round sleeps may
depend on what it was answered and on a backoff that grows from round to
round. The deadline bounds the time at which a round begins; it bounds the
sleeping only as far as no single sleep goes past it (`FitsIn`).

Time is a state of the world: it never runs backward, a reading shows it,
and a sleep lasts at least as long as it was asked to.
-/

namespace Effect

/-! ## Time -/

/-- Which calls read the clock, and how long a call sleeps. -/
structure Timing (S : Sig) where
  reading : (o : S.Op) → S.Ans o → Option Nat
  sleep : S.Op → Nat

namespace Timing

variable {S : Sig} (T : Timing S)

/-- Calls answer as `env` allows and take their time. -/
def world (env : (o : S.Op) → S.Ans o → Prop) : World S Nat :=
  fun t o r t' => env o r ∧ t + T.sleep o ≤ t' ∧
    ∀ now, T.reading o r = some now → now = t'

/-- How long the calls of a log slept. -/
def slept (l : List (Event S)) : Nat := (l.map fun e => T.sleep e.op).sum

@[simp] theorem slept_nil : T.slept [] = 0 := rfl

@[simp] theorem slept_cons (e : Event S) (l : List (Event S)) :
    T.slept (e :: l) = T.sleep e.op + T.slept l := rfl

end Timing

/-! ## Sleeps that fit before a deadline -/

/-- No sleep that begins before the limit goes past it. -/
def FitsIn : Nat → List Nat → Prop
  | _, [] => True
  | limit, w :: ws => 0 < limit → w ≤ limit ∧ FitsIn (limit - w) ws

instance FitsIn.decide : (limit : Nat) → (ws : List Nat) →
    Decidable (FitsIn limit ws)
  | _, [] => .isTrue trivial
  | limit, w :: ws =>
      have := FitsIn.decide (limit - w) ws
      inferInstanceAs (Decidable (0 < limit → _ ∧ _))

theorem fitsIn_zero (ws : List Nat) : FitsIn 0 ws := by
  cases ws with
  | nil => trivial
  | cons w ws =>
      intro h
      omega

theorem FitsIn.of_prefix {ws vs : List Nat} {limit : Nat}
    (hp : vs <+: ws) (h : FitsIn limit ws) : FitsIn limit vs := by
  induction vs generalizing ws limit with
  | nil => trivial
  | cons v vs ih =>
      obtain ⟨us, rfl⟩ := hp
      intro hl
      obtain ⟨hv, hrest⟩ := h hl
      exact ⟨hv, ih ⟨us, rfl⟩ hrest⟩

/-- The sleep that comes next ends in time. -/
theorem FitsIn.next {ws : List Nat} {w limit : Nat}
    (h : FitsIn limit (ws ++ [w])) (hs : ws.sum < limit) :
    ws.sum + w ≤ limit := by
  induction ws generalizing limit with
  | nil =>
      obtain ⟨hw, -⟩ := h hs
      simp only [List.sum_nil]
      omega
  | cons v ws ih =>
      rw [List.sum_cons] at hs ⊢
      obtain ⟨-, hrest⟩ := h (by omega)
      have hle := ih hrest (by omega)
      omega

/-! ## Backoff -/

/-- The sleep after a response, and the next backoff, from the last one. -/
structure Pacing (R : Type) where
  wait : Nat → R → Nat
  next : Nat → R → Nat

namespace Pacing

variable {R : Type} (P : Pacing R)

def backoff (b : Nat) (rs : List R) : Nat := rs.foldl P.next b

def waits : Nat → List R → List Nat
  | _, [] => []
  | b, r :: rs => P.wait b r :: waits (P.next b r) rs

theorem backoff_concat (b : Nat) (rs : List R) (r : R) :
    P.backoff b (rs ++ [r]) = P.next (P.backoff b rs) r := by
  rw [backoff, List.foldl_append]
  rfl

theorem waits_append (b : Nat) (rs rs' : List R) :
    P.waits b (rs ++ rs') = P.waits b rs ++ P.waits (P.backoff b rs) rs' := by
  induction rs generalizing b with
  | nil => rfl
  | cons r rs ih =>
      rw [List.cons_append, waits, ih]
      rfl

theorem waits_concat (b : Nat) (rs : List R) (r : R) :
    P.waits b (rs ++ [r]) = P.waits b rs ++ [P.wait (P.backoff b rs) r] :=
  P.waits_append b rs [r]

theorem waits_prefix {rs rs' : List R} (b : Nat) (h : rs <+: rs') :
    P.waits b rs <+: P.waits b rs' := by
  obtain ⟨us, rfl⟩ := h
  rw [waits_append]
  exact List.prefix_append _ _

theorem length_waits (b : Nat) (rs : List R) :
    (P.waits b rs).length = rs.length := by
  induction rs generalizing b with
  | nil => rfl
  | cons r rs ih => rw [waits, List.length_cons, ih, List.length_cons]

end Pacing

/-- A list all of whose members satisfy `p` is within the part that does. -/
theorem prefix_takeWhile {R : Type} {p : R → Bool} {rs rs' : List R}
    (h : rs <+: rs') (hp : ∀ r ∈ rs, p r = true) :
    rs <+: rs'.takeWhile p := by
  obtain ⟨us, rfl⟩ := h
  rw [List.takeWhile_append_of_pos hp]
  exact List.prefix_append _ _

/-! ## The loop -/

section Loop

variable {S : Sig} {α ε : Type}

/-- Rounds until one has an answer or the clock shows the deadline. -/
def deadlineLoop (clock : ExceptT ε (Prog S) Nat) (deadline : Nat)
    (round : Nat → ExceptT ε (Prog S) (α ⊕ Nat)) (late out : ε) :
    Nat → Nat → ExceptT ε (Prog S) α
  | 0, _ => throw out
  | fuel + 1, b => do
      let now ← clock
      if now < deadline then
        match ← round b with
        | .inl a => return a
        | .inr b => deadlineLoop clock deadline round late out fuel b
      else throw late

variable {R : Type} {T : Timing S} {env : (o : S.Op) → S.Ans o → Prop}
  {P : Pacing R} {responses : List (Event S) → List R} {goesOn : R → Bool}
  {failed : ε → List (Event S) → Prop} {b₀ : Nat}
  {clock : ExceptT ε (Prog S) Nat} {round : Nat → ExceptT ε (Prog S) (α ⊕ Nat)}

/-- At every time, no more has been slept than has passed. -/
theorem Timing.wp_elapsed {β : Type} {p : Prog S β} {begun t : Nat}
    {l : List (Event S)} (h : begun + T.slept l ≤ t) :
    wp (logged (T.world env)) (fun _ _ => True) p
      (fun _ q => begun + T.slept q.2 ≤ q.1) (t, l) := by
  induction p generalizing t l with
  | ret a => exact h
  | call o k ih =>
      refine wp_logged_call.mpr ⟨trivial, fun r t' hw => ih r ?_⟩
      obtain ⟨-, hle, -⟩ := hw
      rw [T.slept_cons]
      show begun + (T.sleep o + T.slept l) ≤ t'
      omega

variable (T P responses goesOn failed) in
/-- How a round begun with backoff `b` ends: it slept after a response that
goes on, or it ended with no sleep. -/
def RoundEnd (b : Nat) (l : List (Event S)) :
    Except ε (α ⊕ Nat) → Nat × List (Event S) → Prop
  | .ok (.inr b'), q => ∃ r, goesOn r = true ∧
      responses q.2 = r :: responses l ∧ b' = P.next b r ∧
      T.slept q.2 = T.slept l + P.wait b r
  | .ok (.inl _), q => T.slept q.2 = T.slept l ∧
      ∃ r ∈ responses q.2, goesOn r = false
  | .error e, q => T.slept q.2 = T.slept l ∧ failed e q.2

variable (T env P responses goesOn failed clock round) in
/-- What a loop's clock and rounds do, whatever they are answered. -/
structure Rounds : Prop where
  clock : ∀ t l, wp (logged (T.world env)) (fun _ _ => True) clock.run
    (fun r q => r = .ok q.1 ∧ responses q.2 = responses l ∧
      T.slept q.2 = T.slept l) (t, l)
  round : ∀ b t l, wp (logged (T.world env)) (fun _ _ => True) (round b).run
    (RoundEnd T P responses goesOn failed b l) (t, l)

variable (T P responses goesOn b₀) in
/-- As far as the responses' sleeps fit in the limit, it was kept to. -/
def KeptWithin (limit : Nat) (l : List (Event S)) : Prop :=
  ∀ rs, (responses l).reverse <+: rs →
    FitsIn limit (P.waits b₀ (rs.takeWhile goesOn)) → T.slept l ≤ limit

variable (T P responses goesOn b₀) in
/-- At the head of the loop: all responses went on, and each was slept
after. -/
structure AtHead (begun limit b : Nat) (q : Nat × List (Event S)) : Prop where
  elapsed : begun + T.slept q.2 ≤ q.1
  goes : ∀ r ∈ (responses q.2).reverse, goesOn r = true
  backoff : b = P.backoff b₀ (responses q.2).reverse
  slept : T.slept q.2 = (P.waits b₀ (responses q.2).reverse).sum
  within : KeptWithin T P responses goesOn b₀ limit q.2

theorem keptWithin_of_le {limit : Nat} {l : List (Event S)}
    (h : T.slept l ≤ limit) : KeptWithin T P responses goesOn b₀ limit l :=
  fun _ _ _ => h

/-- A round that goes on leads from one head to the next. -/
theorem AtHead.again {begun limit b t' : Nat} {q : Nat × List (Event S)}
    {l' : List (Event S)} {r : R}
    (h : AtHead T P responses goesOn b₀ begun limit b q)
    (hq : T.slept q.2 < limit) (hgo : goesOn r = true)
    (hr : responses l' = r :: responses q.2)
    (hs : T.slept l' = T.slept q.2 + P.wait b r)
    (ht : begun + T.slept l' ≤ t') :
    AtHead T P responses goesOn b₀ begun limit (P.next b r) (t', l') := by
  have hrev : (responses l').reverse = (responses q.2).reverse ++ [r] := by
    rw [hr, List.reverse_cons]
  have hgoes : ∀ x ∈ (responses l').reverse, goesOn x = true := by
    rw [hrev]
    intro x hx
    rcases List.mem_append.mp hx with hx | hx
    · exact h.goes x hx
    · rw [List.mem_singleton.mp hx]
      exact hgo
  have hwaits : P.waits b₀ (responses l').reverse =
      P.waits b₀ (responses q.2).reverse ++ [P.wait b r] := by
    rw [hrev, P.waits_concat, ← h.backoff]
  refine ⟨ht, hgoes, ?_, ?_, ?_⟩
  · show P.next b r = P.backoff b₀ (responses l').reverse
    rw [hrev, P.backoff_concat, ← h.backoff]
  · show T.slept l' = (P.waits b₀ (responses l').reverse).sum
    rw [hwaits, List.sum_append, hs, h.slept, List.sum_singleton]
  · intro rs hp hfit
    have hpre := P.waits_prefix b₀ (prefix_takeWhile hp hgoes)
    rw [hwaits] at hpre
    rw [h.slept] at hq
    have hle := (hfit.of_prefix hpre).next hq
    show T.slept l' ≤ limit
    rw [hs, h.slept]
    exact hle

/-- Reading the clock leaves everything else as it was. -/
theorem AtHead.read {begun limit b t' : Nat} {q : Nat × List (Event S)}
    {l' : List (Event S)}
    (h : AtHead T P responses goesOn b₀ begun limit b q)
    (hr : responses l' = responses q.2) (hs : T.slept l' = T.slept q.2)
    (ht : begun + T.slept l' ≤ t') :
    AtHead T P responses goesOn b₀ begun limit b (t', l') := by
  refine ⟨ht, ?_, ?_, ?_, ?_⟩
  · show ∀ r ∈ (responses l').reverse, goesOn r = true
    rw [hr]
    exact h.goes
  · show b = P.backoff b₀ (responses l').reverse
    rw [hr]
    exact h.backoff
  · show T.slept l' = (P.waits b₀ (responses l').reverse).sum
    rw [hr, hs]
    exact h.slept
  · intro rs hp hfit
    rw [hr] at hp
    show T.slept l' ≤ limit
    rw [hs]
    exact h.within rs hp hfit

/-- A run sleeps no longer than the limit when the responses' sleeps fit in
it. -/
theorem deadlineLoop_within {late out : ε} {begun limit fuel b : Nat}
    (hround : Rounds T env P responses goesOn failed clock round)
    {q : Nat × List (Event S)}
    (hq : AtHead T P responses goesOn b₀ begun limit b q) :
    wp (logged (T.world env)) (fun _ _ => True)
      (deadlineLoop clock (begun + limit) round late out fuel b).run
      (fun _ q => KeptWithin T P responses goesOn b₀ limit q.2) q := by
  induction fuel generalizing b q with
  | zero => exact hq.within
  | succ fuel ih =>
      rw [deadlineLoop, wp_bind_except]
      refine wp_mono ?_ (wp_and (hround.clock q.1 q.2)
        (Timing.wp_elapsed hq.elapsed))
      intro r q' hend
      obtain ⟨⟨rfl, hr, hs⟩, helapsed⟩ := hend
      have hhead := hq.read hr hs helapsed
      by_cases hnow : q'.1 < begun + limit
      · have hlt : T.slept q'.2 < limit := by
          omega
        simp only [hnow, if_true]
        rw [wp_bind_except]
        refine wp_mono ?_ (wp_and (hround.round b q'.1 q'.2)
          (Timing.wp_elapsed helapsed))
        intro r q'' hend
        obtain ⟨hend, helapsed'⟩ := hend
        cases r with
        | error e =>
            obtain ⟨hs', -⟩ := hend
            exact keptWithin_of_le (by omega)
        | ok next =>
            cases next with
            | inl a =>
                obtain ⟨hs', -⟩ := hend
                exact keptWithin_of_le (by omega)
            | inr b' =>
                obtain ⟨r, hgo, hr', rfl, hs'⟩ := hend
                exact ih (hhead.again hlt hgo hr' hs' helapsed')
      · simp only [hnow, if_false]
        exact hhead.within

/-! ## Termination -/

variable (P responses goesOn failed b₀) in
/-- What ends a loop before its deadline: a response that does not go on, a
sleep shorter than a tick, a round that fails. -/
def Interrupted (tick : Nat) (late : ε) (r : Except ε α)
    (l : List (Event S)) : Prop :=
  (∃ x ∈ responses l, goesOn x = false) ∨
  (∃ w ∈ P.waits b₀ (responses l).reverse, w < tick) ∨
  ∃ e, r = .error e ∧ e ≠ late ∧ failed e l

/-- With a round for each tick of the limit, a loop that nothing interrupts
ends at its deadline. -/
theorem deadlineLoop_late {late out : ε} {begun limit fuel b tick : Nat}
    (hround : Rounds T env P responses goesOn failed clock round)
    {q : Nat × List (Event S)}
    (hq : AtHead T P responses goesOn b₀ begun limit b q)
    (hfuel : (0 < fuel ∧ limit + tick ≤ T.slept q.2 + fuel * tick) ∨
      ∃ w ∈ P.waits b₀ (responses q.2).reverse, w < tick) :
    wp (logged (T.world env)) (fun _ _ => True)
      (deadlineLoop clock (begun + limit) round late out fuel b).run
      (fun r q => r = .error late ∨
        Interrupted P responses goesOn failed b₀ tick late r q.2) q := by
  induction fuel generalizing b q with
  | zero =>
      rcases hfuel with ⟨hpos, -⟩ | hshort
      · omega
      · exact .inr (.inr (.inl hshort))
  | succ fuel ih =>
      rw [deadlineLoop, wp_bind_except]
      refine wp_mono ?_ (wp_and (hround.clock q.1 q.2)
        (Timing.wp_elapsed hq.elapsed))
      intro r q' hend
      obtain ⟨⟨rfl, hr, hs⟩, helapsed⟩ := hend
      have hhead := hq.read hr hs helapsed
      by_cases hnow : q'.1 < begun + limit
      · have hlt : T.slept q'.2 < limit := by
          omega
        simp only [hnow, if_true]
        rw [wp_bind_except]
        refine wp_mono ?_ (wp_and (hround.round b q'.1 q'.2)
          (Timing.wp_elapsed helapsed))
        intro r q'' hend
        obtain ⟨hend, helapsed'⟩ := hend
        cases r with
        | error e =>
            obtain ⟨-, hf⟩ := hend
            by_cases he : e = late
            · rw [he]
              exact .inl rfl
            · exact .inr (.inr (.inr ⟨e, rfl, he, hf⟩))
        | ok next =>
            cases next with
            | inl a =>
                obtain ⟨-, hstop⟩ := hend
                exact .inr (.inl hstop)
            | inr b' =>
                obtain ⟨r, hgo, hr', rfl, hs'⟩ := hend
                refine ih (hhead.again hlt hgo hr' hs' helapsed') ?_
                have hwaits : P.waits b₀ (responses q''.2).reverse =
                    P.waits b₀ (responses q'.2).reverse ++ [P.wait b r] := by
                  rw [hr', List.reverse_cons, P.waits_concat,
                    ← hhead.backoff]
                rw [hwaits]
                rcases hfuel with ⟨-, hfuel⟩ | ⟨w, hw, hshort⟩
                · by_cases hw : P.wait b r < tick
                  · exact .inr ⟨_, List.mem_append_right _
                      (List.mem_singleton_self _), hw⟩
                  · rw [Nat.add_mul, Nat.one_mul] at hfuel
                    have hpos : 0 < fuel := by
                      refine Nat.pos_of_ne_zero fun h => ?_
                      rw [h, Nat.zero_mul] at hfuel
                      omega
                    exact .inl ⟨hpos, by omega⟩
                · rw [← hr] at hw
                  exact .inr ⟨w, List.mem_append_left _ hw, hshort⟩
      · simp only [hnow, if_false]
        exact .inl rfl

/-! ## A run that sleeps too long -/

variable (T env P responses goesOn clock round) in
/-- A clock that can be read in no time, and rounds that can be served any
response that goes on. -/
structure Servable : Prop where
  clock : ∀ t l, ∃ l', Exec (logged (T.world env)) (t, l) clock.run (.ok t)
    (t, l') ∧ responses l' = responses l ∧ T.slept l' = T.slept l
  round : ∀ b t l r, goesOn r = true → ∃ l',
    Exec (logged (T.world env)) (t, l) (round b).run
      (.ok (.inr (P.next b r))) (t + P.wait b r, l') ∧
    responses l' = r :: responses l ∧ T.slept l' = T.slept l + P.wait b r

/-- Where a sleep does not fit, the loop can be served so that it sleeps
past the limit, and then stops at its deadline. -/
theorem deadlineLoop_exceeds (late out : ε) {limit fuel b : Nat}
    {rs : List R} (t : Nat) (l : List (Event S))
    (hserve : Servable T env P responses goesOn clock round)
    (hgo : ∀ r ∈ rs, goesOn r = true)
    (hfit : ¬ FitsIn limit (P.waits b rs)) (hfuel : rs.length < fuel) :
    ∃ t' l', Exec (logged (T.world env)) (t, l)
        (deadlineLoop clock (t + limit) round late out fuel b).run
        (.error late) (t', l') ∧
      (∃ rs', rs' <+: rs ∧ responses l' = rs'.reverse ++ responses l) ∧
      T.slept l + limit < T.slept l' := by
  induction rs generalizing limit fuel b t l with
  | nil => exact absurd trivial hfit
  | cons r rs ih =>
      obtain ⟨fuel, rfl⟩ : ∃ n, fuel = n + 1 := ⟨fuel - 1, by omega⟩
      rw [List.length_cons] at hfuel
      have hpos : 0 < limit := by
        refine Nat.pos_of_ne_zero fun h => ?_
        rw [h] at hfit
        exact hfit (fitsIn_zero _)
      obtain ⟨l₁, hx₁, hr₁, hs₁⟩ := hserve.clock t l
      obtain ⟨l₂, hx₂, hr₂, hs₂⟩ :=
        hserve.round b t l₁ r (hgo r List.mem_cons_self)
      have hnow : t < t + limit := by omega
      -- one round, whatever the loop does after it
      have hround : ∀ {a : Except ε α} {q : Nat × List (Event S)},
          Exec (logged (T.world env)) (t + P.wait b r, l₂)
            (deadlineLoop clock (t + limit) round late out fuel
              (P.next b r)).run a q →
          Exec (logged (T.world env)) (t, l)
            (deadlineLoop clock (t + limit) round late out (fuel + 1) b).run
            a q := by
        intro a q hx
        rw [deadlineLoop]
        refine Exec.bind_ok hx₁ ?_
        rw [if_pos hnow]
        exact Exec.bind_ok hx₂ hx
      by_cases hw : P.wait b r ≤ limit
      · have hrest : ¬ FitsIn (limit - P.wait b r)
            (P.waits (P.next b r) rs) := fun h => hfit fun _ => ⟨hw, h⟩
        have hdeadline : t + limit =
            t + P.wait b r + (limit - P.wait b r) := by omega
        have hgo' : ∀ x ∈ rs, goesOn x = true :=
          fun x hx => hgo x (List.mem_cons_of_mem _ hx)
        have hfuel' : rs.length < fuel := by omega
        obtain ⟨t', l', hx, ⟨rs', hp, hr⟩, hs⟩ :=
          ih (t + P.wait b r) l₂ hgo' hrest hfuel'
        rw [← hdeadline] at hx
        refine ⟨t', l', hround hx, ⟨r :: rs', ?_, ?_⟩, by omega⟩
        · exact List.cons_prefix_cons.mpr ⟨rfl, hp⟩
        · rw [hr, hr₂, hr₁, List.reverse_cons, List.append_assoc]
          rfl
      · obtain ⟨fuel, rfl⟩ : ∃ n, fuel = n + 1 := ⟨fuel - 1, by omega⟩
        obtain ⟨l₃, hx₃, hr₃, hs₃⟩ := hserve.clock (t + P.wait b r) l₂
        refine ⟨t + P.wait b r, l₃, hround ?_, ⟨[r], ?_, ?_⟩, by omega⟩
        · rw [deadlineLoop]
          refine Exec.bind_ok hx₃ ?_
          rw [if_neg (by omega)]
          exact .ret
        · exact List.cons_prefix_cons.mpr ⟨rfl, List.nil_prefix⟩
        · rw [hr₃, hr₂, hr₁]
          rfl

end Loop

end Effect
