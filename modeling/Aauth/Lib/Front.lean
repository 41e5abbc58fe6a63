import Aauth.Lib.Pool
import Aauth.Lib.Service

/-!
# Fronts of a pool

A front stands between callers and a service: what it is asked for it
either answers at once, or it makes one call of the service and writes the
reply in its own way. A pool of fronts then runs as the pool of their calls
does: with the same schedule, the same effects and the same states, each
thread as far as the call behind it. `Steps.behind_calls` says so of the
fronts of a service.
-/

namespace Effect

variable {S : Sig} {σ ι α β : Type}

inductive Front (S : Sig) (α β : Type) where
  | answers (a : α)
  | calls (p : Prog S β) (write : β → α)

def Front.prog : Front S α β → Prog S α
  | answers a => .ret a
  | calls p write => p >>= fun b => .ret (write b)

/-- The same, with every answer written once more. -/
def Front.map {γ : Type} (f : α → γ) : Front S α β → Front S γ β
  | answers a => answers (f a)
  | calls p write => calls p (f ∘ write)

theorem Front.prog_map {γ : Type} (f : α → γ) (x : Front S α β) :
    (x.map f).prog = x.prog >>= fun a => .ret (f a) := by
  cases x with
  | answers a => rfl
  | calls p write =>
      show _ = (p >>= fun b => Prog.ret (write b)) >>= fun a => .ret (f a)
      rw [Prog.bind_assoc]
      rfl

theorem bind_ret_eq_ret {p : Prog S β} {write : β → α} {a : α}
    (h : (p >>= fun b => .ret (write b)) = .ret a) :
    ∃ b, p = .ret b ∧ a = write b := by
  cases p with
  | ret b =>
      cases h
      exact ⟨b, rfl, rfl⟩
  | call o k => cases h

/-- A front's thread makes the next call of the thread behind it. -/
theorem bind_ret_eq_call {p : Prog S β} {write : β → α} {o : S.Op}
    {k : S.Ans o → Prog S α}
    (h : (p >>= fun b => .ret (write b)) = .call o k) :
    ∃ k', p = .call o k' ∧ k = fun r => k' r >>= fun b => .ret (write b) := by
  cases p with
  | ret b => cases h
  | call o' k' =>
      cases h
      exact ⟨k', rfl, rfl⟩

/-- Where the thread of a front stands, when `p` is the call behind it. -/
inductive Front.At (p : Prog S β) : Front S α β → Prog S α → Prop where
  | answered {a : α} : At p (.answers a) (.ret a)
  | called {q : Prog S β} {write : β → α} :
      At p (.calls q write) (p >>= fun b => .ret (write b))

/-- A front that is done has answered at once, or has written the reply of
a call that is done. -/
theorem Front.At.ret {x : Front S α β} {p : Prog S β} {a : α}
    (h : x.At p (.ret a)) : x = .answers a ∨
      ∃ q write b, x = .calls q write ∧ p = .ret b ∧ a = write b := by
  generalize ht : Prog.ret a = t at h
  cases h with
  | answered =>
      cases ht
      exact .inl rfl
  | called =>
      obtain ⟨b, hb, ha⟩ := bind_ret_eq_ret ht.symm
      exact .inr ⟨_, _, b, rfl, hb, ha⟩

variable [DecidableEq ι] {W : World S σ}
  {G : σ → ι → S.Op → Prop}

/-- Fronts refine the calls behind them. -/
theorem Steps.behind {front : ι → Front S α β} {call : ι → Prog S β} {s : σ}
    (hcall : ∀ i p write, front i = .calls p write → call i = p)
    {l : List (ι × Event S)} {P : Pool S σ ι α}
    (run : Steps W (fun P => G P.state) ⟨s, fun i => (front i).prog⟩ l P) :
    ∃ Q, Steps W (fun Q => G Q.state) ⟨s, call⟩ l Q ∧ Q.state = P.state ∧
      ∀ i, (front i).At (Q.thread i) (P.thread i) := by
  induction run with
  | nil =>
      refine ⟨_, .nil, rfl, fun i => ?_⟩
      show (front i).At (call i) (front i).prog
      cases hf : front i with
      | answers a => exact .answered
      | calls p write =>
          rw [hcall i p write hf]
          exact .called
  | @step t P P' i e _ hg hs ih =>
      obtain ⟨Q, run', hstate, hat⟩ := ih
      obtain ⟨k, hk, hk', hw⟩ := hs.self
      -- the front that steps is one that calls
      obtain ⟨p, write, k', hf, hq, rfl⟩ : ∃ p write k', front i =
          .calls p write ∧ Q.thread i = .call e.op k' ∧
          k = fun r => k' r >>= fun b => .ret (write b) := by
        have h := hat i
        rw [hk] at h
        generalize ht : Prog.call e.op k = t at h
        generalize front i = x at h ⊢
        cases h with
        | answered => cases ht
        | called =>
            obtain ⟨k', hk', hcont⟩ := bind_ret_eq_call ht.symm
            exact ⟨_, _, k', rfl, hk', hcont⟩
      refine ⟨⟨P'.state, Function.update Q.thread i (k' e.ans)⟩,
        .step run' (hstate.symm ▸ hg) (.mk hq (hstate.symm ▸ hw)), rfl,
          fun j => ?_⟩
      by_cases hj : j = i
      · subst hj
        show (front j).At (Function.update Q.thread j _ j) _
        rw [Function.update_self, hk', hf]
        exact .called
      · show (front j).At (Function.update Q.thread i _ j) _
        rw [Function.update_of_ne hj, hs.frame hj]
        exact hat j

/-! ## In front of a service -/

/-- A thread that makes one call of a service, and the call it was. -/
def Service.thread (V : Service S) (c : V.Call) :
    Prog S (Σ c, V.Reply c) :=
  V.prog c >>= fun reply => .ret ⟨c, reply⟩

/-- What is asked of the service is one call of it, or is answered. -/
def Service.front (V : Service S) (write : (Σ c, V.Reply c) → α) :
    Except α V.Call → Front S α (Σ c, V.Reply c)
  | .error a => .answers a
  | .ok c => .calls (V.thread c) write

/-- A path of a program that writes its result is one of the program. -/
theorem Path.bind_ret {p : Prog S β} {write : β → α} {l : List (Event S)}
    {q : Prog S α} (path : Path (p >>= fun b => .ret (write b)) l q) :
    ∃ q', Path p l q' ∧ q = q' >>= fun b => .ret (write b) := by
  generalize ht : (p >>= fun b => Prog.ret (write b)) = t at path
  induction path with
  | nil =>
      subst ht
      exact ⟨p, .nil, rfl⟩
  | cons r _ ih =>
      obtain ⟨q', path', hq⟩ := ih
      obtain ⟨k', rfl, rfl⟩ := bind_ret_eq_call hq.symm
      exact ⟨k' r, .cons r path', rfl⟩

/-- The thread of a call ends with a reply to that call. -/
theorem Steps.replied {V : Service S} {calls : ι → V.Call} {s : σ}
    {G : Pool S σ ι (Σ c, V.Reply c) → ι → S.Op → Prop}
    {l : List (ι × Event S)} {Q : Pool S σ ι (Σ c, V.Reply c)}
    (run : Steps W G ⟨s, fun i => V.thread (calls i)⟩ l Q) {i : ι}
    {b : Σ c, V.Reply c} (h : Q.thread i = .ret b) :
    ∃ reply, b = ⟨calls i, reply⟩ ∧
      Path (V.prog (calls i)) (proj i l) (.ret reply) := by
  have path : Path (V.thread (calls i)) (proj i l) (Q.thread i) :=
    run.path i
  obtain ⟨q, path', hq⟩ := path.bind_ret
  obtain ⟨reply, rfl, hb⟩ := bind_ret_eq_ret (hq.symm.trans h)
  exact ⟨reply, hb, path'⟩

/-- How `a` came about, of somebody who asked for `x`: it was the answer, or
it is the reply of the call as `write` writes it. -/
inductive Service.Wrote {V : Service S} (write : (Σ c, V.Reply c) → α)
    (t : Prog S (Σ c, V.Reply c)) : Except α V.Call → α → Prop where
  | answered {a : α} : Wrote write t (.error a) a
  | replied {c : V.Call} {reply : V.Reply c} : t = .ret ⟨c, reply⟩ →
      Wrote write t (.ok c) (write ⟨c, reply⟩)

section Wrote

variable {V : Service S} {write : (Σ c, V.Reply c) → α}
  {t : Prog S (Σ c, V.Reply c)} {a a' : α}

theorem Service.Wrote.of_error (h : V.Wrote write t (.error a) a') :
    a' = a := by
  cases h
  rfl

theorem Service.Wrote.of_ok {c : V.Call} (h : V.Wrote write t (.ok c) a) :
    ∃ reply, t = .ret ⟨c, reply⟩ ∧ a = write ⟨c, reply⟩ := by
  cases h with
  | replied ht => exact ⟨_, ht, rfl⟩

end Wrote

/-- Whatever is asked of a service side by side, the service runs as the
calls asked for do, and each answer is what one of them replied. -/
theorem Steps.behind_calls {V : Service S} {write : (Σ c, V.Reply c) → α}
    {finish : ι → α → α} {asks : ι → Except α V.Call} {calls : ι → V.Call}
    (hcalls : ∀ i c, asks i = .ok c → calls i = c) {s : σ}
    {l : List (ι × Event S)} {P : Pool S σ ι α}
    (run : Steps W (fun P => G P.state)
      ⟨s, fun i => ((V.front write (asks i)).map (finish i)).prog⟩ l P) :
    ∃ Q, Steps W (fun Q => G Q.state) ⟨s, fun i => V.thread (calls i)⟩ l Q ∧
      Q.state = P.state ∧ ∀ i a, P.thread i = .ret a → ∃ a',
        a = finish i a' ∧ Service.Wrote write (Q.thread i) (asks i) a' := by
  have hcall : ∀ i p f, (V.front write (asks i)).map (finish i) =
      .calls p f → V.thread (calls i) = p := by
    intro i p f h
    cases hx : asks i with
    | error a =>
        rw [hx] at h
        cases h
    | ok c =>
        rw [hx] at h
        cases h
        rw [hcalls i c hx]
  obtain ⟨Q, run', hstate, hat⟩ := run.behind hcall
  refine ⟨Q, run', hstate, fun i a ha => ?_⟩
  have h := hat i
  rw [ha] at h
  cases hx : asks i with
  | error a' =>
      rw [hx] at h
      rcases h.ret with h | ⟨q, f, b, h, -, -⟩
      · cases h
        exact ⟨a', rfl, .answered⟩
      · cases h
  | ok c =>
      rw [hx] at h
      rcases h.ret with h | ⟨q, f, b, hf, hb, rfl⟩
      · cases h
      · injection hf with hq hf
        subst hf
        obtain ⟨reply, rfl, -⟩ := run'.replied hb
        obtain rfl := hcalls i c hx
        exact ⟨_, rfl, .replied hb⟩

/-- A router that answers so, or asks for a call, is the calls it asks for;
who asks for none makes `idle`, which does nothing. -/
theorem Steps.behind_router {V : Service S}
    {write : (Σ c, V.Reply c) → α} {finish : ι → α → α}
    {asks : ι → Except α V.Call} {router : ι → Prog S α} (idle : V.Call)
    (hrouter : ∀ i, router i =
      ((V.front write (asks i)).map (finish i)).prog) {s : σ}
    {l : List (ι × Event S)} {P : Pool S σ ι α}
    (run : Steps W (fun P => G P.state) ⟨s, router⟩ l P) :
    ∃ Q, Steps W (fun Q => G Q.state)
        ⟨s, fun i => V.thread ((asks i).toOption.getD idle)⟩ l Q ∧
      Q.state = P.state ∧ ∀ i a, P.thread i = .ret a → ∃ a',
        a = finish i a' ∧ Service.Wrote write (Q.thread i) (asks i) a' := by
  rw [funext hrouter] at run
  refine run.behind_calls fun i c hc => ?_
  rw [hc]
  rfl

end Effect
