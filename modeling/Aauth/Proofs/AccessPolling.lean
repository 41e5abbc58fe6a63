import Aauth.Proofs.Deadlines
import Aauth.Proofs.ServerNumbers

/-!
# The Person Server's poll of an Access Server

The second poll loop, with a clock of its own and the same shape. Its result
is what `pollPending` makes of the responses it got before its deadline, and
how long it sleeps is bounded as for the agent's.
-/

namespace Aauth

open Effect Except

namespace ReqwestAccessServerClient

abbrev ServerPollEvent := Event serverPollSig

def serverTiming : Timing serverPollSig where
  reading
    | .instantNow, now => some now
    | _, _ => none
  sleep
    | .sleep ms => durationFromMillis ms
    | _ => 0

/-- The one status that is slept after. -/
def unavailable (r : HttpResponse) : Bool := r.status = 503

def serverPacing : Pacing HttpResponse where
  wait b r := durationFromMillis
    (retryWait (parseRetryAfter (responseHeadersToHttp r.headers)) b)
  next b _ := min (b * 2) 30000

def gotResponse : ServerPollEvent → Option HttpResponse
  | ⟨.get _ _, .ok r⟩ => some r
  | _ => none

/-- The responses of a poll, newest first. -/
def gotResponses (l : List ServerPollEvent) : List HttpResponse :=
  l.filterMap gotResponse

theorem pollReply_none {cr : Crates} {url : String} {r : HttpResponse} :
    pollReply cr url r = .ok none ↔ r.status = 503 := by
  rw [pollReply]
  split
  · next h =>
    rw [h]
    refine ⟨fun he => ?_, fun he => (by cases he)⟩
    split at he <;> cases he
  · split
    · next h =>
      rw [h]
      exact ⟨fun he => (by cases he), fun he => (by cases he)⟩
    · split
      · next h =>
        rw [h]
        exact ⟨fun he => (by cases he), fun he => (by cases he)⟩
      · split
        · next h =>
          rw [h]
          refine ⟨fun he => ?_, fun he => (by cases he)⟩
          obtain ⟨parsed, -, hp⟩ := bind_eq_ok.mp he
          cases hp
        · split
          · next h => exact ⟨fun _ => h, fun _ => rfl⟩
          · next h => exact ⟨fun he => (by cases he), fun he => absurd he h⟩

/-- One round of the loop. -/
def serverRound (cr : Crates) (accessServerUrl : String)
    (options : ServerPollOptions) (b : Nat) :
    ServerPollTask (ServerPollOutcome ⊕ Nat) := do
  let response ← get options.locationUrl (HeaderMap.empty.insert "prefer"
    ("wait=" ++ (options.preferWait.getD 45).repr))
  let retryAfter := parseRetryAfter (responseHeadersToHttp response.headers)
  match pollReply cr accessServerUrl response with
  | .error e => throw (.error (.aauth e))
  | .ok (some outcome) => return .inl outcome
  | .ok none => do
      sleep (retryWait retryAfter b)
      return .inr (min (b * 2) 30000)

theorem pollRounds_eq {cr : Crates} {accessServerUrl : String}
    {options : ServerPollOptions} {maxDuration deadline fuel b : Nat} :
    pollRounds cr accessServerUrl options maxDuration deadline fuel b =
      deadlineLoop instantNow deadline (serverRound cr accessServerUrl options)
        (.error (.aauth (.deferred (.timedOut maxDuration)))) .fuel fuel b := by
  induction fuel generalizing b with
  | zero => rfl
  | succ fuel ih =>
      rw [pollRounds, deadlineLoop]
      refine congrArg (_ >>= ·) (funext fun now => ?_)
      by_cases hnow : now < deadline
      · rw [if_pos hnow, if_pos hnow, serverRound]
        simp only [Prog.bind_assoc_except]
        refine congrArg (_ >>= ·) (funext fun response => ?_)
        generalize pollReply cr accessServerUrl response = reply
        cases reply with
        | error e => rfl
        | ok outcome =>
            cases outcome with
            | some outcome => rfl
            | none =>
                simp only [Prog.bind_assoc_except]
                exact congrArg (_ >>= ·) (funext fun _ => ih)
      · rw [if_neg hnow, if_neg hnow]

section Server

variable {cr : Crates} {accessServerUrl : String} {options : ServerPollOptions}
  {env : (o : ServerPollOp) → serverPollSig.Ans o → Prop} {t b : Nat}
  {l : List ServerPollEvent} {r : HttpResponse}

abbrev serverTime (env : (o : ServerPollOp) → serverPollSig.Ans o → Prop) :
    World serverPollSig (Instant × List ServerPollEvent) :=
  logged (serverTiming.world env)

/-- A round fails on a request that is not answered, or on an answer that is
no `503`. -/
def RoundFailed (_ : Halt) (l : List ServerPollEvent) : Prop :=
  (∃ url headers e, ⟨.get url headers, .error e⟩ ∈ l) ∨
    ∃ r ∈ gotResponses l, unavailable r = false

theorem unavailable_false {url : String} {x : AAuthResult _}
    (h : pollReply cr url r = x) (hx : x ≠ .ok none) :
    unavailable r = false := by
  refine decide_eq_false fun hr => hx ?_
  rw [← h]
  exact pollReply_none.mpr hr

theorem serverRounds : Rounds serverTiming env serverPacing gotResponses
    unavailable RoundFailed instantNow
    (serverRound cr accessServerUrl options) where
  clock t l := by
    refine wp_logged_call.mpr ⟨trivial, fun now t' hw => ?_⟩
    obtain ⟨-, -, hnow⟩ := hw
    rw [hnow now rfl]
    exact ⟨rfl, rfl, Nat.zero_add _⟩
  round b t l := by
    rw [serverRound, wp_bind_except]
    refine wp_logged_call.mpr ⟨trivial, fun x t' _ => ?_⟩
    cases x with
    | error e =>
        exact ⟨Nat.zero_add _, .inl ⟨_, _, e, List.mem_cons_self⟩⟩
    | ok r =>
        have hslept : ∀ {url headers}, serverTiming.slept
            (⟨.get url headers, .ok r⟩ :: l) = serverTiming.slept l :=
          Nat.zero_add _
        show wp _ _ (ExceptT.run (match pollReply cr accessServerUrl r with
          | .error e => _
          | .ok (some outcome) => _
          | .ok none => _)) _ _
        split
        · next e he =>
          exact ⟨hslept, .inr ⟨r, List.mem_cons_self,
            unavailable_false he (by simp)⟩⟩
        · next outcome ho =>
          exact ⟨hslept, r, List.mem_cons_self,
            unavailable_false ho (by simp)⟩
        · next hn =>
          rw [wp_bind_except]
          refine wp_logged_call.mpr ⟨trivial, fun u t' _ => ?_⟩
          refine ⟨r, decide_eq_true (pollReply_none.mp hn), rfl, rfl, ?_⟩
          show durationFromMillis _ + serverTiming.slept (_ :: l) = _
          rw [hslept, Nat.add_comm]
          rfl

/-! ## The whole poll -/

def serverLimit (options : ServerPollOptions) : Nat :=
  durationFromSecs (options.maxPollDurationSecs.getD 300)

def serverLate (options : ServerPollOptions) : Halt :=
  .error (.aauth (.deferred (.timedOut
    (options.maxPollDurationSecs.getD 300))))

abbrev ServerHead (options : ServerPollOptions) (begun : Instant) (b : Nat)
    (q : Instant × List ServerPollEvent) : Prop :=
  AtHead serverTiming serverPacing gotResponses unavailable 1000 begun
    (serverLimit options) b q

/-- The loop, from its deadline on. -/
abbrev serverLoop (cr : Crates) (accessServerUrl : String)
    (options : ServerPollOptions) (deadline : Instant) (fuel : Nat) :
    ServerPollTask ServerPollOutcome :=
  deadlineLoop instantNow deadline (serverRound cr accessServerUrl options)
    (serverLate options) .fuel fuel 1000

theorem wp_pollPendingTimed {fuel : Nat}
    {post : Except Halt ServerPollOutcome → Instant × List ServerPollEvent →
      Prop}
    (hpanic : ∀ m begun t', Instant.add begun (serverLimit options) = none →
      post (.error (.panicked m)) (t', [⟨.instantNow, begun⟩]))
    (hloop : ∀ begun t', ServerHead options begun 1000
        (t', [⟨.instantNow, begun⟩]) →
      begun + serverLimit options < INSTANT_LIMIT →
      wp (serverTime env) (fun _ _ => True) (serverLoop cr accessServerUrl
        options (begun + serverLimit options) fuel).run post
          (t', [⟨.instantNow, begun⟩])) :
    wp (serverTime env) (fun _ _ => True)
      (pollPendingTimed cr fuel accessServerUrl options).run post (t, []) := by
  rw [pollPendingTimed, wp_bind_except]
  refine wp_logged_call.mpr ⟨trivial, fun begun t' hw => ?_⟩
  obtain ⟨-, -, hnow⟩ := hw
  have hbegun : begun = t' := hnow begun rfl
  show wp _ _ (ExceptT.run (ExceptT.mk (.ret (((Instant.add begun
    (serverLimit options)).okOr _).mapError _)) >>= _)) _ _
  cases hd : Instant.add begun (serverLimit options) with
  | none => exact hpanic _ begun t' hd
  | some deadline =>
      have hlimit := hd
      rw [Instant.add] at hlimit
      split at hlimit
      · next hlt =>
        cases hlimit
        show wp _ _ (ExceptT.run (pollRounds _ _ _ _ _ _ _)) _ _
        rw [pollRounds_eq]
        refine hloop begun t' ⟨Nat.le_of_eq hbegun, ?_, rfl, rfl,
          keptWithin_of_le (Nat.zero_le _)⟩ hlt
        intro r hr
        cases hr
      · cases hlimit

theorem server_keptWithin {fuel : Nat}
    {result : Except Halt ServerPollOutcome} {t' : Instant}
    (hx : Exec (serverTime env) (t, [])
      (pollPendingTimed cr fuel accessServerUrl options).run result (t', l)) :
    KeptWithin serverTiming serverPacing gotResponses unavailable 1000
      (serverLimit options) l := by
  have hwp : wp (serverTime env) (fun _ _ => True)
      (pollPendingTimed cr fuel accessServerUrl options).run
      (fun _ q => KeptWithin serverTiming serverPacing gotResponses
        unavailable 1000 (serverLimit options) q.2) (t, []) := by
    refine wp_pollPendingTimed (fun m begun t' _ => ?_)
      fun begun t' hq _ => ?_
    · exact keptWithin_of_le (Nat.zero_le _)
    · exact deadlineLoop_within serverRounds hq
  have hkept := Exec.post hwp hx
  exact hkept

/-! ## Serving the loop -/

abbrev serverFree : World serverPollSig (Instant × List ServerPollEvent) :=
  serverTime fun _ _ => True

theorem exec_instantNow :
    Exec serverFree (t, l) instantNow.run (.ok t)
      (t, ⟨.instantNow, t⟩ :: l) := by
  refine .call (r := t) ⟨⟨trivial, Nat.le_refl _, fun now h => ?_⟩, rfl⟩ .ret
  exact (Option.some.inj h).symm

theorem serverServable : Servable serverTiming (fun _ _ => True) serverPacing
    gotResponses unavailable instantNow
    (serverRound cr accessServerUrl options) where
  clock t l := ⟨_, exec_instantNow, rfl, Nat.zero_add _⟩
  round b t l r hgo := by
    have hn : pollReply cr accessServerUrl r = .ok none :=
      pollReply_none.mpr (of_decide_eq_true hgo)
    have hget : ∀ {url headers}, Exec serverFree (t, l) (get url headers).run
        (.ok r) (t, ⟨.get url headers, .ok r⟩ :: l) := by
      intro url headers
      have hw : serverTiming.world (fun _ _ => True) t (.get url headers)
          (.ok r) t := ⟨trivial, Nat.le_refl _, fun now h => by cases h⟩
      exact .call (r := (.ok r : AAuthResult HttpResponse)) ⟨hw, rfl⟩ .ret
    have hsleep : ∀ {ms l'}, Exec serverFree (t, l') (sleep ms).run (.ok ())
        (t + durationFromMillis ms, ⟨.sleep ms, ()⟩ :: l') := by
      intro ms l'
      refine .call (r := ()) ⟨⟨trivial, Nat.le_refl _, fun now h => ?_⟩,
        rfl⟩ .ret
      cases h
    have hx : Exec serverFree (t, l)
        (serverRound cr accessServerUrl options b).run
        (.ok (.inr (serverPacing.next b r))) (t + serverPacing.wait b r,
          ⟨.sleep (retryWait (parseRetryAfter
            (responseHeadersToHttp r.headers)) b), ()⟩ ::
          ⟨.get options.locationUrl (HeaderMap.empty.insert "prefer"
            ("wait=" ++ (options.preferWait.getD 45).repr)), .ok r⟩ :: l) := by
      rw [serverRound]
      refine Exec.bind_ok hget ?_
      dsimp only
      rw [hn]
      exact Exec.bind_ok hsleep .ret
    refine ⟨_, hx, rfl, ?_⟩
    · show durationFromMillis _ + (0 + serverTiming.slept l) = _
      rw [Nat.zero_add, Nat.add_comm]
      rfl

end Server

/-- A poll on these responses never sleeps longer than its limit. -/
def SleepsWithin (cr : Crates) (accessServerUrl : String)
    (options : ServerPollOptions) (rs : List HttpResponse) : Prop :=
  ∀ fuel env t result t' l, Exec (serverTime env) (t, [])
      (pollPendingTimed cr fuel accessServerUrl options).run result (t', l) →
    (gotResponses l).reverse <+: rs →
    serverTiming.slept l ≤ serverLimit options

/-- No sleep that the responses ask for, or the backoff, begins before the
limit and goes past it. -/
abbrev SleepsFit (options : ServerPollOptions) (rs : List HttpResponse) :
    Prop :=
  FitsIn (serverLimit options)
    (serverPacing.waits 1000 (rs.takeWhile unavailable))

theorem exceeds_of_not_fits {cr : Crates} {accessServerUrl : String}
    {options : ServerPollOptions} {rs : List HttpResponse}
    (hlimit : serverLimit options < INSTANT_LIMIT)
    (hfit : ¬ SleepsFit options rs) :
    ¬ SleepsWithin cr accessServerUrl options rs := by
  intro h
  have hserve : Servable serverTiming (fun _ _ => True) serverPacing
      gotResponses unavailable instantNow
      (serverRound cr accessServerUrl options) := serverServable
  obtain ⟨t', l', hx, ⟨rs', hp, hr⟩, hs⟩ := deadlineLoop_exceeds
    (serverLate options) .fuel 0
    [(⟨.instantNow, (0 : Nat)⟩ : ServerPollEvent)] hserve (fun r hr => List.mem_takeWhile_imp hr) hfit (Nat.lt_succ_self _)
  have hadd : Instant.add 0 (serverLimit options) =
      some (0 + serverLimit options) := by
    rw [Instant.add, if_pos]
    rw [Nat.zero_add]
    exact hlimit
  have hpoll : Exec serverFree (0, []) (pollPendingTimed cr
      ((rs.takeWhile unavailable).length + 1) accessServerUrl options).run
      (.error (serverLate options)) (t', l') := by
    rw [pollPendingTimed]
    refine Exec.bind_ok exec_instantNow ?_
    show Exec _ _ (ExceptT.run (ExceptT.mk (.ret (((Instant.add 0
      (serverLimit options)).okOr _).mapError _)) >>= _)) _ _
    rw [hadd]
    refine Exec.bind_ok (a := 0 + serverLimit options) .ret ?_
    rw [pollRounds_eq]
    exact hx
  have hprefix : (gotResponses l').reverse <+: rs := by
    rw [hr, List.reverse_append, List.reverse_reverse]
    exact hp.trans (List.takeWhile_prefix _)
  have hle := h _ _ _ _ _ _ hpoll hprefix
  have hzero : serverTiming.slept
      [(⟨.instantNow, (0 : Nat)⟩ : ServerPollEvent)] = 0 := rfl
  omega

theorem sleepsWithin_iff (cr : Crates) (accessServerUrl : String)
    (options : ServerPollOptions) (rs : List HttpResponse) :
    SleepsWithin cr accessServerUrl options rs ↔
      (serverLimit options < INSTANT_LIMIT → SleepsFit options rs) := by
  constructor
  · intro h hlimit
    by_contra hfit
    exact exceeds_of_not_fits hlimit hfit h
  · intro h fuel env t result t' l hx hp
    by_cases hlimit : serverLimit options < INSTANT_LIMIT
    · exact server_keptWithin hx rs hp (h hlimit)
    · have hwp : wp (serverTime env) (fun _ _ => True)
          (pollPendingTimed cr fuel accessServerUrl options).run
          (fun _ q => serverTiming.slept q.2 = 0) (t, []) := by
        refine wp_pollPendingTimed (fun _ _ _ _ => rfl)
          fun begun t' _ hlt => ?_
        exact absurd (Nat.lt_of_le_of_lt (Nat.le_add_left _ _) hlt) hlimit
      have hs := Exec.post hwp hx
      show serverTiming.slept l ≤ _
      rw [show serverTiming.slept l = 0 from hs]
      exact Nat.zero_le _

/-- With fuel enough, a poll that is only ever told to wait a positive time
stops with its time-out, or panicked before its first request. -/
theorem poll_times_out {cr : Crates} {accessServerUrl : String} {fuel : Nat}
    {options : ServerPollOptions}
    {env : (o : ServerPollOp) → serverPollSig.Ans o → Prop} {t t' : Instant}
    {result : Except Halt ServerPollOutcome} {l : List ServerPollEvent}
    (hfuel : serverLimit options < fuel)
    (hx : Exec (serverTime env) (t, [])
      (pollPendingTimed cr fuel accessServerUrl options).run result (t', l))
    (hgo : ∀ r ∈ (gotResponses l).reverse, unavailable r = true)
    (hpos : ∀ w ∈ serverPacing.waits 1000 (gotResponses l).reverse, 0 < w)
    (hsent : ∀ url headers e, ⟨.get url headers, .error e⟩ ∉ l) :
    result = .error (serverLate options) ∨
      ((gotResponses l).reverse = [] ∧ ∃ m, result = .error (.panicked m)) := by
  have hwp : wp (serverTime env) (fun _ _ => True)
      (pollPendingTimed cr fuel accessServerUrl options).run
      (fun r q => ((gotResponses q.2).reverse = [] ∧
          ∃ m, r = .error (.panicked m)) ∨
        r = .error (serverLate options) ∨
        Interrupted serverPacing gotResponses unavailable RoundFailed 1000 1
          (serverLate options) r q.2)
      (t, []) := by
    refine wp_pollPendingTimed (fun m begun t' _ => ?_) fun begun t' hq _ => ?_
    · exact .inl ⟨rfl, m, rfl⟩
    · refine wp_mono (fun _ _ h => .inr h)
        (deadlineLoop_late serverRounds hq (.inl ⟨by omega, ?_⟩))
      omega
  have hlast : ∀ r ∈ gotResponses l, unavailable r = true :=
    fun r hr => hgo r (List.mem_reverse.mpr hr)
  rcases Exec.post hwp hx with hpanic | hlate | hstop
  · exact .inr hpanic
  · exact .inl hlate
  · rcases hstop with ⟨r, hr, hno⟩ | ⟨w, hw, hshort⟩ | ⟨e, -, -, hfail⟩
    · rw [hlast r hr] at hno
      cases hno
    · have := hpos w hw
      omega
    · rcases hfail with ⟨url, headers, e, he⟩ | ⟨r, hr, hno⟩
      · exact absurd he (hsent url headers e)
      · rw [hlast r hr] at hno
        cases hno

section Server

variable {cr : Crates} {accessServerUrl : String} {options : ServerPollOptions}
  {env : (o : ServerPollOp) → serverPollSig.Ans o → Prop} {t : Instant}
  {l : List ServerPollEvent}

/-! ## What the responses amount to -/

theorem pollPending_unavailable {maxDuration : Nat}
    {done rs : List HttpResponse}
    (h : ∀ r ∈ done, unavailable r = true) :
    pollPending cr accessServerUrl maxDuration (done ++ rs) =
      pollPending cr accessServerUrl maxDuration rs := by
  induction done with
  | nil => rfl
  | cons r done ih =>
      have hr : pollReply cr accessServerUrl r = .ok none :=
        pollReply_none.mpr (of_decide_eq_true (h r List.mem_cons_self))
      rw [List.cons_append, pollPending, hr]
      exact ih fun x hx => h x (List.mem_cons_of_mem _ hx)

/-- The result is what the responses in the log amount to, or the error of
a request. -/
def AmountsTo (cr : Crates) (accessServerUrl : String)
    (options : ServerPollOptions) (l : List ServerPollEvent) :
    Except Halt ServerPollOutcome → Prop
  | .ok outcome => pollPending cr accessServerUrl
      (options.maxPollDurationSecs.getD 300) (gotResponses l).reverse =
        .ok outcome
  | .error (.error (.aauth e)) => pollPending cr accessServerUrl
      (options.maxPollDurationSecs.getD 300) (gotResponses l).reverse =
        .error e ∨ ∃ url headers, ⟨.get url headers, .error e⟩ ∈ l
  | .error (.error _) => False
  | .error (.panicked _) | .error .fuel => True

theorem serverLoop_amounts {fuel deadline b : Nat}
    (h : ∀ r ∈ (gotResponses l).reverse, unavailable r = true) :
    wp (serverTime env) (fun _ _ => True)
      (deadlineLoop instantNow deadline (serverRound cr accessServerUrl
        options) (serverLate options) .fuel fuel b).run
      (fun r q => AmountsTo cr accessServerUrl options q.2 r) (t, l) := by
  induction fuel generalizing b t l with
  | zero => trivial
  | succ fuel ih =>
      have hend : ∀ {max rs}, pollPending cr accessServerUrl max
          ((gotResponses l).reverse ++ rs) =
          pollPending cr accessServerUrl max rs := pollPending_unavailable h
      rw [deadlineLoop, wp_bind_except]
      refine wp_logged_call.mpr ⟨trivial, fun now t' _ => ?_⟩
      show wp _ _ (ExceptT.run (if now < deadline then _ else _)) _ _
      split
      · rw [wp_bind_except, serverRound, wp_bind_except]
        refine wp_logged_call.mpr ⟨trivial, fun x t' _ => ?_⟩
        cases x with
        | error e => exact .inr ⟨_, _, List.mem_cons_self⟩
        | ok r =>
            show wp _ _ (ExceptT.run (match pollReply cr accessServerUrl r with
              | .error e => _
              | .ok (some outcome) => _
              | .ok none => _)) _ _
            split
            · next e he =>
              refine .inl ?_
              show pollPending _ _ _ (r :: gotResponses l).reverse = _
              rw [List.reverse_cons, hend, pollPending, he]
            · next outcome ho =>
              show pollPending _ _ _ (r :: gotResponses l).reverse = _
              rw [List.reverse_cons, hend, pollPending, ho]
            · next hn =>
              rw [wp_bind_except]
              refine wp_logged_call.mpr ⟨trivial, fun u t' _ => ih ?_⟩
              intro x hx
              have hx : x ∈ (r :: gotResponses l).reverse := hx
              rw [List.reverse_cons] at hx
              rcases List.mem_append.mp hx with hx | hx
              · exact h x hx
              · rw [List.mem_singleton.mp hx]
                exact decide_eq_true (pollReply_none.mp hn)
      · refine .inl ?_
        show pollPending _ _ _ (gotResponses l).reverse = _
        rw [← List.append_nil (gotResponses l).reverse, hend]
        rfl

/-- The timed poll refines the function of its responses. -/
theorem pollPendingTimed_amounts {fuel : Nat}
    {result : Except Halt ServerPollOutcome} {t' : Instant}
    (hx : Exec (serverTime env) (t, [])
      (pollPendingTimed cr fuel accessServerUrl options).run result (t', l)) :
    AmountsTo cr accessServerUrl options l result := by
  have hwp : wp (serverTime env) (fun _ _ => True)
      (pollPendingTimed cr fuel accessServerUrl options).run
      (fun r q => AmountsTo cr accessServerUrl options q.2 r) (t, []) := by
    refine wp_pollPendingTimed (fun _ _ _ _ => trivial) fun begun t' hq _ => ?_
    exact serverLoop_amounts hq.goes
  have hend := Exec.post hwp hx
  exact hend

end Server

end ReqwestAccessServerClient

/-- For either loop: the sum of the sleeps of a poll keeps to the configured
limit, on a sequence of responses and on every honest clock, if and only if
none of the sleeps begins before the limit and goes past it, or the poll
makes no request at all; and a poll that is only ever told to wait a positive
time ends with its time-out. -/
theorem polls_keep_deadline (cr : Crates) :
    (∀ options rs, Polling.SleepsWithin cr options rs ↔
      (Requestable cr options.locationUrl →
        Polling.pollLimit options < INSTANT_LIMIT →
        Polling.SleepsFit options rs)) ∧
    (∀ url options rs,
      ReqwestAccessServerClient.SleepsWithin cr url options rs ↔
      (ReqwestAccessServerClient.serverLimit options < INSTANT_LIMIT →
        ReqwestAccessServerClient.SleepsFit options rs)) ∧
    (∀ fuel options env t result t' l, Polling.pollLimit options < fuel →
      Exec (Polling.agentTime env) (t, [])
        (pollDeferredWith cr fuel options).run result (t', l) →
      (∀ r ∈ Polling.responsesOf l, Polling.deferring r = true) →
      (∀ w ∈ Polling.agentPacing.waits 1000 (Polling.responsesOf l), 0 < w) →
      (∀ req e, ⟨.sendAgentSigned req, .error e⟩ ∉ l) →
      result = .error (Polling.pollLate options) ∨
        (Polling.responsesOf l = [] ∧ ∃ m, result = .error (.panicked m))) ∧
    (∀ fuel url options env t result t' l,
      ReqwestAccessServerClient.serverLimit options < fuel →
      Exec (ReqwestAccessServerClient.serverTime env) (t, [])
        (ReqwestAccessServerClient.pollPendingTimed cr fuel url options).run
        result (t', l) →
      (∀ r ∈ (ReqwestAccessServerClient.gotResponses l).reverse,
        ReqwestAccessServerClient.unavailable r = true) →
      (∀ w ∈ ReqwestAccessServerClient.serverPacing.waits 1000
        (ReqwestAccessServerClient.gotResponses l).reverse, 0 < w) →
      (∀ url headers e, ⟨.get url headers, .error e⟩ ∉ l) →
      result = .error (ReqwestAccessServerClient.serverLate options) ∨
        ((ReqwestAccessServerClient.gotResponses l).reverse = [] ∧
          ∃ m, result = .error (.panicked m))) := by
  refine ⟨Polling.sleepsWithin_iff cr,
    ReqwestAccessServerClient.sleepsWithin_iff cr, ?_, ?_⟩
  · intro fuel options env t result t' l hfuel hx hgo hpos hsent
    exact Polling.poll_times_out hfuel hx hgo hpos hsent
  · intro fuel url options env t result t' l hfuel hx hgo hpos hsent
    exact ReqwestAccessServerClient.poll_times_out hfuel hx hgo hpos hsent

namespace Sample

open Polling

/-- A `503` that names its delay. -/
def retryAfter (seconds : Nat) : HttpResponse :=
  { bare 503 with
    headers := HeaderMap.empty.insert "retry-after" seconds.repr }

def serverOptions : ServerPollOptions where
  locationUrl := "https://r.example/p"
  maxPollDurationSecs := none
  preferWait := none

theorem requestable_poll :
    Requestable crates Polling.Sample.pollOptions.locationUrl :=
  ⟨_, _, rfl, rfl⟩

theorem wait_retryAfter (seconds b : Nat) (h : seconds ≤ U64_MAX) :
    Polling.agentPacing.wait b (retryAfter seconds) =
        durationFromMillis (seconds * 1000 % 2 ^ 64) ∧
      ReqwestAccessServerClient.serverPacing.wait b (retryAfter seconds) =
        durationFromMillis (seconds * 1000 % 2 ^ 64) := by
  have hv : (headerValue (retryAfter seconds).headers "retry-after").bind
      parseU64 = some seconds := header_delay h rfl
  constructor
  · show durationFromMillis (retryDelayFromSecs _ b) = _
    rw [hv]
    rfl
  · show durationFromMillis (ReqwestAccessServerClient.retryWait
      ((headerValue (retryAfter seconds).headers "retry-after").bind
        parseU64) b) = _
    rw [hv]
    rfl

/-- A `503` that asks for an hour makes either loop sleep an hour. -/
theorem deadline_slept_past :
    ¬ Polling.SleepsWithin crates Polling.Sample.pollOptions
      [retryAfter 3600] ∧
    ¬ ReqwestAccessServerClient.SleepsWithin crates "https://a.example"
      serverOptions [retryAfter 3600] := by
  obtain ⟨hagent, hserver⟩ :=
    wait_retryAfter 3600 1000 (by decide)
  constructor
  · refine Polling.exceeds_of_not_fits requestable_poll (by decide)
      fun hfit => ?_
    have hle := (hfit (by decide)).1
    rw [hagent] at hle
    exact absurd hle (by decide)
  · refine ReqwestAccessServerClient.exceeds_of_not_fits (by decide)
      fun hfit => ?_
    have hle := (hfit (by decide)).1
    rw [hserver] at hle
    exact absurd hle (by decide)

/-- Three waits that add up to seven seconds keep to a limit of five
minutes. -/
theorem deadline_kept :
    Polling.SleepsWithin crates Polling.Sample.pollOptions
      [bare 503, bare 503, bare 202] :=
  ((polls_keep_deadline crates).1 _ _).mpr fun _ _ => by decide

end Sample

end Aauth
