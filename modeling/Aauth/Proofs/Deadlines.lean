import Mathlib.Data.List.TakeWhile
import Aauth.Lib.Deadline
import Aauth.Proofs.DeferredPolling
import Aauth.Ref.AccessPoll

/-!
# How long a poll sleeps

Both poll loops test their deadline before each request and then sleep as
long as the response says, or as long as their backoff has grown to. The
sum of their sleeps keeps to the configured limit for exactly those
sequences of responses none of whose sleeps begins before the limit and
goes past it. A loop that is only ever told to wait a positive time stops
with its time-out in any case.
-/

namespace Aauth

open Effect Except

/-- `Duration::from_millis`, in nanoseconds. -/
def durationFromMillis (ms : Nat) : Nat := 1000000 * ms

namespace Polling

/-! ## The agent's loop -/

def agentTiming : Timing agentSig where
  reading
    | .instantNow, now => some now
    | _, _ => none
  sleep
    | .sleep ms => durationFromMillis ms
    | _ => 0

/-- A response that the loop goes on after. -/
def deferring (r : HttpResponse) : Bool := r.status = 202 || r.status = 503

def agentPacing : Pacing HttpResponse where
  wait b r := durationFromMillis (retryDelayFromSecs
    ((headerValue r.headers "retry-after").bind parseU64) b)
  next b r := min (b * 2) (if r.status = 202 then 5000 else 30000)

/-- One round of the loop. -/
def pollRound (cr : Crates) (options : AgentDeferredOptions) (b : Nat) :
    AgentTask (DeferredResult ⊕ Nat) := do
  let req ← buildRequest cr "GET" options.locationUrl
    (HeaderMap.empty.insert "prefer" "wait=45") .none
  let response ← sendAgentSigned req
  let retryAfter := (headerValue response.headers "retry-after").bind parseU64
  if response.status ∈ terminalStatuses then
    return .inl (splitError cr response)
  else if response.status = 202 then do
    answerClarification cr options response
    announceInteraction options response
    effect (.sleep (retryDelayFromSecs retryAfter b))
    return .inr (min (b * 2) 5000)
  else if response.status = 503 then do
    effect (.sleep (retryDelayFromSecs retryAfter b))
    return .inr (min (b * 2) 30000)
  else return .inl (splitError cr response)

theorem pollLoop_eq {cr : Crates} {options : AgentDeferredOptions}
    {maxPollDuration deadline fuel b : Nat} :
    pollLoop cr options maxPollDuration deadline fuel b =
      deadlineLoop (effect .instantNow) deadline (pollRound cr options)
        (.error (.deferred (.timedOut maxPollDuration))) .fuel fuel b := by
  induction fuel generalizing b with
  | zero => rfl
  | succ fuel ih =>
      rw [pollLoop, deadlineLoop]
      refine congrArg (_ >>= ·) (funext fun now => ?_)
      by_cases hnow : now < deadline
      · rw [if_pos hnow, if_pos hnow, pollRound]
        simp only [Prog.bind_assoc_except]
        refine congrArg (_ >>= ·) (funext fun req => ?_)
        refine congrArg (_ >>= ·) (funext fun response => ?_)
        split
        · rfl
        · split
          · simp only [Prog.bind_assoc_except]
            refine congrArg (_ >>= ·) (funext fun _ => ?_)
            refine congrArg (_ >>= ·) (funext fun _ => ?_)
            refine congrArg (_ >>= ·) (funext fun _ => ?_)
            exact ih
          · split
            · simp only [Prog.bind_assoc_except]
              refine congrArg (_ >>= ·) (funext fun _ => ?_)
              exact ih
            · rfl
      · rw [if_neg hnow, if_neg hnow]

section Agent

variable {cr : Crates} {options : AgentDeferredOptions}
  {env : (o : AgentOp) → agentSig.Ans o → Prop} {t b : Nat}
  {l : List AgentEvent} {r : HttpResponse}

abbrev agentTime (env : (o : AgentOp) → agentSig.Ans o → Prop) :
    World agentSig (Instant × List AgentEvent) :=
  logged (agentTiming.world env)

/-- Why a round fails: there is no URL to poll, or a request was not
answered. -/
def PollFailed (cr : Crates) (options : AgentDeferredOptions) (_ : Halt)
    (l : List AgentEvent) : Prop :=
  ¬ Requestable cr options.locationUrl ∨
    ∃ req e, ⟨.sendAgentSigned req, .error e⟩ ∈ l

/-- A call that neither polls nor sleeps. -/
def Quiet (l l' : List AgentEvent) : Prop :=
  polledResponses l' = polledResponses l ∧
    agentTiming.slept l' = agentTiming.slept l

theorem Quiet.refl : Quiet l l := ⟨rfl, rfl⟩

theorem Quiet.cons {e : AgentEvent} {l' : List AgentEvent} (h : Quiet l l')
    (hp : pollAnswer e = none) (hs : agentTiming.sleep e.op = 0) :
    Quiet l (e :: l') := by
  refine ⟨?_, ?_⟩
  · rw [polledResponses, List.filterMap_cons_none hp]
    exact h.1
  · rw [Timing.slept_cons, hs, Nat.zero_add]
    exact h.2

theorem wp_timed_effect {o : AgentOp}
    {post : Except Halt (agentSig.Ans o) → Instant × List AgentEvent → Prop}
    (h : ∀ r t', agentTiming.world env t o r t' →
      post (.ok r) (t', ⟨o, r⟩ :: l)) :
    wp (agentTime env) (fun _ _ => True) (effect o).run post (t, l) :=
  wp_logged_call.mpr ⟨trivial, h⟩

theorem wp_timed_send {req : AgentRequest}
    {post : Except Halt HttpResponse → Instant × List AgentEvent → Prop}
    (h : ∀ r t', post (r.mapError .error)
      (t', ⟨.sendAgentSigned req, r⟩ :: l)) :
    wp (agentTime env) (fun _ _ => True) (sendAgentSigned req).run post
      (t, l) :=
  wp_logged_call.mpr ⟨trivial, fun r t' _ => h r t'⟩

theorem wp_answerClarification :
    wp (agentTime env) (fun _ _ => True)
      (answerClarification cr options r).run
      (fun x q => Quiet l q.2 ∧
        ∀ e, x = .error e → PollFailed cr options e q.2) (t, l) := by
  have hskip : wp (agentTime env) (fun _ _ => True)
      (pure () : AgentTask Unit).run (fun x q => Quiet l q.2 ∧
        ∀ e, x = .error e → PollFailed cr options e q.2) (t, l) :=
    ⟨.refl, fun e he => by cases he⟩
  rw [answerClarification]
  split
  · split
    · exact hskip
    · rw [wp_bind_except]
      refine wp_timed_effect fun answer t' _ => ?_
      dsimp only
      rcases buildRequest_cases cr "POST" options.locationUrl _ _ with
        ⟨-, url, hreq⟩ | ⟨hbad, m, hreq, -⟩
      · rw [hreq]
        show wp _ _ (sendAgentSigned _ >>= _).run _ _
        rw [wp_bind_except]
        refine wp_timed_send fun x t'' => ?_
        have hasked : Quiet l (⟨.onClarification _, answer⟩ :: l) :=
          Quiet.refl.cons rfl rfl
        cases x with
        | ok x => exact ⟨hasked.cons rfl rfl, fun e he => by cases he⟩
        | error e =>
            exact ⟨hasked.cons rfl rfl, fun _ _ =>
              .inr ⟨_, e, List.mem_cons_self⟩⟩
      · rw [hreq]
        exact ⟨Quiet.refl.cons rfl rfl, fun _ _ => .inl hbad⟩
  · exact hskip

theorem wp_announceInteraction :
    wp (agentTime env) (fun _ _ => True) (announceInteraction options r).run
      (fun x q => Quiet l q.2 ∧ x = .ok ()) (t, l) := by
  have hskip : wp (agentTime env) (fun _ _ => True)
      (pure () : AgentTask Unit).run (fun x q => Quiet l q.2 ∧ x = .ok ())
        (t, l) := ⟨.refl, rfl⟩
  rw [announceInteraction]
  split
  · split
    · exact wp_timed_effect fun u t' _ => ⟨Quiet.refl.cons rfl rfl, rfl⟩
    · exact hskip
  · exact hskip

theorem Quiet.trans {l' l'' : List AgentEvent} (h : Quiet l l')
    (h' : Quiet l' l'') : Quiet l l'' :=
  ⟨h'.1.trans h.1, h'.2.trans h.2⟩

theorem sleep_timed (ms : Nat) (u : Unit) (l : List AgentEvent) :
    polledResponses (⟨.sleep ms, u⟩ :: l) = polledResponses l ∧
      agentTiming.slept (⟨.sleep ms, u⟩ :: l) =
        agentTiming.slept l + durationFromMillis ms := by
  refine ⟨rfl, ?_⟩
  rw [Timing.slept_cons]
  exact Nat.add_comm _ _

theorem deferring_iff : deferring r = true ↔
    r.status = 202 ∨ r.status = 503 := by
  rw [deferring, Bool.or_eq_true, decide_eq_true_iff, decide_eq_true_iff]

theorem deferring_false (h202 : r.status ≠ 202) (h503 : r.status ≠ 503) :
    deferring r = false := by
  rw [Bool.eq_false_iff]
  intro h
  rcases deferring_iff.mp h with h | h
  · exact h202 h
  · exact h503 h

/-- The log after a poll that got `r`. -/
structure Polled (l : List AgentEvent) (r : HttpResponse)
    (l' : List AgentEvent) : Prop where
  responses : polledResponses l' = r :: polledResponses l
  slept : agentTiming.slept l' = agentTiming.slept l

/-- The request of a poll. -/
abbrev getAt (url : String) : AgentRequest :=
  ⟨"GET", url, HeaderMap.empty.insert "prefer" "wait=45", .none⟩

theorem polled_get (url : String) (r : HttpResponse) (l : List AgentEvent) :
    Polled l r (⟨.sendAgentSigned (getAt url), .ok r⟩ :: l) where
  responses := rfl
  slept := Nat.zero_add _

theorem Polled.quiet {l' l'' : List AgentEvent} (h : Polled l r l')
    (h' : Quiet l' l'') : Polled l r l'' :=
  ⟨h'.1.trans h.responses, h'.2.trans h.slept⟩

/-- A response that does not go on ends the round. -/
theorem Polled.stops {l' : List AgentEvent} (h : Polled l r l')
    (h202 : r.status ≠ 202) (h503 : r.status ≠ 503)
    (result : DeferredResult) (t' : Instant) :
    RoundEnd agentTiming agentPacing polledResponses deferring
      (PollFailed cr options) b l (.ok (.inl result)) (t', l') := by
  refine ⟨h.slept, r, ?_, deferring_false h202 h503⟩
  show r ∈ polledResponses l'
  rw [h.responses]
  exact List.mem_cons_self

/-- One that does is slept after. -/
theorem Polled.goes {l' : List AgentEvent} {b' : Nat} (h : Polled l r l')
    (hgo : r.status = 202 ∨ r.status = 503)
    (hb : b' = agentPacing.next b r) (u : Unit) (t' : Instant) :
    RoundEnd agentTiming agentPacing polledResponses deferring
      (PollFailed cr options) b l (.ok (.inr b' : DeferredResult ⊕ Nat))
      (t', ⟨.sleep (retryDelayFromSecs ((headerValue r.headers
        "retry-after").bind parseU64) b), u⟩ :: l') := by
  obtain ⟨hr, hs⟩ := sleep_timed (retryDelayFromSecs ((headerValue r.headers
    "retry-after").bind parseU64) b) u l'
  refine ⟨r, deferring_iff.mpr hgo, hr.trans h.responses, hb, ?_⟩
  rw [← h.slept]
  exact hs

theorem agentRounds : Rounds agentTiming env agentPacing polledResponses
    deferring (PollFailed cr options) (effect .instantNow)
    (pollRound cr options) where
  clock t l := by
    refine wp_timed_effect fun now t' hw => ?_
    obtain ⟨-, -, hnow⟩ := hw
    rw [hnow now rfl]
    exact ⟨rfl, Quiet.refl.cons rfl rfl⟩
  round b t l := by
    rw [pollRound, wp_bind_except]
    rcases buildRequest_cases cr "GET" options.locationUrl _ _ with
      ⟨-, url, hreq⟩ | ⟨hbad, m, hreq, -⟩
    · rw [hreq, wp_pure_except]
      dsimp only
      rw [wp_bind_except]
      refine wp_timed_send fun x t' => ?_
      cases x with
      | error e => exact ⟨Nat.zero_add _, .inr ⟨_, e, List.mem_cons_self⟩⟩
      | ok r =>
          have hpolled := polled_get url r l
          show wp _ _ (ExceptT.run (if r.status ∈ terminalStatuses then _
            else _)) _ _
          split
          · next hterm =>
            refine hpolled.stops ?_ ?_ _ _
            · exact fun h => not_mem_terminal (.inl h) hterm
            · exact fun h => not_mem_terminal (.inr h) hterm
          · split
            · next h202 =>
              rw [wp_bind_except]
              refine wp_mono ?_ wp_answerClarification
              intro x q hx
              obtain ⟨hq, hfail⟩ := hx
              have hq := hpolled.quiet hq
              cases x with
              | error e => exact ⟨hq.slept, hfail e rfl⟩
              | ok u =>
                  dsimp only
                  rw [wp_bind_except]
                  refine wp_mono ?_ wp_announceInteraction
                  intro x q' hx
                  obtain ⟨hq', rfl⟩ := hx
                  have hq' := hq.quiet hq'
                  dsimp only
                  rw [wp_bind_except]
                  refine wp_timed_effect fun u t' _ => ?_
                  refine hq'.goes (.inl h202) ?_ u t'
                  show _ = min (b * 2) (if r.status = 202 then _ else _)
                  rw [if_pos h202]
            · split
              · next h202 h503 =>
                rw [wp_bind_except]
                refine wp_timed_effect fun u t' _ => ?_
                refine hpolled.goes (.inr h503) ?_ u t'
                show _ = min (b * 2) (if r.status = 202 then _ else _)
                rw [if_neg h202]
              · next h202 h503 => exact hpolled.stops h202 h503 _ _
    · rw [hreq]
      exact ⟨rfl, .inl hbad⟩

/-! ## Serving the agent's loop -/

/-- Every answer is possible, and takes no longer than it must. -/
abbrev freeTime : World agentSig (Instant × List AgentEvent) :=
  agentTime fun _ _ => True

theorem exec_timed_effect {o : AgentOp} {x : agentSig.Ans o} (he : env o x)
    (h : agentTiming.reading o x = none ∨ agentTiming.reading o x = some t)
    (hs : agentTiming.sleep o = 0) :
    Exec (agentTime env) (t, l) (effect o).run (.ok x) (t, ⟨o, x⟩ :: l) := by
  refine .call (r := x) ⟨⟨he, ?_, ?_⟩, rfl⟩ .ret
  · rw [hs]
    exact Nat.le_refl _
  · intro now hnow
    rcases h with h | h
    · rw [h] at hnow
      cases hnow
    · rw [h] at hnow
      exact (Option.some.inj hnow).symm

theorem exec_sleep {ms : Nat} :
    Exec freeTime (t, l) (effect (.sleep ms)).run (.ok ())
      (t + durationFromMillis ms, ⟨.sleep ms, ()⟩ :: l) := by
  refine .call (r := ()) ⟨⟨trivial, Nat.le_refl _, ?_⟩, rfl⟩ .ret
  intro now h
  cases h

theorem exec_timed_send {req : AgentRequest}
    (he : env (.sendAgentSigned req) (.ok r)) :
    Exec (agentTime env) (t, l) (sendAgentSigned req).run (.ok r)
      (t, ⟨.sendAgentSigned req, .ok r⟩ :: l) := by
  have hw : agentTiming.world env t (.sendAgentSigned req) (.ok r) t :=
    ⟨he, Nat.le_refl _, fun now h => by cases h⟩
  exact .call (r := (.ok r : Except AgentError HttpResponse)) ⟨hw, rfl⟩ .ret

theorem buildRequest_of_requestable {uri : String} (h : Requestable cr uri)
    (method : String) (headers : HeaderMap) (body : RequestBody) :
    ∃ url, buildRequest cr method uri headers body =
      pure ⟨method, url, headers, body⟩ := by
  rcases buildRequest_cases cr method uri headers body with
    ⟨-, hreq⟩ | ⟨hbad, -⟩
  · exact hreq
  · exact absurd h hbad

/-- A question is answered in no time. -/
theorem exec_answerClarification
    (hurl : Requestable cr options.locationUrl) (t : Instant)
    (l : List AgentEvent) (r : HttpResponse) :
    ∃ l', Exec freeTime (t, l) (answerClarification cr options r).run
      (.ok ()) (t, l') ∧ Quiet l l' := by
  have hskip : ∃ l', Exec freeTime (t, l) (pure () : AgentTask Unit).run
      (.ok ()) (t, l') ∧ Quiet l l' := ⟨l, .ret, .refl⟩
  rw [answerClarification]
  split
  · split
    · exact hskip
    · next body _ =>
      have hask : Exec freeTime (t, l)
          (effect (.onClarification body.clarification)).run (.ok "")
          (t, ⟨.onClarification body.clarification, ""⟩ :: l) :=
        exec_timed_effect trivial (.inl rfl) rfl
      obtain ⟨url, hreq⟩ := buildRequest_of_requestable hurl "POST"
        (HeaderMap.empty.insert "content-type" "application/json")
        (.bytes (jsonBytes cr
          (ClarificationResponse.toJson { clarificationResponse := "" })))
      have hasked : Quiet l (⟨.onClarification body.clarification, ""⟩ :: l) :=
        Quiet.refl.cons rfl rfl
      have hsend : Exec freeTime
          (t, ⟨.onClarification body.clarification, ""⟩ :: l)
          (sendAgentSigned (answerRequest cr url "")).run (.ok r)
          (t, ⟨.sendAgentSigned (answerRequest cr url ""), .ok r⟩ ::
            ⟨.onClarification body.clarification, ""⟩ :: l) :=
        exec_timed_send trivial
      refine ⟨⟨.sendAgentSigned (answerRequest cr url ""), .ok r⟩ :: _,
        Exec.bind_ok hask ?_, hasked.cons rfl rfl⟩
      dsimp only
      rw [hreq]
      exact Exec.bind_ok .ret (Exec.bind_ok hsend .ret)
  · exact hskip

theorem exec_announceInteraction (options : AgentDeferredOptions)
    (t : Instant) (l : List AgentEvent) (r : HttpResponse) :
    ∃ l', Exec freeTime (t, l) (announceInteraction options r).run (.ok ())
      (t, l') ∧ Quiet l l' := by
  have hskip : ∃ l', Exec freeTime (t, l) (pure () : AgentTask Unit).run
      (.ok ()) (t, l') ∧ Quiet l l' := ⟨l, .ret, .refl⟩
  rw [announceInteraction]
  split
  · next url code _ =>
    split
    · exact ⟨⟨.onInteraction url code, ()⟩ :: l,
        exec_timed_effect trivial (.inl rfl) rfl, Quiet.refl.cons rfl rfl⟩
    · exact hskip
  · exact hskip

theorem agentServable (hurl : Requestable cr options.locationUrl) :
    Servable agentTiming (fun _ _ => True) agentPacing polledResponses
      deferring (effect .instantNow) (pollRound cr options) where
  clock t l := ⟨⟨.instantNow, t⟩ :: l,
    exec_timed_effect trivial (.inr rfl) rfl, Quiet.refl.cons rfl rfl⟩
  round b t l r hgo := by
    obtain ⟨url, hreq⟩ := buildRequest_of_requestable hurl "GET"
      (HeaderMap.empty.insert "prefer" "wait=45") .none
    have hsend : Exec freeTime (t, l) (sendAgentSigned (getAt url)).run (.ok r)
        (t, ⟨.sendAgentSigned (getAt url), .ok r⟩ :: l) :=
      exec_timed_send trivial
    have hpolled := polled_get url r l
    have hterm : r.status ∉ terminalStatuses :=
      not_mem_terminal (deferring_iff.mp hgo)
    rw [pollRound, hreq]
    by_cases h202 : r.status = 202
    · obtain ⟨l₁, hx₁, hl₁⟩ := exec_answerClarification hurl t
        (⟨.sendAgentSigned (getAt url), .ok r⟩ :: l) r
      obtain ⟨l₂, hx₂, hl₂⟩ := exec_announceInteraction options t l₁ r
      have hend := (hpolled.quiet hl₁).quiet hl₂
      obtain ⟨hr, hs⟩ := sleep_timed (retryDelayFromSecs ((headerValue
        r.headers "retry-after").bind parseU64) b) () l₂
      refine ⟨_, Exec.bind_ok .ret (Exec.bind_ok hsend ?_),
        hr.trans hend.responses, hs.trans (congrArg (· + _) hend.slept)⟩
      dsimp only
      rw [if_neg hterm, if_pos h202]
      refine Exec.bind_ok hx₁ (Exec.bind_ok hx₂ (Exec.bind_ok exec_sleep ?_))
      rw [show agentPacing.next b r = min (b * 2) 5000 from
        congrArg (min _) (if_pos h202)]
      exact .ret
    · have h503 : r.status = 503 := (deferring_iff.mp hgo).resolve_left h202
      obtain ⟨hr, hs⟩ := sleep_timed (retryDelayFromSecs ((headerValue
        r.headers "retry-after").bind parseU64) b) ()
        (⟨.sendAgentSigned (getAt url), .ok r⟩ :: l)
      refine ⟨_, Exec.bind_ok .ret (Exec.bind_ok hsend ?_),
        hr.trans hpolled.responses, hs.trans (congrArg (· + _) hpolled.slept)⟩
      dsimp only
      rw [if_neg hterm, if_neg h202, if_pos h503]
      refine Exec.bind_ok exec_sleep ?_
      rw [show agentPacing.next b r = min (b * 2) 30000 from
        congrArg (min _) (if_neg h202)]
      exact .ret

/-! ## The agent's poll -/

/-- The configured limit. -/
def pollLimit (options : AgentDeferredOptions) : Nat :=
  durationFromSecs (options.maxPollDurationSecs.getD 300)

def pollLate (options : AgentDeferredOptions) : Halt :=
  .error (.deferred (.timedOut (options.maxPollDurationSecs.getD 300)))

/-- The loop, from its deadline on. -/
abbrev agentLoop (cr : Crates) (options : AgentDeferredOptions)
    (deadline : Instant) (fuel : Nat) : AgentTask DeferredResult :=
  deadlineLoop (effect .instantNow) deadline (pollRound cr options)
    (pollLate options) .fuel fuel 1000

abbrev AgentHead (options : AgentDeferredOptions) (begun : Instant) (b : Nat)
    (q : Instant × List AgentEvent) : Prop :=
  AtHead agentTiming agentPacing polledResponses deferring 1000 begun
    (pollLimit options) b q

/-- The poll reads the clock, may tell the user something, and loops. -/
theorem wp_pollDeferredWith {fuel : Nat}
    {post : Except Halt DeferredResult → Instant × List AgentEvent → Prop}
    (hpanic : ∀ m begun t', Instant.add begun (pollLimit options) = none →
      post (.error (.panicked m)) (t', [⟨.instantNow, begun⟩]))
    (hloop : ∀ begun q, AgentHead options begun 1000 q → Quiet [] q.2 →
      begun + pollLimit options < INSTANT_LIMIT → wp (agentTime env) (fun _ _ => True)
        (agentLoop cr options (begun + pollLimit options) fuel).run post q) :
    wp (agentTime env) (fun _ _ => True)
      (pollDeferredWith cr fuel options).run post (t, []) := by
  rw [pollDeferredWith, wp_bind_except]
  refine wp_timed_effect fun begun t' hw => ?_
  obtain ⟨-, -, hnow⟩ := hw
  have hbegun : begun = t' := hnow begun rfl
  show wp _ _ (ExceptT.run (ofResult _ ((Instant.add begun
    (pollLimit options)).okOr _) >>= _)) _ _
  cases hd : Instant.add begun (pollLimit options) with
  | none => exact hpanic _ begun t' hd
  | some deadline =>
      obtain ⟨hlimit, hdeadline⟩ : begun + pollLimit options < INSTANT_LIMIT ∧
          begun + pollLimit options = deadline := by
        rw [Instant.add] at hd
        split at hd
        · next hlimit => exact ⟨hlimit, Option.some.inj hd⟩
        · cases hd
      have hstart : ∀ {t'' l'}, begun ≤ t'' →
          Quiet [⟨.instantNow, begun⟩] l' →
          wp (agentTime env) (fun _ _ => True) (pollLoop cr options
            (options.maxPollDurationSecs.getD 300) deadline fuel 1000).run
            post (t'', l') := by
        intro t'' l' ht hq
        have hr : polledResponses l' = [] := hq.1
        have hs : agentTiming.slept l' = 0 := hq.2
        rw [pollLoop_eq, ← hdeadline]
        refine hloop begun (t'', l') ⟨?_, ?_, ?_, ?_, ?_⟩ ⟨hr, hs⟩ hlimit
        · show begun + agentTiming.slept l' ≤ t''
          rw [hs]
          exact ht
        · show ∀ r ∈ (polledResponses l').reverse, _
          rw [hr]
          intro r hr
          cases hr
        · show 1000 = agentPacing.backoff 1000 (polledResponses l').reverse
          rw [hr]
          rfl
        · show agentTiming.slept l' =
            (agentPacing.waits 1000 (polledResponses l').reverse).sum
          rw [hr, hs]
          rfl
        · refine keptWithin_of_le ?_
          show agentTiming.slept l' ≤ _
          rw [hs]
          exact Nat.zero_le _
      have hnow : begun ≤ t' := Nat.le_of_eq hbegun
      rw [wp_bind_except, wp_ofResult]
      show wp _ _ (ExceptT.run _) _ _
      dsimp only
      split
      · next url code _ =>
        split
        · rw [wp_bind_except]
          refine wp_timed_effect fun u t'' hw => ?_
          obtain ⟨-, hle, -⟩ := hw
          exact hstart (Nat.le_trans hnow (Nat.le_of_add_right_le hle))
            (Quiet.refl.cons rfl rfl)
        · exact hstart hnow .refl
      · exact hstart hnow .refl

theorem agent_keptWithin {fuel : Nat} {result : Except Halt DeferredResult}
    {t' : Instant}
    (hx : Exec (agentTime env) (t, []) (pollDeferredWith cr fuel options).run
      result (t', l)) :
    KeptWithin agentTiming agentPacing polledResponses deferring 1000
      (pollLimit options) l := by
  have hwp : wp (agentTime env) (fun _ _ => True)
      (pollDeferredWith cr fuel options).run
      (fun _ q => KeptWithin agentTiming agentPacing polledResponses deferring
        1000 (pollLimit options) q.2) (t, []) := by
    refine wp_pollDeferredWith (fun m begun t' _ => ?_) fun begun q hq _ _ => ?_
    · exact keptWithin_of_le (Nat.zero_le _)
    · exact deadlineLoop_within agentRounds hq
  have hkept := Exec.post hwp hx
  exact hkept

/-- A poll begun at the time zero reaches its loop. -/
theorem exec_pollDeferredWith (cr : Crates) (fuel : Nat)
    (l : List AgentEvent) (hlimit : pollLimit options < INSTANT_LIMIT)
    (hclock : env .instantNow (0 : Nat))
    (htell : ∀ url code, env (.onInteraction url code) ()) :
    ∃ l', Quiet l l' ∧ ∀ result q,
      Exec (agentTime env) (0, l') (agentLoop cr options
        (0 + pollLimit options) fuel).run result q →
      Exec (agentTime env) (0, l) (pollDeferredWith cr fuel options).run
        result q := by
  have hread : Exec (agentTime env) (0, l) (effect .instantNow).run
      (.ok (0 : Nat)) (0, ⟨.instantNow, (0 : Nat)⟩ :: l) :=
    exec_timed_effect hclock (.inr rfl) rfl
  have hadd : Instant.add 0 (pollLimit options) =
      some (0 + pollLimit options) := by
    rw [Instant.add, if_pos]
    rw [Nat.zero_add]
    exact hlimit
  have hbegin : ∀ {result : Except Halt DeferredResult}
      {q : Instant × List AgentEvent},
      Exec (agentTime env) (0, ⟨.instantNow, (0 : Nat)⟩ :: l)
        (ExceptT.run (options.interaction.elim
          (agentLoop cr options (0 + pollLimit options) fuel) fun told =>
            if options.onInteraction = true then
              effect (.onInteraction told.1 told.2) >>= fun _ =>
                agentLoop cr options (0 + pollLimit options) fuel
            else agentLoop cr options (0 + pollLimit options) fuel))
        result q →
      Exec (agentTime env) (0, l) (pollDeferredWith cr fuel options).run
        result q := by
    intro result q hx
    rw [pollDeferredWith]
    refine Exec.bind_ok hread ?_
    show Exec _ _ (ExceptT.run (ofResult _ ((Instant.add 0
      (pollLimit options)).okOr _) >>= _)) _ _
    rw [hadd]
    refine Exec.bind_ok .ret ?_
    dsimp only
    simp only [pollLoop_eq]
    revert hx
    cases options.interaction with
    | none => exact id
    | some told => exact id
  have hstart : Quiet l (⟨.instantNow, (0 : Nat)⟩ :: l) :=
    Quiet.refl.cons rfl rfl
  cases hi : options.interaction with
  | none =>
      refine ⟨_, hstart, fun result q hx => hbegin ?_⟩
      rw [hi]
      exact hx
  | some told =>
      obtain ⟨url, code⟩ := told
      by_cases ho : options.onInteraction = true
      · refine ⟨⟨.onInteraction url code, ()⟩ :: _, hstart.cons rfl rfl,
          fun result q hx => hbegin ?_⟩
        rw [hi]
        show Exec _ _ (ExceptT.run (if options.onInteraction = true then _
          else _)) _ _
        rw [if_pos ho]
        exact Exec.bind_ok (exec_timed_effect (htell url code) (.inl rfl)
          rfl) hx
      · refine ⟨_, hstart, fun result q hx => hbegin ?_⟩
        rw [hi]
        show Exec _ _ (ExceptT.run (if options.onInteraction = true then _
          else _)) _ _
        rw [if_neg ho]
        exact hx

/-- A poll that makes no request sleeps neither. -/
theorem wp_pollDeferredWith_idle {fuel : Nat}
    (hidle : ¬ Requestable cr options.locationUrl ∨
      ¬ pollLimit options < INSTANT_LIMIT) :
    wp (agentTime env) (fun _ _ => True)
      (pollDeferredWith cr fuel options).run
      (fun r q => Quiet [] q.2 ∧ (r = .error (pollLate options) ∨
        (∃ m, r = .error (.panicked m)) ∨ fuel = 0)) (t, []) := by
  refine wp_pollDeferredWith (fun m begun t' _ => ?_)
    fun begun q hq hl hlimit => ?_
  · exact ⟨Quiet.refl.cons rfl rfl, .inr (.inl ⟨m, rfl⟩)⟩
  · have hurl : ¬ Requestable cr options.locationUrl := by
      refine hidle.resolve_right fun h => h ?_
      exact Nat.lt_of_le_of_lt (Nat.le_add_left _ _) hlimit
    cases fuel with
    | zero => exact ⟨hl, .inr (.inr rfl)⟩
    | succ fuel =>
        rw [agentLoop, deadlineLoop, wp_bind_except]
        refine wp_timed_effect fun now t' _ => ?_
        have hquiet : Quiet [] (⟨.instantNow, now⟩ :: q.2) := hl.cons rfl rfl
        show wp _ _ (ExceptT.run (if now < begun + pollLimit options then _
          else _)) _ _
        split
        · rcases buildRequest_cases cr "GET" options.locationUrl _ _ with
            ⟨h, -⟩ | ⟨-, m, hreq, -⟩
          · exact absurd h hurl
          · rw [pollRound, hreq]
            exact ⟨hquiet, .inr (.inl ⟨m, rfl⟩)⟩
        · exact ⟨hquiet, .inl rfl⟩

end Agent

/-- The responses of a poll, in the order they came. -/
abbrev responsesOf (l : List AgentEvent) : List HttpResponse :=
  (polledResponses l).reverse

/-- A poll on these responses never sleeps longer than its limit. -/
def SleepsWithin (cr : Crates) (options : AgentDeferredOptions)
    (rs : List HttpResponse) : Prop :=
  ∀ fuel env t result t' l, Exec (agentTime env) (t, [])
      (pollDeferredWith cr fuel options).run result (t', l) →
    responsesOf l <+: rs → agentTiming.slept l ≤ pollLimit options

/-- No sleep that the responses ask for, or the backoff, begins before the
limit and goes past it. -/
abbrev SleepsFit (options : AgentDeferredOptions)
    (rs : List HttpResponse) : Prop :=
  FitsIn (pollLimit options)
    (agentPacing.waits 1000 (rs.takeWhile deferring))

/-- Otherwise there is a run that sleeps too long. -/
theorem exceeds_of_not_fits {cr : Crates} {options : AgentDeferredOptions}
    {rs : List HttpResponse} (hurl : Requestable cr options.locationUrl)
    (hlimit : pollLimit options < INSTANT_LIMIT)
    (hfit : ¬ SleepsFit options rs) : ¬ SleepsWithin cr options rs := by
  intro h
  obtain ⟨l₀, ⟨hr₀, hs₀⟩, hbegin⟩ := @exec_pollDeferredWith options
    (fun _ _ => True) cr ((rs.takeWhile deferring).length + 1) [] hlimit
    trivial fun _ _ => trivial
  have hserve : Servable agentTiming (fun _ _ => True) agentPacing
      polledResponses deferring (effect .instantNow) (pollRound cr options) :=
    agentServable hurl
  obtain ⟨t', l', hx, ⟨rs', hp, hr⟩, hs⟩ := deadlineLoop_exceeds
    (pollLate options) .fuel 0 l₀ hserve
    (fun r hr => List.mem_takeWhile_imp hr) hfit (Nat.lt_succ_self _)
  rw [hr₀, show polledResponses [] = [] from rfl, List.append_nil] at hr
  have hprefix : responsesOf l' <+: rs := by
    rw [responsesOf, hr, List.reverse_reverse]
    exact hp.trans (List.takeWhile_prefix _)
  have hle := h _ _ _ _ _ _ (hbegin _ _ hx) hprefix
  omega

theorem sleepsWithin_iff (cr : Crates) (options : AgentDeferredOptions)
    (rs : List HttpResponse) :
    SleepsWithin cr options rs ↔ (Requestable cr options.locationUrl →
      pollLimit options < INSTANT_LIMIT → SleepsFit options rs) := by
  constructor
  · intro h hurl hlimit
    by_contra hfit
    exact exceeds_of_not_fits hurl hlimit hfit h
  · intro h fuel env t result t' l hx hp
    by_cases hready : Requestable cr options.locationUrl ∧
        pollLimit options < INSTANT_LIMIT
    · exact agent_keptWithin hx rs hp (h hready.1 hready.2)
    · have hidle : ¬ Requestable cr options.locationUrl ∨
          ¬ pollLimit options < INSTANT_LIMIT := not_and_or.mp hready
      obtain ⟨⟨-, hs⟩, -⟩ := Exec.post (wp_pollDeferredWith_idle hidle) hx
      show agentTiming.slept l ≤ _
      rw [show agentTiming.slept l = 0 from hs]
      exact Nat.zero_le _

/-- With fuel enough, a poll that is only ever told to wait a positive time
stops with its time-out, or panicked before its first request. -/
theorem poll_times_out {cr : Crates} {fuel : Nat}
    {options : AgentDeferredOptions}
    {env : (o : AgentOp) → agentSig.Ans o → Prop} {t t' : Instant}
    {result : Except Halt DeferredResult} {l : List AgentEvent}
    (hfuel : pollLimit options < fuel)
    (hx : Exec (agentTime env) (t, []) (pollDeferredWith cr fuel options).run
      result (t', l))
    (hgo : ∀ r ∈ responsesOf l, deferring r = true)
    (hpos : ∀ w ∈ agentPacing.waits 1000 (responsesOf l), 0 < w)
    (hsent : ∀ req e, ⟨.sendAgentSigned req, .error e⟩ ∉ l) :
    result = .error (pollLate options) ∨
      (responsesOf l = [] ∧ ∃ m, result = .error (.panicked m)) := by
  by_cases hurl : Requestable cr options.locationUrl
  · have hwp : wp (agentTime env) (fun _ _ => True)
        (pollDeferredWith cr fuel options).run
        (fun r q => (responsesOf q.2 = [] ∧ ∃ m, r = .error (.panicked m)) ∨
          r = .error (pollLate options) ∨
          Interrupted agentPacing polledResponses deferring
            (PollFailed cr options) 1000 1 (pollLate options) r q.2)
        (t, []) := by
      refine wp_pollDeferredWith (fun m begun t' _ => ?_)
        fun begun q hq hl hlimit => ?_
      · exact .inl ⟨rfl, m, rfl⟩
      · refine wp_mono (fun _ _ h => .inr h)
          (deadlineLoop_late agentRounds hq (.inl ⟨by omega, ?_⟩))
        omega
    rcases Exec.post hwp hx with hpanic | hlate | hstop
    · exact .inr hpanic
    · exact .inl hlate
    · rcases hstop with ⟨r, hr, hno⟩ | ⟨w, hw, hshort⟩ | ⟨e, -, -, hfail⟩
      · rw [hgo r (List.mem_reverse.mpr hr)] at hno
        cases hno
      · have := hpos w hw
        omega
      · rcases hfail with hbad | ⟨req, e, he⟩
        · exact absurd hurl hbad
        · exact absurd he (hsent req e)
  · obtain ⟨⟨hr, -⟩, hend⟩ :=
      Exec.post (wp_pollDeferredWith_idle (.inl hurl)) hx
    rcases hend with hlate | hpanic | hzero
    · exact .inl hlate
    · refine .inr ⟨?_, hpanic⟩
      rw [responsesOf, show polledResponses l = [] from hr]
      rfl
    · omega

end Polling

end Aauth
