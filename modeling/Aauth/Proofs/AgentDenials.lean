import Aauth.Proofs.AgentLoop

/-!
# What a denied deferral leads to

A copy that is answered with a `202` is polled for; the response that ends
the poll may be a denial. Two facts about a log say where the request
stands: whether the newest copy was deferred, and whether a denial has come
in since it (`owed`). The loop never returns while a denial is owed: the
middleware looks at a denial as at any response other than a `401` and goes
into another round, which sends the request again.
-/

namespace Aauth

open Effect Except

/-! ## Denials in a log -/

/-- A status a poll may end with that is neither a success nor a `401`; it
never ends with a `202` or a `503`. -/
def denied (status : Nat) : Bool :=
  !isSuccess status && status != 401 && status != 202 && status != 503

/-- A poll that was answered with a denial. -/
def isDenial : AgentEvent → Bool
  | ⟨.sendAgentSigned req, .ok r⟩ => req.method == "GET" && denied r.status
  | _ => false

/-- The newest copy was answered with a `202`. -/
def deferredSince : List AgentEvent → Bool
  | [] => false
  | ⟨.sendWrapped _ _, .ok r⟩ :: _ => r.status == 202
  | ⟨.sendWrapped _ _, .error _⟩ :: _ => false
  | _ :: l => deferredSince l

/-- A denial of the newest copy came in. -/
def owed : List AgentEvent → Bool
  | [] => false
  | e :: l => !isCopy e && ((isDenial e && deferredSince l) || owed l)

/-- A log that ends with the denial of a deferred copy, by `polled`. -/
def DeniedBy (polled : HttpResponse) : List AgentEvent → Prop
  | ⟨.sendAgentSigned req, .ok r⟩ :: l =>
      r = polled ∧ req.method = "GET" ∧ denied polled.status = true ∧
        deferredSince l = true
  | _ => False

theorem DeniedBy.owed {polled : HttpResponse} {l₁ : List AgentEvent}
    (h : DeniedBy polled l₁) {l₂ : List AgentEvent}
    (hl : ∀ e ∈ l₂, isCopy e = false) : owed (l₂ ++ l₁) = true := by
  induction l₂ with
  | nil =>
      cases l₁ with
      | nil => exact h.elim
      | cons e l =>
          obtain ⟨o, r⟩ := e
          cases o with
          | sendAgentSigned req =>
              cases r with
              | error e => exact h.elim
              | ok r =>
                  obtain ⟨rfl, hm, hd, hs⟩ := h
                  show (!false && ((req.method == "GET" && denied r.status &&
                    deferredSince l) || Aauth.owed l)) = true
                  rw [hm, hd, hs]
                  rfl
          | _ => exact h.elim
  | cons e l₂ ih =>
      have he := hl e List.mem_cons_self
      have ho := ih fun d hd => hl d (List.mem_cons_of_mem e hd)
      show (!isCopy e && ((isDenial e && deferredSince (l₂ ++ l₁)) ||
        Aauth.owed (l₂ ++ l₁))) = true
      rw [he, ho, Bool.or_true]
      rfl

theorem owed_copy {req : AgentRequest} {attempt : AgentAuthAttempt}
    {r : Except AgentError HttpResponse} (l : List AgentEvent) :
    owed (⟨.sendWrapped req attempt, r⟩ :: l) = false := rfl

/-- Nothing was deferred or denied since the newest copy. -/
def Undeferred (l : List AgentEvent) : Prop :=
  deferredSince l = false ∧ owed l = false

/-- The newest copy was deferred, and not denied since. -/
def Awaiting (l : List AgentEvent) : Prop :=
  deferredSince l = true ∧ owed l = false

theorem deferredSince_cons {e : AgentEvent} (he : isCopy e = false)
    (l : List AgentEvent) : deferredSince (e :: l) = deferredSince l := by
  obtain ⟨o, r⟩ := e
  cases o with
  | sendWrapped req attempt => cases he
  | _ => rfl

theorem owed_cons {e : AgentEvent} (he : isCopy e = false)
    (hd : isDenial e = false) (l : List AgentEvent) :
    owed (e :: l) = owed l := by
  rw [owed, he, hd]
  rfl

theorem AgentOp.own.not_copy {o : AgentOp} (ho : o.own) (r : agentSig.Ans o) :
    isCopy ⟨o, r⟩ = false := by
  cases o with
  | sendWrapped req attempt => exact ho.elim
  | _ => rfl

theorem Undeferred.own (l : List AgentEvent) (o : AgentOp)
    (r : agentSig.Ans o) (ho : o.own) (h : Undeferred l) :
    Undeferred (⟨o, r⟩ :: l) := by
  refine ⟨?_, ?_⟩
  · rw [deferredSince_cons (ho.not_copy r), h.1]
  · rw [owed, h.1, h.2, Bool.and_false]
    exact Bool.and_false _

theorem Undeferred.lock {l : List AgentEvent} (o : AgentAuthOp)
    (r : Except String o.Ans) (h : Undeferred l) :
    Undeferred (⟨.lock o, r⟩ :: l) := h

theorem Awaiting.lock {l : List AgentEvent} (o : AgentAuthOp)
    (r : Except String o.Ans) (h : Awaiting l) :
    Awaiting (⟨.lock o, r⟩ :: l) := h

/-! ## Polling -/

section Poll

variable {cr : Crates} {options : AgentDeferredOptions} {fuel : Nat}

/-- A task that ends as it began, waiting. -/
def KeepsWaiting {α : Type} (t : AgentTask α) : Prop :=
  ∀ (env : (o : AgentOp) → agentSig.Ans o → Prop) (s : AgentState)
    (l : List AgentEvent), Awaiting l → wp (logged (agentWorld env)) (fun _ _ => True) t.run
    (fun _ q => q.1 = s ∧ Awaiting q.2) (s, l)

theorem KeepsWaiting.bind {α β : Type} {x : AgentTask α}
    {f : α → AgentTask β} (hx : KeepsWaiting x)
    (hf : ∀ a, KeepsWaiting (f a)) : KeepsWaiting (x >>= f) := by
  intro env s l hl
  rw [wp_bind_except]
  refine wp_mono ?_ (hx env s l hl)
  intro r ⟨s', l'⟩ h
  obtain ⟨hs, hl'⟩ := h
  cases hs
  cases r with
  | error e => exact ⟨rfl, hl'⟩
  | ok a => exact hf a env s' l' hl'

theorem keepsWaiting_pure {α : Type} (a : α) :
    KeepsWaiting (pure a : AgentTask α) := fun _ _ _ hl => ⟨rfl, hl⟩

theorem keepsWaiting_ofResult {ε α : Type} (f : ε → Halt) (r : Except ε α) :
    KeepsWaiting (ofResult f r) := fun _ _ _ hl => ⟨rfl, hl⟩

/-- A call that is no poll. -/
def AgentOp.aside : AgentOp → Prop
  | .lock _ | .sendWrapped _ _ => False
  | .sendAgentSigned req => req.method ≠ "GET"
  | _ => True

theorem Awaiting.aside (l : List AgentEvent) (o : AgentOp)
    (r : agentSig.Ans o) (ho : o.aside) (h : Awaiting l) :
    Awaiting (⟨o, r⟩ :: l) := by
  have hc : isCopy ⟨o, r⟩ = false := by
    cases o with
    | sendWrapped req attempt => exact ho.elim
    | _ => rfl
  have hd : isDenial ⟨o, r⟩ = false := by
    cases o with
    | sendAgentSigned req =>
        cases r with
        | error e => rfl
        | ok r =>
            show (req.method == "GET" && denied r.status) = false
            rw [beq_eq_false_iff_ne.mpr ho]
            rfl
    | _ => rfl
  exact ⟨(deferredSince_cons hc l).trans h.1, (owed_cons hc hd l).trans h.2⟩

theorem keepsWaiting_effect {o : AgentOp} (hout : o.outside)
    (ho : o.aside) : KeepsWaiting (effect o) := by
  intro env s l hl
  rw [wp_effect hout]
  exact ⟨trivial, fun r _ => ⟨rfl, hl.aside l o r ho⟩⟩

theorem keepsWaiting_buildRequest {α : Type} {method uri : String}
    {headers : HeaderMap} {body : RequestBody} {f : AgentRequest → AgentTask α}
    (hf : ∀ req : AgentRequest, req.method = method → KeepsWaiting (f req)) :
    KeepsWaiting (buildRequest cr method uri headers body >>= f) := by
  intro env s l hl
  rw [wp_bind_except]
  refine wp_buildRequest (fun e => ⟨rfl, hl⟩) fun req hreq => ?_
  obtain ⟨url, rfl⟩ := hreq
  exact hf _ rfl env s l hl

theorem keepsWaiting_send {req : AgentRequest} (hm : req.method ≠ "GET") :
    KeepsWaiting (sendAgentSigned req) := by
  intro env s l hl
  rw [wp_sendAgentSigned]
  refine ⟨trivial, fun r _ => ?_⟩
  have hw := hl.aside l (.sendAgentSigned req) r hm
  cases r with
  | error e => exact ⟨rfl, hw⟩
  | ok response => exact ⟨rfl, hw⟩

/-- The answer to a question is posted, and what comes back discarded. -/
theorem answerClarification_waiting {response : HttpResponse} :
    KeepsWaiting (answerClarification cr options response) := by
  rw [answerClarification]
  split
  · split
    · exact keepsWaiting_pure _
    · next body _ =>
      refine (keepsWaiting_effect (o := .onClarification body.clarification)
        trivial trivial).bind fun answer => ?_
      refine keepsWaiting_buildRequest fun req hm => ?_
      have hpost : req.method ≠ "GET" := by
        rw [hm]
        decide
      exact (keepsWaiting_send hpost).bind fun _ => keepsWaiting_pure _
  · exact keepsWaiting_pure _

theorem announceInteraction_waiting {response : HttpResponse} :
    KeepsWaiting (announceInteraction options response) := by
  rw [announceInteraction]
  split
  · split
    · next url code _ _ =>
      exact keepsWaiting_effect (o := .onInteraction url code) trivial trivial
    · exact keepsWaiting_pure _
  · exact keepsWaiting_pure _

/-- How a poll ends: a response still owed is the one returned, and nothing
is owed when it fails. -/
def PollEnds (s : AgentState) (r : Except Halt DeferredResult)
    (q : AgentLog) : Prop :=
  q.1 = s ∧ deferredSince q.2 = true ∧ match r with
    | .ok result => owed q.2 = true → denied result.response.status = true
    | .error _ => owed q.2 = false

theorem PollEnds.of_waiting {s : AgentState} {r : Except Halt DeferredResult}
    {l : List AgentEvent} (h : Awaiting l) : PollEnds s r (s, l) := by
  refine ⟨rfl, h.1, ?_⟩
  cases r with
  | error e => exact h.2
  | ok result =>
      intro ho
      rw [h.2] at ho
      cases ho

variable {env : (o : AgentOp) → agentSig.Ans o → Prop} {s : AgentState}
  {l : List AgentEvent}

theorem KeepsWaiting.bind_poll {α : Type} {x : AgentTask α}
    {f : α → AgentTask DeferredResult} (hx : KeepsWaiting x)
    (hl : Awaiting l)
    (hf : ∀ a l', Awaiting l' → wp (logged (agentWorld env))
      (fun _ _ => True) (f a).run (PollEnds s) (s, l')) :
    wp (logged (agentWorld env)) (fun _ _ => True) (x >>= f).run
      (PollEnds s) (s, l) := by
  rw [wp_bind_except]
  refine wp_mono ?_ (hx env s l hl)
  intro r ⟨s', l'⟩ h
  obtain ⟨hs, hl'⟩ := h
  replace hs : s' = s := hs
  subst hs
  cases r with
  | error e => exact .of_waiting hl'
  | ok a => exact hf a l' hl'

/-- A response to a poll is a denial, or the poll is still waiting. -/
theorem poll_answered (req : AgentRequest) (hl : Awaiting l)
    (r : Except AgentError HttpResponse) :
    deferredSince (⟨.sendAgentSigned req, r⟩ :: l) = true ∧
      (owed (⟨.sendAgentSigned req, r⟩ :: l) = true →
        ∃ response, r = .ok response ∧ denied response.status = true) := by
  refine ⟨hl.1, fun ho => ?_⟩
  cases r with
  | error e =>
      rw [owed_cons rfl rfl, hl.2] at ho
      cases ho
  | ok response =>
      refine ⟨response, rfl, ?_⟩
      by_cases hd : denied response.status = true
      · exact hd
      · have hn : isDenial ⟨.sendAgentSigned req, .ok response⟩ = false := by
          show (req.method == "GET" && denied response.status) = false
          rw [Bool.not_eq_true] at hd
          rw [hd, Bool.and_false]
        rw [owed_cons rfl hn, hl.2] at ho
        cases ho

/-- The loop of a poll, by induction on its rounds: it waits as long as it
goes on, for a `202` or a `503` is no denial. -/
theorem pollLoop_ends {maxPollDuration : Nat} {deadline : Instant}
    {backoffMs : Nat} (hl : Awaiting l) :
    wp (logged (agentWorld env)) (fun _ _ => True)
      (pollLoop cr options maxPollDuration deadline fuel backoffMs).run
      (PollEnds s) (s, l) := by
  induction fuel generalizing backoffMs l with
  | zero => exact .of_waiting hl
  | succ fuel ih =>
      have hsleep : ∀ ms, KeepsWaiting (effect (.sleep ms)) := fun ms =>
        keepsWaiting_effect (o := .sleep ms) trivial trivial
      rw [pollLoop]
      refine (keepsWaiting_effect (o := .instantNow) trivial
        trivial).bind_poll hl fun now l₁ hl₁ => ?_
      split
      · rw [wp_bind_except]
        refine wp_buildRequest (fun e => .of_waiting hl₁) fun req _ => ?_
        show wp _ _ _ _ _
        rw [wp_bind_except, wp_sendAgentSigned]
        refine ⟨trivial, fun r _ => ?_⟩
        obtain ⟨hd, ho⟩ := poll_answered req hl₁ r
        cases r with
        | error e =>
            refine ⟨rfl, hd, Bool.eq_false_iff.mpr fun h => ?_⟩
            obtain ⟨_, hr, _⟩ := ho h
            cases hr
        | ok response =>
            have hend : PollEnds s (.ok (splitError cr response))
                (s, ⟨.sendAgentSigned req, .ok response⟩ :: l₁) := by
              refine ⟨rfl, hd, fun h => ?_⟩
              obtain ⟨_, hr, hdenied⟩ := ho h
              cases hr
              exact hdenied
            have hgo : denied response.status = false →
                Awaiting (⟨.sendAgentSigned req, .ok response⟩ :: l₁) := by
              intro hn
              refine ⟨hd, Bool.eq_false_iff.mpr fun h => ?_⟩
              obtain ⟨_, hr, hdenied⟩ := ho h
              cases hr
              rw [hn] at hdenied
              cases hdenied
            show wp _ _ (if response.status ∈ terminalStatuses then _ else _ :
              AgentTask DeferredResult).run _ _
            split
            · exact hend
            · split
              · next h202 =>
                have hw := hgo (by rw [h202]; rfl)
                refine answerClarification_waiting.bind_poll hw
                  fun _ l₂ hl₂ => ?_
                refine announceInteraction_waiting.bind_poll hl₂
                  fun _ l₃ hl₃ => ?_
                exact (hsleep _).bind_poll hl₃ fun _ l₄ hl₄ => ih hl₄
              · split
                · next h503 =>
                  have hw := hgo (by rw [h503]; rfl)
                  exact (hsleep _).bind_poll hw fun _ l₂ hl₂ => ih hl₂
                · exact hend
      · exact .of_waiting hl₁

theorem pollDeferredWith_ends (hl : Awaiting l) :
    wp (logged (agentWorld env)) (fun _ _ => True)
      (pollDeferredWith cr fuel options).run (PollEnds s) (s, l) := by
  rw [pollDeferredWith]
  refine (keepsWaiting_effect (o := .instantNow) trivial trivial).bind_poll
    hl fun now l₁ hl₁ => ?_
  refine (keepsWaiting_ofResult _ _).bind_poll hl₁ fun deadline l₂ hl₂ => ?_
  split
  · next url code _ =>
    split
    · exact (keepsWaiting_effect (o := .onInteraction url code) trivial
        trivial).bind_poll hl₂ fun _ l₃ hl₃ => pollLoop_ends hl₃
    · exact (keepsWaiting_pure _).bind_poll hl₂ fun _ l₃ hl₃ =>
        pollLoop_ends hl₃
  · exact (keepsWaiting_pure _).bind_poll hl₂ fun _ l₃ hl₃ =>
      pollLoop_ends hl₃

theorem pollResponse_ends {options : AgentOptions}
    {response : HttpResponse} (hl : Awaiting l) :
    wp (logged (agentWorld env)) (fun _ _ => True)
      (pollResponse cr fuel options response).run (fun r q => q.1 = s ∧
        deferredSince q.2 = true ∧ match r with
          | .ok polled => owed q.2 = true → denied polled.status = true
          | .error _ => owed q.2 = false) (s, l) := by
  rw [pollResponse, wp_bind_except, locationHeader, wp_ofResult]
  cases headerValue response.headers "location" with
  | none => exact ⟨rfl, hl.1, hl.2⟩
  | some location =>
      show wp _ _ _ _ _
      rw [wp_bind_except]
      refine wp_mono ?_ (pollDeferredWith_ends hl)
      intro r q h
      cases r with
      | error e => exact h
      | ok result => exact h

end Poll

/-! ## The loop -/

section Loop

variable {cr : Crates} {options : AgentOptions} {fuel : Nat}
  {env : (o : AgentOp) → agentSig.Ans o → Prop} {origin : String}
  {s : AgentState}

/-- How a round ends: it returns no response while a denial is owed. -/
def RoundEnds (r : Except Halt (Option HttpResponse)) (q : AgentLog) :
    Prop :=
  owed q.2 = true → r = .ok none ∨ ∃ m, r = .error (.panicked m)

theorem RoundEnds.of_not_owed {r : Except Halt (Option HttpResponse)}
    {q : AgentLog} (h : owed q.2 = false) : RoundEnds r q := by
  intro ho
  rw [h] at ho
  cases ho

/-- A denial is observed as a final response of any other kind, and calls
for another round. -/
theorem afterPoll_ends {attempt : AgentAuthAttempt} {polled : HttpResponse}
    {l : List AgentEvent}
    (ho : owed l = true → denied polled.status = true) :
    wp (logged (agentWorld env)) (fun _ _ => True) (do
        let step ← observe origin attempt polled
        if step = .finish ∨ step = .retryWithOpaque then return none
        else return some polled : AgentTask (Option HttpResponse)).run
      RoundEnds (s, l) := by
  rw [wp_bind_except, wp_observe]
  refine ⟨trivial, fun r s' h => ?_⟩
  by_cases hd : denied polled.status = true
  · cases r with
    | error m => exact fun _ => .inr ⟨m, rfl⟩
    | ok step =>
        have hne : polled.status ≠ 401 := by
          intro he
          rw [he] at hd
          cases hd
        obtain ⟨order, -, hobs⟩ := lockStep_observe h
        obtain ⟨step', hobs', hcase⟩ := AgentAuth.observe_other order
          s.auth origin attempt polled.headers hne
        rw [hobs'] at hobs
        cases (Prod.mk.inj hobs).1
        have hs : step' = .finish ∨ step' = .retryWithOpaque := by
          rcases hcase with ⟨h202, -⟩ | ⟨-, h | ⟨h, -⟩⟩
          · rw [h202] at hd
            cases hd
          · exact .inl h
          · exact .inr h
        show wp _ _ (if step' = .finish ∨ step' = .retryWithOpaque then _
          else _ : AgentTask (Option HttpResponse)).run _ _
        rw [if_pos hs]
        exact fun _ => .inl rfl
  · have hn : owed l = false := Bool.eq_false_iff.mpr fun h => hd (ho h)
    have hn' : ∀ r' : Except Halt (Option HttpResponse), RoundEnds r'
        (s', ⟨.lock (.observeResponse origin attempt polled.status
          polled.headers), r⟩ :: l) := fun r' => .of_not_owed hn
    cases r with
    | error m => exact hn' _
    | ok step =>
        cases step with
        | error e => exact hn' _
        | ok step =>
            show wp _ _ (if step = .finish ∨ step = .retryWithOpaque then _
              else _ : AgentTask (Option HttpResponse)).run _ _
            split
            · exact hn' _
            · exact hn' _

theorem afterResponse_ends {req : AgentRequest} {attempt : AgentAuthAttempt}
    {response : HttpResponse} {l : List AgentEvent} :
    wp (logged (agentWorld env)) (fun _ _ => True)
      (afterResponse cr fuel options origin attempt response).run RoundEnds
      (s, ⟨.sendWrapped req attempt, .ok response⟩ :: l) := by
  rw [afterResponse, wp_bind_except, wp_observe]
  refine ⟨trivial, fun r s' h => ?_⟩
  have hno : ∀ r' : Except Halt (Option HttpResponse), RoundEnds r'
      (s', ⟨.lock (.observeResponse origin attempt response.status
        response.headers), r⟩ ::
          ⟨.sendWrapped req attempt, .ok response⟩ :: l) :=
    fun r' => .of_not_owed rfl
  cases r with
  | error m => exact hno _
  | ok step =>
      cases step with
      | error e => exact hno _
      | ok step =>
          cases step with
          | finish => exact hno _
          | retryWithOpaque => exact hno _
          | invalidate attempt' => exact hno _
          | pollDeferred =>
              have h202 : response.status = 202 :=
                observe_pollDeferred h
              have hw : Awaiting (⟨.lock (.observeResponse origin attempt
                  response.status response.headers), .ok (.ok .pollDeferred)⟩
                  :: ⟨.sendWrapped req attempt, .ok response⟩ :: l) := by
                refine ⟨?_, rfl⟩
                show (response.status == 202) = true
                rw [h202]
                rfl
              show wp _ _ _ _ _
              rw [wp_bind_except]
              refine wp_mono ?_ (pollResponse_ends hw)
              rintro r ⟨s₂, l₂⟩ h₂
              obtain ⟨-, -, h₂⟩ := h₂
              cases r with
              | error e => exact .of_not_owed h₂
              | ok polled => exact afterPoll_ends h₂
          | exchangeToken resourceToken =>
              have h401 : response.status = 401 :=
                (observe_exchangeToken h).1
              have hs : Undeferred (⟨.lock (.observeResponse origin attempt
                  response.status response.headers),
                    .ok (.ok (.exchangeToken resourceToken))⟩
                  :: ⟨.sendWrapped req attempt, .ok response⟩ :: l) := by
                refine ⟨?_, rfl⟩
                show (response.status == 202) = false
                rw [h401]
                rfl
              refine wp_own_bind exchangeChallenge_calls (J := Undeferred)
                Undeferred.own hs (fun e l' hl' => .of_not_owed hl'.2) ?_
              rintro ⟨ps, result⟩ l' hl'
              rw [wp_bind_except, wp_lock]
              refine ⟨trivial, fun r s'' _ => ?_⟩
              cases r with
              | error e => exact .of_not_owed hl'.2
              | ok x => exact .of_not_owed hl'.2

/-- How a call ends while a denial is owed: the model ran out of fuel, or
the lock was poisoned. -/
def CallEnds (r : Except Halt HttpResponse) (q : AgentLog) : Prop :=
  owed q.2 = true → r = .error .fuel ∨ ∃ m, r = .error (.panicked m)

theorem CallEnds.of_not_owed {r : Except Halt HttpResponse}
    {q : AgentLog} (h : owed q.2 = false) : CallEnds r q := by
  intro ho
  rw [h] at ho
  cases ho

/-- The run lemma, by induction on the rounds: a round that leaves a denial
owed is followed by one that sends the request again. -/
theorem handleLoop_ends {req : AgentRequest} {l : List AgentEvent}
    (hclone : owed l = true → req.tryClone ≠ none) :
    wp (logged (agentWorld env)) (fun _ _ => True)
      (handleLoop cr options req origin fuel).run CallEnds (s, l) := by
  induction fuel generalizing s l with
  | zero => exact fun _ => .inl rfl
  | succ fuel ih =>
      rw [handleLoop, wp_bind_except, wp_lock]
      refine ⟨trivial, fun r s₁ _ => ?_⟩
      cases r with
      | error m => exact fun _ => .inr ⟨m, rfl⟩
      | ok attempt =>
          show wp _ _ _ _ _
          rw [wp_bind_except, wp_ofResult]
          cases hc : req.tryClone with
          | none =>
              refine .of_not_owed (Bool.eq_false_iff.mpr fun ho => ?_)
              exact hclone ho hc
          | some copy =>
              show wp _ _ _ _ _
              rw [wp_bind_except, wp_sendWrapped]
              refine ⟨trivial, fun r _ => ?_⟩
              cases r with
              | error e => exact .of_not_owed (owed_copy _)
              | ok response =>
                  show wp _ _ _ _ _
                  rw [wp_bind_except]
                  refine wp_mono ?_ afterResponse_ends
                  rintro r ⟨s₂, l₂⟩ h
                  cases r with
                  | error e =>
                      intro ho
                      rcases h ho with h | ⟨m, h⟩
                      · cases h
                      · cases h
                        exact .inr ⟨m, rfl⟩
                  | ok found =>
                      cases found with
                      | some response =>
                          intro ho
                          rcases h ho with h | ⟨m, h⟩
                          · cases h
                          · cases h
                      | none =>
                          refine ih fun _ hn => ?_
                          rw [hc] at hn
                          cases hn

/-- While no copy has been sent, nothing is deferred. -/
theorem undeferred_of_noCopies {α : Type} {t : AgentTask α}
    (ht : NoCopies t) {l : List AgentEvent} (hl : Undeferred l) :
    wp (logged (agentWorld env)) (fun _ _ => True) t.run
      (fun _ q => Undeferred q.2) (s, l) := by
  have ht : Prog.Calls AgentOp.NoCopy t.run := ht
  refine wp_of_calls ht (fun _ _ _ _ => trivial) ?_ hl
  intro ⟨s₁, l₁⟩ o r ⟨s₂, l₂⟩ ho hI hw
  obtain ⟨-, hl₂⟩ := hw
  cases hl₂
  replace hI : Undeferred l₁ := hI
  show Undeferred (⟨o, r⟩ :: l₁)
  cases o with
  | lock o => exact hI.lock o r
  | sendWrapped req attempt => exact ho.elim
  | _ => exact hI.own l₁ _ r trivial

theorem handleInner_ends {req : AgentRequest} :
    wp (logged (agentWorld env)) (fun _ _ => True)
      (handleInner cr options fuel req).run CallEnds (s, []) := by
  rw [handleInner, wp_bind_except, wp_ofAauth]
  cases AgentAuth.resourceOrigin cr req.url with
  | error e => exact .of_not_owed rfl
  | ok origin =>
      have h₀ : Undeferred [] := ⟨rfl, rfl⟩
      show wp _ _ _ _ _
      rw [wp_bind_except]
      refine wp_mono ?_ (undeferred_of_noCopies (lock_noCopies _) h₀)
      rintro r ⟨s₁, l₁⟩ h₁
      replace h₁ : Undeferred l₁ := h₁
      cases r with
      | error e => exact .of_not_owed h₁.2
      | ok x =>
          show wp _ _ _ _ _
          rw [wp_bind_except]
          refine wp_mono ?_
            (undeferred_of_noCopies tryProactiveAuthorize_prepares.noCopies h₁)
          rintro r ⟨s₂, l₂⟩ h₂
          replace h₂ : Undeferred l₂ := h₂
          cases r with
          | error e => exact .of_not_owed h₂.2
          | ok y =>
              refine handleLoop_ends fun ho => ?_
              rw [h₂.2] at ho
              cases ho

end Loop

/-! ## A denial is never the answer -/

/-- A denied deferral is never terminal. In every run of one call, when a
copy was deferred and its poll ended with a denial, the call does not end
by returning that response with the request not sent again; what is more,
a call that sends nothing after the denial returns no response at all. -/
theorem denial_not_terminal {cr : Crates} {options : AgentOptions}
    {fuel : Nat} {req : AgentRequest}
    {env : (o : AgentOp) → agentSig.Ans o → Prop} {s s' : AgentState}
    {r : Except Halt HttpResponse} {l₁ l₂ : List AgentEvent}
    (hx : Exec (logged (agentWorld env)) (s, [])
      (handleInner cr options fuel req).run r (s', l₂ ++ l₁))
    {polled : HttpResponse} (hd : DeniedBy polled l₁) :
    ¬ (r = .ok polled ∧ ∀ e ∈ l₂, isCopy e = false) ∧
      ((∀ e ∈ l₂, isCopy e = false) →
        r = .error .fuel ∨ ∃ m, r = .error (.panicked m)) := by
  have hc : CallEnds r (s', l₂ ++ l₁) := by
    have h := Exec.post handleInner_ends hx
    exact h
  have hend : (∀ e ∈ l₂, isCopy e = false) →
      r = .error .fuel ∨ ∃ m, r = .error (.panicked m) :=
    fun hl => hc (hd.owed hl)
  refine ⟨fun h => ?_, hend⟩
  obtain ⟨hr, hl⟩ := h
  rcases hend hl with h | ⟨m, h⟩
  · rw [hr] at h
    cases h
  · rw [hr] at h
    cases h

namespace Sample

/-- The first copy is deferred and its poll denied; the next is granted. -/
def denying : Answers
  | l, .sendWrapped _ _ =>
      some (.ok (if copyCount l = 0 then deferral else bare 200))
  | _, .sendAgentSigned _ => some (.ok (bare 403))
  | _, .resourceMetadata _ => some none
  | _, .instantNow => some (0 : Nat)
  | _, _ => none

set_option maxRecDepth 8000 in
/-- The call as it was run, its log cut where the denial came in. -/
theorem exec_denied : ∃ (s' : AgentState) (l₁ l₂ : List AgentEvent),
    Exec (logged (agentWorld denying.rel)) (newAgent none, [])
      (handleInner crates agentOptions 3 getRequest).run (.ok (bare 200))
      (s', l₂ ++ l₁) ∧
    DeniedBy (bare 403) l₁ ∧ ∃ e ∈ l₂, isCopy e = true := by
  have hrun : ∃ s' l, (handleInner crates agentOptions 3
      getRequest).run.eval (agentAnswer denying 0) (newAgent none, []) =
        some (.ok (bare 200), (s', l)) ∧ DeniedBy (bare 403) (l.drop 4) ∧
          ∃ e ∈ l.take 4, isCopy e = true := by
    refine ⟨_, _, rfl, ⟨rfl, rfl, rfl, rfl⟩, ?_⟩
    exact ⟨_, List.mem_cons_of_mem _ List.mem_cons_self, rfl⟩
  obtain ⟨s', l, he, hd, hc⟩ := hrun
  have hx := exec_of_agentAnswer he
  rw [← List.take_append_drop 4 l] at hx
  exact ⟨s', _, _, hx, hd, hc⟩

/-- The denied request is sent again, and its second answer returned. -/
theorem denied_then_sent : ¬ ∀ (s' : AgentState)
    (r : Except Halt HttpResponse) (l₁ l₂ : List AgentEvent),
    Exec (logged (agentWorld denying.rel)) (newAgent none, [])
      (handleInner crates agentOptions 3 getRequest).run r (s', l₂ ++ l₁) →
    DeniedBy (bare 403) l₁ →
    r = .ok (bare 403) ∧ ∀ e ∈ l₂, isCopy e = false := by
  intro h
  obtain ⟨s', l₁, l₂, hx, hd, e, he, hc⟩ := exec_denied
  have hn := (h s' (.ok (bare 200)) l₁ l₂ hx hd).2 e he
  rw [hc] at hn
  cases hn

/-- The run is one `denial_not_terminal` speaks of. -/
theorem denial_not_terminal_denied : ∃ l₁ l₂ : List AgentEvent,
    DeniedBy (bare 403) l₁ ∧
    ((∀ e ∈ l₂, isCopy e = false) →
      (.ok (bare 200) : Except Halt HttpResponse) = .error .fuel ∨
        ∃ m, (.ok (bare 200) : Except Halt HttpResponse) =
          .error (.panicked m)) ∧ ∃ e ∈ l₂, isCopy e = true := by
  obtain ⟨s', l₁, l₂, hx, hd, hc⟩ := exec_denied
  exact ⟨l₁, l₂, hd, (denial_not_terminal hx hd).2, hc⟩

end Sample

end Aauth
