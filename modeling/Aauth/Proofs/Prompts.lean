import Aauth.Proofs.DeferredPolling
import Aauth.Proofs.PollWire

/-!
# How often the user is prompted

The poll loop tells the user where they are wanted: before the first poll,
if it was told so itself, and again for every `202` whose header names an
interaction. It remembers none of it and reads no body for it.

So the prompts of a run are a function of the responses it got
(`prompts_of_exec`), and the user is prompted once for each interaction,
and never while they are interacting, for exactly those sequences of
responses that never name an interaction twice and never name one while
the user is interacting: `prompted_once_iff`.
-/

namespace Aauth

open Effect Except

namespace Polling

/-! ## Prompts -/

/-- Where a pending response wants the user. -/
def promptOf (r : HttpResponse) : Option (String × String) :=
  if r.status = 202 then
    match (headerValue r.headers "aauth-requirement").map
        AAuthChallenge.fromHeader with
    | some (.ok (.interaction url code)) => some (url, code)
    | _ => none
  else none

/-- The `status` of the body of a response. -/
def pendingStatus (cr : Crates) (r : HttpResponse) : Option String :=
  fromSlice cr (fun v => (v.get "status").bind Json.asStr) r.body

/-- The link and the code the user is told, and the response they are told
them after, if any. -/
structure Prompt where
  response : Option HttpResponse
  interaction : String × String
deriving DecidableEq

/-- The link and the code of a call that tells the user. -/
def told : AgentEvent → Option (String × String)
  | ⟨.onInteraction link code, _⟩ => some (link, code)
  | _ => none

/-- The prompts of a log, newest first. -/
def prompts : List AgentEvent → List Prompt
  | [] => []
  | e :: l => ((told e).map fun p => ⟨(polledResponses l).head?, p⟩).toList ++
      prompts l

/-- The user is prompted once for each interaction, and for no response
that says they are interacting. -/
structure PromptedOnce (cr : Crates) (l : List AgentEvent) : Prop where
  once : ((prompts l).map (·.interaction)).Nodup
  undisturbed : ∀ p ∈ prompts l, ∀ r ∈ p.response,
    pendingStatus cr r ≠ some "interacting"

/-! ## The prompts that responses call for -/

/-- The prompts that a sequence of responses, newest first, makes the loop
give. -/
def duePrompts (options : AgentDeferredOptions) :
    List HttpResponse → List Prompt
  | [] => (options.interaction.map fun p => ⟨none, p⟩).toList
  | r :: rs => ((promptOf r).map fun p => ⟨some r, p⟩).toList ++
      duePrompts options rs

/-- Likewise, when there is a callback to give them to. -/
def givenPrompts (options : AgentDeferredOptions) (rs : List HttpResponse) :
    List Prompt :=
  if options.onInteraction then duePrompts options rs else []

theorem duePrompts_interaction (options : AgentDeferredOptions)
    (rs : List HttpResponse) :
    (duePrompts options rs).map (·.interaction) =
      rs.filterMap promptOf ++ options.interaction.toList := by
  induction rs with
  | nil =>
      cases h : options.interaction with
      | none => simp [duePrompts, h]
      | some p => simp [duePrompts, h]
  | cons r rs ih =>
      rw [duePrompts, List.map_append, ih]
      cases h : promptOf r with
      | none => simp [h]
      | some p => simp [h]

theorem mem_duePrompts {options : AgentDeferredOptions}
    {rs : List HttpResponse} {r : HttpResponse} :
    (∃ p ∈ duePrompts options rs, p.response = some r) ↔
      r ∈ rs ∧ promptOf r ≠ none := by
  induction rs with
  | nil =>
      cases h : options.interaction with
      | none => simp [duePrompts, h]
      | some p => simp [duePrompts, h]
  | cons x rs ih =>
      rw [duePrompts]
      cases h : promptOf x with
      | none =>
          rw [Option.map_none, Option.toList_none, List.nil_append, ih,
            List.mem_cons]
          constructor
          · intro hr
            exact ⟨.inr hr.1, hr.2⟩
          · intro hr
            obtain ⟨rfl | hm, hp⟩ := hr
            · exact absurd h hp
            · exact ⟨hm, hp⟩
      | some p =>
          rw [Option.map_some, Option.toList_some, List.singleton_append]
          simp only [List.mem_cons, exists_eq_or_imp, ih]
          constructor
          · intro hr
            obtain hx | ⟨hm, hp⟩ := hr
            · cases hx
              exact ⟨.inl rfl, by rw [h]; exact nofun⟩
            · exact ⟨.inr hm, hp⟩
          · intro hr
            obtain ⟨rfl | hm, hp⟩ := hr
            · exact .inl rfl
            · exact .inr ⟨hm, hp⟩

/-- No interaction is named twice, the one the loop was started with
counted, and none while the user is interacting. -/
structure NamedOnce (cr : Crates) (options : AgentDeferredOptions)
    (rs : List HttpResponse) : Prop where
  once : (rs.filterMap promptOf ++ options.interaction.toList).Nodup
  undisturbed : ∀ r ∈ rs, promptOf r ≠ none →
    pendingStatus cr r ≠ some "interacting"

theorem promptedOnce_iff {cr : Crates} {options : AgentDeferredOptions}
    {rs : List HttpResponse} {l : List AgentEvent}
    (h : prompts l = givenPrompts options rs) :
    PromptedOnce cr l ↔
      (options.onInteraction = true → NamedOnce cr options rs) := by
  by_cases hcb : options.onInteraction = true
  · rw [givenPrompts, if_pos hcb] at h
    have hmem : (∀ p ∈ prompts l, ∀ r ∈ p.response,
        pendingStatus cr r ≠ some "interacting") ↔
          ∀ r ∈ rs, promptOf r ≠ none →
            pendingStatus cr r ≠ some "interacting" := by
      rw [h]
      constructor
      · intro hp r hr hne
        obtain ⟨p, hm, he⟩ := mem_duePrompts.mpr ⟨hr, hne⟩
        exact hp p hm r he
      · intro hrs p hm r he
        obtain ⟨hr, hne⟩ := mem_duePrompts.mp ⟨p, hm, he⟩
        exact hrs r hr hne
    constructor
    · intro hp _
      refine ⟨?_, hmem.mp hp.undisturbed⟩
      rw [← duePrompts_interaction, ← h]
      exact hp.once
    · intro hn
      obtain ⟨hnd, hu⟩ := hn hcb
      refine ⟨?_, hmem.mpr hu⟩
      rw [h, duePrompts_interaction]
      exact hnd
  · rw [givenPrompts, if_neg hcb] at h
    have hp : PromptedOnce cr l := by
      constructor
      · rw [h]
        exact List.nodup_nil
      · rw [h]
        exact nofun
    exact iff_of_true hp fun hc => absurd hc hcb

/-! ## The responses a run came to prompt for -/

/-- The answer to a question did not get through. -/
def answerLost : AgentEvent → Bool
  | ⟨.sendAgentSigned req, .error _⟩ => req.method ≠ "GET"
  | _ => false

/-- The responses to the polls of a run, newest first, without the one
whose question could not be answered: the run ends there. -/
def heededResponses : List AgentEvent → List HttpResponse
  | [] => []
  | e :: l =>
      if answerLost e then (polledResponses l).tail
      else polledResponses (e :: l)

section Loop

variable {σ : Type} {W : World agentSig σ} {cr : Crates}
  {options : AgentDeferredOptions}

/-- The user was told what the responses so far called for. -/
def Prompted (options : AgentDeferredOptions) (l : List AgentEvent) : Prop :=
  prompts l = givenPrompts options (polledResponses l)

/-- And the last response was heeded. -/
def Heeded (options : AgentDeferredOptions) (l : List AgentEvent) : Prop :=
  Prompted options l ∧ heededResponses l = polledResponses l

/-- The last response was `r`, and the user was told what those before it
called for. -/
def Unheeded (options : AgentDeferredOptions) (r : HttpResponse)
    (l : List AgentEvent) : Prop :=
  ∃ rs, polledResponses l = r :: rs ∧ prompts l = givenPrompts options rs

/-- How a run ends. -/
def Settled (options : AgentDeferredOptions) (l : List AgentEvent) : Prop :=
  prompts l = givenPrompts options (heededResponses l)

/-- A call that neither polls nor tells the user. -/
structure Aside (e : AgentEvent) : Prop where
  told : told e = none
  answer : pollAnswer e = none

variable {l : List AgentEvent} {e : AgentEvent} {r : HttpResponse}

theorem Aside.prompts (h : Aside e) : prompts (e :: l) = Polling.prompts l := by
  rw [Polling.prompts, h.told]
  rfl

theorem Aside.responses (h : Aside e) :
    polledResponses (e :: l) = polledResponses l :=
  List.filterMap_cons_none h.answer

theorem Heeded.settled (h : Heeded options l) : Settled options l := by
  obtain ⟨hp, hr⟩ := h
  rw [Settled, hr]
  exact hp

theorem Prompted.aside (h : Prompted options l) (he : Aside e)
    (ha : answerLost e = false) : Heeded options (e :: l) := by
  constructor
  · rw [Prompted, he.prompts, he.responses]
    exact h
  · rw [heededResponses, ha]
    rfl

theorem Unheeded.aside (h : Unheeded options r l) (he : Aside e) :
    Unheeded options r (e :: l) := by
  obtain ⟨rs, hrs, hp⟩ := h
  exact ⟨rs, he.responses.trans hrs, he.prompts.trans hp⟩

/-- A run that loses its answer has not prompted for the response that
asked. -/
theorem Unheeded.lost (h : Unheeded options r l) (he : Aside e)
    (ha : answerLost e = true) : Settled options (e :: l) := by
  obtain ⟨rs, hrs, hp⟩ := h
  rw [Settled, heededResponses, if_pos ha, he.prompts, hrs]
  exact hp

theorem Unheeded.prompted (h : Unheeded options r l)
    (hr : promptOf r = none ∨ options.onInteraction = false) :
    Prompted options l := by
  obtain ⟨rs, hrs, hp⟩ := h
  rw [Prompted, hp, hrs, givenPrompts, givenPrompts]
  rcases hr with hr | hcb
  · rw [duePrompts, hr]
    rfl
  · rw [hcb]
    rfl

theorem Unheeded.told {link code : String} {u : Unit}
    (h : Unheeded options r l) (hr : promptOf r = some (link, code))
    (hcb : options.onInteraction = true) :
    Prompted options (⟨.onInteraction link code, u⟩ :: l) := by
  obtain ⟨rs, hrs, hp⟩ := h
  have hresp : polledResponses (⟨.onInteraction link code, u⟩ :: l) =
      polledResponses l := rfl
  rw [Prompted, prompts, hp, hresp, hrs, givenPrompts, givenPrompts, if_pos hcb,
    if_pos hcb, duePrompts, hr]
  rfl

/-! ## The loop -/

theorem wp_logged_effect {s : σ} {o : AgentOp}
    {post : Except Halt (agentSig.Ans o) → σ × List AgentEvent → Prop}
    (h : ∀ a s', post (.ok a) (s', ⟨o, a⟩ :: l)) :
    wp (logged W) (fun _ _ => True) (effect o).run post (s, l) :=
  wp_logged_call.mpr ⟨trivial, fun a s' _ => h a s'⟩

theorem wp_logged_send {s : σ} {req : AgentRequest}
    {post : Except Halt HttpResponse → σ × List AgentEvent → Prop}
    (h : ∀ x s', post (x.mapError .error)
      (s', ⟨.sendAgentSigned req, x⟩ :: l)) :
    wp (logged W) (fun _ _ => True) (sendAgentSigned req).run post (s, l) := by
  refine wp_logged_call.mpr ⟨trivial, fun x s' _ => ?_⟩
  have hx := h x s'
  cases x with
  | ok a => exact hx
  | error e => exact hx

/-- A task between two polls: what holds of the log when it goes on, and
that the run is settled when it does not. -/
def Goes (W : World agentSig σ) (options : AgentDeferredOptions)
    {α : Type} (I : List AgentEvent → Prop) (t : AgentTask α)
    (post : α → List AgentEvent → Prop) : Prop :=
  Triple (logged W) (fun q => I q.2) t (fun a q => post a q.2)
    fun _ q => Settled options q.2

section Rules

variable {α β : Type} {I J : List AgentEvent → Prop} {x : AgentTask α}

theorem Goes.bind {f : α → AgentTask β} {post : β → List AgentEvent → Prop}
    (mid : α → List AgentEvent → Prop) (hx : Goes W options I x mid)
    (hf : ∀ a, Goes W options (mid a) (f a) post) :
    Goes W options I (x >>= f) post := Triple.bind hx hf

theorem Goes.weaken {post : α → List AgentEvent → Prop}
    (h : Goes W options I x post) (hJ : ∀ l, J l → I l) :
    Goes W options J x post := Triple.weaken h fun q hq => hJ q.2 hq

theorem goes_pure {a : α} {post : α → List AgentEvent → Prop}
    (h : ∀ l, I l → post a l) : Goes W options I (pure a) post :=
  Triple.pure fun q hq => h q.2 hq

theorem goes_throw {e : Halt} {post : α → List AgentEvent → Prop}
    (h : ∀ l, I l → Settled options l) : Goes W options I (throw e) post :=
  Triple.throw fun q hq => h q.2 hq

end Rules

theorem answerClarification_goes (hurl : Requestable cr options.locationUrl) :
    Goes W options (Unheeded options r) (answerClarification cr options r)
      fun _ => Unheeded options r := by
  have hskip : Goes W options (Unheeded options r) (pure () : AgentTask Unit)
      fun _ => Unheeded options r := goes_pure fun _ h => h
  rw [answerClarification]
  split
  · split
    · exact hskip
    · next body _ =>
      intro q h
      rw [wp_bind_except]
      refine wp_logged_effect fun answer s' => ?_
      dsimp only
      have hasked : Unheeded options r
          (⟨.onClarification body.clarification, answer⟩ :: q.2) :=
        h.aside ⟨rfl, rfl⟩
      rcases buildRequest_cases cr "POST" options.locationUrl _ _ with
        ⟨-, url, hreq⟩ | ⟨hbad, -⟩
      · rw [hreq]
        show wp _ _ (sendAgentSigned _ >>= _).run _ _
        rw [wp_bind_except]
        refine wp_logged_send fun x s'' => ?_
        cases x with
        | ok x => exact hasked.aside ⟨rfl, rfl⟩
        | error e => exact hasked.lost ⟨rfl, rfl⟩ rfl
      · exact absurd hurl hbad
  · exact hskip

theorem announceInteraction_goes (h202 : r.status = 202) :
    Goes W options (Unheeded options r) (announceInteraction options r)
      fun _ => Prompted options := by
  have hp : promptOf r = match (headerValue r.headers
      "aauth-requirement").map AAuthChallenge.fromHeader with
    | some (.ok (.interaction url code)) => some (url, code)
    | _ => none := if_pos h202
  rw [announceInteraction]
  split
  · next url code hh =>
    rw [hh] at hp
    by_cases hcb : options.onInteraction = true
    · rw [if_pos hcb]
      intro q h
      exact wp_logged_effect fun u s' => h.told hp hcb
    · rw [if_neg hcb]
      rw [Bool.not_eq_true] at hcb
      exact goes_pure fun _ h => h.prompted (.inr hcb)
  · next hnone =>
    refine goes_pure fun _ h => h.prompted (.inl ?_)
    rw [hp]
    split
    · next url code hh => exact absurd hh (hnone url code)
    · rfl

theorem sleep_goes (ms : Nat) :
    Goes W options (Prompted options) (effect (.sleep ms))
      fun _ => Heeded options := by
  intro q h
  exact wp_logged_effect fun u s' => h.aside ⟨rfl, rfl⟩ rfl

/-- A response to a poll is yet to be heeded. -/
theorem poll_goes {req : AgentRequest} (hm : req.method = "GET") :
    Goes W options (Heeded options) (sendAgentSigned req)
      fun r l => Unheeded options r l ∧
        heededResponses l = polledResponses l := by
  intro q h
  refine wp_logged_send fun x s' => ?_
  cases x with
  | ok x =>
      have hx : pollAnswer ⟨.sendAgentSigned req, .ok x⟩ = some x := if_pos hm
      refine ⟨⟨polledResponses q.2, ?_, h.1⟩, rfl⟩
      exact List.filterMap_cons_some hx
  | error e =>
      have ha : answerLost ⟨.sendAgentSigned req, .error e⟩ = false := by
        show decide (req.method ≠ "GET") = false
        rw [hm]
        rfl
      exact (h.1.aside ⟨rfl, rfl⟩ ha).settled

/-- A response that ends the poll calls for no prompt. -/
theorem Unheeded.settled (h : Unheeded options r l)
    (hh : heededResponses l = polledResponses l) (hs : r.status ≠ 202) :
    Settled options l :=
  Heeded.settled ⟨h.prompted (.inl (if_neg hs)), hh⟩

/-- By induction on the rounds: at the start of each, every response so far
was heeded. -/
theorem pollLoop_goes {maxPollDuration fuel b : Nat} {deadline : Instant} :
    Goes W options (Heeded options)
      (pollLoop cr options maxPollDuration deadline fuel b)
      fun _ => Settled options := by
  induction fuel generalizing b with
  | zero => exact goes_throw fun l h => h.settled
  | succ fuel ih =>
      rw [pollLoop]
      refine Goes.bind (fun _ => Heeded options) ?_ fun now => ?_
      · intro q h
        exact wp_logged_effect fun now s' => h.1.aside ⟨rfl, rfl⟩ rfl
      · split
        · rcases buildRequest_cases cr "GET" options.locationUrl
            (HeaderMap.empty.insert "prefer" "wait=45") .none with
            ⟨hurl, url, hreq⟩ | ⟨-, m, hreq, -⟩
          · rw [hreq]
            show Goes W options _ (sendAgentSigned _ >>= _) _
            refine Goes.bind _ (poll_goes rfl) fun response => ?_
            show Goes W options _
              (if response.status ∈ terminalStatuses then _ else _) _
            split
            · next ht =>
              refine goes_pure fun l h => h.1.settled h.2 fun h202 => ?_
              exact not_mem_terminal (.inl h202) ht
            · split
              · next h202 =>
                refine Goes.bind _ (Goes.weaken
                  (answerClarification_goes hurl) fun l h => h.1) fun _ => ?_
                refine Goes.bind _ (announceInteraction_goes h202) fun _ => ?_
                exact Goes.bind _ (sleep_goes _) fun _ => ih
              · next h202 =>
                split
                · refine Goes.bind _ (Goes.weaken (sleep_goes _)
                    fun l h => h.1.prompted (.inl (if_neg h202))) fun _ => ?_
                  exact ih
                · exact goes_pure fun l h => h.1.settled h.2 h202
          · rw [hreq]
            exact goes_throw fun l h => h.settled
        · exact goes_throw fun l h => h.settled

/-- A log in which nothing was polled and nobody told. -/
structure Begins (l : List AgentEvent) : Prop where
  prompts : prompts l = []
  responses : polledResponses l = []
  heeded : heededResponses l = []

theorem Begins.heeded_of_none (h : Begins l)
    (hn : givenPrompts options [] = []) : Heeded options l := by
  refine ⟨?_, h.heeded.trans h.responses.symm⟩
  rw [Prompted, h.prompts, h.responses, hn]

/-- Before the first poll the user is told what the loop was told. -/
theorem begin_goes {α : Type} {rest : AgentTask α}
    {post : α → List AgentEvent → Prop}
    (hrest : Goes W options (Heeded options) rest post) :
    Goes W options Begins
      (match options.interaction with
        | some (url, code) =>
            if options.onInteraction then do
              effect (.onInteraction url code)
              rest
            else rest
        | none => rest) post := by
  have hskip (hn : givenPrompts options [] = []) :
      Goes W options Begins rest post :=
    Goes.weaken hrest fun l h => h.heeded_of_none hn
  split
  · next url code hi =>
    by_cases hcb : options.onInteraction = true
    · rw [if_pos hcb]
      refine Goes.bind (fun _ => Heeded options) ?_ fun _ => hrest
      intro q h
      refine wp_logged_effect fun u s' => ⟨?_, rfl⟩
      have hresp : polledResponses (⟨.onInteraction url code, u⟩ :: q.2) =
          [] := h.responses
      rw [Prompted, prompts, h.prompts, hresp, h.responses, givenPrompts,
        if_pos hcb, duePrompts, hi]
      rfl
    · rw [if_neg hcb]
      exact hskip (if_neg hcb)
  · next hi =>
    refine hskip ?_
    rw [givenPrompts, duePrompts, hi]
    exact ite_self []

/-- The prompts of a run are those its responses call for; a run whose time
limit is beyond the clock gets no response and gives none. -/
theorem prompts_of_exec {fuel : Nat} {s s' : σ}
    {result : Except Halt DeferredResult}
    (hx : Exec (logged W) (s, []) (pollDeferredWith cr fuel options).run
      result (s', l)) :
    Settled options l ∨ prompts l = [] ∧ heededResponses l = [] := by
  have hrun : wp (logged W) (fun _ _ => True)
      (pollDeferredWith cr fuel options).run
      (fun _ q => Settled options q.2 ∨
        prompts q.2 = [] ∧ heededResponses q.2 = []) (s, []) := by
    rw [pollDeferredWith, wp_bind_except]
    refine wp_logged_effect fun begun s₁ => ?_
    dsimp only
    rw [wp_bind_except, wp_ofResult]
    cases begun.add (durationFromSecs
        (options.maxPollDurationSecs.getD 300)) with
    | none => exact .inr ⟨rfl, rfl⟩
    | some deadline =>
        have hpoll := @pollLoop_goes σ W cr options
          (options.maxPollDurationSecs.getD 300) fuel 1000 deadline
        refine wp_mono ?_ (begin_goes hpoll (s₁, [⟨.instantNow, begun⟩])
          ⟨rfl, rfl, rfl⟩)
        intro r q h
        cases r with
        | ok r => exact .inl h
        | error e => exact .inl h
  have h := Exec.post hrun hx
  exact h

end Loop

/-- The prompts of a run come once for each interaction and never while
the user is interacting, if and only if there is no callback to prompt
with, or the responses the run heeded name no interaction twice, the one
it was started with counted, and name none while the user is
interacting. -/
theorem prompted_once_iff {σ : Type} {W : World agentSig σ} {cr : Crates}
    {options : AgentDeferredOptions} {fuel : Nat} {s s' : σ}
    {result : Except Halt DeferredResult} {l : List AgentEvent}
    (hx : Exec (logged W) (s, []) (pollDeferredWith cr fuel options).run
      result (s', l)) :
    PromptedOnce cr l ↔ (options.onInteraction = true →
      NamedOnce cr options (heededResponses l)) := by
  rcases prompts_of_exec hx with h | ⟨hp, hr⟩
  · exact promptedOnce_iff h
  · have hnone : PromptedOnce cr l := by
      constructor
      · rw [hp]
        exact List.nodup_nil
      · rw [hp]
        exact nofun
    refine iff_of_true hnone fun _ => ?_
    rw [hr]
    refine ⟨?_, nofun⟩
    cases options.interaction with
    | none => exact List.nodup_nil
    | some p => exact List.nodup_singleton p

/-! ## The repository's own replies -/

theorem promptOf_interaction {url code : String} {r : HttpResponse}
    (hs : r.status = 202) (hu : '"' ∉ url.toList) (hc : '"' ∉ code.toList)
    (hh : headerValue r.headers "aauth-requirement" =
      some (AAuthChallenge.toHeader (.interaction url code))) :
    promptOf r = some (url, AAuthChallenge.codeRead url code) := by
  rw [promptOf, if_pos hs, hh, Option.map_some,
    AAuthChallenge.fromHeader_interaction hu hc]

open HeaderMap in
/-- Every reply to a poll of a request that waits for an interaction names
it again, whether the user has begun or not. -/
theorem deferWaiting_prompts {cr : Crates} (h : JsonLaws cr)
    {w : DeferWaiting} {url code : String} {r : HttpResponse}
    (hq : w.requirement = .interaction url code) (hu : '"' ∉ url.toList)
    (hc : '"' ∉ code.toList) (hr : Respond.deferWaiting cr w = some r) :
    promptOf r = some (url, AAuthChallenge.codeRead url code) ∧
      pendingStatus cr r = some w.status.asStr := by
  rw [Respond.deferWaiting, hq, PendingBody.forWaiting] at hr
  simp only [Option.bind_eq_bind, Option.bind_eq_some_iff] at hr
  obtain ⟨headers, hh, he⟩ := hr
  cases he
  have hp := insertPollHeaders_spec single_empty hh
  have hsingle := hp.single.insert "content-type" "application/json"
  have hbase : (Respond.json cr 202
      (PendingBody.toJson (.status w.status))).headers.get
        "aauth-requirement" = none := get_insert_of_ne (by decide)
  constructor
  · refine promptOf_interaction rfl hu hc ?_
    show ((HeaderMap.extend (Respond.json cr 202 _).headers _).get _).bind _ = _
    rw [get_extend hsingle, hbase, Option.or_none, ← headerValue,
      headerValue_insert_of_ne (by decide)]
    exact hp.challenge _ rfl
  · refine fromSlice_of_tree h (h.obj fun m hm => ?_) rfl
    cases List.mem_singleton.mp hm
    exact PendingStatus.isJson h w.status

/-- So two polls that such a request leaves waiting prompt the user twice. -/
theorem not_namedOnce_of_waiting {cr : Crates} (h : JsonLaws cr)
    {options : AgentDeferredOptions} {rs : List HttpResponse}
    {w w' : DeferWaiting} {url code : String} {r r' : HttpResponse}
    (hq : w.requirement = .interaction url code)
    (hq' : w'.requirement = .interaction url code) (hu : '"' ∉ url.toList)
    (hc : '"' ∉ code.toList) (hr : Respond.deferWaiting cr w = some r)
    (hr' : Respond.deferWaiting cr w' = some r')
    (hrs : [r', r].Sublist rs) : ¬ NamedOnce cr options rs := by
  intro hn
  have hp := (deferWaiting_prompts h hq hu hc hr).1
  have hp' := (deferWaiting_prompts h hq' hu hc hr').1
  have hsub := (hrs.filterMap promptOf).trans
    (List.sublist_append_left _ options.interaction.toList)
  have hnd := hn.once.sublist hsub
  rw [List.filterMap_cons_some hp', List.filterMap_cons_some hp] at hnd
  exact (List.nodup_cons.mp hnd).1 List.mem_cons_self

/-! ## At a server -/

namespace Sample

open Aauth.Sample

def promptedOptions : AgentDeferredOptions :=
  { pollOptions with onInteraction := true }

/-- The reply to a poll of a request that waits for the user. -/
def waitingReply (status : PendingStatus) : HttpResponse where
  status := 202
  headers := ⟨[("retry-after", "0"), ("cache-control", "no-store"),
    ("aauth-requirement", AAuthChallenge.toHeader
      (.interaction "https://p.example/i" "ABCD-EFGH")),
    ("content-type", "application/json")]⟩
  body := jsonBytes wireCrates (PendingBody.toJson (.status status))

/-- A server that gives its replies in turn, the clock standing still. -/
def replying (rs : List HttpResponse) : Answers
  | l, .sendAgentSigned _ => rs[(polledResponses l).length]?.map .ok
  | _, .instantNow => some (0 : Nat)
  | _, .sleep _ => some ()
  | _, .onInteraction _ _ => some ()
  | _, _ => none

abbrev PromptRun (rs : List HttpResponse) (l : List AgentEvent) : Prop :=
  Exec (logged (agentWorld (replying rs).rel)) (newAgent none, [])
    (pollDeferredWith wireCrates rs.length promptedOptions).run
    (.ok ⟨bare 200, none⟩) (newAgent none, l)

theorem deferWaiting_reply (status : PendingStatus) :
    Respond.deferWaiting wireCrates
      ⟨status, .interaction "https://p.example/i" "ABCD-EFGH"⟩ =
        some (waitingReply status) := by
  rfl

theorem promptOf_waitingReply (status : PendingStatus) :
    promptOf (waitingReply status) =
        some ("https://p.example/i", "ABCD-EFGH") ∧
      pendingStatus wireCrates (waitingReply status) = some status.asStr :=
  deferWaiting_prompts wireCrates_json rfl (by decide) (by decide)
    (deferWaiting_reply status)

/-- The user has not begun at the first poll, and has at the second. -/
def twiceWaiting : List HttpResponse :=
  [waitingReply .pending, waitingReply .interacting, bare 200]

theorem run_twiceWaiting : ∃ l, PromptRun twiceWaiting l ∧
    prompts l = [waitingReply .interacting, waitingReply .pending].map
      fun r => ⟨some r, ("https://p.example/i", "ABCD-EFGH")⟩ :=
  ⟨_, @exec_of_agentAnswer _ _ 0 _ _ _ _ rfl, rfl⟩

/-- They are told the same link and code at both. -/
theorem prompted_twice : ∃ l, PromptRun twiceWaiting l ∧
    ¬ ((prompts l).map (·.interaction)).Nodup ∧
    ∃ p ∈ prompts l, ∃ r ∈ p.response,
      pendingStatus wireCrates r = some "interacting" := by
  obtain ⟨l, hx, hp⟩ := run_twiceWaiting
  refine ⟨l, hx, ?_, ?_⟩
  · rw [hp]
    intro hnd
    exact (List.nodup_cons.mp hnd).1 List.mem_cons_self
  · rw [hp]
    exact ⟨_, List.mem_cons_self, _, rfl,
      (promptOf_waitingReply .interacting).2⟩

theorem run_onceWaiting : ∃ l, PromptRun [waitingReply .pending, bare 200] l ∧
    heededResponses l = [bare 200, waitingReply .pending] :=
  ⟨_, @exec_of_agentAnswer _ _ 0 _ _ _ _ rfl, rfl⟩

/-- After one such reply the user was told once. -/
theorem prompted_at_once : ∃ l,
    PromptRun [waitingReply .pending, bare 200] l ∧
      PromptedOnce wireCrates l := by
  obtain ⟨l, hx, hr⟩ := run_onceWaiting
  refine ⟨l, hx, (prompted_once_iff hx).mpr fun _ => ?_⟩
  obtain ⟨hp, hs⟩ := promptOf_waitingReply .pending
  have hbare : promptOf (bare 200) = none := rfl
  rw [hr]
  constructor
  · rw [List.filterMap_cons_none hbare, List.filterMap_cons_some hp]
    exact List.nodup_singleton _
  · intro r hm hne
    rcases List.mem_pair.mp hm with rfl | rfl
    · exact absurd hbare hne
    · rw [hs]
      decide

end Sample

end Polling

end Aauth
