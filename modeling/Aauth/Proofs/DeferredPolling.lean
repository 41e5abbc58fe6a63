import Aauth.Proofs.AgentCalls
import Aauth.Proofs.HttpSig
import Aauth.Sample.Agent

/-!
# Polling as a state machine

The protocol gives a deferred response a state machine: the agent waits and
polls as long as it is told to, and stops at the first response that says
anything else. Here the machine reads the log of the poll loop's calls and
refuses whatever the protocol does: a poll before its time, a request to
another URL, an answer to no question. The loop follows it in every run
whose responses it knows how to handle (`Paced`); a `429`, which it takes
for the end, and a first `202` with no `Retry-After`, after which it waits
a second and not five, are beyond it.
-/

namespace Aauth

open Effect Except Text

namespace Polling

/-! ## The machine -/

/-- What the machine is in between two responses: it has `slept` of the
`due` milliseconds it was told to wait, and may have been asked something. -/
inductive DeferredState where
  | waiting (due slept : Nat) (question : Option String)
  | ended (response : HttpResponse)

/-- A `Retry-After` that is a number of seconds. -/
def delaySeconds (value : String) : Option Nat :=
  if !value.isEmpty && value.toList.all Char.isDigit then value.toNat?
  else none

/-- In milliseconds. -/
def receivedDelay (headers : HeaderMap) : Option Nat :=
  ((headers.get "retry-after").bind delaySeconds).map (· * 1000)

/-- How long to wait after a response, when it was `interval` before it. -/
def requiredDelay (interval : Nat) (r : HttpResponse) : Nat :=
  if r.status = 202 then (receivedDelay r.headers).getD 5000
  else if r.status = 429 then
    max ((receivedDelay r.headers).getD 0) (interval + 5000)
  else (receivedDelay r.headers).getD 0

/-- The statuses that say to go on. -/
def goesOn : List Nat := [202, 429, 503]

/-- The question of a pending response. -/
def questionOf (cr : Crates) (r : HttpResponse) : Option String :=
  if r.status = 202 then
    (fromSlice cr ClarificationChallenge.fromJson r.body).map
      (·.clarification)
  else none

def DeferredState.polled (cr : Crates) (slept : Nat) (r : HttpResponse) :
    DeferredState :=
  if r.status ∈ goesOn then
    .waiting (requiredDelay slept r) 0 (questionOf cr r)
  else .ended r

/-- The request that delivers an answer. -/
def answerRequest (cr : Crates) (url answer : String) : AgentRequest where
  method := "POST"
  url := url
  headers := HeaderMap.empty.insert "content-type" "application/json"
  body := .bytes (jsonBytes cr
    (ClarificationResponse.toJson { clarificationResponse := answer }))

def pollRequest (url : String) : AgentRequest where
  method := "GET"
  url := url
  headers := HeaderMap.empty.insert "prefer" "wait=45"
  body := .none

/-- The logs, newest call first, that the machine accepts for a poll of
`url` begun at `begun`, and where they leave it. -/
inductive DeferredRun (cr : Crates) (url : String) (begun : Instant) :
    List AgentEvent → DeferredState → Prop where
  | start : DeferredRun cr url begun [⟨.instantNow, begun⟩] (.waiting 0 0 none)
  | poll {l : List AgentEvent} {due slept : Nat} {q : Option String}
      {r : HttpResponse} :
      DeferredRun cr url begun l (.waiting due slept q) → due ≤ slept →
      DeferredRun cr url begun (⟨.sendAgentSigned (pollRequest url), .ok r⟩ :: l)
        (.polled cr slept r)
  | unanswered {l : List AgentEvent} {due slept : Nat} {q : Option String}
      {e : AgentError} :
      DeferredRun cr url begun l (.waiting due slept q) → due ≤ slept →
      DeferredRun cr url begun
        (⟨.sendAgentSigned (pollRequest url), .error e⟩ :: l)
        (.waiting due slept q)
  | answer {l : List AgentEvent} {due slept : Nat} {text answer : String}
      {r : Except AgentError HttpResponse} :
      DeferredRun cr url begun (⟨.onClarification text, answer⟩ :: l)
        (.waiting due slept (some text)) →
      DeferredRun cr url begun
        (⟨.sendAgentSigned (answerRequest cr url answer), r⟩ ::
          ⟨.onClarification text, answer⟩ :: l) (.waiting due slept none)
  | sleep {l : List AgentEvent} {due slept ms : Nat} {q : Option String}
      {u : Unit} :
      DeferredRun cr url begun l (.waiting due slept q) →
      DeferredRun cr url begun (⟨.sleep ms, u⟩ :: l) (.waiting due (slept + ms) q)
  | ask {l : List AgentEvent} {due slept : Nat} {text answer : String} :
      DeferredRun cr url begun l (.waiting due slept (some text)) →
      DeferredRun cr url begun (⟨.onClarification text, answer⟩ :: l)
        (.waiting due slept (some text))
  | announce {l : List AgentEvent} {due slept : Nat} {q : Option String}
      {link code : String} {u : Unit} :
      DeferredRun cr url begun l (.waiting due slept q) →
      DeferredRun cr url begun (⟨.onInteraction link code, u⟩ :: l)
        (.waiting due slept q)
  | clock {l : List AgentEvent} {due slept : Nat} {q : Option String}
      {now : Instant} :
      DeferredRun cr url begun l (.waiting due slept q) →
      DeferredRun cr url begun (⟨.instantNow, now⟩ :: l) (.waiting due slept q)

/-- How a poll may end: with the response that ended it, when there is one;
else because a request failed, the time is up, or the URL is none. -/
def PollOutcome (cr : Crates) (options : AgentDeferredOptions)
    (begun : Instant) (l : List AgentEvent) :
    Except Halt DeferredResult → DeferredState → Prop
  | .ok result, st => st = .ended result.response
  | .error .fuel, st => ∃ due slept q, st = .waiting due slept q
  | .error (.panicked _), _ =>
      (¬ ∃ url u, cr.httpUri options.locationUrl = .ok url ∧
        cr.urlParse url = .ok u) ∨
      begun.add (durationFromSecs (options.maxPollDurationSecs.getD 300)) =
        none
  | .error (.error e), st => ∃ due slept q, st = .waiting due slept q ∧
      ((∃ req l', l = ⟨.sendAgentSigned req, .error e⟩ :: l') ∨
        ∃ now l' deadline, l = ⟨.instantNow, now⟩ :: l' ∧
          begun.add (durationFromSecs
            (options.maxPollDurationSecs.getD 300)) = some deadline ∧
          deadline ≤ now)

/-! ## The responses it can handle -/

/-- The response to a poll. -/
def pollAnswer : AgentEvent → Option HttpResponse
  | ⟨.sendAgentSigned req, .ok r⟩ => if req.method = "GET" then some r else none
  | _ => none

def polledResponses (l : List AgentEvent) : List HttpResponse :=
  l.filterMap pollAnswer

/-- A response that the loop handles as the protocol wants it to, after `n`
others that said to go on. -/
structure Manageable (n : Nat) (r : HttpResponse) : Prop where
  not_slowed : r.status ≠ 429
  readable : r.status = 202 ∨ r.status = 503 → ∀ value,
    r.headers.get "retry-after" = some value →
      ∃ seconds, delaySeconds value = some seconds ∧ seconds * 1000 < 2 ^ 64
  late : r.status = 202 → r.headers.get "retry-after" = none → 3 ≤ n

/-- All of them are, newest first. -/
def Paced : List HttpResponse → Prop
  | [] => True
  | r :: rs => Manageable rs.length r ∧ Paced rs

theorem Paced.of_cons {e : AgentEvent} {l : List AgentEvent}
    (h : Paced (polledResponses (e :: l))) : Paced (polledResponses l) := by
  rw [polledResponses, List.filterMap_cons] at h
  cases ha : pollAnswer e with
  | none =>
      rw [ha] at h
      exact h
  | some r =>
      rw [ha] at h
      exact h.2

/-- The delay after `n` responses that said to go on, at the least. -/
def backoffFloor (n : Nat) : Nat := min 5000 (1000 * 2 ^ n)

theorem backoffFloor_succ {n b cap : Nat} (h : backoffFloor n ≤ b)
    (hc : 5000 ≤ cap) : backoffFloor (n + 1) ≤ min (b * 2) cap := by
  rw [backoffFloor] at h ⊢
  rw [Nat.pow_succ]
  generalize 2 ^ n = m at h ⊢
  omega

theorem backoffFloor_late {n : Nat} (h : 3 ≤ n) : backoffFloor n = 5000 := by
  have hp : 2 ^ 3 ≤ 2 ^ n := Nat.pow_le_pow_right (by decide) h
  rw [backoffFloor]
  omega

theorem parseU64_of_delaySeconds {value : String} {seconds : Nat}
    (h : delaySeconds value = some seconds) (hs : seconds < 2 ^ 64) :
    toStr value = some value ∧ parseU64 value = some seconds := by
  rw [delaySeconds] at h
  split at h
  · next hv =>
    rw [Bool.and_eq_true, List.all_eq_true] at hv
    obtain ⟨hne, hdigits⟩ := hv
    have hvis : value.toList.all isVisibleAscii = true := by
      refine List.all_eq_true.mpr fun c hc => ?_
      refine isVisible_of_isJwtChar ?_
      rw [isJwtChar, Char.isAlphanum, hdigits c hc, Bool.or_true]
      rfl
    have hplus : stripPrefix value "+" = none := by
      rw [stripPrefix, Option.map_eq_none_iff, Option.eq_none_iff_forall_ne_some]
      intro rest hr
      have hm : '+' ∈ value.toList := by
        rw [eq_append_of_stripPrefixL hr]
        exact List.mem_append_left rest (by decide)
      exact absurd (hdigits '+' hm) (by decide)
    refine ⟨if_pos hvis, ?_⟩
    have hcond : (!value.isEmpty && value.toList.all Char.isDigit) = true := by
      rw [hne, List.all_eq_true.mpr hdigits]
      rfl
    rw [parseU64, hplus]
    show (if _ then _ else _) = _
    rw [Option.getD_none, if_pos hcond, h, Option.filter_some,
      if_pos (decide_eq_true hs)]
  · cases h

/-- The loop waits long enough after such a response. -/
theorem requiredDelay_le {n b interval : Nat} {r : HttpResponse}
    (hr : Manageable n r) (hb : backoffFloor n ≤ b)
    (hs : r.status = 202 ∨ r.status = 503) :
    requiredDelay interval r ≤ retryDelayFromSecs
      ((headerValue r.headers "retry-after").bind parseU64) b := by
  rw [requiredDelay, if_neg hr.not_slowed, receivedDelay, headerValue]
  cases hv : r.headers.get "retry-after" with
  | none =>
      show _ ≤ b
      by_cases h202 : r.status = 202
      · have hlate := hr.late h202 hv
        rw [backoffFloor_late hlate] at hb
        rw [if_pos h202]
        exact hb
      · rw [if_neg h202]
        exact Nat.zero_le b
  | some value =>
      obtain ⟨seconds, hd, hlt⟩ := hr.readable hs value hv
      obtain ⟨hstr, hp⟩ := parseU64_of_delaySeconds hd (by omega)
      have hwait : retryDelayFromSecs
          (((some value).bind toStr).bind parseU64) b = seconds * 1000 := by
        rw [Option.bind_some, hstr, Option.bind_some, hp, retryDelayFromSecs,
          Option.map_some, Option.getD_some, Nat.mod_eq_of_lt hlt]
      rw [hwait, Option.bind_some, hd, Option.map_some, Option.getD_some,
        Option.getD_some, ite_self]

/-! ## The loop follows the machine -/

section Loop

variable {σ : Type} {W : World agentSig σ} {cr : Crates}
  {options : AgentDeferredOptions} {begun : Instant}

/-- The runs whose responses are all manageable. -/
abbrev pacedWorld (W : World agentSig σ) :
    World agentSig (σ × List AgentEvent) :=
  guarded (fun q => Paced (polledResponses q.2)) (logged W)

/-- A triple about the log alone. -/
def LogTriple (W : World agentSig σ) {α : Type}
    (I : List AgentEvent → Prop) (t : AgentTask α)
    (post : α → List AgentEvent → Prop)
    (fail : Halt → List AgentEvent → Prop) : Prop :=
  Triple (pacedWorld W) (fun q => I q.2) t (fun a q => post a q.2)
    fun e q => fail e q.2

/-- The URL that is polled. -/
def pollUrl (cr : Crates) (options : AgentDeferredOptions) : String :=
  (cr.httpUri options.locationUrl).toOption.getD options.locationUrl

/-- A run that has ended as the machine allows. -/
def Accepted (cr : Crates) (options : AgentDeferredOptions) (begun : Instant)
    (result : Except Halt DeferredResult) (l : List AgentEvent) : Prop :=
  ∃ st, DeferredRun cr (pollUrl cr options) begun l st ∧
    PollOutcome cr options begun l result st

section Rules

variable {α : Type} {I : List AgentEvent → Prop}
  {fail : Halt → List AgentEvent → Prop}

theorem logTriple_bind {β : Type} {x : AgentTask α} {f : α → AgentTask β}
    {post : β → List AgentEvent → Prop} (mid : α → List AgentEvent → Prop)
    (hx : LogTriple W I x mid fail)
    (hf : ∀ a, LogTriple W (mid a) (f a) post fail) :
    LogTriple W I (x >>= f) post fail :=
  Triple.bind hx hf

theorem logTriple_pure {a : α} {post : α → List AgentEvent → Prop}
    (h : ∀ l, I l → post a l) : LogTriple W I (pure a) post fail :=
  Triple.pure fun q hq => h q.2 hq

theorem logTriple_throw {e : Halt} {post : α → List AgentEvent → Prop}
    (h : ∀ l, I l → fail e l) : LogTriple W I (throw e) post fail :=
  Triple.throw fun q hq => h q.2 hq

theorem logTriple_weaken {J : List AgentEvent → Prop} {t : AgentTask α}
    {post : α → List AgentEvent → Prop} (h : LogTriple W I t post fail)
    (hJ : ∀ l, J l → I l) : LogTriple W J t post fail :=
  Triple.weaken h fun q hq => hJ q.2 hq

theorem logTriple_strengthen {t : AgentTask α}
    (post : α → List AgentEvent → Prop)
    (fail : Halt → List AgentEvent → Prop)
    {post' : α → List AgentEvent → Prop}
    {fail' : Halt → List AgentEvent → Prop} (h : LogTriple W I t post fail)
    (hpost : ∀ a l, post a l → post' a l)
    (hfail : ∀ e l, fail e l → fail' e l) : LogTriple W I t post' fail' :=
  Triple.strengthen h (fun a q => hpost a q.2) fun e q => hfail e q.2

theorem logTriple_pre {p : Prop} {t : AgentTask α}
    {post : α → List AgentEvent → Prop}
    (h : p → LogTriple W I t post fail) :
    LogTriple W (fun l => p ∧ I l) t post fail :=
  fun q hq => h hq.1 q hq.2

/-- A value that the log decides, and a fact about it. -/
theorem logTriple_exists {β : Type} {p : β → Prop}
    {J : β → List AgentEvent → Prop} {t : AgentTask α}
    {post : α → List AgentEvent → Prop}
    (h : ∀ b, p b → LogTriple W (J b) t post fail) :
    LogTriple W (fun l => ∃ b, p b ∧ J b l) t post fail := by
  rintro q ⟨b, hp, hq⟩
  exact h b hp q hq

theorem logTriple_effect {o : AgentOp}
    {post : agentSig.Ans o → List AgentEvent → Prop}
    (h : ∀ l r, I l → Paced (polledResponses (⟨o, r⟩ :: l)) →
      post r (⟨o, r⟩ :: l)) : LogTriple W I (effect o) post fail := by
  rintro ⟨s, l⟩ hl
  refine ⟨trivial, ?_⟩
  rintro r ⟨s', l'⟩ ⟨⟨-, he⟩, hp⟩
  cases he
  exact h l r hl hp

theorem logTriple_send {req : AgentRequest}
    {post : HttpResponse → List AgentEvent → Prop}
    (hok : ∀ l r, I l →
      Paced (polledResponses (⟨.sendAgentSigned req, .ok r⟩ :: l)) →
      post r (⟨.sendAgentSigned req, .ok r⟩ :: l))
    (herr : ∀ l e, I l →
      fail (.error e) (⟨.sendAgentSigned req, .error e⟩ :: l)) :
    LogTriple W I (sendAgentSigned req) post fail := by
  rintro ⟨s, l⟩ hl
  refine ⟨trivial, ?_⟩
  rintro r ⟨s', l'⟩ ⟨⟨-, he⟩, hp⟩
  cases he
  cases r with
  | ok r => exact hok l r hl hp
  | error e => exact herr l e hl

/-- A request to the URL that is polled, or there is no such URL. -/
theorem logTriple_build {method : String} {headers : HeaderMap}
    {body : RequestBody} {f : AgentRequest → AgentTask α}
    {post : α → List AgentEvent → Prop}
    (hbad : ∀ l m, I l → (¬ ∃ url u, cr.httpUri options.locationUrl = .ok url ∧
      cr.urlParse url = .ok u) → fail (.panicked m) l)
    (hok : LogTriple W I (f ⟨method, pollUrl cr options, headers, body⟩) post
      fail) :
    LogTriple W I
      (buildRequest cr method options.locationUrl headers body >>= f) post
        fail := by
  rintro ⟨s, l⟩ hl
  cases hu : cr.httpUri options.locationUrl with
  | error e =>
      rw [buildRequest, hu]
      refine hbad l _ hl ?_
      rintro ⟨url, u, h, -⟩
      rw [hu] at h
      cases h
  | ok url =>
      cases hp : cr.urlParse url with
      | error e =>
          rw [buildRequest, hu]
          show wp _ _ (ofResult _ (cr.urlParse url) >>= _ >>= f).run _ _
          rw [hp]
          refine hbad l _ hl ?_
          rintro ⟨url', u, h, h'⟩
          rw [hu] at h
          cases h
          rw [hp] at h'
          cases h'
      | ok u =>
          have hurl : pollUrl cr options = url := by
            rw [pollUrl, hu]
            rfl
          rw [buildRequest, hu]
          show wp _ _ (ofResult _ (cr.urlParse url) >>= _ >>= f).run _ _
          rw [hp, ← hurl]
          exact hok (s, l) hl

end Rules

/-- How the loop fails. -/
abbrev failed (cr : Crates) (options : AgentDeferredOptions)
    (begun : Instant) (e : Halt) (l : List AgentEvent) : Prop :=
  Accepted cr options begun (.error e) l

/-- The machine waits. -/
def Waits (cr : Crates) (options : AgentDeferredOptions) (begun : Instant)
    (due slept : Nat) (q : Option String) (l : List AgentEvent) : Prop :=
  DeferredRun cr (pollUrl cr options) begun l (.waiting due slept q)

/-- It has waited enough. -/
def Ready (cr : Crates) (options : AgentDeferredOptions) (begun : Instant)
    (backoff : Nat) (l : List AgentEvent) : Prop :=
  ∃ due slept q, Waits cr options begun due slept q l ∧ due ≤ slept ∧
    backoffFloor (polledResponses l).length ≤ backoff

/-- It was just told to wait. -/
def Told (cr : Crates) (options : AgentDeferredOptions) (begun : Instant)
    (backoff due : Nat) (l : List AgentEvent) : Prop :=
  ∃ q, Waits cr options begun due 0 q l ∧
    backoffFloor (polledResponses l).length ≤ min (backoff * 2) 5000

theorem panicked_accepted {due slept : Nat} {q : Option String}
    {l : List AgentEvent} (m : String)
    (h : Waits cr options begun due slept q l)
    (hbad : ¬ ∃ url u, cr.httpUri options.locationUrl = .ok url ∧
      cr.urlParse url = .ok u) : failed cr options begun (.panicked m) l :=
  ⟨_, h, .inl hbad⟩

/-- The one question of a response is answered, if at all. -/
theorem answerClarification_told {b due : Nat} {r : HttpResponse}
    (h202 : r.status = 202) :
    LogTriple W
      (fun l => Waits cr options begun due 0 (questionOf cr r) l ∧
        backoffFloor (polledResponses l).length ≤ min (b * 2) 5000)
      (answerClarification cr options r)
      (fun _ l => Told cr options begun b due l)
      (failed cr options begun) := by
  have hskip : LogTriple W
      (fun l => Waits cr options begun due 0 (questionOf cr r) l ∧
        backoffFloor (polledResponses l).length ≤ min (b * 2) 5000)
      (pure () : AgentTask Unit) (fun _ l => Told cr options begun b due l)
      (failed cr options begun) :=
    logTriple_pure fun _ h => ⟨_, h.1, h.2⟩
  rw [answerClarification]
  split
  · cases hb : fromSlice cr ClarificationChallenge.fromJson r.body with
    | none => exact hskip
    | some body =>
        have hq : questionOf cr r = some body.clarification := by
          rw [questionOf, if_pos h202, hb]
          rfl
        refine logTriple_bind (fun (answer : String) l => ∃ l',
          l = ⟨.onClarification body.clarification, answer⟩ :: l' ∧
          Waits cr options begun due 0 (some body.clarification) l ∧
          backoffFloor (polledResponses l).length ≤ min (b * 2) 5000)
            ?_ fun answer => ?_
        · refine logTriple_effect fun l answer h _ => ?_
          rw [hq] at h
          exact ⟨l, rfl, .ask h.1, h.2⟩
        · refine logTriple_build (fun l m h => ?_) ?_
          · obtain ⟨-, -, hw, -⟩ := h
            exact panicked_accepted m hw
          · refine logTriple_bind (fun _ l => Told cr options begun b due l)
              (logTriple_send ?_ ?_) fun _ => logTriple_pure fun _ h => h
            · rintro l r ⟨l', rfl, hw, hb⟩ _
              exact ⟨none, .answer hw, hb⟩
            · rintro l e ⟨l', rfl, hw, hb⟩
              exact ⟨_, .answer hw, _, _, _, rfl, .inl ⟨_, _, rfl⟩⟩
  · exact hskip

theorem announceInteraction_told {b due : Nat} {r : HttpResponse} :
    LogTriple W (Told cr options begun b due) (announceInteraction options r)
      (fun _ l => Told cr options begun b due l) (failed cr options begun) := by
  have hskip : LogTriple W (Told cr options begun b due)
      (pure () : AgentTask Unit) (fun _ l => Told cr options begun b due l)
      (failed cr options begun) :=
    logTriple_pure fun _ h => h
  rw [announceInteraction]
  split
  · split
    · refine logTriple_effect fun l u h _ => ?_
      obtain ⟨q, hw, hb⟩ := h
      exact ⟨q, .announce hw, hb⟩
    · exact hskip
  · exact hskip

/-- A long enough sleep makes the machine ready. -/
theorem sleep_ready {b due ms cap : Nat} (hms : due ≤ ms) (hc : 5000 ≤ cap) :
    LogTriple W (Told cr options begun b due) (effect (.sleep ms))
      (fun _ l => Ready cr options begun (min (b * 2) cap) l)
      (failed cr options begun) := by
  refine logTriple_effect fun l u h _ => ?_
  obtain ⟨q, hw, hb⟩ := h
  refine ⟨due, 0 + ms, q, .sleep hw, by omega, ?_⟩
  show backoffFloor (polledResponses l).length ≤ _
  omega

/-- A response to a poll, as the machine and the loop see it. -/
def Answered (cr : Crates) (options : AgentDeferredOptions) (begun : Instant)
    (b : Nat) (r : HttpResponse) (l : List AgentEvent) : Prop :=
  ∃ n slept, DeferredRun cr (pollUrl cr options) begun l
      (.polled cr slept r) ∧ Manageable n r ∧ backoffFloor n ≤ b ∧
    (polledResponses l).length = n + 1

theorem send_answered {b : Nat} :
    LogTriple W (Ready cr options begun b)
      (sendAgentSigned (pollRequest (pollUrl cr options)))
      (Answered cr options begun b) (failed cr options begun) := by
  refine logTriple_send (fun l r h hp => ?_) fun l e h => ?_
  · obtain ⟨due, slept, q, hw, hd, hb⟩ := h
    exact ⟨_, slept, .poll hw hd, hp.1, hb, rfl⟩
  · obtain ⟨due, slept, q, hw, hd, hb⟩ := h
    exact ⟨_, .unanswered hw hd, _, _, _, rfl, .inl ⟨_, _, rfl⟩⟩

/-- Told to go on, it is told how long to wait. -/
theorem Answered.waits {b : Nat} {r : HttpResponse} {l : List AgentEvent}
    (h : Answered cr options begun b r l)
    (hs : r.status = 202 ∨ r.status = 503) :
    ∃ due, due ≤ retryDelayFromSecs
        ((headerValue r.headers "retry-after").bind parseU64) b ∧
      Waits cr options begun due 0 (questionOf cr r) l ∧
      backoffFloor (polledResponses l).length ≤ min (b * 2) 5000 := by
  obtain ⟨n, slept, hrun, hm, hb, hn⟩ := h
  have hgo : r.status ∈ goesOn := by
    rcases hs with hs | hs <;> rw [hs] <;> decide
  rw [DeferredState.polled, if_pos hgo] at hrun
  refine ⟨_, requiredDelay_le hm hb hs, hrun, ?_⟩
  rw [hn]
  exact backoffFloor_succ hb (Nat.le_refl _)

/-- Told anything else, it has ended. -/
theorem Answered.ended {b : Nat} {r : HttpResponse} {l : List AgentEvent}
    (h : Answered cr options begun b r l) (hs : r.status ≠ 202)
    (hs' : r.status ≠ 503) :
    Accepted cr options begun (.ok (splitError cr r)) l := by
  obtain ⟨n, slept, hrun, hm, -, -⟩ := h
  have hend : r.status ∉ goesOn := by
    simp only [goesOn, List.mem_cons, List.not_mem_nil, or_false, not_or]
    exact ⟨hs, hm.not_slowed, hs'⟩
  rw [DeferredState.polled, if_neg hend] at hrun
  exact ⟨_, hrun, rfl⟩

/-- A turn that a `202` calls for. -/
theorem loopTurn {fuel b d : Nat} {deadline : Instant} {r : HttpResponse}
    (ih : ∀ b, LogTriple W (Ready cr options begun b)
      (pollLoop cr options d deadline fuel b)
      (fun result l => Accepted cr options begun (.ok result) l)
      (failed cr options begun)) (h202 : r.status = 202) :
    LogTriple W (Answered cr options begun b r)
      (do
        answerClarification cr options r
        announceInteraction options r
        effect (.sleep (retryDelayFromSecs
          ((headerValue r.headers "retry-after").bind parseU64) b))
        pollLoop cr options d deadline fuel (min (b * 2) 5000))
      (fun result l => Accepted cr options begun (.ok result) l)
      (failed cr options begun) := by
  refine logTriple_weaken (logTriple_exists fun due hdue => ?_)
    fun l h => h.waits (.inl h202)
  refine logTriple_bind _ (answerClarification_told h202) fun _ => ?_
  refine logTriple_bind _ announceInteraction_told fun _ => ?_
  refine logTriple_bind _ (sleep_ready hdue (Nat.le_refl _)) fun _ => ?_
  exact ih _

/-- A turn that a `503` calls for. -/
theorem loopRetry {fuel b d : Nat} {deadline : Instant} {r : HttpResponse}
    (ih : ∀ b, LogTriple W (Ready cr options begun b)
      (pollLoop cr options d deadline fuel b)
      (fun result l => Accepted cr options begun (.ok result) l)
      (failed cr options begun)) (h503 : r.status = 503) :
    LogTriple W (Answered cr options begun b r)
      (do
        effect (.sleep (retryDelayFromSecs
          ((headerValue r.headers "retry-after").bind parseU64) b))
        pollLoop cr options d deadline fuel (min (b * 2) 30000))
      (fun result l => Accepted cr options begun (.ok result) l)
      (failed cr options begun) := by
  refine logTriple_weaken (logTriple_exists fun due hdue => ?_)
    fun l h => h.waits (.inr h503)
  refine logTriple_bind (fun _ l => Ready cr options begun (min (b * 2) 30000)
    l) (logTriple_weaken (sleep_ready hdue (by decide)) ?_) fun _ => ih _
  exact fun l h => ⟨_, h⟩

theorem not_mem_terminal {status : Nat} (h : status = 202 ∨ status = 503) :
    status ∉ terminalStatuses := by
  rcases h with rfl | rfl <;> decide

/-- By induction on the rounds: the machine is ready at the start of each,
and its delay is over by the next. -/
theorem pollLoop_accepted {fuel b : Nat} {deadline : Instant}
    (hd : begun.add (durationFromSecs
      (options.maxPollDurationSecs.getD 300)) = some deadline) :
    LogTriple W (Ready cr options begun b)
      (pollLoop cr options (options.maxPollDurationSecs.getD 300) deadline
        fuel b)
      (fun result l => Accepted cr options begun (.ok result) l)
      (failed cr options begun) := by
  induction fuel generalizing b with
  | zero =>
      refine logTriple_throw fun l h => ?_
      obtain ⟨due, slept, q, hw, -⟩ := h
      exact ⟨_, hw, due, slept, q, rfl⟩
  | succ fuel ih =>
      rw [pollLoop]
      refine logTriple_bind (fun (now : Instant) l => Ready cr options begun b l
        ∧ ∃ l', l = ⟨.instantNow, now⟩ :: l') ?_ fun now => ?_
      · refine logTriple_effect fun l now h _ => ?_
        obtain ⟨due, slept, q, hw, hdue, hb⟩ := h
        exact ⟨⟨due, slept, q, .clock hw, hdue, hb⟩, l, rfl⟩
      · split
        · refine logTriple_weaken (logTriple_build (fun l m h => ?_) ?_)
            fun l h => h.1
          · obtain ⟨due, slept, q, hw, -⟩ := h
            exact panicked_accepted m hw
          · refine logTriple_bind _ send_answered fun r => ?_
            show LogTriple W _ (if r.status ∈ terminalStatuses then _ else _)
              _ _
            split
            · next ht =>
              refine logTriple_pure fun l h => h.ended ?_ ?_
              · exact fun hs => not_mem_terminal (.inl hs) ht
              · exact fun hs => not_mem_terminal (.inr hs) ht
            · split
              · next h202 => exact loopTurn (fun b => ih) h202
              · split
                · next h503 => exact loopRetry (fun b => ih) h503
                · next h202 h503 =>
                  exact logTriple_pure fun l h => h.ended h202 h503
        · next hlate =>
          refine logTriple_throw fun l h => ?_
          obtain ⟨⟨due, slept, q, hw, -⟩, l', hl⟩ := h
          exact ⟨_, hw, due, slept, q, rfl,
            .inr ⟨now, l', deadline, hl, hd, Nat.le_of_not_lt hlate⟩⟩

/-- The whole run, from the empty log. -/
theorem pollDeferredWith_accepted {fuel : Nat} :
    LogTriple W (fun l => l = []) (pollDeferredWith cr fuel options)
      (fun result l => ∃ begun, Accepted cr options begun (.ok result) l)
      (fun e l => ∃ begun, Accepted cr options begun (.error e) l) := by
  rw [pollDeferredWith]
  refine logTriple_bind (fun (now : Instant) l => l = [⟨.instantNow, now⟩])
    (logTriple_effect ?_) fun begun => ?_
  · rintro l now rfl _
    rfl
  · refine logTriple_strengthen
      (fun result l => Accepted cr options begun (.ok result) l)
      (failed cr options begun) ?_ (fun _ _ h => ⟨begun, h⟩)
        fun _ _ h => ⟨begun, h⟩
    cases hd : begun.add (durationFromSecs
        (options.maxPollDurationSecs.getD 300)) with
    | none =>
        rintro ⟨s, l⟩ rfl
        exact ⟨_, .start, .inr hd⟩
    | some deadline =>
        have hpoll : ∀ b, LogTriple W (Ready cr options begun b)
            (pollLoop cr options (options.maxPollDurationSecs.getD 300)
              deadline fuel b)
            (fun result l => Accepted cr options begun (.ok result) l)
            (failed cr options begun) := fun b => pollLoop_accepted hd
        have hstart : Ready cr options begun 1000 [⟨.instantNow, begun⟩] :=
          ⟨0, 0, none, .start, Nat.le_refl _,
            (by decide : backoffFloor 0 ≤ 1000)⟩
        have hskip : LogTriple W (Ready cr options begun 1000)
            (pure () : AgentTask Unit)
            (fun _ l => Ready cr options begun 1000 l)
            (failed cr options begun) := logTriple_pure fun _ h => h
        refine logTriple_bind (fun (d : Instant) l => d = deadline ∧
          Ready cr options begun 1000 l) ?_ fun d => logTriple_pre ?_
        · rintro ⟨s, l⟩ rfl
          exact ⟨rfl, hstart⟩
        · rintro rfl
          split
          · split
            · refine logTriple_bind (fun _ l => Ready cr options begun 1000 l)
                (logTriple_effect fun l u h _ => ?_) fun _ => hpoll 1000
              obtain ⟨due, slept, q, hw, hdue, hb⟩ := h
              exact ⟨due, slept, q, .announce hw, hdue, hb⟩
            · exact logTriple_bind _ hskip fun _ => hpoll 1000
          · exact logTriple_bind _ hskip fun _ => hpoll 1000

end Loop

/-- A run of the poll loop whose responses are all manageable is a run of the
protocol's machine: it polls again exactly after a `202`, a `429` and a
`503` and returns the first response of any other status; it sends the
location nothing but polls and answers to its questions; and between two
polls it waits as long as it was told. -/
theorem polling_refines {σ : Type} {W : World agentSig σ} {cr : Crates}
    {fuel : Nat} {options : AgentDeferredOptions} {s s' : σ}
    {result : Except Halt DeferredResult} {l : List AgentEvent}
    (hx : Exec (logged W) (s, []) (pollDeferredWith cr fuel options).run
      result (s', l)) (hp : Paced (polledResponses l)) :
    ∃ begun, Accepted cr options begun result l := by
  have hback : ∀ (q : σ × List AgentEvent) o r q', logged W q o r q' →
      Paced (polledResponses q'.2) → Paced (polledResponses q.2) := by
    rintro q o r q' ⟨-, he⟩ h
    rw [he] at h
    exact h.of_cons
  obtain ⟨hx, -⟩ := Exec.guarded hback hx hp
  have h := Triple.exec pollDeferredWith_accepted rfl hx
  cases result with
  | ok result => exact h
  | error e => exact h

/-! ## Where it departs from the machine -/

section Inversion

variable {cr : Crates} {url : String} {begun : Instant}
  {l : List AgentEvent} {st : DeferredState}

theorem DeferredRun.of_poll {req : AgentRequest} {r : HttpResponse}
    (h : DeferredRun cr url begun (⟨.sendAgentSigned req, .ok r⟩ :: l) st)
    (hm : req.method = "GET") :
    ∃ due slept q, DeferredRun cr url begun l (.waiting due slept q) ∧
      due ≤ slept ∧ st = .polled cr slept r := by
  cases h with
  | poll h hdue => exact ⟨_, _, _, h, hdue, rfl⟩
  | answer h => exact absurd hm (by decide : ¬ "POST" = "GET")

theorem DeferredRun.of_sleep {ms : Nat} {u : Unit}
    (h : DeferredRun cr url begun (⟨.sleep ms, u⟩ :: l) st) :
    ∃ due slept q, DeferredRun cr url begun l (.waiting due slept q) ∧
      st = .waiting due (slept + ms) q := by
  cases h with
  | sleep h => exact ⟨_, _, _, h, rfl⟩

theorem DeferredRun.of_clock {now : Instant} {e : AgentEvent}
    (h : DeferredRun cr url begun (⟨.instantNow, now⟩ :: e :: l) st) :
    DeferredRun cr url begun (e :: l) st := by
  cases h with
  | clock h => exact h

end Inversion

namespace Sample

open Aauth.Sample

def pollOptions : AgentDeferredOptions where
  locationUrl := "https://r.example/p"
  interaction := none
  onInteraction := false
  onClarification := false
  maxPollDurationSecs := none

/-- A server that answers a poll with the status the list has for it; the
clock stands still. -/
def answering (statuses : List Nat) : Answers
  | l, .sendAgentSigned _ =>
      statuses[(polledResponses l).length]?.map fun status =>
        .ok (bare status)
  | _, .instantNow => some (0 : Nat)
  | _, .sleep _ => some ()
  | _, _ => none

/-- A run on such a server. -/
abbrev PollRun (statuses : List Nat) (fuel : Nat)
    (result : Except Halt DeferredResult) (l : List AgentEvent) : Prop :=
  Exec (logged (agentWorld (answering statuses).rel)) (newAgent none, [])
    (pollDeferredWith crates fuel pollOptions).run result (newAgent none, l)

def pollAt (status : Nat) : AgentEvent :=
  ⟨.sendAgentSigned (pollRequest "https://r.example/p"), .ok (bare status)⟩

abbrev clockRead : AgentEvent := ⟨.instantNow, (0 : Nat)⟩

/-- A poll, a second, another poll. -/
def pollTwice (first second : Nat) : List AgentEvent :=
  [pollAt second, clockRead, ⟨.sleep 1000, ()⟩, pollAt first, clockRead,
    clockRead]

theorem run_slowed : PollRun [429] 1 (.ok ⟨bare 429, none⟩)
    [pollAt 429, clockRead, clockRead] :=
  @exec_of_agentAnswer _ _ 0 _ _ _ _ rfl

theorem run_pending : PollRun [202, 200] 2 (.ok ⟨bare 200, none⟩)
    (pollTwice 202 200) :=
  @exec_of_agentAnswer _ _ 0 _ _ _ _ rfl

theorem run_unavailable : PollRun [503, 200] 2 (.ok ⟨bare 200, none⟩)
    (pollTwice 503 200) :=
  @exec_of_agentAnswer _ _ 0 _ _ _ _ rfl

/-- A `429` ends the poll. -/
theorem slow_down_ends : ¬ ∀ (statuses : List Nat) (fuel : Nat)
    (result : Except Halt DeferredResult) (l : List AgentEvent),
    PollRun statuses fuel result l →
    ∃ begun, Accepted crates pollOptions begun result l := by
  intro h
  obtain ⟨begun, st, hrun, hst⟩ := h _ _ _ _ run_slowed
  obtain ⟨due, slept, q, -, -, rfl⟩ := hrun.of_poll rfl
  rw [DeferredState.polled, if_pos (by decide)] at hst
  cases hst

/-- After a first `202` it polls again in a second. -/
theorem pending_hurried : ∃ fuel result l, PollRun [202, 200] fuel result l ∧
    ¬ ∃ begun, Accepted crates pollOptions begun result l := by
  refine ⟨_, _, _, run_pending, ?_⟩
  rintro ⟨begun, st, hrun, -⟩
  obtain ⟨due, slept, q, hrun, hdue, -⟩ := hrun.of_poll rfl
  obtain ⟨due', slept', q', hrun, he⟩ := hrun.of_clock.of_sleep
  obtain ⟨_, slept₀, _, -, -, he'⟩ := hrun.of_poll rfl
  rw [DeferredState.polled, if_pos (by decide)] at he'
  cases he'
  cases he
  have hfive : requiredDelay slept₀ (bare 202) = 5000 := rfl
  rw [hfive] at hdue
  exact absurd hdue (by decide)

theorem manageable_bare {n status : Nat} (h202 : status ≠ 202)
    (h429 : status ≠ 429) : Manageable n (bare status) where
  not_slowed := h429
  readable := by
    rintro - value hv
    cases hv
  late h := absurd h h202

/-- Where the server is unavailable, it follows the machine. -/
theorem polling_refines_unavailable : ∃ begun,
    Accepted crates pollOptions begun (.ok ⟨bare 200, none⟩)
      (pollTwice 503 200) :=
  polling_refines run_unavailable
    ⟨manageable_bare (by decide) (by decide),
      manageable_bare (by decide) (by decide), trivial⟩

end Sample

end Polling

end Aauth
