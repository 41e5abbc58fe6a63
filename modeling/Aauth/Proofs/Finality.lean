import Aauth.Lib.Service
import Aauth.Proofs.PersonSteps
import Aauth.Proofs.AccessEndpoint
import Aauth.Proofs.AccessSteps
import Aauth.Sample.Servers

/-!
# Terminal outcomes

A pending request that ended has ended: whatever is done to it later, a
poll tells its one outcome or that it is gone. The store does not see to
this, `complete` and `save` overwrite what they find, and neither do the
operations, which load a record and go on whether or not it is still
waiting. What keeps an outcome in place is that the id of a request is
never drawn again, and that nobody resumes a request that has ended.
-/

namespace Aauth

open Effect

/-! ## Sealed requests -/

section Sealed

variable {C : Type} {s : ServiceState C} {m : PendingMap C}
  {id id' : String} {o : PendingOutcome}

/-- The request under `id` has ended with `o`. -/
def Completed (s : ServiceState C) (id : String) (o : PendingOutcome) :
    Prop :=
  ∃ r, s.records.lookup id = some r ∧ r.snapshot = .complete o

/-- No record under `id` shows anything but `o`. -/
def Shows (m : PendingMap C) (id : String) (o : PendingOutcome) : Prop :=
  ∀ r, m.lookup id = some r → r.snapshot = .complete o

/-- What is left of a request that ended with `o`: its identifier is
spent, and its record, while there is one, shows `o`. -/
def Sealed (id : String) (o : PendingOutcome) (s : ServiceState C) : Prop :=
  id ∈ s.issued ∧ Shows s.records id o

/-- Records are only kept under identifiers that were drawn. -/
def Recorded (s : ServiceState C) : Prop :=
  ∀ id r, s.records.lookup id = some r → id ∈ s.issued

theorem Completed.sealed (hs : Recorded s) (h : Completed s id o) :
    Sealed id o s := by
  obtain ⟨r, hr, ho⟩ := h
  refine ⟨hs id r hr, fun r' hr' => ?_⟩
  rw [hr] at hr'
  cases hr'
  exact ho

theorem Shows.erase (h : Shows m id o) : Shows (m.erase id') id o := by
  intro r hr
  by_cases hid : id = id'
  · rw [hid, AList.lookup_erase] at hr
    cases hr
  · rw [AList.lookup_erase_ne hid] at hr
    exact h r hr

theorem Shows.insert {r : PendingRecord C} (h : Shows m id o)
    (hr : id = id' → r.snapshot = .complete o) :
    Shows (m.insert id' r) id o := by
  intro r' hr'
  by_cases hid : id = id'
  · subst hid
    rw [AList.lookup_insert] at hr'
    cases hr'
    exact hr rfl
  · rw [AList.lookup_insert_ne hid] at hr'
    exact h r' hr'

/-- The record a call finds under `id` is waiting, unless it expired. -/
def FindsWaiting (t : Nat) (m : PendingMap C) (id : String) : Prop :=
  ∀ r, m.lookup id = some r → r.isExpired t = false →
    ∃ status requirement, r.snapshot = .waiting status requirement

/-- A call that finds waiting records only finds a sealed request gone. -/
theorem OnLive.gone_of_shows {α : Type} {gone reply : α} {t : Nat}
    {K : PendingRecord C → α → PendingMap C → Prop} {m' : PendingMap C}
    (h : OnLive gone t id m K reply m') (hw : FindsWaiting t m id)
    (hs : Shows m id o) :
    reply = gone ∧ (m' = m ∨ m' = m.erase id) := by
  cases h with
  | absent _ => exact ⟨rfl, .inl rfl⟩
  | expired _ _ => exact ⟨rfl, .inr rfl⟩
  | live hl hx _ =>
      obtain ⟨status, requirement, hr⟩ := hw _ hl hx
      rw [hs _ hl] at hr
      cases hr

/-- A poll of a sealed request tells its outcome or that it is gone. -/
theorem Polled.of_shows {E : Type} {t : Nat} {m' : PendingMap C}
    {reply : Except E AuthTokenPollOutcome} (h : Polled E t id m reply m')
    (hs : Shows m id o) :
    (reply = .ok (.complete o) ∨ reply = .ok .gone) := by
  cases h with
  | absent _ => exact .inr rfl
  | expired _ _ => exact .inr rfl
  | live hl _ h =>
      refine .inl ?_
      rw [h.1, hs _ hl]
      rfl

theorem Polled.keeps {E : Type} {t : Nat} {m' : PendingMap C}
    {reply : Except E AuthTokenPollOutcome}
    (h : Polled E t id' m reply m') : m' = m ∨ m' = m.erase id' := by
  cases h with
  | absent _ => exact .inl rfl
  | expired _ _ => exact .inr rfl
  | live _ _ h => exact .inl h.2

theorem Recorded.touched {s' : ServiceState C} (hs : Recorded s)
    (hi : s'.issued = s.issued) (h : Touched id s.records s'.records) :
    Recorded s' := by
  intro id' r hr
  rw [hi]
  by_cases hid : id' = id
  · subst hid
    generalize s'.records = m' at h hr
    cases h with
    | same => exact hs _ r hr
    | erased =>
        rw [AList.lookup_erase] at hr
        cases hr
    | written hl => exact hs _ _ hl
  · rw [h.frame hid] at hr
    exact hs _ r hr

/-- A record created under a fresh identifier. -/
theorem Recorded.created {r : PendingRecord C} (hs : Recorded s) :
    Recorded { records := s.records.insert id r, issued := id :: s.issued } := by
  intro id' r' hr
  by_cases hid : id' = id
  · rw [hid]
    exact List.mem_cons_self
  · rw [AList.lookup_insert_ne hid] at hr
    exact List.mem_cons_of_mem _ (hs id' r' hr)

theorem Sealed.created {r : PendingRecord C} (hs : Sealed id o s)
    (hfresh : id' ∉ s.issued) :
    Sealed id o
      { records := s.records.insert id' r, issued := id' :: s.issued } := by
  refine ⟨List.mem_cons_of_mem _ hs.1, hs.2.insert fun hid => ?_⟩
  rw [hid] at hs
  exact absurd hs.1 hfresh

/-- A call on another request, or one that finds the request gone, keeps
it sealed. -/
theorem Sealed.touched {s' : ServiceState C} (hs : Sealed id o s)
    (hi : s'.issued = s.issued) (h : Touched id' s.records s'.records)
    (hgone : id = id' →
      s'.records = s.records ∨ s'.records = s.records.erase id') :
    Sealed id o s' := by
  refine ⟨hi ▸ hs.1, fun r hr => ?_⟩
  by_cases hid : id = id'
  · rcases hgone hid with hm | hm
    · rw [hm] at hr
      exact hs.2 r hr
    · rw [hm] at hr
      exact hs.2.erase r hr
  · rw [h.frame hid] at hr
    exact hs.2 r hr

end Sealed

/-! ## Histories -/

/-- How the calls of a service speak of requests: which one a call is
about, which of its answers leave a request at an outcome, and which deny
it. -/
structure Requests {S : Sig} (V : Service S) where
  target : V.Call → Option String
  Final : PendingOutcome → (c : V.Call) → V.Reply c → Prop
  Denies : AAuthProtocolError → (c : V.Call) → V.Reply c → Prop

section Histories

variable {E C : Type} {X : Sig} {V : Service (serviceSig E C X)}
  {env : (o : X.Op) → X.Ans o → Prop}
  {G : List (Served V (ServiceState C) Nat) → ServiceState C → Nat →
    V.Call → Prop}

/-- Outcomes are final in a history: once a request ended, every later
call about it answers accordingly; and a denial does end it. -/
def Requests.OutcomesFinal (R : Requests V)
    (hist : List (Served V (ServiceState C) Nat)) : Prop :=
  ∀ later d earlier, hist = later ++ d :: earlier → ∀ id,
    (∀ o, Completed d.post id o → ∀ e ∈ later,
      R.target e.call = some id → R.Final o e.call e.reply) ∧
    ∀ e, R.target d.call = some id → R.Denies e d.call d.reply →
      Completed d.post id (.error e)

/-- A service whose calls keep identifiers drawn and requests sealed, and
write their denials down. -/
structure Requests.Steps (R : Requests V)
    (env : (o : X.Op) → X.Ans o → Prop)
    (G : List (Served V (ServiceState C) Nat) → ServiceState C → Nat →
      V.Call → Prop) : Prop where
  recorded : ∀ {t s s'} {c : V.Call} {reply : V.Reply c},
    Exec (momentWorld env t) s (V.prog c) reply s' → Recorded s →
      Recorded s'
  keeps : ∀ {h t s s' id o} {c : V.Call} {reply : V.Reply c},
    Exec (momentWorld env t) s (V.prog c) reply s' → G h s t c →
      Sealed id o s →
      Sealed id o s' ∧ (R.target c = some id → R.Final o c reply)
  denied : ∀ {t s s' id e} {c : V.Call} {reply : V.Reply c},
    Exec (momentWorld env t) s (V.prog c) reply s' →
      R.Denies e c reply → R.target c = some id →
      Completed s' id (.error e)

/-- The run lemma for outcomes. -/
theorem Requests.Steps.outcomesFinal {R : Requests V}
    (steps : R.Steps env G) {s : ServiceState C}
    {hist : List (Served V (ServiceState C) Nat)}
    (run : History (momentWorld env) G ⟨∅, []⟩ hist s) :
    R.OutcomesFinal hist := by
  intro later d earlier heq id
  subst heq
  have hd := run.split
  obtain ⟨-, -, -, hx⟩ := hd.front
  refine ⟨fun o hc => ?_, fun e hid he => steps.denied hx he hid⟩
  have recorded : Recorded d.post := by
    refine hd.induction (I := fun _ s => Recorded s) ?_ ?_
    · intro id r hr
      cases hr
    · intro _ _ _ _ _ _ hs _ hx
      exact steps.recorded hx hs
  refine (run.later (fun {e h} run hs => ?_) (hc.sealed recorded)).2
  obtain ⟨-, -, hg, hx⟩ := run.front
  exact steps.keeps hx hg hs

end Histories

/-! ## The Person Server -/

section Person

variable {E : Type} {cr : Crates} {config : PersonServerConfig}
  {env : (o : PersonOp) → personExt.Ans o → Prop} {t : Nat}
  {s s' : ServiceState PersonPendingContext} {id : String}
  {o : PendingOutcome}

/-- The request a call is about. -/
def PersonCall.target : PersonCall → Option String
  | .exchangeToken _ _ | .beginInteraction _ => none
  | .pollPending id | .resumePending id _
  | .resolveInteractionCallback id _ => some id

/-- Where a call goes on with a record, it must find it waiting. -/
def PersonCall.FindsWaiting (t : Nat) (m : PersonMap) : PersonCall → Prop
  | .exchangeToken _ _ | .beginInteraction _ | .pollPending _ => True
  | .resumePending id _ | .resolveInteractionCallback id _ =>
      Aauth.FindsWaiting t m id

/-- The answers that leave a request at the outcome `o`. -/
def PersonCall.Final (o : PendingOutcome) :
    (c : PersonCall) → (personService E cr config).Reply c → Prop
  | .exchangeToken _ _, _ | .beginInteraction _, _ => True
  | .pollPending _, reply =>
      reply = .ok (.complete o) ∨ reply = .ok .gone
  | .resumePending _ _, reply | .resolveInteractionCallback _ _, reply =>
      reply = .ok .gone

/-- The answer `Denied`. -/
def PersonCall.Denies (e : AAuthProtocolError) :
    (c : PersonCall) → (personService E cr config).Reply c → Prop
  | .exchangeToken _ _, _ | .beginInteraction _, _ | .pollPending _, _ =>
      False
  | .resumePending _ _, reply | .resolveInteractionCallback _ _, reply =>
      reply = .ok (.denied e)

theorem Settled.completed {m m' : PersonMap} {r : PersonPendingRecord}
    {e : AAuthProtocolError}
    (h : Settled (E := E) cr config env id m r (.ok (.denied e)) m') :
    ∃ r', m'.lookup id = some r' ∧ r'.snapshot = .complete (.error e) := by
  cases h with
  | denied => exact ⟨_, AList.lookup_insert _, rfl⟩

theorem CalledBack.completed {m m' : PersonMap} {r : PersonPendingRecord}
    {err : Option String} {e : AAuthProtocolError}
    (h : CalledBack (E := E) cr config env id m r err (.ok (.denied e)) m') :
    ∃ r', m'.lookup id = some r' ∧ r'.snapshot = .complete (.error e) := by
  cases h with
  | error => exact ⟨_, AList.lookup_insert _, rfl⟩
  | settled _ h => exact h.completed

/-- Consuming a code leaves an outcome as it is. -/
theorem Begun.shows {canonical : String} {m m' : PersonMap}
    {reply : Except (PersonTokenServiceError E) PersonInteractionOutcome}
    (h : Begun cr config t canonical m reply m') (hs : Shows m id o) :
    Shows m' id o := by
  cases h with
  | unknown _ => exact hs
  | expired _ _ _ => exact hs.erase
  | begun hl _ _ =>
      refine hs.insert fun hid => ?_
      subst hid
      rw [PersonPendingRecord.consumed, hs _ hl]

/-- Every record a call leaves is under an identifier that was drawn. -/
theorem PersonStep.recorded {c : PersonCall}
    {reply : (personService E cr config).Reply c}
    (h : PersonStep cr config env t s c reply s') (hs : Recorded s) :
    Recorded s' := by
  cases c with
  | exchangeToken ctx agentJwt =>
      cases h with
      | failed | unauthorized | denied | granted _ _ => exact hs
      | created _ _ => exact hs.created
  | pollPending id => exact hs.touched h.2 (Polled.touched h.1)
  | resumePending id input =>
      exact hs.touched h.2 (h.1.touched fun hl h => h.touched hl)
  | beginInteraction code =>
      obtain ⟨⟨canonical, -, h⟩, hi⟩ := h
      obtain ⟨id, h⟩ := h.touched
      exact hs.touched hi h
  | resolveInteractionCallback id err =>
      exact hs.touched h.2 (h.1.touched fun hl h => h.touched hl)

/-- A call that finds waiting records only leaves a sealed request sealed,
and what it answers about it is final. -/
theorem PersonStep.sealed {c : PersonCall}
    {reply : (personService E cr config).Reply c}
    (h : PersonStep cr config env t s c reply s')
    (hg : c.FindsWaiting t s.records) (hs : Sealed id o s) :
    Sealed id o s' ∧ (c.target = some id → c.Final o reply) := by
  cases c with
  | exchangeToken ctx agentJwt =>
      refine ⟨?_, nofun⟩
      cases h with
      | failed | unauthorized | denied | granted _ _ => exact hs
      | created hfresh _ => exact hs.created hfresh
  | pollPending id' =>
      refine ⟨hs.touched h.2 (Polled.touched h.1) fun _ => ?_, fun hid => ?_⟩
      · exact Polled.keeps h.1
      · cases hid
        exact Polled.of_shows h.1 hs.2
  | resumePending id' input =>
      have gone : id = id' → _ := fun hid =>
        h.1.gone_of_shows hg (hid ▸ hs.2)
      refine ⟨hs.touched h.2 (h.1.touched fun hl h => h.touched hl)
        fun hid => (gone hid).2, fun hid => ?_⟩
      cases hid
      exact (gone rfl).1
  | beginInteraction code =>
      obtain ⟨⟨canonical, -, h⟩, hi⟩ := h
      exact ⟨⟨hi ▸ hs.1, h.shows hs.2⟩, nofun⟩
  | resolveInteractionCallback id' err =>
      have gone : id = id' → _ := fun hid =>
        h.1.gone_of_shows hg (hid ▸ hs.2)
      refine ⟨hs.touched h.2 (h.1.touched fun hl h => h.touched hl)
        fun hid => (gone hid).2, fun hid => ?_⟩
      cases hid
      exact (gone rfl).1

/-- A denial is written down as the outcome of the request. -/
theorem PersonStep.denied {c : PersonCall}
    {reply : (personService E cr config).Reply c} {e : AAuthProtocolError}
    (h : PersonStep cr config env t s c reply s') (hd : c.Denies e reply)
    (hid : c.target = some id) : Completed s' id (.error e) := by
  cases c with
  | exchangeToken ctx agentJwt => exact hd.elim
  | pollPending id' => exact hd.elim
  | beginInteraction code => exact hd.elim
  | resumePending id' input =>
      cases hid
      obtain ⟨h, -⟩ := h
      cases (hd : reply = _)
      cases h with
      | live _ _ h => exact h.completed
  | resolveInteractionCallback id' err =>
      cases hid
      obtain ⟨h, -⟩ := h
      cases (hd : reply = _)
      cases h with
      | live _ _ h => exact h.completed

/-- The calls of the Person Server about requests. -/
def personRequests (E : Type) (cr : Crates) (config : PersonServerConfig) :
    Requests (personService E cr config) where
  target := PersonCall.target
  Final := PersonCall.Final
  Denies := PersonCall.Denies

theorem personRequests_steps :
    (personRequests E cr config).Steps env
      fun _ s t c => c.FindsWaiting t s.records where
  recorded hx hs := (personStep_of_exec hx).recorded hs
  keeps hx hg hs := (personStep_of_exec hx).sealed hg hs
  denied hx hd hid := (personStep_of_exec hx).denied hd hid

end Person

/-! ## The Access Server -/

namespace Access

section Access

variable {E : Type} {config : AccessServerConfig}
  {env : (o : AccessOp) → accessExt.Ans o → Prop} {t : Nat}
  {s s' : ServiceState AccessPendingContext} {id : String}
  {o : PendingOutcome}

/-- The request a call is about. -/
def Call.target : Call → Option String
  | .exchangeToken _ => none
  | .pollPending id | .resumePending id _ => some id

/-- Where a call goes on with a record, it must find it waiting. -/
def Call.FindsWaiting (t : Nat) (m : PendingMap AccessPendingContext) :
    Call → Prop
  | .exchangeToken _ | .pollPending _ => True
  | .resumePending id _ => Aauth.FindsWaiting t m id

/-- The answers that leave a request at the outcome `o`. -/
def Call.Final (o : PendingOutcome) :
    (c : Call) → (service E config).Reply c → Prop
  | .exchangeToken _, _ => True
  | .pollPending _, reply =>
      reply = .ok (.complete o) ∨ reply = .ok .gone
  | .resumePending _ _, reply => reply = .ok .gone

/-- The answer `Denied`. -/
def Call.Denies (e : AAuthProtocolError) :
    (c : Call) → (service E config).Reply c → Prop
  | .exchangeToken _, _ | .pollPending _, _ => False
  | .resumePending _ _, reply => reply = .ok (.denied e)

theorem Settled.completed {m m' : PendingMap AccessPendingContext}
    {r : AccessPendingRecord} {e : AAuthProtocolError}
    (h : Settled (E := E) config env id m r (.ok (.denied e)) m') :
    ∃ r', m'.lookup id = some r' ∧ r'.snapshot = .complete (.error e) := by
  cases h with
  | denied => exact ⟨_, AList.lookup_insert _, rfl⟩

/-- The calls of the Access Server about requests. -/
def requests (E : Type) (config : AccessServerConfig) :
    Requests (service E config) where
  target := Call.target
  Final := Call.Final
  Denies := Call.Denies

theorem AccessStep.recorded {c : Call} {reply : (service E config).Reply c}
    (h : AccessStep config env t s c reply s') (hs : Recorded s) :
    Recorded s' := by
  cases c with
  | exchangeToken ctx =>
      cases h with
      | failed | denied | granted _ => exact hs
      | created _ => exact hs.created
  | pollPending id => exact hs.touched h.2 (Polled.touched h.1)
  | resumePending id input =>
      exact hs.touched h.2 (h.1.touched fun hl h => h.touched hl)

theorem AccessStep.sealed {c : Call} {reply : (service E config).Reply c}
    (h : AccessStep config env t s c reply s')
    (hg : c.FindsWaiting t s.records) (hs : Sealed id o s) :
    Sealed id o s' ∧ (c.target = some id → c.Final o reply) := by
  cases c with
  | exchangeToken ctx =>
      refine ⟨?_, nofun⟩
      cases h with
      | failed | denied | granted _ => exact hs
      | created hfresh => exact hs.created hfresh
  | pollPending id' =>
      refine ⟨hs.touched h.2 (Polled.touched h.1) fun _ => ?_, fun hid => ?_⟩
      · exact Polled.keeps h.1
      · cases hid
        exact Polled.of_shows h.1 hs.2
  | resumePending id' input =>
      have gone : id = id' → _ := fun hid =>
        h.1.gone_of_shows hg (hid ▸ hs.2)
      refine ⟨hs.touched h.2 (h.1.touched fun hl h => h.touched hl)
        fun hid => (gone hid).2, fun hid => ?_⟩
      cases hid
      exact (gone rfl).1

theorem AccessStep.denied {c : Call} {reply : (service E config).Reply c}
    {e : AAuthProtocolError} (h : AccessStep config env t s c reply s')
    (hd : c.Denies e reply) (hid : c.target = some id) :
    Completed s' id (.error e) := by
  cases c with
  | exchangeToken ctx => exact hd.elim
  | pollPending id' => exact hd.elim
  | resumePending id' input =>
      cases hid
      obtain ⟨h, -⟩ := h
      cases (hd : reply = _)
      cases h with
      | live _ _ h => exact h.completed

theorem requests_steps :
    (requests E config).Steps env
      fun _ s t c => c.FindsWaiting t s.records where
  recorded hx hs := (accessStep_of_exec hx).recorded hs
  keeps hx hg hs := (accessStep_of_exec hx).sealed hg hs
  denied hx hd hid := (accessStep_of_exec hx).denied hd hid

end Access

end Access

/-! ## Both servers -/

/-- In every run in which no call goes on with a record that has ended,
outcomes are final, at the Person Server and at the Access Server. -/
theorem outcomes_final (E : Type) (cr : Crates)
    (config : PersonServerConfig) (accessConfig : AccessServerConfig)
    (env : (o : PersonOp) → personExt.Ans o → Prop)
    (accessEnv : (o : AccessOp) → accessExt.Ans o → Prop) :
    (∀ hist s, History (momentWorld env)
        (fun _ s t c => PersonCall.FindsWaiting t s.records c) ⟨∅, []⟩
        hist s →
      (personRequests E cr config).OutcomesFinal hist) ∧
    ∀ hist s, History (momentWorld accessEnv)
        (fun _ s t c => Access.Call.FindsWaiting t s.records c) ⟨∅, []⟩
        hist s →
      (Access.requests E accessConfig).OutcomesFinal hist :=
  ⟨fun _ _ run => personRequests_steps.outcomesFinal run,
    fun _ _ run => Access.requests_steps.outcomesFinal run⟩

/-! ## At the sample parties -/

namespace Sample

/-- A policy that refuses what is cancelled and grants anything else. -/
def lenient : PendingInput → PersonTokenDecision
  | .cancelled => .deny requestCancelled
  | _ => .grant { sub := "user-1", scope := none }

abbrev lenientEnv (o : PersonOp) (a : personExt.Ans o) : Prop :=
  personAnswer (.defer .approval) lenient o = some a

def plainClaims : ResourceClaims := challenge resource personServer agentKey

def plainContext : PersonPendingContext :=
  (botContext plainClaims).toPending botJwt none none none

def asked : ServiceState PersonPendingContext :=
  waitingFor plainContext .approval

/-- The state after the request that waits in `asked` ended with `o`. -/
def ended (o : PendingOutcome) : ServiceState PersonPendingContext :=
  { asked with records := completed asked.records firstId o }

def cancelled : ServiceState PersonPendingContext :=
  ended (.error requestCancelled)

/-- The token that is granted although the request was denied. -/
def grantedBody : TokenResponseBody where
  authToken := authToken ((personMintParams crates personKey personServer
    resource bot.identifier bot.cnf.jwk (some "user-1") none).claims now
    "auth-1") personKey
  expiresIn := 3600

/-- A request is deferred and then cancelled. -/
def cancelledRun : List (Served (personService Empty crates personConfig)
    (ServiceState PersonPendingContext) Nat) :=
  [⟨asked, now, .resumePending firstId .cancelled,
      .ok (.denied requestCancelled), cancelled⟩,
    ⟨⟨∅, []⟩, now, .exchangeToken (botContext plainClaims) botJwt,
      .ok (.deferredAt personConfig firstId .approval), asked⟩]

theorem cancelledRun_history :
    History (momentWorld lenientEnv)
      (fun _ s t c => PersonCall.FindsWaiting t s.records c) ⟨∅, []⟩
      cancelledRun cancelled := by
  refine .serve (.serve .nil trivial (person_exec (by rfl))) ?_
    (person_exec (by rfl))
  intro r hr _
  have ha : asked.records.lookup firstId = some (.new now firstId
      plainContext (.ofRequirement .approval) 600) := by rfl
  rw [ha] at hr
  cases hr
  exact ⟨_, _, rfl⟩

/-- After the cancellation nothing but the denial is told. -/
theorem outcomes_final_cancelled :
    (personRequests Empty crates personConfig).OutcomesFinal cancelledRun :=
  (outcomes_final Empty crates personConfig accessConfig lenientEnv
    (fun _ _ => False)).1 _ _ cancelledRun_history

/-- The agent posts once more to a request that was denied, and a later
poll hands it a token. -/
theorem outcomes_not_final :
    ∃ hist s, History (momentWorld lenientEnv) (fun _ _ _ _ => True)
        ⟨∅, []⟩ hist s ∧
      ¬ (personRequests Empty crates personConfig).OutcomesFinal hist := by
  refine ⟨⟨ended (.authToken grantedBody), now, .pollPending firstId,
      .ok (.complete (.authToken grantedBody)),
      ended (.authToken grantedBody)⟩ ::
    ⟨cancelled, now, .resumePending firstId .interactionCompleted,
      .ok (.granted grantedBody), ended (.authToken grantedBody)⟩ ::
    cancelledRun, _, .serve (.serve (cancelledRun_history.weaken
      fun _ _ _ _ _ => trivial) trivial (person_exec (by rfl))) trivial
      (person_exec (by rfl)), ?_⟩
  intro h
  have hc : Completed cancelled firstId (.error requestCancelled) :=
    ⟨_, by rfl, rfl⟩
  have hf := (h [_, _] _ _ rfl firstId).1 _ hc _ List.mem_cons_self rfl
  rcases hf with hf | hf
  · cases hf
  · cases hf

end Sample

end Aauth
