import Aauth.Proofs.Origin
import Aauth.Proofs.PersonSteps
import Aauth.Sample.Servers

/-!
# The interaction a resource asks for

When a resource token asks for an interaction at the resource, the Person
Server first sends the user there: `begin_interaction` consumes the code,
and the callback without an error brings the user back. Only the exchange
knows about this gate. `resume_pending` asks the policy about any live
record, gated or not, and the callback never looks whether the code was
consumed. The gate holds in the runs in which the calls come in the order
the source counts on.
-/

namespace Aauth

open Effect

section Gate

variable {E : Type} {cr : Crates} {config : PersonServerConfig}
  {env : (o : PersonOp) → personExt.Ans o → Prop} {t : Nat} {id : String}
  {s s' : ServiceState PersonPendingContext}

abbrev PersonServed (E : Type) (cr : Crates) (config : PersonServerConfig) :=
  Served (personService E cr config) (ServiceState PersonPendingContext) Nat

variable {hist : List (PersonServed E cr config)}
  {e : PersonServed E cr config}

/-! ## The gate -/

/-- The call is a `begin_interaction` that consumed the code of the record
under `id`. -/
def Consumes (id : String) (e : PersonServed E cr config) : Prop :=
  (∃ code, e.call = .beginInteraction code) ∧
    ∃ r r', e.pre.records.lookup id = some r ∧
      r.context.interactionCodeConsumed = false ∧
      e.post.records.lookup id = some r' ∧
      r'.context.interactionCodeConsumed = true

def Consumed (hist : List (PersonServed E cr config)) (id : String) : Prop :=
  ∃ e ∈ hist, Consumes id e

/-- The code of the request was consumed, and after that the callback was
called for it without an error. -/
inductive Passed (id : String) : List (PersonServed E cr config) → Prop where
  | here {e : PersonServed E cr config}
      {hist : List (PersonServed E cr config)} :
      e.call = .resolveInteractionCallback id none → Consumed hist id →
      Passed id (e :: hist)
  | later {e : PersonServed E cr config}
      {hist : List (PersonServed E cr config)} :
      Passed id hist → Passed id (e :: hist)

/-- The request was opened for a resource token that asks for an
interaction. -/
def Gated (hist : List (PersonServed E cr config)) (id : String) : Prop :=
  ∃ ctx, (personExchanges E cr config).Opened hist id ctx ∧
    ctx.resourceClaims.interaction.isSome

/-- The order of calls the gate rests on: the agent does not post to a
gated request before the gate was passed, and the callback comes for one
whose code was consumed. -/
def PersonCall.InOrder (hist : List (PersonServed E cr config))
    (s : ServiceState PersonPendingContext) (t : Nat) : PersonCall → Prop
  | .resumePending id _ => ∀ r, s.records.lookup id = some r →
      r.isExpired t = false → r.context.resourceInteraction.isSome →
      Passed id hist
  | .resolveInteractionCallback id none => ∀ r,
      s.records.lookup id = some r → r.isExpired t = false →
      r.context.resourceInteraction.isSome →
      r.context.interactionCodeConsumed = true
  | _ => True

/-! ## Records behind the gate -/

/-- A record whose gate is closed: it carries the resource's interaction,
tells of a consumed code only when one was, and keeps no token. -/
structure Closed (hist : List (PersonServed E cr config)) (id : String)
    (r : PersonPendingRecord) : Prop where
  interaction : r.context.resourceInteraction.isSome
  consumed : r.context.interactionCodeConsumed = true → Consumed hist id
  token : ∀ body, r.snapshot ≠ .complete (.authToken body)

/-- Whatever is gated is closed or has been passed. -/
def GateOk (hist : List (PersonServed E cr config)) (id : String)
    (r : PersonPendingRecord) : Prop :=
  Gated hist id → Passed id hist ∨ Closed hist id r

theorem Consumed.cons (h : Consumed hist id) (e : PersonServed E cr config) :
    Consumed (e :: hist) id := by
  obtain ⟨d, hd, hc⟩ := h
  exact ⟨d, List.mem_cons_of_mem _ hd, hc⟩

theorem Closed.cons {r : PersonPendingRecord} (h : Closed hist id r)
    (e : PersonServed E cr config) : Closed (e :: hist) id r :=
  ⟨h.interaction, fun hc => (h.consumed hc).cons e, h.token⟩

/-- A call that does not open a request leaves what is gated as it is. -/
theorem Gated.of_cons
    (he : ¬ (id ∉ e.pre.issued ∧ id ∈ e.post.issued))
    (h : Gated (e :: hist) id) : Gated hist id := by
  obtain ⟨ctx, ⟨d, hd, hc, hpre, hpost⟩, hi⟩ := h
  rcases List.mem_cons.mp hd with rfl | hd
  · exact absurd ⟨hpre, hpost⟩ he
  · exact ⟨ctx, ⟨d, hd, hc, hpre, hpost⟩, hi⟩

theorem GateOk.cons {r : PersonPendingRecord} (h : GateOk hist id r)
    (he : ¬ (id ∉ e.pre.issued ∧ id ∈ e.post.issued)) :
    GateOk (e :: hist) id r := by
  intro hg
  rcases h (hg.of_cons he) with hp | hc
  · exact .inl (.later hp)
  · exact .inr (hc.cons e)

/-- A record whose gate was passed may become anything. -/
theorem GateOk.of_passed {r : PersonPendingRecord} (h : Passed id hist) :
    GateOk hist id r := fun _ => .inl h

/-! ## One call -/

/-- What is known of a state: the requests opened so far have drawn
identifiers, and no gated record is open too early. -/
structure GateInv (hist : List (PersonServed E cr config))
    (s : ServiceState PersonPendingContext) : Prop where
  drawn : ∀ e ∈ hist, ∀ id ∈ e.post.issued, id ∈ s.issued
  records : Every (GateOk hist) s.records

theorem Settled.gateOk {m m' : PersonMap} {r : PersonPendingRecord}
    {reply : FlowReply E} (hm : Every (GateOk hist) m)
    (hp : Gated hist id → Passed id hist)
    (h : Settled cr config env id m r reply m') :
    Every (GateOk hist) m' := by
  have any : ∀ r', GateOk hist id r' := fun _ hg => .inl (hp hg)
  cases h with
  | failed | unauthorized | badGateway => exact hm
  | granted _ => exact hm.insert (any _)
  | denied => exact hm.insert (any _)
  | deferred _ => exact hm.insert (any _)
  | dropped => exact hm.erase

theorem not_consumed_of_matchesCode {canonical : String}
    {r : PersonPendingRecord} (h : matchesCode canonical r = true) :
    r.context.interactionCodeConsumed = false := by
  simp only [matchesCode, Bool.and_eq_true, Bool.not_eq_true'] at h
  exact h.2

/-- Consuming a code leaves a closed gate closed, and is remembered. -/
theorem Closed.begun {r : PersonPendingRecord} (h : Closed hist id r)
    (hc : Consumed hist id) : Closed hist id r.consumed := by
  refine ⟨h.interaction, fun _ => hc, fun body hb => ?_⟩
  cases hs : r.snapshot with
  | waiting _ _ => simp [PersonPendingRecord.consumed, hs] at hb
  | complete _ =>
      refine h.token body ?_
      simpa [PersonPendingRecord.consumed, hs] using hb

/-- What one call does to the gate: it stays closed where it was not
passed, and nothing is handed out through a closed one. -/
structure GateStep (hist : List (PersonServed E cr config))
    (e : PersonServed E cr config) : Prop where
  inv : GateInv (e :: hist) e.post
  granted : ∀ body, (personExchanges E cr config).Grants body e.call
    e.reply → ∀ id, (personExchanges E cr config).target e.call = some id →
      Gated hist id → Passed id (e :: hist)

theorem Gated.cons (h : Gated hist id) (e : PersonServed E cr config) :
    Gated (e :: hist) id := by
  obtain ⟨ctx, ho, hi⟩ := h
  exact ⟨ctx, ho.cons e, hi⟩

theorem not_drawn (hi : e.post.issued = e.pre.issued) (id : String) :
    ¬ (id ∉ e.pre.issued ∧ id ∈ e.post.issued) := by
  intro hn
  rw [hi] at hn
  exact hn.1 hn.2

/-- A call that draws no identifier, on the records it found. -/
theorem GateInv.found (e : PersonServed E cr config)
    (h : GateInv hist e.pre) (hi : e.post.issued = e.pre.issued) :
    Every (GateOk (e :: hist)) e.pre.records :=
  h.records.mono fun id _ hr => hr.cons (not_drawn hi id)

theorem GateInv.step (h : GateInv hist e.pre)
    (hi : ∀ id ∈ e.pre.issued, id ∈ e.post.issued)
    (hm : Every (GateOk (e :: hist)) e.post.records) :
    GateInv (e :: hist) e.post := by
  refine ⟨fun d hd id hid => ?_, hm⟩
  rcases List.mem_cons.mp hd with rfl | hd
  · exact hid
  · exact hi id (h.drawn d hd id hid)

/-- A gate that is passed once the call is served, because the records
that are gated were found in order. -/
theorem GateInv.passed {r : PersonPendingRecord} (h : GateInv hist e.pre)
    (hi : e.post.issued = e.pre.issued)
    (hl : e.pre.records.lookup id = some r)
    (hc : Closed hist id r → Passed id (e :: hist))
    (hgate : Gated (e :: hist) id) : Passed id (e :: hist) := by
  rcases h.records _ _ hl (hgate.of_cons (not_drawn hi id)) with hp | hr
  · exact .later hp
  · exact hc hr

/-- A call that settles a record only after its gate was passed. -/
theorem OnLive.gateOk {m m' : PersonMap} {reply : FlowReply E}
    {K : PersonPendingRecord → FlowReply E → PersonMap → Prop}
    (hK : ∀ {r}, K r reply m' → Settled cr config env id m r reply m')
    (hp : ∀ r, m.lookup id = some r → r.isExpired t = false →
      Gated hist id → Passed id hist)
    (h : OnLive (.ok .gone) t id m K reply m')
    (hm : Every (GateOk hist) m) :
    Every (GateOk hist) m' ∧ ∀ body, reply = .ok (.granted body) →
      Gated hist id → Passed id hist := by
  cases h with
  | absent _ => exact ⟨hm, nofun⟩
  | expired _ _ => exact ⟨hm.erase, nofun⟩
  | live hl hx h =>
      exact ⟨(hK h).gateOk hm (hp _ hl hx), fun _ _ => hp _ hl hx⟩

theorem CalledBack.settles {m m' : PersonMap} {r : PersonPendingRecord}
    {reply : FlowReply E}
    (h : CalledBack cr config env id m r none reply m') :
    Settled cr config env id m r reply m' := by
  cases h with
  | federated _ => exact .badGateway
  | settled _ h => exact h

/-- A callback with an error hands out nothing and leaves gates closed. -/
theorem OnLive.refused {m m' : PersonMap} {reply : FlowReply E}
    {err : String} (hm : Every (GateOk hist) m)
    (h : OnLive (.ok .gone) t id m
      (fun r => CalledBack cr config env id m r (some err)) reply m') :
    Every (GateOk hist) m' ∧ ∀ body, reply ≠ .ok (.granted body) := by
  cases h with
  | absent _ => exact ⟨hm, nofun⟩
  | expired _ _ => exact ⟨hm.erase, nofun⟩
  | live hl _ h =>
      cases h with
      | error =>
          refine ⟨hm.insert fun hgate => ?_, nofun⟩
          rcases hm _ _ hl hgate with hp | hc
          · exact .inl hp
          · exact .inr ⟨hc.interaction, hc.consumed, nofun⟩

/-- The request an exchange opens: closed if it is gated. -/
theorem Opened.gateOk {ctx : PersonTokenContext} {agentJwt : String}
    {c : PersonPendingContext} {requirement : DeferRequirement}
    {ttl : Nat} (h : Opened ctx agentJwt c)
    (hctx : ∀ ctx', (personExchanges E cr config).Opened hist id ctx' →
      ctx' = ctx) :
    GateOk hist id (.new t id c (.ofRequirement requirement) ttl) := by
  intro hgate
  obtain ⟨ctx', ho, hi⟩ := hgate
  have hctx := hctx ctx' ho
  subst hctx
  cases h with
  | gated _ => exact .inr ⟨rfl, nofun, nofun⟩
  | plain hn =>
      rw [hn] at hi
      cases hi

/-- One call, made in order. -/
theorem PersonStep.gateStep {c : PersonCall}
    {reply : (personService E cr config).Reply c}
    (h : PersonStep cr config env t s c reply s')
    (hg : c.InOrder hist s t) (hs : GateInv hist s) :
    GateStep hist ⟨s, t, c, reply, s'⟩ := by
  have found := hs.found ⟨s, t, c, reply, s'⟩
  cases c with
  | exchangeToken ctx agentJwt =>
      refine ⟨?_, nofun⟩
      cases h with
      | failed | unauthorized | denied | granted _ _ =>
          exact hs.step (fun _ hid => hid) (found rfl)
      | @created id c requirement hfresh hc =>
          refine hs.step (fun _ hid => List.mem_cons_of_mem _ hid) ?_
          intro id' r hr
          by_cases hid : id' = id
          · subst hid
            rw [AList.lookup_insert] at hr
            cases hr
            refine hc.gateOk fun ctx' ho => ?_
            obtain ⟨d, hd, hctx, -, hpost⟩ := ho
            rcases List.mem_cons.mp hd with rfl | hd
            · cases hctx
              rfl
            · exact absurd (hs.drawn d hd _ hpost) hfresh
          · rw [AList.lookup_insert_ne hid] at hr
            refine (hs.records id' r hr).cons fun hn => ?_
            rcases List.mem_cons.mp hn.2 with h | h
            · exact hid h
            · exact hn.1 h
  | pollPending id =>
      obtain ⟨h, hi⟩ := h
      have hm := found hi
      refine ⟨hs.step (fun _ hid => hi ▸ hid)
        (h.every hm fun _ h => h.2 ▸ hm), fun body hb id' hid hgate => ?_⟩
      cases hid
      cases (hb : reply = _)
      cases h with
      | live hl _ h =>
          refine hs.passed hi hl (fun hc => ?_) (hgate.cons _)
          have ho := Except.ok.inj h.1
          exact absurd (pollOutcomeFromSnapshot_eq_complete.mp ho.symm)
            (hc.token body)
  | resumePending id input =>
      obtain ⟨h, hi⟩ := h
      have live := h.gateOk (fun h => h) (fun r hl hx => hs.passed hi hl
        fun hc => .later (hg r hl hx hc.interaction)) (found hi)
      refine ⟨hs.step (fun _ hid => hi ▸ hid) live.1,
        fun body hb id' hid hgate => ?_⟩
      cases hid
      exact live.2 body hb (hgate.cons _)
  | beginInteraction code =>
      refine ⟨?_, nofun⟩
      obtain ⟨⟨canonical, -, h⟩, hi⟩ := h
      have hm := found hi
      refine hs.step (fun _ hid => hi ▸ hid) ?_
      generalize hm' : s'.records = m' at h
      cases h with
      | unknown _ => exact hm' ▸ hm
      | expired _ _ _ => exact hm' ▸ hm.erase
      | @begun id r hl hmatch _ =>
          have hpost : s'.records.lookup id = some r.consumed := by
            rw [hm', AList.lookup_insert]
          refine hm.insert fun hgate => ?_
          rcases hm _ _ hl hgate with hp | hc
          · exact .inl hp
          · exact .inr (hc.begun ⟨_, List.mem_cons_self, ⟨code, rfl⟩, r, _,
              hl, not_consumed_of_matchesCode hmatch, hpost, rfl⟩)
  | resolveInteractionCallback id err =>
      obtain ⟨h, hi⟩ := h
      have hm := found hi
      cases err with
      | some err =>
          have live := h.refused hm
          refine ⟨hs.step (fun _ hid => hi ▸ hid) live.1,
            fun body hb => absurd hb (live.2 body)⟩
      | none =>
          have live := h.gateOk CalledBack.settles (fun r hl hx =>
            hs.passed hi hl fun hc =>
              .here rfl (hc.consumed (hg r hl hx hc.interaction))) hm
          refine ⟨hs.step (fun _ hid => hi ▸ hid) live.1,
            fun body hb id' hid hgate => ?_⟩
          cases hid
          exact live.2 body hb (hgate.cons _)

/-! ## Runs -/

/-- In every run whose calls are made in order, no token comes out of a
gated request before its gate was passed. -/
theorem gate_holds {later earlier : List (PersonServed E cr config)}
    {e : PersonServed E cr config} {s : ServiceState PersonPendingContext}
    (run : History (momentWorld env)
      (fun hist s t c => PersonCall.InOrder hist s t c) ⟨∅, []⟩
      (later ++ e :: earlier) s) {body : TokenResponseBody} {id : String}
    (hb : (personExchanges E cr config).Grants body e.call e.reply)
    (hid : (personExchanges E cr config).target e.call = some id)
    (hgate : Gated earlier id) : Passed id (e :: earlier) := by
  obtain ⟨-, run, hg, hx⟩ := run.split.front
  have inv : GateInv earlier e.pre := by
    refine run.induction (I := fun hist s => GateInv hist s)
      ⟨fun _ he => absurd he List.not_mem_nil, .empty⟩ ?_
    intro h s t c reply s' hs hg hx
    exact ((personStep_of_exec hx).gateStep hg hs).inv
  obtain ⟨pre, t, c, reply, post⟩ := e
  have step : GateStep earlier ⟨pre, t, c, reply, post⟩ :=
    (personStep_of_exec hx).gateStep hg inv
  exact step.granted body hb id hid hgate

end Gate

/-! ## At the sample parties -/

namespace Sample

/-- A resource token that asks for an interaction at the resource. -/
def gatedClaims : ResourceClaims :=
  { challenge resource personServer agentKey with
    interaction := some { url := "https://resource.example/connect",
                          code := "R2D2-C3P0" } }

def gatedAnswer : (o : PersonOp) → Option (personExt.Ans o) :=
  personAnswer (.grant { sub := "user-1", scope := none })
    (fun _ => .grant { sub := "user-1", scope := none })

abbrev gatedEnv (o : PersonOp) (a : personExt.Ans o) : Prop :=
  gatedAnswer o = some a

/-- The code the Person Server gives the agent for its user. -/
def gateCode : String := generateCode (List.replicate 5 0)

def gatedContext : PersonPendingContext :=
  (botContext gatedClaims).toPending botJwt none gatedClaims.interaction
    (some gateCode)

def gated : ServiceState PersonPendingContext :=
  waitingFor gatedContext (.interaction personConfig.interactionUrl gateCode)

theorem canonicalize_gateCode :
    canonicalizeCode crates gateCode = some gateCode := by decide +kernel

theorem gated_exchange : Exec (momentWorld gatedEnv now) ⟨∅, []⟩
    (exchangeToken (E := Empty) crates personConfig (botContext gatedClaims)
      botJwt).run
    (.ok (.deferredAt personConfig firstId
      (.interaction personConfig.interactionUrl gateCode))) gated := by
  let W : World (personSig Empty) (ServiceState PersonPendingContext) :=
    momentWorld gatedEnv now
  have hcode : W ⟨∅, []⟩ (.ext .codeBytes) (List.replicate 5 0) ⟨∅, []⟩ :=
    ⟨rfl, rfl⟩
  have hi : (botContext gatedClaims).resourceClaims.interaction =
      some { url := "https://resource.example/connect",
             code := "R2D2-C3P0" } := rfl
  exact exchangeToken_gated hi hcode canonicalize_gateCode
    (person_exec (by rfl))

/-- The token that is minted for the gated request. -/
def gateBody : TokenResponseBody where
  authToken := authToken ((personMintParams crates personKey personServer
    resource bot.identifier bot.cnf.jwk (some "user-1") none).claims now
    "auth-1") personKey
  expiresIn := 3600

def gatedRecord : PersonPendingRecord :=
  .new now firstId gatedContext (.ofRequirement
    (.interaction personConfig.interactionUrl gateCode)) 600

/-- The state after the user arrived with the code. -/
def visited : ServiceState PersonPendingContext :=
  { gated with records := gated.records.insert firstId gatedRecord.consumed }

def grantedAt (s : ServiceState PersonPendingContext) :
    ServiceState PersonPendingContext :=
  { s with records := completed s.records firstId (.authToken gateBody) }

/-- The agent exchanges a resource token that asks for an interaction. -/
def gatedRun : List (PersonServed Empty crates personConfig) :=
  [⟨⟨∅, []⟩, now, .exchangeToken (botContext gatedClaims) botJwt,
    .ok (.deferredAt personConfig firstId
      (.interaction personConfig.interactionUrl gateCode)), gated⟩]

theorem gatedRun_gated : Gated gatedRun firstId :=
  ⟨botContext gatedClaims, ⟨_, List.mem_cons_self, rfl, List.not_mem_nil,
    List.mem_cons_self⟩, rfl⟩

theorem lookup_gated : gated.records.lookup firstId = some gatedRecord :=
  AList.lookup_insert _

theorem lookup_visited :
    visited.records.lookup firstId = some gatedRecord.consumed :=
  AList.lookup_insert _

theorem visit_exec : Exec (momentWorld gatedEnv now) gated
    (beginInteraction (E := Empty) crates personConfig gateCode).run
    ((interactionReply crates personConfig firstId
      gatedRecord.consumed).mapError .orchestration) visited :=
  beginInteraction_begun canonicalize_gateCode lookup_gated
    (matchesCode_iff.mpr ⟨rfl, rfl⟩) (by rfl)

/-- The user visits with the code and comes back. -/
def visitedRun : List (PersonServed Empty crates personConfig) :=
  ⟨gated, now, .beginInteraction gateCode,
    (interactionReply crates personConfig firstId
      gatedRecord.consumed).mapError .orchestration, visited⟩ :: gatedRun

def callback : PersonServed Empty crates personConfig :=
  ⟨visited, now, .resolveInteractionCallback firstId none,
    .ok (.granted gateBody), grantedAt visited⟩

theorem visitedRun_gated : Gated visitedRun firstId := gatedRun_gated.cons _

theorem callback_history :
    History (momentWorld gatedEnv)
      (fun hist s t c => PersonCall.InOrder hist s t c) ⟨∅, []⟩
      ([] ++ callback :: visitedRun) (grantedAt visited) := by
  refine .serve (.serve (.serve .nil trivial gated_exchange) trivial
    visit_exec) ?_ (person_exec (by rfl))
  intro r hr _ _
  have hr := lookup_visited.symm.trans hr
  cases hr
  rfl

/-- The token that the callback mints has passed the gate. -/
theorem gate_holds_bot : Passed firstId (callback :: visitedRun) := by
  have hb : (personExchanges Empty crates personConfig).Grants gateBody
      callback.call callback.reply := rfl
  exact gate_holds callback_history hb rfl visitedRun_gated

/-- The agent posts to the pending URL, and nobody visits the resource. -/
theorem gate_skipped :
    ∃ earlier e s, History (momentWorld gatedEnv) (fun _ _ _ _ => True)
        ⟨∅, []⟩ (e :: earlier) s ∧
      ∃ body id, (personExchanges Empty crates personConfig).Grants body
          e.call e.reply ∧
        (personExchanges Empty crates personConfig).target e.call = some id ∧
        Gated earlier id ∧ ¬ Passed id (e :: earlier) := by
  refine ⟨gatedRun, ⟨gated, now, .resumePending firstId
      .interactionCompleted, .ok (.granted gateBody), grantedAt gated⟩, _,
    .serve (.serve .nil trivial gated_exchange) trivial
      (person_exec (by rfl)), gateBody, firstId, rfl, rfl, gatedRun_gated,
    ?_⟩
  intro h
  cases h with
  | here hc _ => cases hc
  | later h =>
      cases h with
      | here hc _ => cases hc
      | later h => cases h

end Sample

end Aauth
