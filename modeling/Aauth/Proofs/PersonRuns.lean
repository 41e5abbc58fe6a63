import Aauth.Lib.Service
import Aauth.Proofs.PersonDecisions

/-!
# Runs of the Person Server, record by record

A record that is found after a call was there before it, or the call wrote
it over the one that was there, or the call opened it. So whatever the
opening and the writes preserve holds of every record of every run, and
every record goes back to the exchange that opened it.
-/

namespace Aauth

open Effect

section Runs

variable {E : Type} {cr : Crates} {config : PersonServerConfig}

/-- A call of the Person Server that was served on some occasion. -/
abbrev PersonTurn (E : Type) (cr : Crates) (config : PersonServerConfig) :=
  Served (personService E cr config) (ServiceState PersonPendingContext)
    (Occasion personExt)

variable {hist : List (PersonTurn E cr config)} {e : PersonTurn E cr config}
  {ctx : PersonTokenContext} {agentJwt id : String}

/-- The request under `id` was opened by this exchange. -/
def OpenedBy (hist : List (PersonTurn E cr config))
    (ctx : PersonTokenContext) (agentJwt id : String) : Prop :=
  ∃ e ∈ hist, e.call = .exchangeToken ctx agentJwt ∧ id ∉ e.pre.issued ∧
    id ∈ e.post.issued

theorem OpenedBy.cons (h : OpenedBy hist ctx agentJwt id)
    (e : PersonTurn E cr config) : OpenedBy (e :: hist) ctx agentJwt id := by
  obtain ⟨d, hd, h⟩ := h
  exact ⟨d, List.mem_cons_of_mem _ hd, h⟩

/-! ## Where a record comes from -/

/-- The context and the requirement an exchange opens a record with. -/
inductive Opens (cr : Crates) (config : PersonServerConfig)
    (env : (o : PersonOp) → personExt.Ans o → Prop)
    (ctx : PersonTokenContext) (agentJwt : String) :
    PersonPendingContext → DeferRequirement → Prop where
  | gated {ix : ResourceInteractionClaim} {bytes : Bytes}
      {canonical : String} : ctx.resourceClaims.interaction = some ix →
      env .codeBytes bytes →
      canonicalizeCode cr (generateCode bytes) = some canonical →
      Opens cr config env ctx agentJwt
        (ctx.toPending agentJwt none (some ix) (some canonical))
        (.interaction config.interactionUrl (generateCode bytes))
  | deferred {d : PersonTokenDecision} {requirement : DeferRequirement}
      {fed : Option FederationPendingState} :
      ctx.resourceClaims.interaction = none → env (.evaluate ctx) (.ok d) →
      Ruled cr config env ctx agentJwt d (.deferral requirement fed) →
      Opens cr config env ctx agentJwt (ctx.toPending agentJwt fed none none)
        requirement

/-- The call, answered with the reply, wrote `r'` over the record `r`. -/
def Wrote (cr : Crates) (config : PersonServerConfig)
    (env : (o : PersonOp) → personExt.Ans o → Prop) (id : String)
    (r : PersonPendingRecord) :
    (c : PersonCall) → (personService E cr config).Reply c →
      PersonPendingRecord → Prop
  | .resumePending id' input, reply, r' => id' = id ∧
      Resumed cr config env id input r reply (.write r')
  | .resolveInteractionCallback id' err, reply, r' => id' = id ∧
      Returned cr config env id r err reply (.write r')
  | .beginInteraction code, _, r' => r' = r.consumed ∧ ∃ canonical,
      canonicalizeCode cr code = some canonical ∧
        matchesCode canonical r = true
  | .exchangeToken _ _, _, _ | .pollPending _, _, _ => False

/-- Where a record comes from that is found after a call. -/
inductive Found (e : PersonTurn E cr config) (id : String) :
    PersonPendingRecord → Prop where
  | kept {r : PersonPendingRecord} : e.pre.records.lookup id = some r →
      Found e id r
  | wrote {r r' : PersonPendingRecord} :
      e.pre.records.lookup id = some r →
      r.isExpired e.moment.time = false →
      Wrote cr config e.moment.env id r e.call e.reply r' → Found e id r'
  | opened {ctx : PersonTokenContext} {agentJwt : String}
      {c : PersonPendingContext} {requirement : DeferRequirement} :
      e.call = .exchangeToken ctx agentJwt → id ∉ e.pre.issued →
      id ∈ e.post.issued →
      Opens cr config e.moment.env ctx agentJwt c requirement →
      Found e id (.new e.moment.time id c (.ofRequirement requirement)
        config.pendingTtlSecs)

section Step

variable {m : Occasion personExt}
  {s s' : ServiceState PersonPendingContext} {c : PersonCall}
  {reply : (personService E cr config).Reply c}

theorem openedState_found {t : Nat} {c : PersonPendingContext}
    {requirement : DeferRequirement} {id' : String}
    {r : PersonPendingRecord}
    (h : (openedState config t s id c requirement).records.lookup id' =
      some r) :
    s.records.lookup id' = some r ∨ id' = id ∧
      r = .new t id c (.ofRequirement requirement) config.pendingTtlSecs := by
  by_cases hid : id' = id
  · subst hid
    rw [openedState, AList.lookup_insert] at h
    exact .inr ⟨rfl, (Option.some.inj h).symm⟩
  · rw [openedState, AList.lookup_insert_ne hid] at h
    exact .inl h

theorem PersonServes.found
    (h : PersonServes cr config m.env m.time s c reply s') {id : String}
    {r : PersonPendingRecord} (hr : s'.records.lookup id = some r) :
    Found ⟨s, m, c, reply, s'⟩ id r := by
  cases c with
  | exchangeToken ctx agentJwt =>
      cases h with
      | failed _ => exact .kept hr
      | gated hi hb hc hid =>
          rcases openedState_found hr with hr | ⟨rfl, rfl⟩
          · exact .kept hr
          · exact .opened rfl hid List.mem_cons_self (.gated hi hb hc)
      | decided hi hd hruled hc =>
          cases hc with
          | failure | unauthorized | token | denial => exact .kept hr
          | deferral hid =>
              rcases openedState_found hr with hr | ⟨rfl, rfl⟩
              · exact .kept hr
              · exact .opened rfl hid List.mem_cons_self
                  (.deferred hi hd hruled)
  | pollPending id' =>
      obtain ⟨ch, h, rfl⟩ := h
      rcases Change.found hr with hr | ⟨rfl, rfl⟩
      · exact .kept hr
      · obtain ⟨r, -, -, -, hch⟩ := h.wrote
        cases hch
  | resumePending id' input =>
      obtain ⟨ch, h, rfl⟩ := h
      rcases Change.found hr with hr | ⟨rfl, rfl⟩
      · exact .kept hr
      · obtain ⟨r, hl, hx, h⟩ := h.wrote
        exact .wrote hl hx ⟨rfl, h⟩
  | beginInteraction code =>
      obtain ⟨canonical, hc, id', ch, h, rfl⟩ := h
      rcases Change.found hr with hr | ⟨rfl, rfl⟩
      · exact .kept hr
      · cases h with
        | begun hl hm hx => exact .wrote hl hx ⟨rfl, canonical, hc, hm⟩
  | resolveInteractionCallback id' err =>
      obtain ⟨ch, h, rfl⟩ := h
      rcases Change.found hr with hr | ⟨rfl, rfl⟩
      · exact .kept hr
      · obtain ⟨r, hl, hx, h⟩ := h.wrote
        exact .wrote hl hx ⟨rfl, h⟩

/-- Identifiers that were drawn stay drawn. -/
theorem PersonServes.issued
    (h : PersonServes cr config m.env m.time s c reply s') {id : String}
    (hid : id ∈ s.issued) : id ∈ s'.issued := by
  cases c with
  | exchangeToken ctx agentJwt =>
      cases h with
      | failed _ => exact hid
      | gated _ _ _ _ => exact List.mem_cons_of_mem _ hid
      | decided _ _ _ hc =>
          cases hc with
          | failure | unauthorized | token | denial => exact hid
          | deferral _ => exact List.mem_cons_of_mem _ hid
  | pollPending _ | resumePending _ _ | resolveInteractionCallback _ _ =>
      obtain ⟨ch, -, rfl⟩ := h
      exact hid
  | beginInteraction code =>
      obtain ⟨_, -, _, ch, -, rfl⟩ := h
      exact hid

end Step

/-! ## The run rule -/

/-- Every record has a drawn identifier and goes back to an exchange, and
`P` ties the two. -/
structure Tracked
    (P : List (PersonTurn E cr config) → PersonTokenContext → String →
      String → PersonPendingRecord → Prop)
    (hist : List (PersonTurn E cr config))
    (s : ServiceState PersonPendingContext) : Prop where
  drawn : ∀ id r, s.records.lookup id = some r → id ∈ s.issued
  opened : ∀ id r, s.records.lookup id = some r → ∃ ctx agentJwt,
    OpenedBy hist ctx agentJwt id ∧ P hist ctx agentJwt id r

variable {P : List (PersonTurn E cr config) → PersonTokenContext → String →
    String → PersonPendingRecord → Prop}
  {G : List (PersonTurn E cr config) → ServiceState PersonPendingContext →
    Occasion personExt → PersonCall → Prop}
  {s : ServiceState PersonPendingContext}

theorem Tracked.mono
    {P' : List (PersonTurn E cr config) → PersonTokenContext → String →
      String → PersonPendingRecord → Prop}
    (h : Tracked P hist s)
    (hP : ∀ {ctx agentJwt id r}, P hist ctx agentJwt id r →
      P' hist ctx agentJwt id r) : Tracked P' hist s := by
  refine ⟨h.drawn, fun id r hl => ?_⟩
  obtain ⟨ctx, agentJwt, ho, hp⟩ := h.opened id r hl
  exact ⟨ctx, agentJwt, ho, hP hp⟩

abbrev PersonHistory (G : List (PersonTurn E cr config) →
      ServiceState PersonPendingContext → Occasion personExt →
      PersonCall → Prop)
    (hist : List (PersonTurn E cr config))
    (s : ServiceState PersonPendingContext) : Prop :=
  History occasionWorld (fun hist s m (c : PersonCall) => G hist s m c)
    ⟨∅, []⟩ hist s

/-- What the opening of a record and every write preserve holds of every
record of a run. -/
theorem PersonHistory.tracked
    (cons : ∀ {h ctx agentJwt id r} e, P h ctx agentJwt id r →
      P (e :: h) ctx agentJwt id r)
    (opened : ∀ {h} {e : PersonTurn E cr config} {ctx agentJwt id c req},
      G h e.pre e.moment e.call → e.call = .exchangeToken ctx agentJwt →
      Opens cr config e.moment.env ctx agentJwt c req →
      P (e :: h) ctx agentJwt id (.new e.moment.time id c
        (.ofRequirement req) config.pendingTtlSecs))
    (wrote : ∀ {h} {e : PersonTurn E cr config} {ctx agentJwt id r r'},
      G h e.pre e.moment e.call → OpenedBy h ctx agentJwt id →
      P h ctx agentJwt id r → e.pre.records.lookup id = some r →
      r.isExpired e.moment.time = false →
      Wrote cr config e.moment.env id r e.call e.reply r' →
      P (e :: h) ctx agentJwt id r')
    (run : PersonHistory G hist s) : Tracked P hist s := by
  refine run.induction (I := fun hist s => Tracked P hist s) ⟨?_, ?_⟩ ?_
  · intro id r hr
    rw [AList.lookup_empty] at hr
    cases hr
  · intro id r hr
    rw [AList.lookup_empty] at hr
    cases hr
  · intro h s m c reply s' ih hg hx
    have hs := personServes_of_exec hx
    refine ⟨fun id r hr => ?_, fun id r hr => ?_⟩
    · cases hs.found hr with
      | kept hl => exact hs.issued (ih.drawn id _ hl)
      | wrote hl _ _ => exact hs.issued (ih.drawn id _ hl)
      | opened _ _ hid _ => exact hid
    · cases hs.found hr with
      | kept hl =>
          obtain ⟨ctx, agentJwt, ho, hp⟩ := ih.opened id _ hl
          exact ⟨ctx, agentJwt, ho.cons _, cons _ hp⟩
      | wrote hl hx hw =>
          obtain ⟨ctx, agentJwt, ho, hp⟩ := ih.opened id _ hl
          have hw : Wrote cr config m.env id _ c reply r := hw
          refine ⟨ctx, agentJwt, ho.cons _, ?_⟩
          exact wrote (e := ⟨s, m, c, reply, s'⟩) hg ho hp hl hx hw
      | opened hcall hnew hid ho =>
          refine ⟨_, _, ⟨_, List.mem_cons_self, hcall, hnew, hid⟩, ?_⟩
          exact opened (e := ⟨s, m, c, reply, s'⟩) hg hcall ho

/-! ## What a record carries -/

/-- The record carries the context it was opened with, and the agent
token; only a federation may drop the interaction the resource asked
for. -/
structure Carries (ctx : PersonTokenContext) (agentJwt : String)
    (r : PersonPendingRecord) : Prop where
  agentToken : r.context.agentToken = agentJwt
  context : ∃ interaction, r.context.toTokenContext =
    { ctx with resourceClaims.interaction := interaction }
  unfederated : r.context.federation = none →
    r.context.toTokenContext = ctx

/-- Only what the context of the exchange is made of, and whether the
record is federated, matters. -/
theorem Carries.update {r r' : PersonPendingRecord}
    (h : Carries ctx agentJwt r)
    (ha : r'.context.agentToken = r.context.agentToken)
    (hc : r'.context.toTokenContext = r.context.toTokenContext)
    (hf : r'.context.federation = none → r.context.federation = none) :
    Carries ctx agentJwt r' := by
  refine ⟨ha.trans h.agentToken, ?_, fun h' => hc.trans (h.unfederated (hf h'))⟩
  rw [hc]
  exact h.context

theorem Carries.request {r : PersonPendingRecord}
    (h : Carries ctx agentJwt r) :
    r.context.exchangeRequest = ctx.exchangeRequest := by
  obtain ⟨_, h⟩ := h.context
  exact congrArg PersonTokenContext.exchangeRequest h

/-- The context of a decision on the record is the one it carries. -/
theorem Carries.decided {r : PersonPendingRecord}
    {interaction : Option ResourceInteractionClaim}
    (h : Carries ctx agentJwt r) :
    { r.context.toTokenContext with
        resourceClaims.interaction := interaction } =
      { ctx with resourceClaims.interaction := interaction } := by
  obtain ⟨_, h⟩ := h.context
  rw [h]

section Carries

variable {env : (o : PersonOp) → personExt.Ans o → Prop}
  {r r' : PersonPendingRecord} {reply : FlowReply E}

theorem RuledOn.carries {interaction : Option ResourceInteractionClaim}
    {d : PersonTokenDecision} (hc : Carries ctx agentJwt r)
    (h : RuledOn cr config env id r { r.context.toTokenContext with
        resourceClaims.interaction := interaction } r.context.agentToken d
      reply (.write r')) : Carries ctx agentJwt r' := by
  obtain ⟨ruling, -, -, hch⟩ := h
  cases ruling with
  | failure _ | unauthorized => cases hch
  | token _ =>
      cases hch
      exact hc.update rfl rfl fun h => h
  | denial _ =>
      cases hch
      exact hc.update rfl rfl fun h => h
  | deferral requirement fed =>
      cases fed with
      | none =>
          cases hch
          exact hc.update rfl rfl fun h => h
      | some fed =>
          cases hch
          exact ⟨hc.agentToken, ⟨interaction, hc.decided⟩, nofun⟩

theorem Posted.carries {fed : FederationPendingState}
    {input : PendingInput} (hc : Carries ctx agentJwt r)
    (h : Posted cr config env id r fed input reply (.write r')) :
    Carries ctx agentJwt r' := by
  cases h with
  | cancelled _ | accepted _ _ | denied _ => exact hc.update rfl rfl fun h => h
  | moved _ => exact hc.update rfl rfl nofun

theorem Wrote.carries {c : PersonCall}
    {reply : (personService E cr config).Reply c}
    (hc : Carries ctx agentJwt r)
    (h : Wrote cr config env id r c reply r') : Carries ctx agentJwt r' := by
  cases c with
  | exchangeToken _ _ | pollPending _ => exact h.elim
  | resumePending id' input =>
      obtain ⟨-, h⟩ := h
      cases h with
      | posted _ h => exact h.carries hc
      | decided _ _ h => exact h.carries hc
  | beginInteraction code =>
      obtain ⟨rfl, -⟩ := h
      exact hc.update rfl rfl fun h => h
  | resolveInteractionCallback id' err =>
      obtain ⟨-, h⟩ := h
      cases h with
      | error => exact hc.update rfl rfl fun h => h
      | decided _ _ h => exact h.carries hc

theorem Opens.carries {c : PersonPendingContext}
    {requirement : DeferRequirement} {t ttl : Nat}
    (h : Opens cr config env ctx agentJwt c requirement) :
    Carries ctx agentJwt (.new t id c (.ofRequirement requirement) ttl) := by
  cases h with
  | gated _ _ _ | deferred _ _ _ => exact ⟨rfl, ⟨_, rfl⟩, fun _ => rfl⟩

end Carries

/-- Every record of every run carries the context of the exchange that
opened it. -/
theorem PersonHistory.carries (run : PersonHistory G hist s) :
    Tracked (fun _ ctx agentJwt _ => Carries ctx agentJwt) hist s :=
  run.tracked (fun _ h => h) (fun _ _ h => h.carries)
    (fun _ _ hc _ _ h => h.carries hc)

end Runs

end Aauth
