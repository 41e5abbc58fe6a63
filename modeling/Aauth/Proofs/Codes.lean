import Aauth.Proofs.Finality
import Aauth.Proofs.InteractionGate
import Aauth.Proofs.PersonRuns
import Aauth.Ref.CrateLaws
import Aauth.Sample.Federation

/-!
# Interaction codes a user can type

A code is shown to the agent in the requirement of a record, and looked up
in a field of the record's context. Only the deferral a resource asks for
writes both. So an advertised code is found in the runs in which nobody
else sends the user to the Person Server: no policy and no Access Server
puts an interaction at its own URL into a requirement, unless the code is
the one the record has, and no federation replaces the context of a record
whose code is still to be used.
-/

namespace Aauth

open Text Effect

/-! ## Spellings -/

/-- What a key stands for in a code. -/
def keyOf (c : Char) : Char :=
  let u := c.toUpper
  if u == 'I' || u == 'L' then '1' else if u == 'O' then '0' else u

/-- A code without its hyphens, key by key. -/
def keysOf (code : String) : List Char :=
  (code.toList.filter (· != '-')).map keyOf

/-- The code as somebody may type it: in any case, hyphenated anyhow, with
the letters that look like digits. -/
structure Spells (typed code : String) : Prop where
  ascii : IsAscii typed
  keys : keysOf typed = keysOf code

variable {cr : Crates}

theorem bareCode_of_ascii (hc : CaseLaws cr) {code : String}
    (ha : IsAscii code) : bareCode cr code = keysOf code := by
  have hf : IsAscii (String.ofList (code.toList.filter (· != '-'))) := by
    intro c hm
    rw [String.toList_ofList] at hm
    exact ha c (List.mem_filter.mp hm).1
  rw [bareCode, hc.upper hf, asciiUpper, String.toList_ofList,
    String.toList_ofList, List.map_map]
  rfl

/-- A spelling has the canonical form of the code. -/
theorem Spells.canonical (hc : CaseLaws cr) {typed code : String}
    (h : Spells typed code) (ha : IsAscii code) :
    canonicalizeCode cr typed = canonicalizeCode cr code := by
  have hb : bareCode cr typed = bareCode cr code := by
    rw [bareCode_of_ascii hc h.ascii, bareCode_of_ascii hc ha, h.keys]
  rw [canonicalizeCode, canonicalizeCode, hb]

theorem generateCode_ascii (bytes : Bytes) : IsAscii (generateCode bytes) := by
  have hall : ∀ c ∈ CROCKFORD32, c.toNat < 128 := by decide
  have hget : ∀ n, (CROCKFORD32.getD n '0').toNat < 128 := by
    intro n
    rw [List.getD_eq_getElem?_getD]
    cases hn : CROCKFORD32[n]? with
    | none => decide
    | some c => exact hall c (List.mem_of_getElem? hn)
  intro c hc
  rw [generateCode, String.toList_ofList, List.mem_append,
    List.mem_cons] at hc
  rcases hc with hc | rfl | hc
  · obtain ⟨i, -, rfl⟩ := List.mem_map.mp (List.mem_of_mem_take hc)
    exact hget _
  · decide
  · obtain ⟨i, -, rfl⟩ := List.mem_map.mp (List.mem_of_mem_drop hc)
    exact hget _

section Codes

variable {E : Type} {config : PersonServerConfig}
  {s s' : ServiceState PersonPendingContext} {id : String}
  {m : Occasion personExt} {c : PersonCall}
  {hist : List (PersonTurn E cr config)}

/-! ## Advertised codes -/

/-- The reply sends the user to the Person Server with the code, for the
record under `id`. -/
def Advertises (config : PersonServerConfig) (id code : String) :
    (c : PersonCall) → (personService E cr config).Reply c → Prop
  | .exchangeToken _ _, reply | .resumePending _ _, reply
  | .resolveInteractionCallback _ _, reply => reply =
      .ok (.deferredAt config id (.interaction config.interactionUrl code))
  | .pollPending id', reply => id' = id ∧ ∃ status, reply =
      .ok (.pending ⟨status, .interaction config.interactionUrl code⟩)
  | .beginInteraction _, _ => False

/-- The call is a `begin_interaction` that consumed the code of the record
under `id`. -/
def UsesCode (id : String) (e : PersonTurn E cr config) : Prop :=
  (∃ code, e.call = .beginInteraction code) ∧
    ∃ r : PersonPendingRecord, e.pre.records.lookup id = some r ∧
      r.context.interactionCodeConsumed = false ∧
      e.post.records.lookup id = some r.consumed

def CodeUsed (hist : List (PersonTurn E cr config)) (id : String) : Prop :=
  ∃ e ∈ hist, UsesCode id e

theorem CodeUsed.cons (h : CodeUsed hist id) (e : PersonTurn E cr config) :
    CodeUsed (e :: hist) id := by
  obtain ⟨d, hd, h⟩ := h
  exact ⟨d, List.mem_cons_of_mem _ hd, h⟩

/-- A visit with the text finds the record: whenever it is made, it is
about that record and no other. -/
def Finds (E : Type) (cr : Crates) (config : PersonServerConfig)
    (s : ServiceState PersonPendingContext) (typed id : String)
    (r : PersonPendingRecord) : Prop :=
  (∃ canonical, canonicalizeCode cr typed = some canonical) ∧
    ∀ (m : Occasion personExt) reply s', Exec (occasionWorld m) s
      ((personService E cr config).prog (.beginInteraction typed)) reply s' →
        (r.isExpired m.time = true → reply = .ok .expired) ∧
        (r.isExpired m.time = false →
          reply = (interactionReply cr config id r.consumed).mapError
            .orchestration ∧ s'.records.lookup id = some r.consumed)

/-- The code of the record is this one. -/
def Coded (cr : Crates) (r : PersonPendingRecord) (code : String) : Prop :=
  IsAscii code ∧ ∃ canonical, canonicalizeCode cr code = some canonical ∧
    r.context.psInteractionCode = some canonical

/-! ## The condition on a step -/

/-- The record a call is about. -/
def PersonCall.pendingId : PersonCall → Option String
  | .resumePending id _ | .resolveInteractionCallback id _ => some id
  | .exchangeToken _ _ | .pollPending _ | .beginInteraction _ => none

/-- No interaction at this URL. -/
def DeferRequirement.Elsewhere (url : String) (r : DeferRequirement) : Prop :=
  ∀ code, r ≠ .interaction url code

/-- What the policy and the Access Servers answer when the call is
served. -/
structure CodesKept (cr : Crates) (config : PersonServerConfig)
    (s : ServiceState PersonPendingContext) (m : Occasion personExt)
    (c : PersonCall) : Prop where
  /-- The policy sends the user here with the code of the record only. -/
  deferred : ∀ {ctx agentJwt code}, Decided m.env m.time s.records c ctx
    agentJwt (.defer (.interaction config.interactionUrl code)) →
      ∃ id r, c.pendingId = some id ∧ s.records.lookup id = some r ∧
        Coded cr r code
  /-- An Access Server never sends the user here, and never defers for a
  record whose code is still to be used. -/
  federated : ∀ {ctx agentJwt endpoint request requirement url},
    Decided m.env m.time s.records c ctx agentJwt .federate →
    m.env (.exchangeToken endpoint request)
      (.ok (.deferred requirement url)) →
    requirement.Elsewhere config.interactionUrl ∧
      ∀ id r, c.pendingId = some id → s.records.lookup id = some r →
        r.context.psInteractionCode = none ∨
          r.context.interactionCodeConsumed = true
  /-- Nor when the input of the agent is posted to it. -/
  answered : ∀ {id input r fed requirement url},
    c = .resumePending id input → s.records.lookup id = some r →
    r.context.federation = some fed →
    Answered config m.env fed input (.deferred requirement url) →
      requirement.Elsewhere config.interactionUrl
  /-- A code that is drawn is no other record's. -/
  fresh : ∀ {bytes canonical id r}, m.env .codeBytes bytes →
    canonicalizeCode cr (generateCode bytes) = some canonical →
    s.records.lookup id = some r →
      r.context.psInteractionCode ≠ some canonical

/-! ## What a step does to the codes -/

/-- The record shows the code. -/
def ShowsCode (config : PersonServerConfig) (r : PersonPendingRecord)
    (code : String) : Prop :=
  ∃ status, r.snapshot =
    .waiting status (.interaction config.interactionUrl code)

/-- What a write leaves of the code of a record. -/
structure CodeKept (cr : Crates) (config : PersonServerConfig)
    (r r' : PersonPendingRecord) : Prop where
  /-- It stays, unless it is of no use any more. -/
  code : r'.context.psInteractionCode = r.context.psInteractionCode ∨
    r'.context.psInteractionCode = none ∧
      (r.context.psInteractionCode = none ∨
        r.context.interactionCodeConsumed = true)
  /-- What is shown was shown before, or is the code. -/
  shown : ∀ code, ShowsCode config r' code →
    Coded cr r' code ∨ ShowsCode config r code ∧
      r'.context.psInteractionCode = r.context.psInteractionCode

theorem CodeKept.completed {r : PersonPendingRecord}
    {o : PendingOutcome} :
    CodeKept cr config r { r with snapshot := .complete o } where
  code := .inl rfl
  shown := fun _ h => nomatch h

/-- A ruling on a record leaves its code. -/
theorem RuledOn.codeKept {r r' : PersonPendingRecord}
    {interaction : Option ResourceInteractionClaim}
    {d : PersonTokenDecision} {reply : FlowReply E}
    (hg : CodesKept cr config s m c) (hid : c.pendingId = some id)
    (hl : s.records.lookup id = some r)
    (hd : Decided m.env m.time s.records c { r.context.toTokenContext with
      resourceClaims.interaction := interaction } r.context.agentToken d)
    (h : RuledOn cr config m.env id r { r.context.toTokenContext with
        resourceClaims.interaction := interaction } r.context.agentToken d
      reply (.write r')) : CodeKept cr config r r' := by
  obtain ⟨ruling, hr, -, hch⟩ := h
  cases ruling with
  | failure _ | unauthorized => cases hch
  | token _ =>
      cases hch
      exact .completed
  | denial _ =>
      cases hch
      exact .completed
  | deferral requirement fed =>
      cases hr with
      | deferred =>
          cases hch
          refine ⟨.inl rfl, fun code hs => .inl ?_⟩
          obtain ⟨status, hs⟩ := hs
          cases hs
          obtain ⟨id', r₀, hid', hl', hcoded⟩ := hg.deferred hd
          cases hid.symm.trans hid'
          cases hl.symm.trans hl'
          exact hcoded
      | federated _ ha =>
          cases hch
          obtain ⟨hreq, hcode⟩ := hg.federated hd ha
          refine ⟨.inr ⟨rfl, hcode id r hid hl⟩, fun code hs => ?_⟩
          obtain ⟨status, hs⟩ := hs
          cases hs
          exact absurd rfl (hreq code)

theorem Wrote.codeKept {r r' : PersonPendingRecord}
    {reply : (personService E cr config).Reply c}
    (hg : CodesKept cr config s m c)
    (hl : s.records.lookup id = some r) (hx : r.isExpired m.time = false)
    (h : Wrote cr config m.env id r c reply r') :
    CodeKept cr config r r' := by
  cases c with
  | exchangeToken _ _ | pollPending _ => exact h.elim
  | resumePending id' input =>
      obtain ⟨rfl, h⟩ := h
      cases h with
      | posted hf h =>
          cases h with
          | cancelled _ | accepted _ _ | denied _ => exact .completed
          | moved ha =>
              refine ⟨.inl rfl, fun code hs => ?_⟩
              obtain ⟨status, hs⟩ := hs
              cases hs
              exact absurd rfl (hg.answered rfl hl hf ha code)
      | decided hf hd h =>
          exact h.codeKept hg rfl hl (.resumed hl hx hf hd)
  | beginInteraction code =>
      obtain ⟨rfl, -⟩ := h
      refine ⟨.inl rfl, fun code hs => .inr ⟨?_, rfl⟩⟩
      obtain ⟨status, hs⟩ := hs
      cases hr : r.snapshot with
      | complete o => simp [PersonPendingRecord.consumed, hr] at hs
      | waiting status' requirement =>
          simp only [PersonPendingRecord.consumed, hr,
            PendingSnapshot.waiting.injEq] at hs
          exact ⟨status', by rw [hr, hs.2]⟩
  | resolveInteractionCallback id' err =>
      obtain ⟨rfl, h⟩ := h
      cases h with
      | error => exact .completed
      | decided hf hd h =>
          exact h.codeKept hg rfl hl (.calledBack hl hx hf hd)

/-- A record that an exchange opens shows no code but its own. -/
theorem Opens.shown {ctx : PersonTokenContext} {agentJwt : String}
    {pc : PersonPendingContext} {requirement : DeferRequirement} {ttl : Nat}
    (hg : CodesKept cr config s m (.exchangeToken ctx agentJwt))
    (h : Opens cr config m.env ctx agentJwt pc requirement) {code : String}
    (hs : ShowsCode config
      (.new m.time id pc (.ofRequirement requirement) ttl) code) :
    Coded cr (.new m.time id pc (.ofRequirement requirement) ttl) code := by
  obtain ⟨status, hs⟩ := hs
  cases h with
  | gated _ _ hc =>
      cases hs
      exact ⟨generateCode_ascii _, _, hc, rfl⟩
  | deferred hi hd hr =>
      cases hr with
      | deferred =>
          cases hs
          obtain ⟨_, _, hid, -⟩ := hg.deferred (.exchanged hi hd)
          cases hid
      | federated _ ha =>
          cases hs
          exact absurd rfl ((hg.federated (.exchanged hi hd) ha).1 code)

/-- A code that an opened record has is no other record's. -/
theorem Opens.fresh {ctx : PersonTokenContext} {agentJwt canonical : String}
    {pc : PersonPendingContext} {requirement : DeferRequirement}
    (hg : CodesKept cr config s m c)
    (h : Opens cr config m.env ctx agentJwt pc requirement)
    (hp : pc.psInteractionCode = some canonical) {id : String}
    {r : PersonPendingRecord} (hl : s.records.lookup id = some r) :
    r.context.psInteractionCode ≠ some canonical := by
  cases h with
  | gated _ hb hc =>
      cases hp
      exact hg.fresh hb hc hl
  | deferred _ _ _ => cases hp

/-- A call draws one identifier at most. -/
theorem PersonServes.issued_new
    {reply : (personService E cr config).Reply c}
    (h : PersonServes cr config m.env m.time s c reply s')
    {id₁ id₂ : String} (h₁ : id₁ ∈ s'.issued) (h₁' : id₁ ∉ s.issued)
    (h₂ : id₂ ∈ s'.issued) (h₂' : id₂ ∉ s.issued) : id₁ = id₂ := by
  have hnew : ∃ id, ∀ id' ∈ s'.issued, id' ∈ s.issued ∨ id' = id := by
    cases c with
    | exchangeToken ctx agentJwt =>
        cases h with
        | failed _ => exact ⟨id₁, fun _ h => .inl h⟩
        | gated _ _ _ _ => exact ⟨_, fun _ h => (List.mem_cons.mp h).symm⟩
        | decided _ _ _ hc =>
            cases hc with
            | failure | unauthorized | token | denial =>
                exact ⟨id₁, fun _ h => .inl h⟩
            | deferral _ => exact ⟨_, fun _ h => (List.mem_cons.mp h).symm⟩
    | pollPending _ | resumePending _ _ | resolveInteractionCallback _ _ =>
        obtain ⟨ch, -, rfl⟩ := h
        exact ⟨id₁, fun _ h => .inl h⟩
    | beginInteraction code =>
        obtain ⟨_, -, _, ch, -, rfl⟩ := h
        exact ⟨id₁, fun _ h => .inl h⟩
  obtain ⟨id, hid⟩ := hnew
  rw [(hid id₁ h₁).resolve_left h₁', (hid id₂ h₂).resolve_left h₂']

/-- A `Location` names its record. -/
theorem pendingLocation_inj {base path id id' : String}
    (h : pendingLocation base path id = pendingLocation base path id') :
    id = id' := by
  rw [pendingLocation, pendingLocation, String.append_right_inj] at h
  exact h

theorem deferredAt_inj {requirement requirement' : DeferRequirement}
    {id' : String}
    (h : PersonTokenFlowOutcome.deferredAt config id requirement =
      .deferredAt config id' requirement') :
    id = id' ∧ requirement = requirement' := by
  injection h with h
  injection h with hl hr
  exact ⟨pendingLocation_inj hl, hr⟩

theorem Settled.advertised {env : (o : PersonOp) → personExt.Ans o → Prop}
    {id' code : String} {mp mp' : PersonMap} {r : PersonPendingRecord}
    {reply : FlowReply E} (h : Settled cr config env id' mp r reply mp')
    (ha : reply = .ok (.deferredAt config id
      (.interaction config.interactionUrl code))) :
    ∃ r', mp'.lookup id = some r' ∧ ShowsCode config r' code := by
  cases h with
  | failed => cases ha
  | unauthorized | badGateway | granted _ | denied | dropped =>
      nomatch Except.ok.inj ha
  | deferred _ =>
      obtain ⟨rfl, rfl⟩ := deferredAt_inj (Except.ok.inj ha)
      exact ⟨_, AList.lookup_insert _, _, rfl⟩

theorem snapshot_of_polled {snapshot : PendingSnapshot} {w : DeferWaiting}
    (h : pollOutcomeFromSnapshot snapshot = .pending w) :
    snapshot = .waiting w.status w.requirement := by
  cases snapshot with
  | complete o => cases h
  | waiting status requirement =>
      cases h
      rfl

/-- What a reply advertises is what the record shows after the call. -/
theorem advertised_of_exec
    {reply : (personService E cr config).Reply c} {code : String}
    (hx : Exec (occasionWorld m) s ((personService E cr config).prog c)
      reply s') (ha : Advertises config id code c reply) :
    ∃ r, s'.records.lookup id = some r ∧ ShowsCode config r code := by
  have h := personStep_of_exec hx
  cases c with
  | exchangeToken ctx agentJwt =>
      have ha : reply = .ok (.deferredAt config id _) := ha
      cases h with
      | failed => cases ha
      | unauthorized | denied | granted _ _ => nomatch Except.ok.inj ha
      | created _ _ =>
          obtain ⟨rfl, rfl⟩ := deferredAt_inj (Except.ok.inj ha)
          exact ⟨_, AList.lookup_insert _, _, rfl⟩
  | pollPending id' =>
      obtain ⟨rfl, status, ha⟩ := ha
      obtain ⟨h, -⟩ := h
      generalize s'.records = mp at h ⊢
      cases h with
      | absent _ | expired _ _ => nomatch Except.ok.inj ha
      | live hl _ h =>
          obtain ⟨rfl, rfl⟩ := h
          exact ⟨_, hl, status, snapshot_of_polled (Except.ok.inj ha)⟩
  | resumePending id' input =>
      obtain ⟨h, -⟩ := h
      generalize s'.records = mp at h ⊢
      have ha : reply = .ok (.deferredAt config id _) := ha
      cases h with
      | absent _ | expired _ _ => nomatch Except.ok.inj ha
      | live _ _ h => exact h.advertised ha
  | beginInteraction code => exact ha.elim
  | resolveInteractionCallback id' err =>
      obtain ⟨h, -⟩ := h
      generalize s'.records = mp at h ⊢
      have ha : reply = .ok (.deferredAt config id _) := ha
      cases h with
      | absent _ | expired _ _ => nomatch Except.ok.inj ha
      | live _ _ h =>
          cases h with
          | error | federated _ => nomatch Except.ok.inj ha
          | settled _ h => exact h.advertised ha

/-! ## The invariant -/

theorem CodeKept.refl {r : PersonPendingRecord} :
    CodeKept cr config r r where
  code := .inl rfl
  shown := fun _ h => .inr ⟨h, rfl⟩

/-- A code that is there after a write was there before it. -/
theorem CodeKept.of_code {r r' : PersonPendingRecord} {canonical : String}
    (h : CodeKept cr config r r')
    (hc : r'.context.psInteractionCode = some canonical) :
    r.context.psInteractionCode = some canonical := by
  rcases h.code with h | ⟨h, -⟩
  · exact h.symm.trans hc
  · cases h.symm.trans hc

/-- A code that was there stays, unless it was consumed. -/
theorem CodeKept.coded {r r' : PersonPendingRecord} {code : String}
    (h : CodeKept cr config r r') (hc : Coded cr r code) :
    Coded cr r' code ∨ r.context.interactionCodeConsumed = true := by
  obtain ⟨ha, canonical, hcode, hr⟩ := hc
  rcases h.code with h | ⟨-, h | h⟩
  · exact .inl ⟨ha, canonical, hcode, h.trans hr⟩
  · cases h.symm.trans hr
  · exact .inr h

theorem RuledOn.consumed {env : (o : PersonOp) → personExt.Ans o → Prop}
    {r r' : PersonPendingRecord} {ctx : PersonTokenContext}
    {agentJwt : String} {d : PersonTokenDecision} {reply : FlowReply E}
    (h : RuledOn cr config env id r ctx agentJwt d reply (.write r'))
    (hc : r'.context.interactionCodeConsumed = true) :
    r.context.interactionCodeConsumed = true := by
  obtain ⟨ruling, -, -, hch⟩ := h
  cases ruling with
  | failure _ | unauthorized => cases hch
  | token _ | denial _ =>
      cases hch
      exact hc
  | deferral requirement fed =>
      cases fed with
      | none =>
          cases hch
          exact hc
      | some fed =>
          cases hch
          cases hc

/-- Only a visit consumes a code. -/
theorem Wrote.consumes {e : PersonTurn E cr config}
    {r r' : PersonPendingRecord}
    (hl : e.pre.records.lookup id = some r)
    (hp : e.post.records.lookup id = some r')
    (h : Wrote cr config e.moment.env id r e.call e.reply r')
    (hc : r'.context.interactionCodeConsumed = true) :
    r.context.interactionCodeConsumed = true ∨ UsesCode id e := by
  obtain ⟨s, m, c, reply, s'⟩ := e
  cases c with
  | exchangeToken _ _ | pollPending _ => exact h.elim
  | resumePending id' input =>
      obtain ⟨-, h⟩ := h
      cases h with
      | posted _ h =>
          cases h with
          | cancelled _ | accepted _ _ | denied _ | moved _ => exact .inl hc
      | decided _ _ h =>
          have hr := h.consumed hc
          exact .inl hr
  | beginInteraction code =>
      obtain ⟨rfl, canonical, -, hm⟩ := h
      exact .inr ⟨⟨code, rfl⟩, r, hl, (matchesCode_iff.mp hm).2, hp⟩
  | resolveInteractionCallback id' err =>
      obtain ⟨-, h⟩ := h
      cases h with
      | error => exact .inl hc
      | decided _ _ h =>
          have hr := h.consumed hc
          exact .inl hr

/-- A record after a step is one from before it, whose code the step
kept, or one the step opened. -/
inductive Traced (e : PersonTurn E cr config) (id : String) :
    PersonPendingRecord → Prop where
  | old {r r' : PersonPendingRecord} :
      e.pre.records.lookup id = some r → CodeKept cr config r r' →
      (r'.context.interactionCodeConsumed = true →
        r.context.interactionCodeConsumed = true ∨ UsesCode id e) →
      Traced e id r'
  | new {r' : PersonPendingRecord} :
      id ∉ e.pre.issued → id ∈ e.post.issued →
      r'.context.interactionCodeConsumed = false →
      (∀ code, ShowsCode config r' code → Coded cr r' code) →
      (∀ canonical id' r, r'.context.psInteractionCode = some canonical →
        e.pre.records.lookup id' = some r →
        r.context.psInteractionCode ≠ some canonical) →
      Traced e id r'

theorem Found.traced {e : PersonTurn E cr config}
    {r : PersonPendingRecord}
    (hg : CodesKept cr config e.pre e.moment e.call)
    (hp : e.post.records.lookup id = some r) (h : Found e id r) :
    Traced e id r := by
  cases h with
  | kept hl => exact .old hl .refl .inl
  | wrote hl hx hw => exact .old hl (hw.codeKept hg hl hx) (hw.consumes hl hp)
  | opened hcall hnew hid ho =>
      refine .new hnew hid ?_ (fun code hs => ?_) fun _ _ _ hc hl => ?_
      · cases ho with
        | gated _ _ _ | deferred _ _ _ => rfl
      · rw [hcall] at hg
        exact ho.shown hg hs
      · exact ho.fresh hg hc hl

/-- What holds of the codes of a run whose steps keep them. -/
structure CodesWork (hist : List (PersonTurn E cr config))
    (s : ServiceState PersonPendingContext) : Prop where
  drawn : ∀ {id r}, s.records.lookup id = some r → id ∈ s.issued
  unique : ∀ {id id' r r' canonical}, s.records.lookup id = some r →
    s.records.lookup id' = some r' →
    r.context.psInteractionCode = some canonical →
    r'.context.psInteractionCode = some canonical → id = id'
  flagged : ∀ {id r}, s.records.lookup id = some r →
    r.context.interactionCodeConsumed = true → CodeUsed hist id
  shown : ∀ {id r}, s.records.lookup id = some r → ¬ CodeUsed hist id →
    ∀ code, ShowsCode config r code → Coded cr r code
  advertised : ∀ {id code} {e : PersonTurn E cr config}, e ∈ hist →
    Advertises config id code e.call e.reply → id ∈ s.issued ∧
      ∀ r, s.records.lookup id = some r → ¬ CodeUsed hist id →
        Coded cr r code

section Step

variable {e : PersonTurn E cr config} (ih : CodesWork hist e.pre)
  (ht : ∀ {id r}, e.post.records.lookup id = some r → Traced e id r)
include ih ht

theorem CodesWork.unique_step
    (hnew : ∀ {id₁ id₂}, id₁ ∈ e.post.issued → id₁ ∉ e.pre.issued →
      id₂ ∈ e.post.issued → id₂ ∉ e.pre.issued → id₁ = id₂)
    {id' canonical : String} {r r' : PersonPendingRecord}
    (hl : e.post.records.lookup id = some r)
    (hl' : e.post.records.lookup id' = some r')
    (hc : r.context.psInteractionCode = some canonical)
    (hc' : r'.context.psInteractionCode = some canonical) : id = id' := by
  cases ht hl with
  | old ho hk _ =>
      cases ht hl' with
      | old ho' hk' _ =>
          exact ih.unique ho ho' (hk.of_code hc) (hk'.of_code hc')
      | new _ _ _ _ hf => exact absurd (hk.of_code hc) (hf _ _ _ hc' ho)
  | new hn hid _ _ hf =>
      cases ht hl' with
      | old ho' hk' _ => exact absurd (hk'.of_code hc') (hf _ _ _ hc ho')
      | new hn' hid' _ _ _ => exact hnew hid hn hid' hn'

theorem CodesWork.flagged_step {r : PersonPendingRecord}
    (hl : e.post.records.lookup id = some r)
    (hc : r.context.interactionCodeConsumed = true) :
    CodeUsed (e :: hist) id := by
  cases ht hl with
  | old ho _ hu =>
      rcases hu hc with hu | hu
      · exact (ih.flagged ho hu).cons e
      · exact ⟨e, List.mem_cons_self, hu⟩
  | new _ _ hu _ _ => cases hu.symm.trans hc

theorem CodesWork.shown_step {r : PersonPendingRecord} {code : String}
    (hl : e.post.records.lookup id = some r)
    (hu : ¬ CodeUsed (e :: hist) id) (hs : ShowsCode config r code) :
    Coded cr r code := by
  cases ht hl with
  | old ho hk _ =>
      rcases hk.shown code hs with h | ⟨hs, hc⟩
      · exact h
      · obtain ⟨ha, canonical, hcode, h⟩ :=
          ih.shown ho (fun h => hu (h.cons e)) code hs
        exact ⟨ha, canonical, hcode, hc.trans h⟩
  | new _ _ _ hs' _ => exact hs' code hs

/-- What was advertised before the step still works after it. -/
theorem CodesWork.advertised_step {d : PersonTurn E cr config}
    {code : String} (hd : d ∈ hist)
    (ha : Advertises config id code d.call d.reply)
    {r : PersonPendingRecord} (hl : e.post.records.lookup id = some r)
    (hu : ¬ CodeUsed (e :: hist) id) : Coded cr r code := by
  obtain ⟨hid, hcoded⟩ := ih.advertised hd ha
  cases ht hl with
  | old ho hk _ =>
      have hu' : ¬ CodeUsed hist id := fun h => hu (h.cons e)
      rcases hk.coded (hcoded _ ho hu') with h | h
      · exact h
      · exact absurd (ih.flagged ho h) hu'
  | new hn _ _ _ _ => exact absurd hid hn

end Step

theorem CodesWork.step {e : PersonTurn E cr config}
    (ih : CodesWork hist e.pre)
    (hg : CodesKept cr config e.pre e.moment e.call)
    (hx : Exec (occasionWorld e.moment) e.pre
      ((personService E cr config).prog e.call) e.reply e.post) :
    CodesWork (e :: hist) e.post := by
  have hs := personServes_of_exec hx
  have ht : ∀ {id r}, e.post.records.lookup id = some r → Traced e id r :=
    fun hl => (hs.found hl).traced hg hl
  have hdrawn : ∀ {id r}, e.post.records.lookup id = some r →
      id ∈ e.post.issued := by
    intro id r hl
    cases ht hl with
    | old ho _ _ => exact hs.issued (ih.drawn ho)
    | new _ hid _ _ _ => exact hid
  refine ⟨hdrawn, ih.unique_step ht hs.issued_new, ih.flagged_step ht,
    fun hl hu code => ih.shown_step ht hl hu, ?_⟩
  intro id code d hd ha
  rcases List.mem_cons.mp hd with rfl | hd
  · obtain ⟨r, hl, hshow⟩ := advertised_of_exec hx ha
    refine ⟨hdrawn hl, fun r' hl' hu => ?_⟩
    cases hl.symm.trans hl'
    exact ih.shown_step ht hl hu hshow
  · exact ⟨hs.issued (ih.advertised hd ha).1,
      fun r hl hu => ih.advertised_step ht hd ha hl hu⟩

theorem codesWork_of_run
    (run : PersonHistory (fun _ s m c => CodesKept cr config s m c)
      hist s) : CodesWork hist s := by
  refine run.induction (I := fun hist s => CodesWork hist s)
    ⟨?_, ?_, ?_, ?_, nofun⟩ fun ih hg hx => ih.step hg hx
  all_goals
    intro id
    intros
    simp_all [AList.lookup_empty]

/-! ## Visits -/

/-- A visit with a spelling of the code of a record finds it. -/
theorem CodesWork.finds (hc : CaseLaws cr) (h : CodesWork hist s)
    {r : PersonPendingRecord} {typed code : String}
    (hl : s.records.lookup id = some r) (hu : ¬ CodeUsed hist id)
    (hcoded : Coded cr r code) (ht : Spells typed code) :
    Finds E cr config s typed id r := by
  obtain ⟨hascii, canonical, hcode, hr⟩ := hcoded
  have htyped : canonicalizeCode cr typed = some canonical :=
    (ht.canonical hc hascii).trans hcode
  have hm : matchesCode canonical r = true := by
    refine matchesCode_iff.mpr ⟨hr, ?_⟩
    cases hf : r.context.interactionCodeConsumed with
    | false => rfl
    | true => exact absurd (h.flagged hl hf) hu
  -- no other record has the code
  have hthis : ∀ {id' r'}, s.records.lookup id' = some r' →
      matchesCode canonical r' = true → id' = id ∧ r' = r := by
    intro id' r' hl' hm'
    have hid := h.unique hl' hl (matchesCode_iff.mp hm').1 hr
    subst hid
    exact ⟨rfl, Option.some.inj (hl'.symm.trans hl)⟩
  refine ⟨⟨canonical, htyped⟩, fun m reply s' hx => ?_⟩
  obtain ⟨c, hc', id', ch, hv, rfl⟩ := personServes_of_exec
    (c := .beginInteraction typed) hx
  cases htyped.symm.trans hc'
  cases hv with
  | unknown hn => cases hm.symm.trans (hn id r hl)
  | expired hl' hm' hexp =>
      obtain ⟨rfl, rfl⟩ := hthis hl' hm'
      exact ⟨fun _ => rfl, fun hx => nomatch hx.symm.trans hexp⟩
  | begun hl' hm' hexp =>
      obtain ⟨rfl, rfl⟩ := hthis hl' hm'
      exact ⟨fun hx => (nomatch hexp.symm.trans hx),
        fun _ => ⟨rfl, AList.lookup_insert _⟩⟩

/-- In a run whose steps keep the codes, an advertised code finds its
record, however it is spelled, as long as the record is there and the
code has not been used. -/
theorem advertised_code_finds (hc : CaseLaws cr)
    (run : PersonHistory (fun _ s m c => CodesKept cr config s m c) hist s)
    {e : PersonTurn E cr config} {code typed : String}
    {r : PersonPendingRecord} (he : e ∈ hist)
    (ha : Advertises config id code e.call e.reply)
    (hl : s.records.lookup id = some r) (hu : ¬ CodeUsed hist id)
    (ht : Spells typed code) : Finds E cr config s typed id r := by
  have h := codesWork_of_run run
  obtain ⟨-, hcoded⟩ := h.advertised he ha
  exact h.finds hc hl hu (hcoded r hl hu) ht

/-- A visit with a code that no record has. -/
theorem beginInteraction_unknown
    {env : (o : PersonOp) → personExt.Ans o → Prop} {t : Nat}
    {code canonical : String} (hc : canonicalizeCode cr code = some canonical)
    (hn : ∀ id r, s.records.lookup id = some r →
      matchesCode canonical r = false) :
    Exec (momentWorld env t) s
      (beginInteraction (E := E) cr config code).run (.ok .invalidCode) s := by
  rw [beginInteraction, hc]
  let W : World (personSig E) (ServiceState PersonPendingContext) :=
    momentWorld env t
  have hf : W s (.store (.findIf (matchesCode canonical))) (.ok none) s :=
    ⟨⟨rfl, _, rfl, hn⟩, rfl⟩
  exact .call hf .ret

end Codes

/-! ## At the sample parties -/

namespace Sample

theorem caseLaws : CaseLaws crates where
  upper _ := rfl

/-- The code of the gate, as a user may type it. -/
def typedCode : String := "o00o-O-000"

theorem typedCode_spells : Spells typedCode gateCode where
  ascii := by
    have h : ∀ c ∈ typedCode.toList, c.toNat < 128 := by decide
    exact h
  keys := by decide +kernel

/-- The agent exchanges a resource token that asks for an interaction. -/
def codeRun : List (PersonTurn Empty crates personConfig) :=
  [⟨⟨∅, []⟩, ⟨now, gatedEnv⟩, .exchangeToken (botContext gatedClaims) botJwt,
    .ok (.deferredAt personConfig firstId
      (.interaction personConfig.interactionUrl gateCode)), gated⟩]

theorem codeRun_history : PersonHistory
    (fun _ s m c => CodesKept crates personConfig s m c) codeRun gated := by
  refine .serve .nil ⟨?_, ?_, ?_, ?_⟩ gated_exchange
  · intro ctx agentJwt code hd
    cases hd with
    | exchanged hi _ => cases hi
  · intro ctx agentJwt endpoint request requirement url hd _
    cases hd with
    | exchanged hi _ => cases hi
  · intro id input r fed requirement url hcall
    cases hcall
  · intro bytes canonical id r _ _ hl
    rw [AList.lookup_empty] at hl
    cases hl

theorem codeRun_unused : ¬ CodeUsed codeRun firstId := by
  rintro ⟨e, he, ⟨code, hcall⟩, -⟩
  rcases List.mem_singleton.mp he with rfl
  cases hcall

/-- The user types the code of the gate their own way. -/
theorem advertised_code_finds_gate :
    Finds Empty crates personConfig gated typedCode firstId gatedRecord :=
  advertised_code_finds caseLaws codeRun_history List.mem_cons_self rfl
    lookup_gated codeRun_unused typedCode_spells

/-- The shipped policy that sends the user to the Person Server. -/
def sendingPolicy : PersonTokenPolicy :=
  .deferInteraction grantAll personConfig.interactionUrl

abbrev sendingEnv (o : PersonOp) (a : personExt.Ans o) : Prop :=
  shippedEnv sendingPolicy (.complete (accessBody none)) o a

/-- The record that a deferral of the policy opens: it shows the code, and
has none to be found by. -/
def sentRecord : PersonPendingRecord :=
  .new now firstId plainContext (.ofRequirement
    (.interaction personConfig.interactionUrl gateCode))
    personConfig.pendingTtlSecs

def sent : ServiceState PersonPendingContext :=
  waitingFor plainContext (.interaction personConfig.interactionUrl gateCode)

def sentTurn : PersonTurn Empty crates personConfig :=
  ⟨⟨∅, []⟩, ⟨now, sendingEnv⟩, .exchangeToken (botContext plainClaims) botJwt,
    .ok (.deferredAt personConfig firstId
      (.interaction personConfig.interactionUrl gateCode)), sent⟩

theorem sentTurn_exec : Exec (momentWorld sendingEnv now) ⟨∅, []⟩
    (exchangeToken (E := Empty) crates personConfig (botContext plainClaims)
      botJwt).run
    (.ok (.deferredAt personConfig firstId
      (.interaction personConfig.interactionUrl gateCode))) sent :=
  shipped_exec (by rfl)

theorem lookup_sent : sent.records.lookup firstId = some sentRecord :=
  AList.lookup_insert _

/-- A visit with the code finds nothing. -/
theorem sent_visit : Exec (momentWorld sendingEnv now) sent
    (beginInteraction (E := Empty) crates personConfig gateCode).run
    (.ok .invalidCode) sent := by
  refine beginInteraction_unknown canonicalize_gateCode fun id r hl => ?_
  by_cases hid : id = firstId
  · rw [hid, lookup_sent] at hl
    cases hl
    rfl
  · rw [sent, waitingFor, AList.lookup_insert_ne hid, AList.lookup_empty] at hl
    cases hl

/-- The policy that the Person Server of the tests is run with defers an
exchange with a code, and the code is not found. -/
theorem policy_code_not_found :
    ∃ (hist : List (PersonTurn Empty crates personConfig)) (s : _),
      PersonHistory (fun _ _ _ _ => True) hist s ∧
      (∀ e ∈ hist, sendingPolicy.Governs crates e.moment.env) ∧
      ∃ e ∈ hist, ∃ id code r,
        Advertises personConfig id code e.call e.reply ∧
        s.records.lookup id = some r ∧ r.isExpired now = false ∧
        (∃ status requirement, r.snapshot = .waiting status requirement) ∧
        ¬ CodeUsed hist id ∧ Spells code code ∧
        ¬ Finds Empty crates personConfig s code id r := by
  refine ⟨[sentTurn], sent, .serve .nil trivial sentTurn_exec, ?_, sentTurn,
    List.mem_cons_self, firstId, gateCode, sentRecord, rfl, lookup_sent,
    rfl, ⟨_, _, rfl⟩, ?_, ⟨generateCode_ascii _, rfl⟩, ?_⟩
  · intro e he
    rcases List.mem_singleton.mp he with rfl
    exact shippedEnv_governs _ _
  · rintro ⟨e, he, ⟨code, hcall⟩, -⟩
    rcases List.mem_singleton.mp he with rfl
    cases hcall
  · intro hf
    obtain ⟨-, hl⟩ := (hf.2 ⟨now, sendingEnv⟩ _ _ sent_visit).2 rfl
    have hr := Option.some.inj (lookup_sent.symm.trans hl)
    have hc := congrArg (·.context.interactionCodeConsumed) hr
    cases hc

end Sample

end Aauth
