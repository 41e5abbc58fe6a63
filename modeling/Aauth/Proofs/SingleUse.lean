import Aauth.Proofs.InteractionGate
import Aauth.Proofs.PersonPaths

/-!
# Codes that are used once

`begin_interaction` looks for a record whose code was not used, and marks it
in a second call of the store. Between the two another visitor may find the
same record, and any other operation may write back a copy it loaded before
the code was used. So a code lets in as many visitors as the schedule likes.

What keeps it single-use is that whoever marks a code, or writes a record
whose code is open, writes over one whose code is open (`OverOpen`). Then
the code of a record lets in one visitor, in any run of any calls
(`codes_single_use`); the invariant is `UsedOnce`. That no record comes into
being under the identifier of a used one is a fact about how identifiers are
drawn, which the invariant keeps beside it.
-/

namespace Aauth

open Effect

section Calls

variable {E ι : Type} {cr : Crates} {config : PersonServerConfig}

/-! ## Calls side by side -/

/-- What a call of the Person Server returns. -/
abbrev PersonAnswer (E : Type) (cr : Crates) (config : PersonServerConfig) :=
  Σ c : PersonCall, (personService E cr config).Reply c

def PersonCall.thread (E : Type) (cr : Crates) (config : PersonServerConfig)
    (c : PersonCall) : Prog (personSig E) (PersonAnswer E cr config) :=
  (personService E cr config).prog c >>= fun reply => .ret ⟨c, reply⟩

abbrev PersonPool (E ι : Type) (cr : Crates) (config : PersonServerConfig) :=
  Pool (personSig E) (ServiceState PersonPendingContext) ι
    (PersonAnswer E cr config)

/-- The calls, made side by side from the state `s`. -/
def personPool (E : Type) (cr : Crates) (config : PersonServerConfig)
    (calls : ι → PersonCall) (s : ServiceState PersonPendingContext) :
    PersonPool E ι cr config where
  state := s
  thread i := (calls i).thread E cr config

def PersonCall.begins : PersonCall → Bool
  | .beginInteraction _ => true
  | _ => false

/-! ## Open codes -/

/-- The code of the record can still be used. -/
def IsOpen (r : PersonPendingRecord) : Prop :=
  r.context.psInteractionCode ≠ none ∧
    r.context.interactionCodeConsumed = false

theorem isOpen_of_matchesCode {canonical : String} {r : PersonPendingRecord}
    (h : matchesCode canonical r = true) : IsOpen r := by
  obtain ⟨hcode, hconsumed⟩ := matchesCode_iff.mp h
  refine ⟨?_, hconsumed⟩
  rw [hcode]
  exact Option.some_ne_none _

/-! ## One call -/

/-- The last thing the call did was to draw the identifier. -/
def Drew (id : String) (l : List (PersonEvent E)) : Prop :=
  ∃ bytes l', l = ⟨.pendingIdBytes, bytes⟩ :: l' ∧
    id = generatePendingId bytes

/-- The call drew the identifier and is about to open a record under it. -/
def Holds (id : String) (l : List (PersonEvent E)) : Prop :=
  Drew id l ∨ ∃ t l', l = ⟨.now, t⟩ :: l' ∧ Drew id l'

/-- A record is opened under an identifier that was just drawn; what is looked
for has an open code, and a visit writes only records whose code is used. -/
def CallOp (c : PersonCall) (l : List (PersonEvent E)) :
    (personSig E).Op → Prop
  | .store (.create r) => Holds r.id l
  | .store (.findIf p) => ∀ r, p r = true → IsOpen r
  | .store (.save _ r) =>
      c.begins = true → r.context.interactionCodeConsumed = true
  | _ => True

/-- The store failed. -/
def StoreFailed : PersonEvent E → Prop
  | ⟨.store (.findIf _), a⟩ => ∃ e, a = .error e
  | ⟨.store (.save _ _), a⟩ => ∃ e, a = .error e
  | _ => False

/-- How a visit ends, and what it did. -/
inductive VisitEnds :
    Except (PersonTokenServiceError E) PersonInteractionOutcome →
      List (PersonEvent E) → Prop where
  | failed {reply} {e : PersonEvent E} {l : List (PersonEvent E)} :
      StoreFailed e → VisitEnds reply (e :: l)
  | unknown {p : PersonPendingRecord → Bool} :
      VisitEnds (.ok .invalidCode) [⟨.store (.findIf p), .ok none⟩]
  | expired {p : PersonPendingRecord → Bool} {id : String}
      {r : PersonPendingRecord} {now : Nat} {answer : Except E Unit} :
      VisitEnds (.ok .expired)
        [⟨.store (.remove id), answer⟩, ⟨.now, now⟩,
          ⟨.store (.findIf p), .ok (some (id, r))⟩]
  | letIn {reply} {p : PersonPendingRecord → Bool} {id : String}
      {r : PersonPendingRecord} {now : Nat} :
      VisitEnds reply
        [⟨.store (.save id r.consumed), .ok ()⟩, ⟨.now, now⟩,
          ⟨.store (.findIf p), .ok (some (id, r))⟩]

/-- How a call ends. -/
def CallEnded (c : PersonCall) :
    PersonAnswer E cr config → List (PersonEvent E) → Prop
  | ⟨.beginInteraction code, reply⟩, l =>
      c = .beginInteraction code ∧ VisitEnds reply l
  | ⟨c', _⟩, _ => c = c'

section Paths

variable {l : List (PersonEvent E)} {c : PersonCall}

theorem createRecord_path {context : PersonPendingContext}
    {requirement : DeferRequirement} :
    wp recorder (CallOp c)
      (createRecord (E := E) config context requirement).run
      (fun _ _ => True) l := by
  refine wp_bind_except.mpr (wp_liftProg.mpr (wp_recorder_perform.mpr
    ⟨trivial, fun bytes => ?_⟩))
  refine wp_bind_except.mpr (wp_liftProg.mpr (wp_recorder_perform.mpr
    ⟨trivial, fun now => ?_⟩))
  refine wp_bind_except.mpr (wp_mapErr.mpr (wp_recorder_perform.mpr
    ⟨.inr ⟨now, _, rfl, bytes, l, rfl, rfl⟩, fun answer => ?_⟩))
  cases answer with
  | error e => trivial
  | ok _ => trivial

/-- Whatever settles a request opens none. -/
theorem callOp_of_settleOp {id : String} {o : (personSig E).Op}
    (hc : c.begins = false) (h : SettleOp id l o) : CallOp c l o := by
  cases o with
  | store o =>
      cases o with
      | create _ => exact h.elim
      | save _ _ => exact fun hb => absurd (hc.symm.trans hb) nofun
      | findIf _ => exact h.elim
      | load _ | complete _ _ | remove _ => trivial
  | now | pendingIdBytes | ext _ => trivial

theorem applyPersonDecision_path {ctx : PersonTokenContext}
    {d : PersonTokenDecision} {agentJwt : String} (hc : c.begins = false)
    (hl : Quiet l) :
    wp recorder (CallOp c)
      (applyPersonDecision (E := E) cr config ctx d agentJwt).run
      (fun _ _ => True) l := by
  cases d with
  | grant grant =>
      have hmint := @mintGrant_path E config "" l ctx grant hl
      refine wp_bind_except.mpr (wp_weaken
        (fun _ _ h => callOp_of_settleOp hc h) (fun answer _ _ => ?_) hmint)
      cases answer with
      | error e => trivial
      | ok body => trivial
  | federate =>
      have hfederated := @federateToAccessServer_path E cr config "" agentJwt l
        ctx.exchangeRequest.resourceToken hl
      refine wp_bind_except.mpr (wp_liftProg.mpr (wp_weaken
        (fun _ _ h => callOp_of_settleOp hc h) (fun answer _ _ => ?_)
        hfederated))
      cases answer with
      | error e => trivial
      | ok outcome =>
          cases outcome with
          | complete body => trivial
          | deferred requirement asPendingUrl url => exact createRecord_path
  | deny e => trivial
  | defer requirement => exact createRecord_path

theorem exchangeToken_path {ctx : PersonTokenContext} {agentJwt : String}
    (hc : c.begins = false) :
    wp recorder (CallOp c)
      (exchangeToken (E := E) cr config ctx agentJwt).run
      (fun _ _ => True) [] := by
  rw [exchangeToken]
  split
  · refine wp_liftExcept_bind.mpr ⟨fun _ _ => trivial, fun ix _ => ?_⟩
    refine wp_bind_except.mpr (wp_liftProg.mpr (wp_recorder_personOp.mpr
      ⟨trivial, fun bytes => ?_⟩))
    dsimp only
    split
    · exact wp_bind_except.mpr (wp_liftProg.mpr (wp_recorder_personOp.mpr
        ⟨trivial, fun a => a.elim⟩))
    · exact createRecord_path
  · refine wp_bind_except.mpr (wp_mapErr.mpr (wp_recorder_personOp.mpr
      ⟨trivial, fun answer => ?_⟩))
    cases answer with
    | error e => trivial
    | ok d => exact applyPersonDecision_path hc fun h => h

theorem beginInteraction_path {code : String} :
    wp recorder (CallOp c)
      (beginInteraction (E := E) cr config code).run VisitEnds [] := by
  rw [beginInteraction]
  split
  · exact wp_bind_except.mpr (wp_liftProg.mpr (wp_recorder_personOp.mpr
      ⟨trivial, fun a => a.elim⟩))
  · refine wp_bind_except.mpr (wp_mapErr.mpr (wp_recorder_perform.mpr
      ⟨fun r h => isOpen_of_matchesCode h, fun answer => ?_⟩))
    rcases answer with e | _ | ⟨id, r⟩
    · exact .failed ⟨e, rfl⟩
    · exact .unknown
    · refine wp_bind_except.mpr (wp_liftProg.mpr (wp_recorder_perform.mpr
        ⟨trivial, fun now => ?_⟩))
      dsimp only
      split
      · exact wp_bind_except.mpr (wp_liftProg.mpr (wp_recorder_perform.mpr
          ⟨trivial, fun _ => .expired⟩))
      · refine wp_bind_except.mpr (wp_mapErr.mpr (wp_recorder_perform.mpr
          ⟨fun _ => rfl, fun answer => ?_⟩))
        cases answer with
        | error e => exact .failed ⟨e, rfl⟩
        | ok _ => exact .letIn

theorem pollPending_path {id : String} :
    wp recorder (CallOp c) (pollPending (E := E) id).run (fun _ _ => True)
      [] := by
  rw [pollPending, pollAuthPending, wp_mapErr]
  refine wp_bind_except.mpr (wp_mapErr.mpr (wp_recorder_perform.mpr
    ⟨trivial, fun answer => ?_⟩))
  rcases answer with e | _ | r
  · trivial
  · trivial
  · refine wp_bind_except.mpr (wp_liftProg.mpr (wp_recorder_perform.mpr
      ⟨trivial, fun now => ?_⟩))
    dsimp only
    split
    · exact wp_bind_except.mpr (wp_liftProg.mpr (wp_recorder_perform.mpr
        ⟨trivial, fun _ => trivial⟩))
    · trivial

/-- What every call does, whatever the others do. -/
theorem PersonCall.path (c : PersonCall) :
    wp recorder (CallOp c) (c.thread E cr config) (CallEnded c) [] := by
  refine wp_bind.mpr ?_
  cases c with
  | exchangeToken ctx agentJwt =>
      exact wp_mono (fun _ _ _ => rfl) (exchangeToken_path rfl)
  | pollPending id =>
      exact wp_mono (fun _ _ _ => rfl) pollPending_path
  | resumePending id input =>
      exact wp_weaken (fun _ _ h => callOp_of_settleOp rfl h)
        (fun _ _ _ => rfl) (resumePending_path fun h => h)
  | beginInteraction code =>
      exact wp_mono (fun _ _ h => ⟨rfl, h⟩) beginInteraction_path
  | resolveInteractionCallback id err =>
      exact wp_weaken (fun _ _ h => callOp_of_settleOp rfl h)
        (fun _ _ _ => rfl) (resolveInteractionCallback_path fun h => h)

end Paths

/-! ## The condition on a step -/

def OpenAt (s : ServiceState PersonPendingContext) (id : String) : Prop :=
  ∃ r, s.records.lookup id = some r ∧ IsOpen r

/-- Call `i` may write a used code, or a record whose code is open, only over
a record whose code is open. -/
def OverOpen (calls : ι → PersonCall) (P : PersonPool E ι cr config) (i : ι)
    (o : (personSig E).Op) : Prop :=
  ∀ id r, o = .store (.save id r) → (calls i).begins = true ∨ IsOpen r →
    OpenAt P.state id

/-- Visitor `i` was let in with the code of the record. -/
def LetIn (calls : ι → PersonCall) (t : List (ι × PersonEvent E)) (i : ι)
    (id : String) : Prop :=
  (calls i).begins = true ∧
    ∃ r answer, (i, ⟨.store (.save id r), answer⟩) ∈ t

section Steps

variable {env : (o : PersonOp) → personExt.Ans o → Prop}
  {clock : Nat → Prop} {s s' : ServiceState PersonPendingContext}
  {e : PersonEvent E} {l : List (PersonEvent E)} {id : String}

/-- Where a record comes from whose code is open after an effect. -/
theorem openAt_of_step (hw : serviceWorld env clock s e.op e.ans s')
    (h : OpenAt s' id) :
    OpenAt s id ∨ (∃ r, e.op = .store (.save id r) ∧ IsOpen r) ∨
      ∃ r, e.op = .store (.create r) ∧ r.id = id := by
  obtain ⟨r, hl, hr⟩ := h
  obtain ⟨o, answer⟩ := e
  have kept : s'.records = s.records → OpenAt s id := by
    intro hs
    rw [hs] at hl
    exact ⟨r, hl, hr⟩
  -- a record that was written is found only under its own identifier
  have written {id' : String} {r' : PersonPendingRecord}
      (hs : s'.records = s.records.insert id' r') :
      OpenAt s id ∨ id' = id ∧ r' = r := by
    rw [hs] at hl
    by_cases hid : id = id'
    · rw [hid, AList.lookup_insert] at hl
      exact .inr ⟨hid.symm, Option.some.inj hl⟩
    · rw [AList.lookup_insert_ne hid] at hl
      exact .inl ⟨r, hl, hr⟩
  cases o with
  | now | ext _ =>
      obtain ⟨-, hs⟩ := hw
      exact .inl (kept (congrArg ServiceState.records hs))
  | pendingIdBytes => exact .inl (kept hw.2.1)
  | store o =>
      obtain ⟨hw, -⟩ := hw
      cases o with
      | load id' => exact .inl (kept hw.2)
      | findIf p => exact .inl (kept hw.1)
      | create r' =>
          rcases written hw.2 with h | ⟨hid, -⟩
          · exact .inl h
          · exact .inr (.inr ⟨r', rfl, hid⟩)
      | save id' r' =>
          rcases written hw.2 with h | ⟨rfl, rfl⟩
          · exact .inl h
          · exact .inr (.inl ⟨r', rfl, hr⟩)
      | remove id' =>
          have hs : s'.records = s.records.erase id' := hw.2
          rw [hs] at hl
          by_cases hid : id = id'
          · rw [hid, AList.lookup_erase] at hl
            cases hl
          · rw [AList.lookup_erase_ne hid] at hl
            exact .inl ⟨r, hl, hr⟩
      | complete id' outcome =>
          have hs : s'.records = completed s.records id' outcome := hw.2
          cases hid : s.records.lookup id' with
          | none =>
              rw [completed, hid] at hs
              exact .inl (kept hs)
          | some r' =>
              rw [completed_of_lookup hid] at hs
              rcases written hs with h | ⟨rfl, rfl⟩
              · exact .inl h
              · exact .inl ⟨r', hid, hr⟩

theorem saved_of_step (hw : serviceWorld env clock s e.op e.ans s')
    {r : PersonPendingRecord} (he : e.op = .store (.save id r)) :
    s'.records.lookup id = some r := by
  obtain ⟨o, answer⟩ := e
  cases he
  obtain ⟨⟨-, hs⟩, -⟩ := hw
  rw [hs, AList.lookup_insert]

theorem issued_of_step (hw : serviceWorld env clock s e.op e.ans s')
    (h : id ∈ s.issued) : id ∈ s'.issued := by
  obtain ⟨o, answer⟩ := e
  cases o with
  | now | ext _ =>
      obtain ⟨-, rfl⟩ := hw
      exact h
  | pendingIdBytes =>
      rw [hw.2.2]
      exact List.mem_cons_of_mem _ h
  | store o =>
      rw [hw.2]
      exact h

/-- A call that holds an identifier after an effect held it before, or drew
it. -/
theorem holds_of_step (hw : serviceWorld env clock s e.op e.ans s')
    (h : Holds id (e :: l)) :
    Holds id l ∨ id ∉ s.issued ∧ id ∈ s'.issued := by
  rcases h with ⟨bytes, l', heq, rfl⟩ | ⟨now, l', heq, hd⟩
  · cases heq
    obtain ⟨hnew, -, hissued⟩ := hw
    refine .inr ⟨hnew, ?_⟩
    rw [hissued]
    exact List.mem_cons_self
  · cases heq
    exact .inl (.inl hd)

/-- Nothing is held right after a record was opened. -/
theorem not_holds_create {r : PersonPendingRecord} (he : e.op =
    .store (.create r)) : ¬ Holds id (e :: l) := by
  intro h
  rcases h with ⟨bytes, l', heq, -⟩ | ⟨now, l', heq, -⟩
  · cases heq
    cases he
  · cases heq
    cases he

end Steps

/-! ## The invariant -/

/-- A record was opened under the identifier, and none will be again. -/
def Past [DecidableEq ι] (t : List (ι × PersonEvent E))
    (P : PersonPool E ι cr config) (id : String) : Prop :=
  id ∈ P.state.issued ∧ ∀ i, ¬ Holds id (proj i t)

/-- What holds of a run whose steps meet the condition. -/
structure UsedOnce [DecidableEq ι] (calls : ι → PersonCall)
    (t : List (ι × PersonEvent E)) (P : PersonPool E ι cr config) : Prop where
  held : ∀ i id, Holds id (proj i t) → id ∈ P.state.issued
  alone : ∀ i j id, Holds id (proj i t) → Holds id (proj j t) → i = j
  past : ∀ id, OpenAt P.state id → Past t P id
  shut : ∀ i id, LetIn calls t i id → Past t P id ∧ ¬ OpenAt P.state id
  once : ∀ i j id, LetIn calls t i id → LetIn calls t j id → i = j

section Invariant

variable [DecidableEq ι] {env : (o : PersonOp) → personExt.Ans o → Prop}
  {clock : Nat → Prop} {calls : ι → PersonCall}
  {t : List (ι × PersonEvent E)} {P P' : PersonPool E ι cr config} {i : ι}
  {e : PersonEvent E}

/-- Holding an identifier after a step of call `i`. -/
theorem holds_cons {j : ι} {id : String}
    (hw : serviceWorld env clock P.state e.op e.ans P'.state)
    (h : Holds id (proj j ((i, e) :: t))) :
    Holds id (proj j t) ∨
      j = i ∧ id ∉ P.state.issued ∧ id ∈ P'.state.issued := by
  by_cases hj : j = i
  · subst hj
    rw [proj_cons_self] at h
    rcases holds_of_step hw h with h | h
    · exact .inl h
    · exact .inr ⟨rfl, h⟩
  · rw [proj_cons_of_ne (Ne.symm hj)] at h
    exact .inl h

theorem Past.step {id : String}
    (hw : serviceWorld env clock P.state e.op e.ans P'.state)
    (h : Past t P id) : Past ((i, e) :: t) P' id := by
  refine ⟨issued_of_step hw h.1, fun j hj => ?_⟩
  rcases holds_cons hw hj with hj | ⟨-, hnew, -⟩
  · exact h.2 j hj
  · exact hnew h.1

omit [DecidableEq ι] in
theorem letIn_cons {j : ι} {id : String}
    (h : LetIn calls ((i, e) :: t) j id) :
    LetIn calls t j id ∨ j = i ∧ (calls i).begins = true ∧
      ∃ r, e.op = .store (.save id r) := by
  obtain ⟨hb, r, answer, hm⟩ := h
  rcases List.mem_cons.mp hm with heq | hm
  · cases heq
    exact .inr ⟨rfl, hb, r, rfl⟩
  · exact .inl ⟨hb, r, answer, hm⟩

/-- Identifiers that are held were drawn, and by one call each. -/
theorem UsedOnce.held_step (inv : UsedOnce calls t P)
    (hw : serviceWorld env clock P.state e.op e.ans P'.state) :
    (∀ j id, Holds id (proj j ((i, e) :: t)) → id ∈ P'.state.issued) ∧
      ∀ j k id, Holds id (proj j ((i, e) :: t)) →
        Holds id (proj k ((i, e) :: t)) → j = k := by
  constructor
  · intro j id h
    rcases holds_cons hw h with h | ⟨-, -, h⟩
    · exact issued_of_step hw (inv.held j id h)
    · exact h
  · intro j k id hj hk
    rcases holds_cons hw hj with hj' | ⟨hji, hnew, -⟩
    · rcases holds_cons hw hk with hk' | ⟨-, hnew, -⟩
      · exact inv.alone j k id hj' hk'
      · exact absurd (inv.held j id hj') hnew
    · rcases holds_cons hw hk with hk' | ⟨hki, -, -⟩
      · exact absurd (inv.held k id hk') hnew
      · rw [hji, hki]

/-- The identifier a record is opened under is held no more. -/
theorem UsedOnce.opened (inv : UsedOnce calls t P)
    (hw : serviceWorld env clock P.state e.op e.ans P'.state)
    {r : PersonPendingRecord} (he : e.op = .store (.create r))
    (hheld : Holds r.id (proj i t)) : Past ((i, e) :: t) P' r.id := by
  refine ⟨issued_of_step hw (inv.held i r.id hheld), fun j hj => ?_⟩
  by_cases hji : j = i
  · rw [hji, proj_cons_self] at hj
    exact not_holds_create he hj
  · rw [proj_cons_of_ne (Ne.symm hji)] at hj
    exact hji (inv.alone j i r.id hj hheld)

omit [DecidableEq ι] in
/-- An open code after a step: it was open before, or its record was just
opened. -/
theorem openAt_before (hg : OverOpen calls P i e.op)
    (hw : serviceWorld env clock P.state e.op e.ans P'.state) {id : String}
    (h : OpenAt P'.state id) : OpenAt P.state id ∨
      ∃ r, e.op = .store (.create r) ∧ r.id = id := by
  rcases openAt_of_step hw h with h | ⟨r, he, hr⟩ | h
  · exact .inl h
  · exact .inl (hg id r he (.inr hr))
  · exact .inr h

theorem UsedOnce.step (inv : UsedOnce calls t P)
    (hop : CallOp (calls i) (proj i t) e.op) (hg : OverOpen calls P i e.op)
    (hw : serviceWorld env clock P.state e.op e.ans P'.state) :
    UsedOnce calls ((i, e) :: t) P' := by
  have hcreate : ∀ r, e.op = .store (.create r) → Holds r.id (proj i t) := by
    intro r he
    rw [he] at hop
    exact hop
  -- a code that was used stays shut
  have hshut : ∀ j id, LetIn calls t j id → ¬ OpenAt P'.state id := by
    intro j id hj h
    obtain ⟨hpast, hno⟩ := inv.shut j id hj
    rcases openAt_before hg hw h with h | ⟨r, he, rfl⟩
    · exact hno h
    · exact hpast.2 i (hcreate r he)
  -- a visitor that is let in now finds the code open
  have hnow : ∀ id r, (calls i).begins = true →
      e.op = .store (.save id r) → OpenAt P.state id :=
    fun id r hb he => hg id r he (.inl hb)
  obtain ⟨hheld, halone⟩ := inv.held_step hw
  refine ⟨hheld, halone, ?_, ?_, ?_⟩
  · intro id h
    rcases openAt_before hg hw h with h | ⟨r, he, rfl⟩
    · exact (inv.past id h).step hw
    · exact inv.opened hw he (hcreate r he)
  · intro j id hj
    rcases letIn_cons hj with hj' | ⟨-, hb, r, he⟩
    · exact ⟨(inv.shut j id hj').1.step hw, hshut j id hj'⟩
    · refine ⟨(inv.past id (hnow id r hb he)).step hw, fun h => ?_⟩
      obtain ⟨r', hl, -, hconsumed⟩ := h
      rw [saved_of_step hw he] at hl
      cases hl
      rw [he] at hop
      exact absurd (hconsumed.symm.trans (hop hb)) nofun
  · intro j k id hj hk
    rcases letIn_cons hj with hj' | ⟨hji, hb, r, he⟩
    · rcases letIn_cons hk with hk' | ⟨-, hb, r, he⟩
      · exact inv.once j k id hj' hk'
      · exact absurd (hnow id r hb he) (inv.shut j id hj').2
    · rcases letIn_cons hk with hk' | ⟨hki, -, -, -⟩
      · exact absurd (hnow id r hb he) (inv.shut k id hk').2
      · rw [hji, hki]

end Invariant

/-! ## Every run -/

abbrev VisitReply (E : Type) :=
  Except (PersonTokenServiceError E) PersonInteractionOutcome

/-- The visitor found the record with its code. -/
def Met (t : List (ι × PersonEvent E)) (i : ι) (id : String) : Prop :=
  ∃ p r, (i, ⟨.store (.findIf p), .ok (some (id, r))⟩) ∈ t

/-- The visit of `i` is over. -/
def Replied (P : PersonPool E ι cr config) (i : ι) (reply : VisitReply E) :
    Prop :=
  ∃ code, P.thread i = .ret ⟨.beginInteraction code, reply⟩

def Refused (reply : VisitReply E) : Prop :=
  reply = .ok .invalidCode ∨ reply = .ok .expired

/-- The code of a record lets in one visitor. -/
structure SingleUse (calls : ι → PersonCall) (t : List (ι × PersonEvent E))
    (P : PersonPool E ι cr config) : Prop where
  /-- Of two visitors that found the same record one is refused. -/
  once : ∀ i j id reply reply', Met t i id → Met t j id →
    Replied P i reply → Replied P j reply' → i ≠ j →
      Refused reply ∨ Refused reply'
  /-- A visitor that found no record is told that the code is invalid. -/
  unmet : ∀ i reply, Replied P i reply → (∀ id, ¬ Met t i id) →
    reply = .ok .invalidCode
  /-- A record is not found any more once a visitor was let in with it. -/
  later : ∀ t₁ t₂ i j id p r,
    t = t₂ ++ (j, ⟨.store (.findIf p), .ok (some (id, r))⟩) :: t₁ →
      ¬ LetIn calls t₁ i id

section Runs

variable [DecidableEq ι] {env : (o : PersonOp) → personExt.Ans o → Prop}
  {clock : Nat → Prop} {calls : ι → PersonCall}
  {s : ServiceState PersonPendingContext} {t : List (ι × PersonEvent E)}
  {P : PersonPool E ι cr config} {i : ι}

theorem usedOnce_of_steps (hs : ∀ id, OpenAt s id → id ∈ s.issued)
    (run : Steps (serviceWorld env clock) (OverOpen calls)
      (personPool E cr config calls s) t P) : UsedOnce calls t P := by
  refine run.induction (I := UsedOnce calls) ?_ ?_
  · have hnone : ∀ i id, ¬ Holds id (proj i ([] : List (ι × PersonEvent E))) := by
      intro i id h
      rcases h with ⟨_, _, h, -⟩ | ⟨_, _, h, -⟩
      · cases h
      · cases h
    have hnobody : ∀ i id, ¬ LetIn calls ([] : List (ι × PersonEvent E)) i id :=
      fun i id h => by
        obtain ⟨-, _, _, h⟩ := h
        cases h
    refine ⟨?_, ?_, ?_, ?_, ?_⟩
    · exact fun i id h => absurd h (hnone i id)
    · exact fun i j id h => absurd h (hnone i id)
    · exact fun id h => ⟨hs id h, fun i => hnone i id⟩
    · exact fun i id h => absurd h (hnobody i id)
    · exact fun i j id h => absurd h (hnobody i id)
  · intro t P i e P' run ih hg hstep
    obtain ⟨k, hk, -, hw⟩ := hstep.self
    have hp := run.wp (PersonCall.path (calls i))
    rw [hk] at hp
    exact ih.step hp.1 hg hw

/-- The store does not fail. -/
theorem not_storeFailed {G : PersonPool E ι cr config → ι →
      (personSig E).Op → Prop} {P₀ : PersonPool E ι cr config}
    {e : PersonEvent E} (run : Steps (serviceWorld env clock) G P₀ t P)
    (h : (i, e) ∈ t) : ¬ StoreFailed e := by
  obtain ⟨t₂, t₁, rfl⟩ := List.append_of_mem h
  obtain ⟨Q, Q', -, -, hstep⟩ := run.split
  obtain ⟨-, -, -, hw⟩ := hstep.self
  obtain ⟨o, answer⟩ := e
  intro hf
  cases o with
  | now | pendingIdBytes | ext _ => exact hf
  | store o =>
      obtain ⟨hw, -⟩ := hw
      cases o with
      | create _ | load _ | complete _ _ | remove _ => exact hf
      | save id r =>
          obtain ⟨e, he⟩ := hf
          cases he.symm.trans hw.1
      | findIf p =>
          obtain ⟨e, he⟩ := hf
          obtain ⟨-, found, ha, -⟩ := hw
          cases he.symm.trans ha

/-- How a visit went that is over. -/
inductive VisitDone (calls : ι → PersonCall) (t : List (ι × PersonEvent E))
    (i : ι) : VisitReply E → Prop where
  | unknown : (∀ id, ¬ Met t i id) → VisitDone calls t i (.ok .invalidCode)
  | expired {id : String} : Met t i id → VisitDone calls t i (.ok .expired)
  | letIn {id : String} {reply : VisitReply E} : Met t i id →
      (∀ id', Met t i id' → id' = id) → LetIn calls t i id →
      VisitDone calls t i reply

theorem visitDone {reply : VisitReply E}
    (run : Steps (serviceWorld env clock) (OverOpen calls)
      (personPool E cr config calls s) t P) (h : Replied P i reply) :
    VisitDone calls t i reply := by
  obtain ⟨code, h⟩ := h
  have hp := run.wp (PersonCall.path (calls i))
  rw [h] at hp
  obtain ⟨hcall, hends⟩ := hp
  have hb : (calls i).begins = true := by rw [hcall]; rfl
  have hmem : ∀ {d : PersonEvent E}, (i, d) ∈ t ↔ d ∈ proj i t :=
    mem_proj.symm
  cases hproj : proj i t with
  | nil =>
      rw [hproj] at hends
      cases hends
  | cons e l =>
      rw [hproj] at hends hmem
      cases hends with
      | failed hf =>
          exact absurd hf (not_storeFailed run (hmem.mpr List.mem_cons_self))
      | unknown =>
          refine .unknown fun id hm => ?_
          obtain ⟨p, r, hm⟩ := hm
          cases List.mem_singleton.mp (hmem.mp hm)
      | expired =>
          exact .expired ⟨_, _, hmem.mpr (.tail _ (.tail _ (.head _)))⟩
      | letIn =>
          refine .letIn ⟨_, _, hmem.mpr (.tail _ (.tail _ (.head _)))⟩
            (fun id' hm => ?_) ⟨hb, _, _, hmem.mpr List.mem_cons_self⟩
          obtain ⟨p, r, hm⟩ := hm
          rcases List.mem_cons.mp (hmem.mp hm) with heq | hm
          · cases heq
          · rcases List.mem_cons.mp hm with heq | hm
            · cases heq
            · cases List.mem_singleton.mp hm
              rfl

/-- Any number of calls of the Person Server, interleaved in any way in which
whoever marks a code or writes a record whose code is open writes over one
whose code is open. -/
theorem codes_single_use (hs : ∀ id, OpenAt s id → id ∈ s.issued)
    (run : Steps (serviceWorld env clock) (OverOpen calls)
      (personPool E cr config calls s) t P) : SingleUse calls t P := by
  have inv := usedOnce_of_steps hs run
  refine ⟨?_, ?_, ?_⟩
  · intro i j id reply reply' hi hj hri hrj hne
    cases visitDone run hri with
    | unknown _ => exact .inl (.inl rfl)
    | expired _ => exact .inl (.inr rfl)
    | letIn _ honly hin =>
        cases visitDone run hrj with
        | unknown _ => exact .inr (.inl rfl)
        | expired _ => exact .inr (.inr rfl)
        | letIn _ honly' hin' =>
            rw [← honly id hi] at hin
            rw [← honly' id hj] at hin'
            exact absurd (inv.once i j id hin hin') hne
  · intro i reply hr hno
    cases visitDone run hr with
    | unknown _ => rfl
    | expired hm => exact absurd hm (hno _)
    | letIn hm _ _ => exact absurd hm (hno _)
  · intro t₁ t₂ i j id p r heq hin
    subst heq
    obtain ⟨Q, Q', run₁, -, hstep⟩ := run.split
    obtain ⟨k, hk, -, hw⟩ := hstep.self
    have hp := run₁.wp (PersonCall.path (calls j))
    rw [hk] at hp
    obtain ⟨⟨-, found, ha, hfound⟩, -⟩ := hw
    cases ha
    exact ((usedOnce_of_steps hs run₁).shut i id hin).2
      ⟨r, hfound.1, hp.1 r hfound.2⟩

end Runs

/-! ## The effects of a visit -/

/-- The visit when the store has answered. -/
def visitGoesOn (E : Type) (cr : Crates) (config : PersonServerConfig)
    (code : String) : Except E (Option (String × PersonPendingRecord)) →
      Prog (personSig E) (PersonAnswer E cr config)
  | .error e => .ret ⟨.beginInteraction code, .error (.pendingStore e)⟩
  | .ok none => .ret ⟨.beginInteraction code, .ok .invalidCode⟩
  | .ok (some (id, r)) => .call .now fun now =>
      if r.isExpired now then
        .call (.store (.remove id)) fun _ =>
          .ret ⟨.beginInteraction code, .ok .expired⟩
      else .call (.store (.save id r.consumed)) fun
        | .error e => .ret ⟨.beginInteraction code, .error (.pendingStore e)⟩
        | .ok _ => .ret ⟨.beginInteraction code,
            (interactionReply cr config id r.consumed).mapError
              .orchestration⟩

theorem thread_visit {code canonical : String}
    (hc : canonicalizeCode cr code = some canonical) :
    (PersonCall.beginInteraction code).thread E cr config =
      .call (.store (.findIf (matchesCode canonical)))
        (visitGoesOn E cr config code) := by
  show (beginInteraction (E := E) cr config code).run >>= _ = _
  rw [beginInteraction, hc]
  refine congrArg (Prog.call _) (funext fun found => ?_)
  rcases found with e | _ | ⟨id, r⟩
  · rfl
  · rfl
  · refine congrArg (Prog.call _) (funext fun now => ?_)
    show (ite (r.isExpired now = true) _ _ : PersonTask E _).run >>= _ =
      ite (r.isExpired now = true) _ _
    by_cases hx : r.isExpired now = true
    · rw [if_pos hx, if_pos hx]
      rfl
    · rw [if_neg hx, if_neg hx]
      refine congrArg (Prog.call _) (funext fun answer => ?_)
      cases answer with
      | error e => rfl
      | ok u =>
          cases u
          show (liftExcept _ : PersonTask E _).run >>= _ = _
          cases (interactionReply cr config id
              (PersonPendingRecord.consumed r)).mapError
                (PersonTokenServiceError.orchestration (E := E)) with
          | error e => rfl
          | ok outcome => rfl

end Calls

namespace Sample

/-- Two visitors with the same code. -/
def visitors : PersonPool Empty Bool crates personConfig :=
  personPool Empty crates personConfig
    (fun _ => .beginInteraction gateCode) gated

theorem visitors_eq : visitors = ⟨gated, fun _ =>
    .call (.store (.findIf (matchesCode gateCode)))
      (visitGoesOn Empty crates personConfig gateCode)⟩ :=
  congrArg (Pool.mk gated) (funext fun _ => thread_visit canonicalize_gateCode)

/-- The answer to a visit with the code. -/
def welcome : VisitReply Empty :=
  (interactionReply crates personConfig firstId
    gatedRecord.consumed).mapError .orchestration

theorem not_refused_welcome : ¬ Refused welcome := by
  have hredirect : ∃ url, welcome = .ok (.redirect url) := ⟨_, rfl⟩
  obtain ⟨url, hurl⟩ := hredirect
  intro h
  rcases h with h | h
  · cases hurl.symm.trans h
  · cases hurl.symm.trans h

theorem openAt_gated : OpenAt gated firstId :=
  ⟨gatedRecord, lookup_gated, nofun, rfl⟩

/-- The second visitor comes when the first was let in. -/
theorem second_visitor_refused : ∃ t P,
    Steps (momentWorld gatedEnv now)
      (OverOpen fun _ : Bool => .beginInteraction gateCode) visitors t P ∧
    Replied P true welcome ∧ Replied P false (.ok .invalidCode) ∧
    SingleUse (fun _ : Bool => .beginInteraction gateCode) t P := by
  have hW : ∀ (s : ServiceState PersonPendingContext)
      (o : (personSig Empty).Op) r s',
      answer gatedAnswer now s o = some (r, s') →
        momentWorld gatedEnv now s o r s' := answer_sound
  have hs : ∀ id, OpenAt gated id → id ∈ gated.issued := by
    intro id h
    obtain ⟨r, hl, -⟩ := h
    by_cases hid : id = firstId
    · exact List.mem_singleton.mpr hid
    · cases (AList.lookup_insert_ne hid).symm.trans hl
  have hrun : ∃ t P, Steps (momentWorld gatedEnv now)
      (OverOpen fun _ : Bool => .beginInteraction gateCode) visitors t P ∧
      Replied P true welcome ∧ Replied P false (.ok .invalidCode) := by
    rw [visitors_eq]
    refine ⟨_, _, .step (i := false) (.step (i := true) (.step (i := true)
      (.step (i := true) .nil ?_ (.mk rfl (hW _ _ _ _ rfl))) ?_
      (.mk rfl (hW _ _ _ _ rfl))) ?_ (.mk rfl (hW _ _ _ _ rfl))) ?_
      (.mk rfl (hW _ _ _ _ rfl)), ⟨gateCode, rfl⟩, ⟨gateCode, rfl⟩⟩
    · intro id r heq
      cases heq
    · intro id r heq
      cases heq
    · intro id r heq _
      cases heq
      exact openAt_gated
    · intro id r heq
      cases heq
  obtain ⟨t, P, run, hreply, hreply'⟩ := hrun
  exact ⟨t, P, run, hreply, hreply', codes_single_use hs run⟩

/-- Both visitors find the code open before either marks it as used. -/
theorem code_used_twice : ¬ ∀ t P, Steps (momentWorld gatedEnv now)
    (fun _ _ _ => True) visitors t P →
      SingleUse (fun _ : Bool => .beginInteraction gateCode) t P := by
  intro h
  have hrun : ∃ t P, Pool.play (answer gatedAnswer now)
        [true, false, true, false, true, false] ([], visitors) =
          some (t, P) ∧
      Met t true firstId ∧ Met t false firstId ∧
      Replied P true welcome ∧ Replied P false welcome := by
    rw [visitors_eq]
    exact ⟨_, _, rfl, ⟨_, _, .tail _ (.tail _ (.tail _ (.tail _ (.tail _
      (.head _)))))⟩, ⟨_, _, .tail _ (.tail _ (.tail _ (.tail _ (.head _))))⟩,
      ⟨gateCode, rfl⟩, ⟨gateCode, rfl⟩⟩
  obtain ⟨t, P, hp, hmet, hmet', hreply, hreply'⟩ := hrun
  have hused := h t P (Steps.play answer_sound .nil hp)
  rcases hused.once true false firstId _ _ hmet hmet' hreply hreply' nofun
    with hr | hr
  · exact not_refused_welcome hr
  · exact not_refused_welcome hr

end Sample

end Aauth
