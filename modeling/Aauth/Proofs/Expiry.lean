import Aauth.Proofs.AccessRuns
import Aauth.Proofs.Finality
import Aauth.Proofs.PersonRuns
import Aauth.Ref.ResourceService

/-!
# Expiry and identity of pending records

Many operations rewrite a record and some replace its whole context, but
each starts from the record it loaded, so the identifier and the two
times are the ones the record was created with. And each operation looks
at the clock before it does anything else: a record past its time is
removed, and no effect of the service is invoked for it.
-/

namespace Aauth

open Effect

/-! ## Identity -/

section Identity

variable {E C : Type} {X : Sig} {V : Service (serviceSig E C X)}
  {s s' : ServiceState C} {id : String} {r r' : PendingRecord C}

/-- The identifier and the two times are those of the other record. -/
structure SameIdentity (r r' : PendingRecord C) : Prop where
  id : r'.id = r.id
  createdAt : r'.createdAt = r.createdAt
  expiresAt : r'.expiresAt = r.expiresAt

theorem SameIdentity.refl (r : PendingRecord C) : SameIdentity r r :=
  ⟨rfl, rfl, rfl⟩

/-- Every record found after a call is the one that was there, rewritten
under the same identity, or was opened under a new identifier. -/
structure Conserves (s s' : ServiceState C) : Prop where
  drawn : ∀ id, id ∈ s.issued → id ∈ s'.issued
  found : ∀ id r', s'.records.lookup id = some r' →
    (∃ r, s.records.lookup id = some r ∧ SameIdentity r r') ∨
      (id ∉ s.issued ∧ id ∈ s'.issued ∧ r'.id = id)

/-- Every record is kept under its own identifier, and no call of the run
changed the identity of a record it found. -/
structure IdentityKept (hist : List (Served V (ServiceState C) (Occasion X)))
    (s : ServiceState C) : Prop where
  keyed : ∀ id r, s.records.lookup id = some r → r.id = id
  kept : ∀ e ∈ hist, ∀ id r r', e.pre.records.lookup id = some r →
    e.post.records.lookup id = some r' → SameIdentity r r'

/-- Records are kept under their own identifiers, which were all drawn. -/
structure Keyed (s : ServiceState C) : Prop where
  id : ∀ id r, s.records.lookup id = some r → r.id = id
  drawn : ∀ id r, s.records.lookup id = some r → id ∈ s.issued

theorem Conserves.keyed (h : Conserves s s') (hs : Keyed s) : Keyed s' := by
  refine ⟨fun id r' hl => ?_, fun id r' hl => ?_⟩
  · rcases h.found id r' hl with ⟨r, hr, hsame⟩ | ⟨-, -, hid⟩
    · exact hsame.id.trans (hs.id id r hr)
    · exact hid
  · rcases h.found id r' hl with ⟨r, hr, -⟩ | ⟨-, hid, -⟩
    · exact h.drawn id (hs.drawn id r hr)
    · exact hid

theorem Conserves.trans {s'' : ServiceState C} (h : Conserves s s')
    (h' : Conserves s' s'') : Conserves s s'' := by
  refine ⟨fun id hid => h'.drawn id (h.drawn id hid), fun id r'' hl => ?_⟩
  rcases h'.found id r'' hl with ⟨r', hl', hsame'⟩ | ⟨hnew, hid, hkey⟩
  · rcases h.found id r' hl' with ⟨r, hr, hsame⟩ | ⟨hnew, hid, hkey⟩
    · exact .inl ⟨r, hr, hsame'.id.trans hsame.id,
        hsame'.createdAt.trans hsame.createdAt,
        hsame'.expiresAt.trans hsame.expiresAt⟩
    · exact .inr ⟨hnew, h'.drawn id hid, hsame'.id.trans hkey⟩
  · exact .inr ⟨fun h'' => hnew (h.drawn id h''), hid, hkey⟩

theorem Conserves.sameIdentity (h : Conserves s s') (hs : Keyed s)
    (hl : s.records.lookup id = some r)
    (hl' : s'.records.lookup id = some r') : SameIdentity r r' := by
  rcases h.found id r' hl' with ⟨r₀, hr, hsame⟩ | ⟨hid, -⟩
  · cases hl.symm.trans hr
    exact hsame
  · exact absurd (hs.drawn id r hl) hid

/-- The run lemma: when each call conserves the records, so does a run. -/
theorem identityKept
    {G : List (Served V (ServiceState C) (Occasion X)) → ServiceState C →
      Occasion X → V.Call → Prop}
    {hist : List (Served V (ServiceState C) (Occasion X))}
    (step : ∀ {s m} {c : V.Call} {reply s'},
      Exec (occasionWorld m) s (V.prog c) reply s' → Conserves s s')
    (run : History occasionWorld G ⟨∅, []⟩ hist s) :
    IdentityKept hist s := by
  have h : Keyed s ∧ ∀ e ∈ hist, ∀ id r r',
      e.pre.records.lookup id = some r →
      e.post.records.lookup id = some r' → SameIdentity r r' := by
    refine run.induction (I := fun hist s => Keyed s ∧ ∀ e ∈ hist,
      ∀ id r r', e.pre.records.lookup id = some r →
        e.post.records.lookup id = some r' → SameIdentity r r') ?_ ?_
    · refine ⟨⟨fun id r hl => ?_, fun id r hl => ?_⟩, ?_⟩
      · rw [AList.lookup_empty] at hl
        cases hl
      · rw [AList.lookup_empty] at hl
        cases hl
      · intro e he
        exact absurd he List.not_mem_nil
    · intro h s m c reply s' ih _ hx
      have hstep := step hx
      refine ⟨hstep.keyed ih.1, fun e he id r r' hl hl' => ?_⟩
      rcases List.mem_cons.mp he with rfl | he
      · exact hstep.sameIdentity ih.1 hl hl'
      · exact ih.2 e he id r r' hl hl'
  exact ⟨h.1.id, h.2⟩

end Identity

/-! ## Expiry -/

/-- The program, called about the record under `id`, removes it, answers
`reply`, and invokes no effect of the service. -/
def Removes {E C α : Type} {X : Sig} (m : Occasion X) (s : ServiceState C)
    (id : String) (p : Prog (serviceSig E C X) α) (reply : α) : Prop :=
  wp (occasionWorld m) (OnExt fun _ => False) p
    (fun a s' => a = reply ∧ s' = { s with records := s.records.erase id }) s

section Poll

variable {E C : Type} {X : Sig} {m : Occasion X} {s : ServiceState C}
  {id : String} {r : PendingRecord C}

theorem pollAuthPending_removes (hl : s.records.lookup id = some r)
    (hx : r.isExpired m.time = true) :
    Removes (E := E) m s id (pollAuthPending id).run (.ok .gone) := by
  simp only [Removes, pollAuthPending, wp_bind_except, wp_mapErr, wp_load,
    Except.mapError, onExt_store, true_and, hl, wp_liftProg, wp_systemNow,
    onExt_now]
  intro now hnow
  subst hnow
  simp only [hx, if_true, wp_bind_except, wp_liftProg, wp_remove,
    onExt_store, true_and]
  exact ⟨rfl, rfl⟩

end Poll

/-! ## The Person Server -/

section Person

variable {E : Type} {cr : Crates} {config : PersonServerConfig}
  {s s' : ServiceState PersonPendingContext} {m : Occasion personExt}
  {id : String} {r r' : PersonPendingRecord} {c : PersonCall}

theorem RuledOn.sameIdentity {env : (o : PersonOp) → personExt.Ans o → Prop}
    {ctx : PersonTokenContext} {agentJwt : String} {d : PersonTokenDecision}
    {reply : FlowReply E}
    (h : RuledOn cr config env id r ctx agentJwt d reply (.write r')) :
    SameIdentity r r' := by
  obtain ⟨ruling, -, -, hch⟩ := h
  cases ruling with
  | failure _ | unauthorized => cases hch
  | token _ | denial _ =>
      cases hch
      exact ⟨rfl, rfl, rfl⟩
  | deferral requirement fed =>
      cases fed with
      | none | some _ =>
          cases hch
          exact ⟨rfl, rfl, rfl⟩

theorem Wrote.sameIdentity {env : (o : PersonOp) → personExt.Ans o → Prop}
    {reply : (personService E cr config).Reply c}
    (h : Wrote cr config env id r c reply r') : SameIdentity r r' := by
  cases c with
  | exchangeToken _ _ | pollPending _ => exact h.elim
  | resumePending id' input =>
      obtain ⟨-, h⟩ := h
      cases h with
      | posted _ h =>
          cases h with
          | cancelled _ | accepted _ _ | moved _ | denied _ => exact ⟨rfl, rfl, rfl⟩
      | decided _ _ h => exact h.sameIdentity
  | beginInteraction code =>
      obtain ⟨rfl, -⟩ := h
      exact ⟨rfl, rfl, rfl⟩
  | resolveInteractionCallback id' err =>
      obtain ⟨-, h⟩ := h
      cases h with
      | error => exact ⟨rfl, rfl, rfl⟩
      | decided _ _ h => exact h.sameIdentity

theorem PersonServes.conserves
    {reply : (personService E cr config).Reply c}
    (h : PersonServes cr config m.env m.time s c reply s') :
    Conserves s s' := by
  refine ⟨fun id hid => h.issued hid, fun id r' hl => ?_⟩
  cases h.found hl with
  | kept hl => exact .inl ⟨_, hl, .refl _⟩
  | wrote hl _ hw => exact .inl ⟨_, hl, hw.sameIdentity⟩
  | opened _ hnew hid _ => exact .inr ⟨hnew, hid, rfl⟩

theorem withLiveRecord_removes
    {k : PersonPendingRecord → PersonTask E PersonTokenFlowOutcome}
    (hl : s.records.lookup id = some r) (hx : r.isExpired m.time = true) :
    Removes m s id (withLiveRecord id k).run (.ok .gone) := by
  simp only [Removes, withLiveRecord, storeOp, wp_bind_except, wp_mapErr,
    wp_load, Except.mapError, onExt_store, true_and, hl, wp_liftProg,
    wp_systemNow, onExt_now]
  intro now hnow
  subst hnow
  simp only [hx, if_true, wp_bind_except, wp_liftProg, wp_remove,
    onExt_store, true_and]
  exact ⟨rfl, rfl⟩

theorem pollPending_removes (hl : s.records.lookup id = some r)
    (hx : r.isExpired m.time = true) :
    Removes m s id (pollPending (E := E) id).run (.ok .gone) := by
  refine wp_mapErr.mpr (wp_mono (fun a s' h => ?_)
    (pollAuthPending_removes hl hx))
  obtain ⟨rfl, rfl⟩ := h
  exact ⟨rfl, rfl⟩

/-- A visit reaches one record that the code still opens, or none. An
expired one is removed and answered so; a live one is marked. -/
def VisitsOne (cr : Crates) (t : Nat) (s : ServiceState PersonPendingContext)
    (code : String)
    (reply : Except (PersonTokenServiceError E) PersonInteractionOutcome)
    (s' : ServiceState PersonPendingContext) : Prop :=
  ∃ canonical, canonicalizeCode cr code = some canonical ∧
    (((∀ id r, s.records.lookup id = some r →
        matchesCode canonical r = false) ∧
        reply = .ok .invalidCode ∧ s' = s) ∨
      ∃ id, ∃ r : PersonPendingRecord, s.records.lookup id = some r ∧
        matchesCode canonical r = true ∧
        if r.isExpired t = true then
          reply = .ok .expired ∧
            s' = { s with records := s.records.erase id }
        else s' = { s with records := s.records.insert id r.consumed })

/-- The effect neither mints nor turns to an Access Server. -/
def StaysIdle : PersonOp → Prop
  | .mintPersonAuthJwt .. | .fetchMetadata _ | .exchangeToken _ _
  | .resumePending _ _ | .pollPending _ _ => False
  | .evaluate _ | .resume _ _ | .codeBytes | .verifyEnv | .panic => True

theorem Invokes.staysIdle {env : (o : PersonOp) → personExt.Ans o → Prop}
    {t : Nat} {map : PersonMap} {code : String} {o : PersonOp}
    (h : Invokes config env t map (.beginInteraction code) o) :
    StaysIdle o := by
  cases o with
  | mintPersonAuthJwt _ _ _ _ _ _ =>
      obtain ⟨_, _, _, hd, -⟩ := h
      cases hd
  | fetchMetadata _ =>
      obtain ⟨_, _, hd⟩ := h
      cases hd
  | exchangeToken _ _ =>
      obtain ⟨_, _, hd, -⟩ := h
      cases hd
  | resumePending _ _ =>
      obtain ⟨_, _, _, hc, -⟩ := h
      cases hc
  | pollPending _ _ =>
      obtain ⟨_, _, _, _, hc, -⟩ := h
      cases hc
  | evaluate _ | resume _ _ | codeBytes | verifyEnv | panic => trivial

theorem beginInteraction_visitsOne (code : String) :
    wp (occasionWorld m) (OnExt StaysIdle)
      ((personService E cr config).prog (.beginInteraction code))
      (VisitsOne cr m.time s code) s := by
  refine wp_weaken (fun _ o ho => ?_) (fun reply s' h => ?_)
    (personServes (t := m.time) (.beginInteraction code))
  case refine_1 =>
    cases o with
    | store _ | now | pendingIdBytes => trivial
    | ext o => exact Invokes.staysIdle ho
  obtain ⟨canonical, hc, id, ch, h, rfl⟩ := h
  refine ⟨canonical, hc, ?_⟩
  cases h with
  | unknown hn => exact .inl ⟨hn, rfl, rfl⟩
  | expired hl hm hx =>
      refine .inr ⟨id, _, hl, hm, ?_⟩
      rw [if_pos hx]
      exact ⟨rfl, rfl⟩
  | begun hl hm hx =>
      refine .inr ⟨id, _, hl, hm, ?_⟩
      rw [hx]
      exact rfl

/-- Expired records at the Person Server. -/
structure PersonExpires (E : Type) (cr : Crates)
    (config : PersonServerConfig) (m : Occasion personExt)
    (s : ServiceState PersonPendingContext) : Prop where
  pollPending : ∀ id r, s.records.lookup id = some r →
    r.isExpired m.time = true → Removes m s id
      ((personService E cr config).prog (.pollPending id)) (.ok .gone)
  resumePending : ∀ id r input, s.records.lookup id = some r →
    r.isExpired m.time = true → Removes m s id
      ((personService E cr config).prog (.resumePending id input))
      (.ok .gone)
  resolveInteractionCallback : ∀ id r err, s.records.lookup id = some r →
    r.isExpired m.time = true → Removes m s id
      ((personService E cr config).prog (.resolveInteractionCallback id err))
      (.ok .gone)
  beginInteraction : ∀ code, wp (occasionWorld m) (OnExt StaysIdle)
    ((personService E cr config).prog (.beginInteraction code))
    (VisitsOne cr m.time s code) s

theorem personExpires : PersonExpires E cr config m s where
  pollPending _ _ hl hx := pollPending_removes hl hx
  resumePending _ _ _ hl hx := withLiveRecord_removes hl hx
  resolveInteractionCallback _ _ _ hl hx := withLiveRecord_removes hl hx
  beginInteraction := beginInteraction_visitsOne

end Person

/-! ## The Access Server -/

namespace Access

section Access

variable {E : Type} {config : AccessServerConfig}
  {s s' : ServiceState AccessPendingContext} {m : Occasion accessExt}
  {id : String} {r r' : AccessPendingRecord} {c : Call}

theorem Wrote.sameIdentity {env : (o : AccessOp) → accessExt.Ans o → Prop}
    {reply : (service E config).Reply c}
    (h : Wrote config env id r c reply r') : SameIdentity r r' := by
  cases c with
  | exchangeToken _ | pollPending _ => exact h.elim
  | resumePending id' input =>
      obtain ⟨-, h⟩ := h
      cases h with
      | decided _ h =>
          obtain ⟨ruling, -, -, hch⟩ := h
          cases ruling with
          | failure _ => cases hch
          | token _ | denial _ | deferral _ =>
              cases hch
              exact ⟨rfl, rfl, rfl⟩

theorem AccessServes.conserves {reply : (service E config).Reply c}
    (h : AccessServes config m.env m.time s c reply s') :
    Conserves s s' := by
  refine ⟨fun id hid => h.issued hid, fun id r' hl => ?_⟩
  cases h.found hl with
  | kept hl => exact .inl ⟨_, hl, .refl _⟩
  | wrote hl _ hw => exact .inl ⟨_, hl, hw.sameIdentity⟩
  | opened _ hnew hid => exact .inr ⟨hnew, hid, rfl⟩

/-- Expired records at the Access Server. -/
structure Expires (E : Type) (config : AccessServerConfig)
    (m : Occasion accessExt) (s : ServiceState AccessPendingContext) :
    Prop where
  pollPending : ∀ id r, s.records.lookup id = some r →
    r.isExpired m.time = true → Removes m s id
      ((service E config).prog (.pollPending id)) (.ok .gone)
  resumePending : ∀ id r input, s.records.lookup id = some r →
    r.isExpired m.time = true → Removes m s id
      ((service E config).prog (.resumePending id input)) (.ok .gone)

theorem expires : Expires E config m s where
  pollPending id r hl hx := by
    refine wp_mapErr.mpr (wp_mono (fun a s' h => ?_)
      (pollAuthPending_removes hl hx))
    obtain ⟨rfl, rfl⟩ := h
    exact ⟨rfl, rfl⟩
  resumePending id r input hl hx := by
    simp only [Removes, service, resumePending, storeOp, wp_bind_except,
      wp_mapErr, wp_load, Except.mapError, onExt_store, true_and, hl,
      wp_liftProg, wp_systemNow, onExt_now]
    intro now hnow
    subst hnow
    simp only [hx, if_true, wp_bind_except, wp_liftProg, wp_remove,
      onExt_store, true_and]
    exact ⟨rfl, rfl⟩

end Access

end Access

/-! ## The resource -/

namespace Resource

section Resource

variable {E : Type} {config : ResourceAccessConfig}
  {s s' : ServiceState ResourcePendingContext} {m : Occasion resourceExt}
  {id : String} {r : ResourcePendingRecord}

theorem conserves_insert {t ttl : Nat} {c : ResourcePendingContext}
    {snapshot : PendingSnapshot} (hid : id ∉ s.issued) :
    Conserves s { records := s.records.insert id (.new t id c snapshot ttl),
                  issued := id :: s.issued } := by
  refine ⟨fun id' h => List.mem_cons_of_mem _ h, fun id' r' hl => ?_⟩
  by_cases he : id' = id
  · subst he
    rw [AList.lookup_insert] at hl
    cases hl
    exact .inr ⟨hid, List.mem_cons_self, rfl⟩
  · rw [AList.lookup_insert_ne he] at hl
    exact .inl ⟨r', hl, .refl _⟩

theorem conserves_erase : Conserves s
    { s with records := s.records.erase id } := by
  refine ⟨fun id' h => h, fun id' r' hl => ?_⟩
  by_cases he : id' = id
  · subst he
    rw [AList.lookup_erase] at hl
    cases hl
  · rw [AList.lookup_erase_ne he] at hl
    exact .inl ⟨r', hl, .refl _⟩

theorem conserves_same : Conserves s s :=
  ⟨fun _ h => h, fun _ r' hl => .inl ⟨r', hl, .refl _⟩⟩

@[simp] theorem wp_resourceOp {o : ResourceOp}
    {pre : ServiceState ResourcePendingContext → (resourceSig E).Op → Prop}
    {post : resourceExt.Ans o → ServiceState ResourcePendingContext → Prop} :
    wp (α := no_index (resourceExt.Ans o)) (occasionWorld (E := E) m) pre
        (resourceOp o) post s ↔
      pre s (.ext o) ∧ ∀ a, m.env o a → post a s := by
  rw [resourceOp, wp_ext]

/-- Filling in an interaction leaves the records alone. -/
theorem fillInteraction_keeps {requirement : DeferRequirement}
    {post : Except (ResourceAccessServiceError E) DeferRequirement →
      ServiceState ResourcePendingContext → Prop}
    (h : ∀ filled, post (.ok filled) s) :
    wp (occasionWorld m) (OnExt fun _ => True)
      (fillInteraction (E := E) config requirement).run post s := by
  cases requirement with
  | interaction url code =>
      rw [fillInteraction]
      cases code.isEmpty with
      | true =>
          simp only [if_true, wp_bind_except, wp_liftProg,
            wp_resourceOp, onExt_ext, true_and]
          exact fun bytes _ => h _
      | false => exact h _
  | clarification _ _ | claims _ | approval | payment _ => exact h _

/-- A consent may open one record. -/
theorem consentForAgent_conserves {ctx : ResourceAccessContext} :
    wp (occasionWorld m) (OnExt fun _ => True)
      (consentForAgent (E := E) config ctx).run
      (fun _ s' => Conserves s s') s := by
  simp only [consentForAgent, wp_bind_except, wp_mapErr, wp_resourceOp,
    onExt_ext, true_and]
  intro answer _
  cases answer with
  | error e => exact conserves_same
  | ok d =>
      cases d with
      | grantOpaque =>
          simp only [Except.mapError, wp_bind_except, wp_liftProg,
            wp_resourceOp, onExt_ext, true_and]
          exact fun token _ => conserves_same
      | deny e => exact conserves_same
      | defer requirement =>
          refine wp_bind_except.mpr (fillInteraction_keeps fun filled => ?_)
          simp only [wp_bind_except, wp_liftProg, wp_pendingIdBytes,
            wp_systemNow, wp_mapErr, wp_create, onExt_store, onExt_now,
            onExt_pendingIdBytes, true_and, Except.mapError]
          exact fun bytes hfresh now _ => conserves_insert hfresh

/-- A poll may remove the record it is about. -/
theorem pollPending_conserves :
    wp (occasionWorld m) (OnExt fun _ => True)
      (pollPending (E := E) id).run (fun _ s' => Conserves s s') s := by
  refine wp_bind_except.mpr (wp_mapErr.mpr (wp_mono (fun reply s' h => ?_)
    pollAuthPending_reads))
  obtain ⟨ch, h, rfl⟩ := h
  have hch : Conserves s { s with records := ch.apply id s.records } := by
    cases h with
    | absent _ => exact conserves_same
    | expired _ _ => exact conserves_erase
    | live _ _ h =>
        obtain ⟨-, rfl⟩ := h
        exact conserves_same
  cases reply with
  | error e => exact hch
  | ok outcome =>
      show wp _ _ (ExceptT.run (if handedOut outcome = true then _ else _))
        _ _
      by_cases hout : handedOut outcome = true
      · rw [if_pos hout]
        simp only [wp_bind_except, wp_liftProg, wp_remove, onExt_store,
          true_and, wp_pure_except]
        exact hch.trans conserves_erase
      · rw [if_neg hout]
        exact hch

theorem service_conserves (c : Call) :
    wp (occasionWorld m) (OnExt fun _ => True) ((service E config).prog c)
      (fun _ s' => Conserves s s') s := by
  cases c with
  | consentForAgent ctx => exact consentForAgent_conserves
  | pollPending id => exact pollPending_conserves

theorem conserves_of_exec {c : Call} {reply : (service E config).Reply c}
    (hx : Exec (occasionWorld m) s ((service E config).prog c) reply s') :
    Conserves s s' := by
  have h : wp (occasionWorld m) (OnExt fun _ => True)
      ((service E config).prog c) (fun _ s' => Conserves s s') s :=
    service_conserves c
  have hc := hx.post h
  exact hc

/-- Expired records at the resource. -/
def Expires (E : Type) (config : ResourceAccessConfig)
    (m : Occasion resourceExt) (s : ServiceState ResourcePendingContext) :
    Prop :=
  ∀ id r, s.records.lookup id = some r → r.isExpired m.time = true →
    Removes m s id ((service E config).prog (.pollPending id)) (.ok .gone)

theorem expires : Expires E config m s := by
  intro id r hl hx
  refine wp_bind_except.mpr (wp_mapErr.mpr (wp_mono (fun reply s' h => ?_)
    (pollAuthPending_removes hl hx)))
  obtain ⟨rfl, rfl⟩ := h
  exact ⟨rfl, rfl⟩

end Resource

end Resource

/-! ## All three services -/

/-- In every run of each service, at whatever times its calls are served,
records keep their identity; and whatever the state, a call on an expired
record removes it, says so, and does nothing else. -/
theorem pending_expiry (E : Type) (cr : Crates)
    (config : PersonServerConfig) (accessConfig : AccessServerConfig)
    (resourceConfig : ResourceAccessConfig) :
    (∀ (hist : List (PersonTurn E cr config)) s,
      PersonHistory (fun _ _ _ _ => True) hist s →
        IdentityKept hist s ∧ ∀ m, PersonExpires E cr config m s) ∧
    (∀ (hist : List (Access.AccessTurn E accessConfig)) s,
      Access.AccessHistory (fun _ _ _ _ => True) hist s →
        IdentityKept hist s ∧ ∀ m, Access.Expires E accessConfig m s) ∧
    ∀ (hist : List (Served (Resource.service E resourceConfig)
        (ServiceState ResourcePendingContext) (Occasion resourceExt))) s,
      History occasionWorld (fun _ _ _ _ => True) ⟨∅, []⟩ hist s →
        IdentityKept hist s ∧ ∀ m, Resource.Expires E resourceConfig m s := by
  refine ⟨fun hist s run => ⟨?_, fun m => personExpires⟩,
    fun hist s run => ⟨?_, fun m => Access.expires⟩,
    fun hist s run => ⟨?_, fun m => Resource.expires⟩⟩
  · exact identityKept
      (fun hx => (personServes_of_exec hx).conserves) run
  · exact identityKept
      (fun hx => (Access.accessServes_of_exec hx).conserves) run
  · exact identityKept Resource.conserves_of_exec run

/-! ## At the sample parties -/

namespace Sample

/-- The agent's exchange was put off; whoever asks next is granted. -/
def askedRun : List (PersonTurn Empty crates personConfig) :=
  [⟨⟨∅, []⟩, ⟨now, lenientEnv⟩, .exchangeToken (botContext plainClaims)
    botJwt, .ok (.deferredAt personConfig firstId .approval), asked⟩]

theorem askedRun_exec : Exec (momentWorld lenientEnv now) ⟨∅, []⟩
    (exchangeToken (E := Empty) crates personConfig (botContext plainClaims)
      botJwt).run
    (.ok (.deferredAt personConfig firstId .approval)) asked :=
  person_exec (by rfl)

def askedRecord : PersonPendingRecord :=
  .new now firstId plainContext (.ofRequirement .approval)
    personConfig.pendingTtlSecs

theorem lookup_asked : asked.records.lookup firstId = some askedRecord :=
  AList.lookup_insert _

/-- After its ten minutes the request is gone, whatever the policy would
say. -/
theorem pending_expiry_asked :
    Removes ⟨now + 601, lenientEnv⟩ asked firstId
      ((personService Empty crates personConfig).prog
        (.resumePending firstId .interactionCompleted)) (.ok .gone) :=
  (((pending_expiry Empty crates personConfig accessConfig
      ⟨"", "", "", 0⟩).1 askedRun asked
    (.serve .nil trivial askedRun_exec)).2 ⟨now + 601, lenientEnv⟩).resumePending
    firstId askedRecord .interactionCompleted lookup_asked (by decide)

end Sample

end Aauth
