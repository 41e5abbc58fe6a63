import Aauth.Lib.Mirror
import Aauth.Proofs.AccessEndpoint
import Aauth.Proofs.GrantDelivery
import Aauth.Proofs.SingleUse

/-!
# Pending records are capabilities

The endpoints under a pending URL ask for no credential: who knows the
identifier of a record may poll it, post to it or call it back, and who
knows its code may visit it. What this section shows is that nobody else
notices the record at all. Calls that neither name the identifier nor bring
the code, however many of them run side by side, leave the record as it is
and go the same way whatever is stored under the identifier, or nothing: the
same calls of the store, of the policy and of other servers, the same
answers, the same replies.
-/

namespace Aauth

open Effect

/-! ## States that differ in one record -/

section Alike

variable {E C : Type} {X : Sig}

/-- The two states have the same records under every other identifier, and
`r₁` and `r₂` under this one, which was drawn before. -/
structure Alike (id : String) (r₁ r₂ : Option (PendingRecord C))
    (s t : ServiceState C) : Prop where
  elsewhere : ∀ k, k ≠ id → s.records.lookup k = t.records.lookup k
  left : s.records.lookup id = r₁
  right : t.records.lookup id = r₂
  issued : s.issued = t.issued
  drawn : id ∈ s.issued

/-- The call is not about the record under `id`, and does not find what is
there. -/
def Elsewhere (id : String) (r₁ r₂ : Option (PendingRecord C)) :
    (serviceSig E C X).Op → Prop
  | .store (.create r) => r.id ≠ id
  | .store (.load k) | .store (.save k _) | .store (.complete k _)
  | .store (.remove k) => k ≠ id
  | .store (.findIf p) => ∀ r, r₁ = some r ∨ r₂ = some r → p r = false
  | .now | .pendingIdBytes | .ext _ => True

/-- The answer is not the record under `id`, nor its identifier drawn
again. -/
def Spares (id : String) :
    (o : (serviceSig E C X).Op) → (serviceSig E C X).Ans o → Prop
  | .pendingIdBytes, bytes => generatePendingId bytes ≠ id
  | .store (.findIf _), found => ∀ k r, found = .ok (some (k, r)) → k ≠ id
  | _, _ => True

variable {id : String} {r₁ r₂ : Option (PendingRecord C)}
  {s t : ServiceState C}

theorem Alike.symm (h : Alike id r₁ r₂ s t) : Alike id r₂ r₁ t s :=
  ⟨fun k hk => (h.elsewhere k hk).symm, h.right, h.left, h.issued.symm,
    h.issued ▸ h.drawn⟩

/-- The same record is written elsewhere. -/
theorem Alike.insert (h : Alike id r₁ r₂ s t) {k : String}
    (hk : k ≠ id) (r : PendingRecord C) :
    Alike id r₁ r₂ { s with records := s.records.insert k r }
      { t with records := t.records.insert k r } where
  elsewhere k' hk' := by
    show (s.records.insert k r).lookup k' = (t.records.insert k r).lookup k'
    by_cases he : k' = k
    · subst he
      rw [AList.lookup_insert, AList.lookup_insert]
    · rw [AList.lookup_insert_ne he, AList.lookup_insert_ne he,
        h.elsewhere k' hk']
  left := (AList.lookup_insert_ne hk.symm).trans h.left
  right := (AList.lookup_insert_ne hk.symm).trans h.right
  issued := h.issued
  drawn := h.drawn

/-- A record is removed elsewhere. -/
theorem Alike.erase (h : Alike id r₁ r₂ s t) {k : String} (hk : k ≠ id) :
    Alike id r₁ r₂ { s with records := s.records.erase k }
      { t with records := t.records.erase k } where
  elsewhere k' hk' := by
    show (s.records.erase k).lookup k' = (t.records.erase k).lookup k'
    by_cases he : k' = k
    · subst he
      rw [AList.lookup_erase, AList.lookup_erase]
    · rw [AList.lookup_erase_ne he, AList.lookup_erase_ne he,
        h.elsewhere k' hk']
  left := (AList.lookup_erase_ne hk.symm).trans h.left
  right := (AList.lookup_erase_ne hk.symm).trans h.right
  issued := h.issued
  drawn := h.drawn

/-- An identifier is drawn. -/
theorem Alike.draw (h : Alike id r₁ r₂ s t) (k : String) :
    Alike id r₁ r₂ { s with issued := k :: s.issued }
      { t with issued := k :: t.issued } where
  elsewhere := h.elsewhere
  left := h.left
  right := h.right
  issued := congrArg (k :: ·) h.issued
  drawn := List.mem_cons_of_mem k h.drawn

/-- What a call of the store does elsewhere does not depend on the record. -/
theorem Alike.store {o : PendingStoreOp C} {a : o.Ans E}
    {s' : ServiceState C} (h : Alike id r₁ r₂ s t)
    (ho : Elsewhere (E := E) (X := X) id r₁ r₂ (.store o))
    (hm : memoryStore s.records o a s'.records)
    (hi : s'.issued = s.issued) :
    Spares (E := E) (X := X) id (.store o) a ∧ ∃ t' : ServiceState C,
      (memoryStore t.records o a t'.records ∧ t'.issued = t.issued) ∧
        Alike id r₁ r₂ s' t' := by
  obtain ⟨m, l⟩ := s'
  cases hi
  cases o with
  | create r =>
      obtain ⟨rfl, rfl⟩ := hm
      exact ⟨trivial, { t with records := t.records.insert _ r },
        ⟨⟨rfl, rfl⟩, rfl⟩, h.insert ho r⟩
  | load k =>
      obtain ⟨rfl, rfl⟩ := hm
      exact ⟨trivial, t, ⟨⟨by rw [h.elsewhere k ho], rfl⟩, rfl⟩, h⟩
  | save k r =>
      obtain ⟨rfl, rfl⟩ := hm
      exact ⟨trivial, { t with records := t.records.insert _ r },
        ⟨⟨rfl, rfl⟩, rfl⟩, h.insert ho r⟩
  | complete k o =>
      obtain ⟨rfl, rfl⟩ := hm
      refine ⟨trivial, { t with records := completed t.records k o },
        ⟨⟨rfl, rfl⟩, rfl⟩, ?_⟩
      show Alike id r₁ r₂ { s with records := completed s.records k o } _
      rw [completed, completed, ← h.elsewhere k ho]
      cases s.records.lookup k with
      | none => exact h
      | some r => exact h.insert ho _
  | remove k =>
      obtain ⟨rfl, rfl⟩ := hm
      exact ⟨trivial, { t with records := t.records.erase k },
        ⟨⟨rfl, rfl⟩, rfl⟩, h.erase ho⟩
  | findIf p =>
      obtain ⟨rfl, found, rfl, hf⟩ := hm
      have hp : ∀ r, r₁ = some r ∨ r₂ = some r → p r = false := ho
      cases found with
      | none =>
          refine ⟨fun k r hr => ?_, t, ⟨⟨rfl, none, rfl, ?_⟩, rfl⟩, h⟩
          · cases hr
          · intro k r hr
            by_cases hk : k = id
            · subst hk
              exact hp r (.inr (h.right.symm.trans hr))
            · exact hf k r ((h.elsewhere k hk).trans hr)
      | some f =>
          obtain ⟨k, r⟩ := f
          obtain ⟨hl, hr⟩ := hf
          have hk : k ≠ id := by
            intro hk
            subst hk
            rw [hp r (.inl (h.left.symm.trans hl))] at hr
            cases hr
          refine ⟨fun k' r' he => ?_, t, ⟨⟨rfl, some (k, r), rfl, ?_⟩, rfl⟩, h⟩
          · cases he
            exact hk
          · exact ⟨(h.elsewhere k hk).symm.trans hl, hr⟩

/-- The step lemma: calls elsewhere are answered alike. -/
theorem mirrors_serviceWorld {env : (o : X.Op) → X.Ans o → Prop}
    {clock : Nat → Prop} :
    Mirrors (serviceWorld (E := E) env clock) (serviceWorld env clock)
      (Alike id r₁ r₂) (Spares id) (Elsewhere id r₁ r₂) := by
  intro s t o a s' h ho hw
  cases o with
  | store o => exact h.store ho hw.1 hw.2
  | now =>
      obtain ⟨hc, rfl⟩ := hw
      exact ⟨trivial, t, ⟨hc, rfl⟩, h⟩
  | pendingIdBytes =>
      obtain ⟨hnew, hr, hi⟩ := hw
      refine ⟨fun he => hnew (he ▸ h.drawn),
        { t with issued := generatePendingId a :: t.issued },
        ⟨h.issued ▸ hnew, rfl, rfl⟩, ?_⟩
      obtain ⟨m, l⟩ := s'
      cases hr
      cases hi
      exact h.draw _
  | ext o =>
      obtain ⟨he, rfl⟩ := hw
      exact ⟨trivial, t, ⟨he, rfl⟩, h⟩

end Alike

/-! ## Runs over either state -/

section Runs

variable {E C ι α : Type} {X : Sig} {id : String} {s t : ServiceState C}

/-- The two states have the same records elsewhere. -/
structure SameElsewhere (id : String) (s t : ServiceState C) : Prop where
  records : ∀ k, k ≠ id → s.records.lookup k = t.records.lookup k
  issued : s.issued = t.issued

/-- The run goes the same way over the record that `t` has under the
identifier, and leaves either record as it is. -/
def RunsAlike (W : World (serviceSig E C X) (ServiceState C)) (id : String)
    (P₀ Q₀ : Pool (serviceSig E C X) (ServiceState C) ι α)
    [DecidableEq ι] (l : List (ι × Event (serviceSig E C X)))
    (P : Pool (serviceSig E C X) (ServiceState C) ι α) : Prop :=
  P.state.records.lookup id = P₀.state.records.lookup id ∧
    ∃ Q, Steps W (fun _ _ _ => True) Q₀ l Q ∧ Q.thread = P.thread ∧
      SameElsewhere id P.state Q.state ∧
      Q.state.records.lookup id = Q₀.state.records.lookup id

theorem runsAlike_of_asks [DecidableEq ι]
    {env : (o : X.Op) → X.Ans o → Prop} {clock : Nat → Prop}
    {P₀ Q₀ P : Pool (serviceSig E C X) (ServiceState C) ι α}
    {l : List (ι × Event (serviceSig E C X))}
    (hst : SameElsewhere id P₀.state Q₀.state)
    (hdrawn : id ∈ P₀.state.issued) (ht : Q₀.thread = P₀.thread)
    (hasks : ∀ i, Asks (Spares id) (Elsewhere id
      (P₀.state.records.lookup id) (Q₀.state.records.lookup id))
        (P₀.thread i))
    (run : Steps (serviceWorld env clock) (fun _ _ _ => True) P₀ l P) :
    RunsAlike (serviceWorld env clock) id P₀ Q₀ l P := by
  have halike : Alike id (P₀.state.records.lookup id)
      (Q₀.state.records.lookup id) P₀.state Q₀.state :=
    ⟨hst.records, rfl, rfl, hst.issued, hdrawn⟩
  obtain ⟨Q, hQ, hR, hth, -⟩ :=
    run.mirror mirrors_serviceWorld hasks halike ht
  exact ⟨hR.left, Q, hQ, hth, ⟨hR.elsewhere, hR.issued⟩, hR.right⟩

end Runs

/-! ## What the calls ask -/

section Asked

variable {E C ε ε' α : Type} {X : Sig} {id : String}
  {r₁ r₂ : Option (PendingRecord C)}

theorem asks_liftProg {p : Prog (serviceSig E C X) α}
    (h : Asks (Spares id) (Elsewhere id r₁ r₂) p) :
    Asks (Spares id) (Elsewhere id r₁ r₂)
      (liftProg p : ExceptT ε (Prog (serviceSig E C X)) α).run :=
  h.bind fun _ => asks_ret

theorem asks_mapErr {f : ε → ε'} {p : Prog (serviceSig E C X) (Except ε α)}
    (h : Asks (Spares id) (Elsewhere id r₁ r₂) p) :
    Asks (Spares id) (Elsewhere id r₁ r₂) (mapErr f p).run :=
  h.bind fun _ => asks_ret

theorem asks_pollAuthPending {k : String} (hk : k ≠ id) :
    Asks (Spares id) (Elsewhere id r₁ r₂)
      (pollAuthPending (E := E) (C := C) (X := X) k).run := by
  refine wp_bind_except.mpr (wp_mapErr.mpr ⟨hk, fun found _ _ => ?_⟩)
  rcases found with e | _ | r
  · trivial
  · trivial
  · refine wp_bind_except.mpr (wp_liftProg.mpr ⟨trivial, fun now _ _ => ?_⟩)
    simp only [wp_ret]
    split
    · exact wp_bind_except.mpr (wp_liftProg.mpr ⟨hk, fun _ _ _ => trivial⟩)
    · trivial

end Asked

/-! ## The Person Server -/

section Person

variable {E : Type} {cr : Crates} {config : PersonServerConfig}
  {id : String} {r₁ r₂ : Option PersonPendingRecord}

/-- The identifier a call is about. -/
def PersonCall.names : PersonCall → Option String
  | .pollPending id | .resumePending id _
  | .resolveInteractionCallback id _ => some id
  | .exchangeToken _ _ | .beginInteraction _ => none

/-- What settles one record leaves the others alone. -/
theorem elsewhere_of_settleOp {k : String} (hk : k ≠ id)
    {l : List (PersonEvent E)} {o : (personSig E).Op}
    (h : SettleOp k l o) : Elsewhere id r₁ r₂ o := by
  cases o with
  | store o =>
      cases o with
      | create _ | findIf _ => exact h.elim
      | load _ | remove _ => exact fun he => hk (h.1.symm.trans he)
      | save _ _ => exact fun he => hk (h.1.symm.trans he)
      | complete k' o =>
          cases o with
          | opaqueAccess _ => exact h.elim
          | authToken _ | error _ => exact fun he => hk (h.1.symm.trans he)
  | now | pendingIdBytes | ext _ => trivial

theorem asks_of_settles {α : Type} {k : String} (hk : k ≠ id)
    {p : Prog (personSig E) α} {post : α → List (PersonEvent E) → Prop}
    (h : wp recorder (SettleOp k) p post []) :
    Asks (Spares id) (Elsewhere id r₁ r₂) p :=
  asks_of_recorder (fun _ _ _ ho => elsewhere_of_settleOp hk ho)
    (fun _ he => absurd he List.not_mem_nil) h

theorem exists_other (id : String) : ∃ k : String, k ≠ id := by
  by_cases h : id = ""
  · subst h
    exact ⟨"x", by decide⟩
  · exact ⟨"", Ne.symm h⟩

theorem asks_createRecord {context : PersonPendingContext}
    {requirement : DeferRequirement} :
    Asks (Spares id) (Elsewhere id r₁ r₂)
      (createRecord (E := E) config context requirement).run := by
  -- the record is opened under an identifier that was drawn just now
  refine wp_bind_except.mpr (wp_liftProg.mpr ⟨trivial, fun bytes _ hb => ?_⟩)
  refine wp_bind_except.mpr (wp_liftProg.mpr ⟨trivial, fun now _ _ => ?_⟩)
  refine wp_bind_except.mpr (wp_mapErr.mpr ⟨hb, fun answer _ _ => ?_⟩)
  cases answer with
  | error e => trivial
  | ok _ => trivial

theorem asks_applyPersonDecision {ctx : PersonTokenContext}
    {d : PersonTokenDecision} {agentJwt : String} :
    Asks (Spares id) (Elsewhere id r₁ r₂)
      (applyPersonDecision (E := E) cr config ctx d agentJwt).run := by
  obtain ⟨k, hk⟩ := exists_other id
  cases d with
  | grant grant =>
      refine (asks_of_settles hk (mintGrant_path fun h => h)).bind_except
        fun body => asks_ret
  | federate =>
      refine (asks_liftProg (asks_of_settles hk
        (federateToAccessServer_path fun h => h))).bind_except
          fun outcome => ?_
      cases outcome with
      | error e => exact asks_ret
      | ok outcome =>
          cases outcome with
          | complete body => exact asks_ret
          | deferred requirement asPendingUrl url => exact asks_createRecord
  | deny e => exact asks_ret
  | defer requirement => exact asks_createRecord

theorem asks_exchangeToken {ctx : PersonTokenContext} {agentJwt : String} :
    Asks (Spares id) (Elsewhere id r₁ r₂)
      (exchangeToken (E := E) cr config ctx agentJwt).run := by
  rw [exchangeToken]
  split
  · refine wp_liftExcept_bind.mpr ⟨fun _ _ => trivial, fun ix _ => ?_⟩
    refine wp_bind_except.mpr (wp_liftProg.mpr ⟨trivial, fun bytes _ _ => ?_⟩)
    simp only [wp_ret]
    split
    · exact wp_bind_except.mpr (wp_liftProg.mpr ⟨trivial, fun a => a.elim⟩)
    · exact asks_createRecord
  · refine wp_bind_except.mpr (wp_mapErr.mpr ⟨trivial, fun answer _ _ => ?_⟩)
    cases answer with
    | error e => trivial
    | ok d => exact asks_applyPersonDecision

theorem asks_beginInteraction {code : String}
    (hcode : ∀ canonical r, canonicalizeCode cr code = some canonical →
      (r₁ = some r ∨ r₂ = some r) → matchesCode canonical r = false) :
    Asks (Spares id) (Elsewhere id r₁ r₂)
      (beginInteraction (E := E) cr config code).run := by
  rw [beginInteraction]
  split
  · exact wp_bind_except.mpr (wp_liftProg.mpr ⟨trivial, fun a => a.elim⟩)
  · next canonical hc =>
    -- the record that is found is another one
    refine wp_bind_except.mpr (wp_mapErr.mpr
      ⟨fun r hr => hcode canonical r hc hr, fun found _ hf => ?_⟩)
    rcases found with e | _ | ⟨k, r⟩
    · trivial
    · trivial
    · have hk : k ≠ id := hf k r rfl
      refine wp_bind_except.mpr (wp_liftProg.mpr ⟨trivial,
        fun now _ _ => ?_⟩)
      simp only [wp_ret]
      split
      · exact wp_bind_except.mpr (wp_liftProg.mpr ⟨hk, fun _ _ _ => trivial⟩)
      · refine wp_bind_except.mpr (wp_mapErr.mpr ⟨hk, fun answer _ _ => ?_⟩)
        cases answer with
        | error e => trivial
        | ok _ => trivial

/-- A call that neither names the identifier nor brings the code. -/
theorem PersonCall.asks (c : PersonCall) (hn : c.names ≠ some id)
    (hcode : ∀ code canonical r, c = .beginInteraction code →
      canonicalizeCode cr code = some canonical →
        (r₁ = some r ∨ r₂ = some r) → matchesCode canonical r = false) :
    Asks (Spares id) (Elsewhere id r₁ r₂) (c.thread E cr config) := by
  refine Asks.bind ?_ fun _ => asks_ret
  cases c with
  | exchangeToken ctx agentJwt => exact asks_exchangeToken
  | pollPending k =>
      exact asks_mapErr (asks_pollAuthPending fun h => hn (congrArg some h))
  | resumePending k input =>
      exact asks_of_settles (fun h => hn (congrArg some h))
        (resumePending_path fun h => h)
  | beginInteraction code =>
      exact asks_beginInteraction fun canonical r => hcode code canonical r rfl
  | resolveInteractionCallback k err =>
      exact asks_of_settles (fun h => hn (congrArg some h))
        (resolveInteractionCallback_path fun h => h)

end Person

namespace Access

variable {E : Type} {config : AccessServerConfig} {id : String}
  {r₁ r₂ : Option AccessPendingRecord}

/-- A call as a thread of a pool. -/
def Call.thread (E : Type) (config : AccessServerConfig) (c : Call) :
    Prog (accessSig E) (Σ c, (service E config).Reply c) :=
  (service E config).prog c >>= fun reply => .ret ⟨c, reply⟩

/-- The identifier a call is about. -/
def Call.names : Call → Option String
  | .pollPending id | .resumePending id _ => some id
  | .exchangeToken _ => none

theorem asks_mintAccessAuth {grant : AuthGrant} {ctx : AccessTokenContext} :
    Asks (Spares id) (Elsewhere id r₁ r₂)
      (mintAccessAuth (E := E) config grant ctx).run := by
  refine wp_bind_except.mpr (wp_mapErr.mpr ⟨trivial, fun answer _ _ => ?_⟩)
  cases answer with
  | error e => trivial
  | ok token => trivial

theorem asks_exchangeToken {ctx : AccessTokenContext} :
    Asks (Spares id) (Elsewhere id r₁ r₂)
      (exchangeToken (E := E) config ctx).run := by
  refine wp_bind_except.mpr (wp_mapErr.mpr ⟨trivial, fun answer _ _ => ?_⟩)
  rcases answer with e | grant | e | requirement
  · trivial
  · exact asks_mintAccessAuth.bind_except fun body => asks_ret
  · trivial
  · -- the record is opened under an identifier that was drawn just now
    refine wp_bind_except.mpr (wp_liftProg.mpr ⟨trivial,
      fun bytes _ hb => ?_⟩)
    refine wp_bind_except.mpr (wp_liftProg.mpr ⟨trivial, fun now _ _ => ?_⟩)
    refine wp_bind_except.mpr (wp_mapErr.mpr ⟨hb, fun answer _ _ => ?_⟩)
    cases answer with
    | error e => trivial
    | ok _ => trivial

theorem asks_applyAccessPendingDecision {ctx : AccessTokenContext}
    {k : String} {d : AccessTokenDecision} (hk : k ≠ id) :
    Asks (Spares id) (Elsewhere id r₁ r₂)
      (applyAccessPendingDecision (E := E) config ctx k d).run := by
  cases d with
  | grant grant =>
      refine asks_mintAccessAuth.bind_except fun body => ?_
      refine wp_bind_except.mpr (wp_mapErr.mpr ⟨hk, fun answer _ _ => ?_⟩)
      cases answer with
      | error e => trivial
      | ok _ => trivial
  | deny e =>
      refine wp_bind_except.mpr (wp_mapErr.mpr ⟨hk, fun answer _ _ => ?_⟩)
      cases answer with
      | error e => trivial
      | ok _ => trivial
  | defer requirement =>
      refine wp_bind_except.mpr (wp_mapErr.mpr ⟨hk, fun found _ _ => ?_⟩)
      rcases found with e | _ | r
      · trivial
      · trivial
      · refine wp_bind_except.mpr (wp_mapErr.mpr ⟨hk, fun answer _ _ => ?_⟩)
        cases answer with
        | error e => trivial
        | ok _ => trivial

theorem asks_resumePending {k : String} {input : PendingInput}
    (hk : k ≠ id) :
    Asks (Spares id) (Elsewhere id r₁ r₂)
      (resumePending (E := E) config k input).run := by
  refine wp_bind_except.mpr (wp_mapErr.mpr ⟨hk, fun found _ _ => ?_⟩)
  rcases found with e | _ | r
  · trivial
  · trivial
  · refine wp_bind_except.mpr (wp_liftProg.mpr ⟨trivial, fun now _ _ => ?_⟩)
    simp only [wp_ret]
    split
    · exact wp_bind_except.mpr (wp_liftProg.mpr ⟨hk, fun _ _ _ => trivial⟩)
    · refine wp_bind_except.mpr (wp_mapErr.mpr ⟨trivial,
        fun answer _ _ => ?_⟩)
      cases answer with
      | error e => trivial
      | ok d => exact asks_applyAccessPendingDecision hk

/-- A call that does not name the identifier. -/
theorem Call.asks (c : Call) (hn : c.names ≠ some id) :
    Asks (Spares id) (Elsewhere id r₁ r₂) (c.thread E config) := by
  refine Asks.bind ?_ fun _ => asks_ret
  cases c with
  | exchangeToken ctx => exact asks_exchangeToken
  | pollPending k =>
      exact asks_mapErr (asks_pollAuthPending fun h => hn (congrArg some h))
  | resumePending k input =>
      exact asks_resumePending fun h => hn (congrArg some h)

end Access

namespace Resource

variable {E : Type} {config : ResourceAccessConfig} {id : String}
  {r₁ r₂ : Option (PendingRecord ResourcePendingContext)}

/-- A call as a thread of a pool. -/
def Call.thread (E : Type) (config : ResourceAccessConfig) (c : Call) :
    Prog (resourceSig E) (Σ c, (service E config).Reply c) :=
  (service E config).prog c >>= fun reply => .ret ⟨c, reply⟩

/-- The identifier a call is about. -/
def Call.names : Call → Option String
  | .pollPending id => some id
  | .consentForAgent _ => none

theorem asks_fillInteraction {requirement : DeferRequirement} :
    Asks (Spares id) (Elsewhere id r₁ r₂)
      (fillInteraction (E := E) config requirement).run := by
  cases requirement with
  | interaction url code =>
      rw [fillInteraction]
      split
      · exact wp_bind_except.mpr (wp_liftProg.mpr ⟨trivial,
          fun bytes _ _ => trivial⟩)
      · trivial
  | clarification _ _ | claims _ | approval | payment _ => trivial

theorem asks_consentForAgent {ctx : ResourceAccessContext} :
    Asks (Spares id) (Elsewhere id r₁ r₂)
      (consentForAgent (E := E) config ctx).run := by
  refine wp_bind_except.mpr (wp_mapErr.mpr ⟨trivial, fun answer _ _ => ?_⟩)
  rcases answer with e | _ | e | requirement
  · trivial
  · exact wp_bind_except.mpr (wp_liftProg.mpr ⟨trivial,
      fun token _ _ => trivial⟩)
  · trivial
  · refine asks_fillInteraction.bind_except fun requirement => ?_
    refine wp_bind_except.mpr (wp_liftProg.mpr ⟨trivial,
      fun bytes _ hb => ?_⟩)
    refine wp_bind_except.mpr (wp_liftProg.mpr ⟨trivial, fun now _ _ => ?_⟩)
    refine wp_bind_except.mpr (wp_mapErr.mpr ⟨hb, fun answer _ _ => ?_⟩)
    cases answer with
    | error e => trivial
    | ok _ => trivial

/-- A call that does not name the identifier. -/
theorem Call.asks (c : Call) (hn : c.names ≠ some id) :
    Asks (Spares id) (Elsewhere id r₁ r₂) (c.thread E config) := by
  refine Asks.bind ?_ fun _ => asks_ret
  cases c with
  | consentForAgent ctx => exact asks_consentForAgent
  | pollPending k =>
      have hk : k ≠ id := fun h => hn (congrArg some h)
      refine Asks.bind_except (asks_mapErr (asks_pollAuthPending hk))
        fun outcome => ?_
      split
      · exact wp_bind_except.mpr (wp_liftProg.mpr ⟨hk,
          fun _ _ _ => trivial⟩)
      · trivial

end Resource

/-! ## Runs -/

section Isolated

variable {E ι : Type} {id : String} [DecidableEq ι] {clock : Nat → Prop}

/-- What is stored under an identifier stays there, and makes no difference
to calls that neither name it nor bring its code: any interleaving of them
is, call by call and answer by answer, one that goes on over any other
record in its place, or none. -/
theorem pending_records_isolated {cr : Crates} {config : PersonServerConfig}
    {env : (o : PersonOp) → personExt.Ans o → Prop}
    {calls : ι → PersonCall} {s t : ServiceState PersonPendingContext}
    (hst : SameElsewhere id s t) (hdrawn : id ∈ s.issued)
    (hnames : ∀ i, (calls i).names ≠ some id)
    (hcodes : ∀ i code canonical r, calls i = .beginInteraction code →
      canonicalizeCode cr code = some canonical →
        (s.records.lookup id = some r ∨ t.records.lookup id = some r) →
          matchesCode canonical r = false)
    {l : List (ι × PersonEvent E)} {P : PersonPool E ι cr config}
    (run : Steps (serviceWorld env clock) (fun _ _ _ => True)
      (personPool E cr config calls s) l P) :
    RunsAlike (serviceWorld env clock) id (personPool E cr config calls s)
      (personPool E cr config calls t) l P :=
  runsAlike_of_asks hst hdrawn rfl
    (fun i => (calls i).asks (hnames i) (hcodes i)) run

/-- The same of the Access Server, which knows no codes. -/
theorem access_records_isolated {config : AccessServerConfig}
    {env : (o : AccessOp) → accessExt.Ans o → Prop}
    {calls : ι → Access.Call} {s t : ServiceState AccessPendingContext}
    (hst : SameElsewhere id s t) (hdrawn : id ∈ s.issued)
    (hnames : ∀ i, (calls i).names ≠ some id)
    {l : List (ι × Event (accessSig E))}
    {P : Pool (accessSig E) (ServiceState AccessPendingContext) ι
      (Σ c, (Access.service E config).Reply c)}
    (run : Steps (serviceWorld env clock) (fun _ _ _ => True)
      ⟨s, fun i => (calls i).thread E config⟩ l P) :
    RunsAlike (serviceWorld env clock) id
      ⟨s, fun i => (calls i).thread E config⟩
      ⟨t, fun i => (calls i).thread E config⟩ l P :=
  runsAlike_of_asks hst hdrawn rfl (fun i => (calls i).asks (hnames i)) run

/-- And of a resource that keeps its own consents: what an agent waits for
is collected by who knows the pending URL and by nobody else. -/
theorem resource_records_isolated {config : ResourceAccessConfig}
    {env : (o : ResourceOp) → resourceExt.Ans o → Prop}
    {calls : ι → Resource.Call} {s t : ServiceState ResourcePendingContext}
    (hst : SameElsewhere id s t) (hdrawn : id ∈ s.issued)
    (hnames : ∀ i, (calls i).names ≠ some id)
    {l : List (ι × Event (resourceSig E))}
    {P : Pool (resourceSig E) (ServiceState ResourcePendingContext) ι
      (Σ c, (Resource.service E config).Reply c)}
    (run : Steps (serviceWorld env clock) (fun _ _ _ => True)
      ⟨s, fun i => (calls i).thread E config⟩ l P) :
    RunsAlike (serviceWorld env clock) id
      ⟨s, fun i => (calls i).thread E config⟩
      ⟨t, fun i => (calls i).thread E config⟩ l P :=
  runsAlike_of_asks hst hdrawn rfl (fun i => (calls i).asks (hnames i)) run

end Isolated

namespace Sample

/-- The gated request is waiting, or was withdrawn. -/
theorem sameElsewhere_gated : SameElsewhere firstId gated
    { gated with records := gated.records.erase firstId } where
  records _ hk := (AList.lookup_erase_ne hk).symm
  issued := rfl

/-- Two agents poll side by side for a request that is not there. -/
theorem pending_records_isolated_gated : ∃ l P,
    RunsAlike (momentWorld gatedEnv now) firstId
      (personPool Empty crates personConfig
        (fun _ : Bool => .pollPending "other") gated)
      (personPool Empty crates personConfig
        (fun _ : Bool => .pollPending "other")
        { gated with records := gated.records.erase firstId }) l P := by
  let W : World (personSig Empty) (ServiceState PersonPendingContext) :=
    momentWorld gatedEnv now
  have hother : gated.records.lookup "other" = none :=
    AList.lookup_insert_ne (by decide)
  have hload : W gated (.store (.load "other")) (.ok none) gated :=
    ⟨⟨congrArg Except.ok hother.symm, rfl⟩, rfl⟩
  refine ⟨_, _, pending_records_isolated sameElsewhere_gated
    List.mem_cons_self ?_ ?_ (.step (i := true) (.step (i := false) .nil
      trivial (.mk rfl hload)) trivial (.mk rfl hload))⟩
  · intro i hi
    exact absurd (Option.some.inj hi) (by decide)
  · intro i code canonical r hc
    cases hc

/-- A request that waits for the Access Server's approval. -/
def accessWaiting : ServiceState AccessPendingContext where
  records := AList.insert firstId
    (.new now firstId (Access.toPending (accessContext accessConfig
      forgedExchange bot (challenge resource accessServer agentKey))) (.ofRequirement .approval)
      accessConfig.pendingTtlSecs) ∅
  issued := [firstId]

theorem access_records_isolated_waiting : ∃ l P,
    RunsAlike (serviceWorld (fun _ _ => True) (· = now)) firstId
      ⟨accessWaiting, fun _ : Bool => (Access.Call.pollPending "other").thread
        Empty accessConfig⟩
      ⟨{ accessWaiting with records := ∅ },
        fun _ : Bool => (Access.Call.pollPending "other").thread Empty
          accessConfig⟩ l P := by
  let W : World (accessSig Empty) (ServiceState AccessPendingContext) :=
    serviceWorld (fun _ _ => True) (· = now)
  have hother : accessWaiting.records.lookup "other" = none :=
    AList.lookup_insert_ne (by decide)
  have hload : W accessWaiting (.store (.load "other")) (.ok none)
      accessWaiting :=
    ⟨⟨congrArg Except.ok hother.symm, rfl⟩, rfl⟩
  have hst : SameElsewhere firstId accessWaiting
      { accessWaiting with records := ∅ } :=
    ⟨fun k hk => AList.lookup_insert_ne hk, rfl⟩
  refine ⟨_, _, access_records_isolated hst List.mem_cons_self ?_
    (.step (i := true) (.step (i := false) .nil trivial (.mk rfl hload))
      trivial (.mk rfl hload))⟩
  intro i hi
  exact absurd (Option.some.inj hi) (by decide)

end Sample

end Aauth
