import Aauth.Ref.PendingStore

/-!
# Rules for the store operations

What each effect of a service does in the world of the in-memory store,
as rewrite rules for `wp`. With them a walk through an operation of a
service is a simplification, and the only splits left are those of the
operation itself.
-/

namespace Aauth

open Effect

/-! ## Lifting -/

section Lift

variable {S : Sig} {σ α ε ε' : Type} {W : World S σ}
  {pre : σ → S.Op → Prop}

@[simp] theorem wp_mapErr {f : ε → ε'} {p : Prog S (Except ε α)}
    {post : Except ε' α → σ → Prop} {s : σ} :
    wp W pre (mapErr f p).run post s ↔
      wp W pre p (fun r => post (r.mapError f)) s := wp_bind

@[simp] theorem wp_liftProg {p : Prog S α} {post : Except ε α → σ → Prop}
    {s : σ} :
    wp W pre (liftProg p).run post s ↔
      wp W pre p (fun a => post (.ok a)) s := wp_bind

end Lift

/-! ## The in-memory store -/

section Store

variable {E C : Type} {X : Sig} {env : (o : X.Op) → X.Ans o → Prop}
  {clock : Nat → Prop}
  {pre : ServiceState C → (serviceSig E C X).Op → Prop}
  {s : ServiceState C} {id : String}

@[simp] theorem wp_create {r : PendingRecord C}
    {post : Except E String → ServiceState C → Prop} :
    wp (serviceWorld env clock) pre (PendingStore.create r) post s ↔
      pre s (.store (.create r)) ∧
        post (.ok r.id) { s with records := s.records.insert r.id r } := by
  refine and_congr_right fun _ => ⟨fun h => ?_, ?_⟩
  · exact h (.ok r.id) _ ⟨⟨rfl, rfl⟩, rfl⟩
  · rintro h a ⟨m, l⟩ ⟨⟨rfl, hm⟩, hl⟩
    cases hm
    cases hl
    exact h

@[simp] theorem wp_load
    {post : Except E (Option (PendingRecord C)) → ServiceState C → Prop} :
    wp (serviceWorld env clock) pre (PendingStore.load id) post s ↔
      pre s (.store (.load id)) ∧ post (.ok (s.records.lookup id)) s := by
  refine and_congr_right fun _ => ⟨fun h => ?_, ?_⟩
  · exact h (.ok _) _ ⟨⟨rfl, rfl⟩, rfl⟩
  · rintro h a ⟨m, l⟩ ⟨⟨rfl, hm⟩, hl⟩
    cases hm
    cases hl
    exact h

@[simp] theorem wp_save {r : PendingRecord C}
    {post : Except E Unit → ServiceState C → Prop} :
    wp (serviceWorld env clock) pre (PendingStore.save id r) post s ↔
      pre s (.store (.save id r)) ∧
        post (.ok ()) { s with records := s.records.insert id r } := by
  refine and_congr_right fun _ => ⟨fun h => ?_, ?_⟩
  · exact h (.ok ()) _ ⟨⟨rfl, rfl⟩, rfl⟩
  · rintro h a ⟨m, l⟩ ⟨⟨rfl, hm⟩, hl⟩
    cases hm
    cases hl
    exact h

/-- What `complete` leaves of the records. -/
def completed (m : PendingMap C) (id : String) (o : PendingOutcome) :
    PendingMap C :=
  match m.lookup id with
  | some r => m.insert id { r with snapshot := .complete o }
  | none => m

theorem completed_of_lookup {m : PendingMap C} {r : PendingRecord C}
    {o : PendingOutcome} (h : m.lookup id = some r) :
    completed m id o = m.insert id { r with snapshot := .complete o } := by
  rw [completed, h]

@[simp] theorem wp_complete {o : PendingOutcome}
    {post : Except E Unit → ServiceState C → Prop} :
    wp (serviceWorld env clock) pre (PendingStore.complete id o) post s ↔
      pre s (.store (.complete id o)) ∧
        post (.ok ()) { s with records := completed s.records id o } := by
  refine and_congr_right fun _ => ⟨fun h => ?_, ?_⟩
  · exact h (.ok ()) _ ⟨⟨rfl, rfl⟩, rfl⟩
  · rintro h a ⟨m, l⟩ ⟨⟨rfl, hm⟩, hl⟩
    cases hm
    cases hl
    exact h

@[simp] theorem wp_remove {post : Except E Unit → ServiceState C → Prop} :
    wp (serviceWorld env clock) pre (PendingStore.remove id) post s ↔
      pre s (.store (.remove id)) ∧
        post (.ok ()) { s with records := s.records.erase id } := by
  refine and_congr_right fun _ => ⟨fun h => ?_, ?_⟩
  · exact h (.ok ()) _ ⟨⟨rfl, rfl⟩, rfl⟩
  · rintro h a ⟨m, l⟩ ⟨⟨rfl, hm⟩, hl⟩
    cases hm
    cases hl
    exact h

@[simp] theorem wp_findIf {p : PendingRecord C → Bool}
    {post : Except E (Option (String × PendingRecord C)) →
      ServiceState C → Prop} :
    wp (serviceWorld env clock) pre (PendingStore.findIf p) post s ↔
      pre s (.store (.findIf p)) ∧
        (∀ id r, s.records.lookup id = some r → p r = true →
          post (.ok (some (id, r))) s) ∧
        ((∀ id r, s.records.lookup id = some r → p r = false) →
          post (.ok none) s) := by
  refine and_congr_right fun _ => ⟨fun h => ⟨fun id r hl hp => ?_,
    fun hn => ?_⟩, ?_⟩
  · exact h _ _ ⟨⟨rfl, _, rfl, hl, hp⟩, rfl⟩
  · exact h _ _ ⟨⟨rfl, _, rfl, hn⟩, rfl⟩
  · rintro ⟨hsome, hnone⟩ a ⟨m, l⟩ ⟨⟨hm, found, rfl, hf⟩, hl⟩
    cases hm
    cases hl
    cases found with
    | none => exact hnone hf
    | some f => exact hsome f.1 f.2 hf.1 hf.2

@[simp] theorem wp_systemNow {post : Nat → ServiceState C → Prop} :
    wp (serviceWorld (E := E) env clock) pre systemNow post s ↔
      pre s .now ∧ ∀ t, clock t → post t s := by
  refine and_congr_right fun _ => ⟨fun h t ht => h t s ⟨ht, rfl⟩, ?_⟩
  rintro h t s' ⟨ht, rfl⟩
  exact h t ht

@[simp] theorem wp_pendingIdBytes {post : Bytes → ServiceState C → Prop} :
    wp (serviceWorld (E := E) env clock) pre pendingIdBytes post s ↔
      pre s .pendingIdBytes ∧ ∀ bytes, generatePendingId bytes ∉ s.issued →
        post bytes
          { s with issued := generatePendingId bytes :: s.issued } := by
  refine and_congr_right fun _ => ⟨fun h b hb => ?_, ?_⟩
  · exact h b _ ⟨hb, rfl, rfl⟩
  · rintro h b ⟨m, l⟩ ⟨hb, hm, hl⟩
    cases hm
    cases hl
    exact h b hb

/-- An effect of the service itself. -/
theorem wp_ext {o : X.Op} {post : X.Ans o → ServiceState C → Prop} :
    wp (serviceWorld (E := E) env clock) pre (.call (.ext o) .ret) post s ↔
      pre s (.ext o) ∧ ∀ a, env o a → post a s := by
  refine and_congr_right fun _ => ⟨fun h a ha => h a s ⟨ha, rfl⟩, ?_⟩
  rintro h a s' ⟨ha, rfl⟩
  exact h a ha

/-! ## What is asked of a service's effects -/

/-- Nothing is asked of the store, the clock and the identifiers, and `P`
of the service's own effects. -/
def OnExt (P : X.Op → Prop) (_ : ServiceState C) :
    (serviceSig E C X).Op → Prop
  | .ext o => P o
  | _ => True

section OnExt

variable {P : X.Op → Prop}

@[simp] theorem onExt_store (o : PendingStoreOp C) :
    OnExt (E := E) P s (.store o) ↔ True := Iff.rfl

@[simp] theorem onExt_now : OnExt (E := E) P s .now ↔ True := Iff.rfl

@[simp] theorem onExt_pendingIdBytes :
    OnExt (E := E) P s .pendingIdBytes ↔ True := Iff.rfl

@[simp] theorem onExt_ext (o : X.Op) :
    OnExt (E := E) P s (.ext o) ↔ P o := Iff.rfl

end OnExt

/-! ## Changing one record -/

/-- What a call does to the record it is about. -/
inductive Change (C : Type) where
  | keep
  | erase
  | write (r : PendingRecord C)

def Change.apply (id : String) (m : PendingMap C) : Change C → PendingMap C
  | keep => m
  | erase => m.erase id
  | write r => m.insert id r

/-- What a program leaves when all it did to the store is the change that
`R` ties to its result. -/
def Settling {α : Type} (R : α → Change C → Prop) (id : String)
    (s : ServiceState C) (reply : α) (s' : ServiceState C) : Prop :=
  ∃ ch, R reply ch ∧ s' = { s with records := ch.apply id s.records }

/-- A call at time `t` on the record under `id`: a missing one is gone, an
expired one is removed, and a live one is left to `K`. -/
inductive OnRecord {α : Type} (gone : α) (t : Nat) (id : String)
    (m : PendingMap C) (K : PendingRecord C → α → Change C → Prop) :
    α → Change C → Prop where
  | absent : m.lookup id = none → OnRecord gone t id m K gone .keep
  | expired {r : PendingRecord C} : m.lookup id = some r →
      r.isExpired t = true → OnRecord gone t id m K gone .erase
  | live {r : PendingRecord C} {reply : α} {ch : Change C} :
      m.lookup id = some r → r.isExpired t = false → K r reply ch →
      OnRecord gone t id m K reply ch

/-! ## Finding a live record -/

/-- What a program leaves when it draws no identifier and ends as `R`
says. -/
def Keeps {α : Type} (R : α → PendingMap C → Prop) (s : ServiceState C)
    (reply : α) (s' : ServiceState C) : Prop :=
  R reply s'.records ∧ s'.issued = s.issued

/-- A call at time `t` on the record under `id`: a missing one is gone, an
expired one is removed, and a live one is left to `K`. -/
inductive OnLive {α : Type} (gone : α) (t : Nat) (id : String)
    (m : PendingMap C) (K : PendingRecord C → α → PendingMap C → Prop) :
    α → PendingMap C → Prop where
  | absent : m.lookup id = none → OnLive gone t id m K gone m
  | expired {r : PendingRecord C} : m.lookup id = some r →
      r.isExpired t = true → OnLive gone t id m K gone (m.erase id)
  | live {r : PendingRecord C} {reply : α} {m' : PendingMap C} :
      m.lookup id = some r → r.isExpired t = false → K r reply m' →
      OnLive gone t id m K reply m'

/-- A change of one record, as what it leaves of the map. -/
theorem OnRecord.onLive {α : Type} {gone reply : α} {t : Nat}
    {m : PendingMap C} {ch : Change C}
    {K : PendingRecord C → α → Change C → Prop}
    {K' : PendingRecord C → α → PendingMap C → Prop}
    (hK : ∀ {r}, m.lookup id = some r → K r reply ch →
      K' r reply (ch.apply id m))
    (h : OnRecord gone t id m K reply ch) :
    OnLive gone t id m K' reply (ch.apply id m) := by
  cases h with
  | absent hl => exact .absent hl
  | expired hl hx => exact .expired hl hx
  | live hl hx h => exact .live hl hx (hK hl h)

/-- A settled call, as what it leaves of the map. -/
theorem Settling.keeps {α : Type} {gone reply : α} {t : Nat}
    {s' : ServiceState C} {K : PendingRecord C → α → Change C → Prop}
    {K' : PendingRecord C → α → PendingMap C → Prop}
    (hK : ∀ {r ch}, K r reply ch → K' r reply (ch.apply id s.records))
    (h : Settling (OnRecord gone t id s.records K) id s reply s') :
    Keeps (OnLive gone t id s.records K') s reply s' := by
  obtain ⟨ch, h, rfl⟩ := h
  exact ⟨h.onLive fun _ h => hK h, rfl⟩

/-- What a poll finds. -/
abbrev Polled (E : Type) (t : Nat) (id : String) (m : PendingMap C) :
    Except E AuthTokenPollOutcome → PendingMap C → Prop :=
  OnLive (.ok .gone) t id m fun r reply m' =>
    reply = .ok (pollOutcomeFromSnapshot r.snapshot) ∧ m' = m

theorem pollOutcomeFromSnapshot_eq_complete {snapshot : PendingSnapshot}
    {o : PendingOutcome} :
    pollOutcomeFromSnapshot snapshot = .complete o ↔
      snapshot = .complete o := by
  cases snapshot <;> simp [pollOutcomeFromSnapshot]

/-- A poll reads the record, or removes it when it is expired. -/
theorem pollAuthPending_reads {t : Nat} {P : X.Op → Prop} :
    wp (momentWorld env t) (OnExt P) (pollAuthPending (E := E) id).run
      (Settling (OnRecord (.ok .gone) t id s.records fun r reply ch =>
        reply = .ok (pollOutcomeFromSnapshot r.snapshot) ∧ ch = .keep)
        id s) s := by
  simp only [pollAuthPending, wp_bind_except, wp_mapErr, wp_load,
    Except.mapError, onExt_store, true_and]
  cases hl : s.records.lookup id with
  | none => exact ⟨.keep, .absent hl, rfl⟩
  | some r =>
      simp only [wp_bind_except, wp_liftProg, wp_systemNow, onExt_now,
        true_and]
      intro now hnow
      subst hnow
      cases hx : r.isExpired now with
      | true =>
          simp only [if_true, wp_bind_except, wp_liftProg, wp_remove,
            onExt_store, true_and]
          exact ⟨.erase, .expired hl hx, rfl⟩
      | false => exact ⟨.keep, .live hl hx ⟨rfl, rfl⟩, rfl⟩

/-! ## Writing one record -/

variable {m : PendingMap C} {id' : String}

/-- What a call on the record under `id` does to the map: nothing, or it
removes the record, or it writes another one over it. -/
inductive Touched (id : String) (m : PendingMap C) : PendingMap C → Prop where
  | same : Touched id m m
  | erased : Touched id m (m.erase id)
  | written {r r' : PendingRecord C} : m.lookup id = some r →
      Touched id m (m.insert id r')

theorem OnLive.touched {α : Type} {gone reply : α} {t : Nat}
    {K : PendingRecord C → α → PendingMap C → Prop} {m' : PendingMap C}
    (hK : ∀ {r}, m.lookup id = some r → K r reply m' → Touched id m m')
    (h : OnLive gone t id m K reply m') : Touched id m m' := by
  cases h with
  | absent _ => exact .same
  | expired _ _ => exact .erased
  | live hl _ h => exact hK hl h

theorem Polled.touched {E : Type} {t : Nat} {m' : PendingMap C}
    {reply : Except E AuthTokenPollOutcome}
    (h : Polled E t id m reply m') : Touched id m m' := by
  refine OnLive.touched (fun _ h => ?_) h
  rw [h.2]
  exact .same

/-- A call on one record leaves every other record alone. -/
theorem Touched.frame {m' : PendingMap C} (h : Touched id m m')
    (hid : id' ≠ id) : m'.lookup id' = m.lookup id' := by
  cases h with
  | same => rfl
  | erased => exact AList.lookup_erase_ne hid
  | written _ => exact AList.lookup_insert_ne hid

/-- A changed record, looked up. -/
theorem Change.found {ch : Change C} {r : PendingRecord C}
    (h : (ch.apply id m).lookup id' = some r) :
    m.lookup id' = some r ∨ id' = id ∧ ch = .write r := by
  cases ch with
  | keep => exact .inl h
  | erase =>
      by_cases hid : id' = id
      · rw [hid, Change.apply, AList.lookup_erase] at h
        cases h
      · rw [Change.apply, AList.lookup_erase_ne hid] at h
        exact .inl h
  | write r' =>
      by_cases hid : id' = id
      · rw [hid, Change.apply, AList.lookup_insert] at h
        cases h
        exact .inr ⟨hid, rfl⟩
      · rw [Change.apply, AList.lookup_insert_ne hid] at h
        exact .inl h

/-- Only a live record is written over. -/
theorem OnRecord.wrote {α : Type} {gone reply : α} {t : Nat}
    {K : PendingRecord C → α → Change C → Prop}
    {r' : PendingRecord C} (h : OnRecord gone t id m K reply (.write r')) :
    ∃ r, m.lookup id = some r ∧ r.isExpired t = false ∧
      K r reply (.write r') := by
  cases h with
  | live hl hx h => exact ⟨_, hl, hx, h⟩

/-- What was found when a record's call handed something out. -/
theorem OnRecord.granted {α : Type} {gone reply : α} {t : Nat}
    {K : PendingRecord C → α → Change C → Prop}
    {ch : Change C} (h : OnRecord gone t id m K reply ch)
    (hne : reply ≠ gone) :
    ∃ r, m.lookup id = some r ∧ r.isExpired t = false ∧ K r reply ch := by
  cases h with
  | absent _ | expired _ _ => exact absurd rfl hne
  | live hl hx h => exact ⟨_, hl, hx, h⟩

/-! ## Properties of every record -/

/-- `P` holds of every record and its identifier. -/
def Every (P : String → PendingRecord C → Prop) (m : PendingMap C) : Prop :=
  ∀ id r, m.lookup id = some r → P id r

theorem Every.empty {P : String → PendingRecord C → Prop} :
    Every P (∅ : PendingMap C) := by
  intro id r hr
  rw [AList.lookup_empty] at hr
  cases hr

theorem Every.mono {P Q : String → PendingRecord C → Prop}
    (h : Every P m) (hPQ : ∀ id r, P id r → Q id r) : Every Q m :=
  fun id r hr => hPQ id r (h id r hr)

theorem Every.erase {P : String → PendingRecord C → Prop}
    (h : Every P m) : Every P (m.erase id) := by
  intro id' r hr
  by_cases hid : id' = id
  · rw [hid, AList.lookup_erase] at hr
    cases hr
  · rw [AList.lookup_erase_ne hid] at hr
    exact h id' r hr

theorem Every.insert {P : String → PendingRecord C → Prop}
    {r : PendingRecord C} (h : Every P m) (hr : P id r) :
    Every P (m.insert id r) := by
  intro id' r' hr'
  by_cases hid : id' = id
  · subst hid
    rw [AList.lookup_insert] at hr'
    cases hr'
    exact hr
  · rw [AList.lookup_insert_ne hid] at hr'
    exact h id' r' hr'

/-- A call on a record keeps what every record has, when it does so on a
live one. -/
theorem OnLive.every {α : Type} {gone reply : α} {t : Nat}
    {K : PendingRecord C → α → PendingMap C → Prop} {m' : PendingMap C}
    {P : String → PendingRecord C → Prop}
    (h : OnLive gone t id m K reply m') (hP : Every P m)
    (hK : ∀ {r}, P id r → K r reply m' → Every P m') : Every P m' := by
  cases h with
  | absent _ => exact hP
  | expired _ _ => exact hP.erase
  | live hl _ h => exact hK (hP _ _ hl) h

end Store

end Aauth
