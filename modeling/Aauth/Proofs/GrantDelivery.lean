import Aauth.Lib.Pool
import Aauth.Proofs.Store
import Aauth.Ref.ResourceService
import Aauth.Sample.Servers

/-!
# Who gets a stored grant

A poll of the resource's pending store loads the record and removes it in a
second call of the store; whoever has loaded it hands it out, even when it
is gone by the time of the removal. So the polls that find the record are
the polls that deliver, and there is one of them as long as nobody looks
while another is between the two (`LoadsAlone`).
-/

namespace Aauth

open Effect

namespace Resource

section Polls

variable {E ι : Type} {id : String}

abbrev ResourceEvent (E : Type) := Event (resourceSig E)

abbrev ResourcePollReply (E : Type) :=
  Except (ResourceAccessServiceError E) AuthTokenPollOutcome

abbrev PollPool (E ι : Type) :=
  Pool (resourceSig E) (ServiceState ResourcePendingContext) ι
    (ResourcePollReply E)

/-! ## One poll -/

/-- The poll found the record. -/
def found (id : String) (r : ResourcePendingRecord) : ResourceEvent E :=
  ⟨.store (.load id), .ok (some r)⟩

def removed (id : String) (answer : Except E Unit) : ResourceEvent E :=
  ⟨.store (.remove id), answer⟩

/-- What a poll has done before an operation. -/
def PollOp (id : String) (l : List (ResourceEvent E)) :
    (resourceSig E).Op → Prop
  | .store (.load id') => id' = id ∧ l = []
  | .store (.remove id') => id' = id
  | .now => True
  | _ => False

/-- How a poll ends. One that found a grant has removed it. -/
inductive PollEnds (id : String) :
    ResourcePollReply E → List (ResourceEvent E) → Prop where
  | failed {e : E} :
      PollEnds id (.error (.pendingStore e)) [⟨.store (.load id), .error e⟩]
  | absent : PollEnds id (.ok .gone) [⟨.store (.load id), .ok none⟩]
  | present {r : ResourcePendingRecord} {outcome : AuthTokenPollOutcome}
      {l : List (ResourceEvent E)} : found id r ∈ l →
      outcome = .gone ∨ outcome = pollOutcomeFromSnapshot r.snapshot →
      (handedOut (pollOutcomeFromSnapshot r.snapshot) = true →
        ∃ answer, removed id answer ∈ l) →
      PollEnds id (.ok outcome) l

theorem pollPending_path :
    wp recorder (PollOp id) (pollPending (E := E) id).run (PollEnds id)
      [] := by
  simp only [pollPending, pollAuthPending, wp_bind_except, wp_mapErr]
  refine ⟨⟨rfl, rfl⟩, ?_⟩
  rintro answer _ rfl
  cases answer with
  | error e => exact .failed
  | ok record =>
      cases record with
      | none => exact .absent
      | some r =>
          have hfound : found id r ∈
              [(⟨.store (.load id), .ok (some r)⟩ : ResourceEvent E)] :=
            List.mem_singleton_self _
          show wp _ _ (liftProg systemNow >>= _ : ExceptT _ _ _).run _ _
          rw [wp_bind_except, wp_liftProg]
          refine ⟨trivial, ?_⟩
          rintro now _ rfl
          show wp _ _ (if r.isExpired now then _ else _ : ExceptT _ _ _).run
            _ _
          split
          · rw [wp_bind_except, wp_liftProg]
            refine ⟨rfl, ?_⟩
            rintro a _ rfl
            exact .present (.tail _ (.tail _ hfound)) (.inl rfl)
              fun _ => ⟨a, List.mem_cons_self⟩
          · show wp _ _ (if handedOut (pollOutcomeFromSnapshot r.snapshot) then
              _ else _ : ExceptT _ _ _).run _ _
            split
            · rw [wp_bind_except, wp_liftProg]
              refine ⟨rfl, ?_⟩
              rintro a _ rfl
              exact .present (.tail _ (.tail _ hfound)) (.inr rfl)
                fun _ => ⟨a, List.mem_cons_self⟩
            · next h =>
              exact .present (.tail _ hfound) (.inr rfl)
                fun h' => absurd h' h

/-! ## Polls side by side -/

/-- Polls of one record that start out from the state `s`. -/
def polls (id : String) (s : ServiceState ResourcePendingContext) :
    PollPool E ι where
  state := s
  thread _ := (pollPending id).run

/-- A poll finds the record only while no other is between finding and
removing it. -/
def LoadsAlone (id : String) (P : PollPool E ι) (i : ι)
    (o : (resourceSig E).Op) : Prop :=
  o = .store (.load id) → P.state.records.lookup id ≠ none →
    ∀ j, j ≠ i → P.thread j = (pollPending id).run ∨
      ∃ reply, P.thread j = .ret reply

/-- What polls that load alone have done to the record `r₀`. -/
structure FoundOnce (id : String) (r₀ : ResourcePendingRecord)
    (t : List (ι × ResourceEvent E)) (P : PollPool E ι) : Prop where
  record : P.state.records.lookup id = some r₀ ∨
    P.state.records.lookup id = none
  answered : ∀ i e, (i, ⟨.store (.load id), .error e⟩) ∉ t
  loaded : ∀ i r, (i, found id r) ∈ t → r = r₀
  gone : ∀ i answer, (i, removed id answer) ∈ t →
    P.state.records.lookup id = none
  once : ∀ i j r r', (i, found id r) ∈ t → (j, found id r') ∈ t → i = j

section Step

variable {env : (o : ResourceOp) → resourceExt.Ans o → Prop}
  {clock : Nat → Prop} {r₀ : ResourcePendingRecord}
  {t : List (ι × ResourceEvent E)} {P P' : PollPool E ι} {i : ι}
  {e : ResourceEvent E}

/-- A step that neither finds nor removes anything. -/
theorem FoundOnce.quiet (inv : FoundOnce id r₀ t P)
    (hs : P'.state.records = P.state.records)
    (hfound : ∀ r, e ≠ found id r)
    (hremoved : ∀ answer, e ≠ removed id answer)
    (herr : ∀ x, e ≠ ⟨.store (.load id), .error x⟩) :
    FoundOnce id r₀ ((i, e) :: t) P' := by
  have hmem : ∀ {j : ι} {d : ResourceEvent E}, e ≠ d →
      (j, d) ∈ (i, e) :: t → (j, d) ∈ t := by
    intro j d hne hm
    rcases List.mem_cons.mp hm with h | h
    · cases h
      exact absurd rfl hne
    · exact h
  refine ⟨hs ▸ inv.record, ?_, ?_, ?_, ?_⟩
  · intro j x h
    exact inv.answered j x (hmem (herr x) h)
  · intro j r h
    exact inv.loaded j r (hmem (hfound r) h)
  · intro j a h
    rw [hs]
    exact inv.gone j a (hmem (hremoved a) h)
  · intro j j' r r' h h'
    exact inv.once j j' r r' (hmem (hfound r) h) (hmem (hfound r') h')

theorem FoundOnce.remove (inv : FoundOnce id r₀ t P)
    {answer : Except E Unit}
    (hs : P'.state.records = P.state.records.erase id) :
    FoundOnce id r₀ ((i, removed id answer) :: t) P' := by
  have hnone : P'.state.records.lookup id = none := by
    rw [hs, AList.lookup_erase]
  have hmem : ∀ {j : ι} {d : ResourceEvent E},
      (∀ a, d ≠ removed id a) → (j, d) ∈ (i, removed id answer) :: t →
      (j, d) ∈ t := by
    intro j d hne hm
    rcases List.mem_cons.mp hm with h | h
    · cases h
      exact absurd rfl (hne _)
    · exact h
  refine ⟨.inr hnone, ?_, ?_, fun _ _ _ => hnone, ?_⟩
  · exact fun j x h => inv.answered j x (hmem (fun _ => nofun) h)
  · exact fun j r h => inv.loaded j r (hmem (fun _ => nofun) h)
  · exact fun j j' r r' h h' => inv.once j j' r r'
      (hmem (fun _ => nofun) h) (hmem (fun _ => nofun) h')

variable [DecidableEq ι]

/-- A poll that has found the grant and returned has removed it. -/
theorem removed_of_ret (hgrant : handedOut
      (pollOutcomeFromSnapshot r₀.snapshot) = true)
    (inv : FoundOnce id r₀ t P) {reply : ResourcePollReply E}
    {r : ResourcePendingRecord} (hends : PollEnds id reply (proj i t))
    (hfound : (i, found id r) ∈ t) :
    P.state.records.lookup id = none := by
  have hf := mem_proj.mpr hfound
  generalize hp : proj i t = l at hends hf
  cases hends with
  | failed | absent =>
      rcases List.mem_singleton.mp hf with h
      cases h
  | present hf' _ hrem =>
      have hr := inv.loaded i _ (mem_proj.mp (hp ▸ hf'))
      rw [hr] at hrem
      obtain ⟨a, ha⟩ := hrem hgrant
      exact inv.gone i a (mem_proj.mp (hp ▸ ha))

/-- A poll that finds the record is the first to. -/
theorem FoundOnce.find (hgrant : handedOut
      (pollOutcomeFromSnapshot r₀.snapshot) = true)
    (inv : FoundOnce id r₀ t P)
    (hpath : ∀ j, wp recorder (PollOp id) (P.thread j) (PollEnds id)
      (proj j t))
    (halone : ∀ j, j ≠ i → P.thread j = (pollPending id).run ∨
      ∃ reply, P.thread j = .ret reply)
    (hl : P.state.records.lookup id = some r₀)
    (hs : P'.state.records = P.state.records) :
    FoundOnce id r₀ ((i, found id r₀) :: t) P' := by
  have hnone : ∀ j r, j ≠ i → (j, found id r) ∉ t := by
    intro j r hj hm
    have hp := hpath j
    rcases halone j hj with h | ⟨reply, h⟩
    · -- a poll that has yet to start has found nothing
      rw [h] at hp
      have hnil : proj j t = [] := hp.1.2
      have hf := mem_proj.mpr hm
      rw [hnil] at hf
      cases hf
    · rw [h] at hp
      rw [removed_of_ret hgrant inv hp hm] at hl
      cases hl
  have hcases : ∀ {j : ι} {d : ResourceEvent E}, (j, d) ∈
      (i, found id r₀) :: t → j = i ∧ d = found id r₀ ∨ (j, d) ∈ t := by
    intro j d hm
    rcases List.mem_cons.mp hm with h | h
    · cases h
      exact .inl ⟨rfl, rfl⟩
    · exact .inr h
  refine ⟨.inl (hs ▸ hl), ?_, ?_, ?_, ?_⟩
  · intro j x h
    rcases hcases h with ⟨-, h⟩ | h
    · cases h
    · exact inv.answered j x h
  · intro j r h
    rcases hcases h with ⟨-, h⟩ | h
    · cases h
      rfl
    · exact inv.loaded j r h
  · intro j a h
    rcases hcases h with ⟨-, h⟩ | h
    · cases h
    · rw [hs]
      exact inv.gone j a h
  · have hself : ∀ j r, (j, found id r) ∈ (i, found id r₀) :: t → j = i := by
      intro j r h
      rcases hcases h with ⟨h, -⟩ | h
      · exact h
      · by_contra hj
        exact hnone j r hj h
    intro j j' r r' h h'
    rw [hself j r h, hself j' r' h']

theorem FoundOnce.step (hgrant : handedOut
      (pollOutcomeFromSnapshot r₀.snapshot) = true)
    (inv : FoundOnce id r₀ t P)
    (hpath : ∀ j, wp recorder (PollOp id) (P.thread j) (PollEnds id)
      (proj j t))
    (hg : LoadsAlone id P i e.op) (hs : Step (serviceWorld env clock) P i e P') :
    FoundOnce id r₀ ((i, e) :: t) P' := by
  obtain ⟨k, hk, -, hw⟩ := hs.self
  have hop := hpath i
  rw [hk] at hop
  have hop := hop.1
  obtain ⟨o, answer⟩ := e
  cases o with
  | pendingIdBytes | ext _ => exact hop.elim
  | now =>
      obtain ⟨-, hstate⟩ := hw
      exact inv.quiet (congrArg ServiceState.records hstate)
        (fun _ => nofun) (fun _ => nofun) (fun _ => nofun)
  | store o =>
      obtain ⟨hw, -⟩ := hw
      cases o with
      | create _ | save _ _ | complete _ _ | findIf _ => exact hop.elim
      | remove id' =>
          cases (show id' = id from hop)
          exact inv.remove hw.2
      | load id' =>
          obtain ⟨rfl, -⟩ := hop
          obtain ⟨ha, hrecords⟩ := hw
          rcases inv.record with hl | hl
          · rw [hl] at ha
            subst ha
            refine inv.find hgrant hpath (hg rfl ?_) hl hrecords
            rw [hl]
            exact Option.some_ne_none _
          · rw [hl] at ha
            subst ha
            exact inv.quiet hrecords (fun _ => nofun) (fun _ => nofun)
              (fun _ => nofun)

end Step

/-! ## Every run -/

/-- At most one poll returns the grant, and the others find it gone. -/
structure DeliveredOnce (o : PendingOutcome) (P : PollPool E ι) : Prop where
  reply : ∀ i a, P.thread i = .ret a →
    a = .ok .gone ∨ a = .ok (.complete o)
  once : ∀ i j, P.thread i = .ret (.ok (.complete o)) →
    P.thread j = .ret (.ok (.complete o)) → i = j

/-- In every run of polls of one record that holds a grant, if each poll
finds it only while no other is between finding and removing it then it is
delivered at most once. -/
theorem delivered_at_most_once [DecidableEq ι]
    {env : (o : ResourceOp) → resourceExt.Ans o → Prop}
    {clock : Nat → Prop} {s : ServiceState ResourcePendingContext}
    {r₀ : ResourcePendingRecord} {o : PendingOutcome}
    (hl : s.records.lookup id = some r₀) (hr : r₀.snapshot = .complete o)
    (ho : handedOut (.complete o) = true)
    {t : List (ι × ResourceEvent E)} {P : PollPool E ι}
    (run : Steps (serviceWorld env clock) (LoadsAlone id) (polls id s) t P) :
    DeliveredOnce o P := by
  have hsnapshot : pollOutcomeFromSnapshot r₀.snapshot = .complete o := by
    rw [hr]
    rfl
  have hgrant : handedOut (pollOutcomeFromSnapshot r₀.snapshot) = true := by
    rw [hsnapshot]
    exact ho
  have inv : FoundOnce id r₀ t P := by
    refine run.induction (I := FoundOnce id r₀) ?_ ?_
    · exact ⟨.inl hl, fun _ _ h => absurd h List.not_mem_nil,
        fun _ _ h => absurd h List.not_mem_nil,
        fun _ _ h => absurd h List.not_mem_nil,
        fun _ _ _ _ h => absurd h List.not_mem_nil⟩
    · intro t P i e P' run ih hg hs
      exact ih.step hgrant (fun j => run.wp pollPending_path) hg hs
  have hends : ∀ i a, P.thread i = .ret a →
      a = .ok .gone ∨ a = .ok (.complete o) ∧ (i, found id r₀) ∈ t := by
    intro i a hret
    have hp : wp recorder (PollOp id) (P.thread i) (PollEnds id)
        (proj i t) := run.wp pollPending_path
    rw [hret] at hp
    generalize hproj : proj i t = l at hp
    have hmem : ∀ {d : ResourceEvent E}, d ∈ l → (i, d) ∈ t :=
      fun h => mem_proj.mp (hproj ▸ h)
    cases hp with
    | failed =>
        exact absurd (hmem List.mem_cons_self) (inv.answered i _)
    | absent => exact .inl rfl
    | present hfound hout _ =>
        rcases hout with rfl | rfl
        · exact .inl rfl
        · cases inv.loaded i _ (hmem hfound)
          rw [hsnapshot]
          exact .inr ⟨rfl, hmem hfound⟩
  refine ⟨?_, ?_⟩
  · intro i a hret
    rcases hends i a hret with h | ⟨h, -⟩
    · exact .inl h
    · exact .inr h
  · intro i j hi hj
    rcases hends i _ hi with h | ⟨-, hi⟩
    · cases h
    · rcases hends j _ hj with h | ⟨-, hj⟩
      · cases h
      · exact inv.once i j _ _ hi hj

end Polls

/-! ## Two polls of one grant -/

namespace Sample

open Aauth.Sample

/-- A request that was granted a token. -/
def grantedRecord : ResourcePendingRecord where
  id := firstId
  createdAt := now
  expiresAt := now + 600
  context := { resourceUrl := resource, agentClaims := bot, scope := none }
  snapshot := .complete (.opaqueAccess "abc")

def grantedState : ServiceState ResourcePendingContext where
  records := AList.insert firstId grantedRecord ∅
  issued := [firstId]

theorem lookup_granted :
    grantedState.records.lookup firstId = some grantedRecord :=
  AList.lookup_insert _

/-- The service's own effects are never asked. -/
def silent (o : ResourceOp) : Option (resourceExt.Ans o) := none

def twoPolls : PollPool Empty Bool := polls firstId grantedState

/-- Both polls load the record before either removes it. -/
theorem delivered_twice : ¬ ∀ t P, Steps
    (momentWorld (fun o a => silent o = some a) now) (fun _ _ _ => True)
    twoPolls t P → DeliveredOnce (.opaqueAccess "abc") P := by
  intro h
  have hrun : ∃ t P, Pool.play (answer silent now)
        [true, false, true, false, true, false] ([], twoPolls) =
          some (t, P) ∧
      P.thread true = .ret (.ok (.complete (.opaqueAccess "abc"))) ∧
      P.thread false = .ret (.ok (.complete (.opaqueAccess "abc"))) :=
    ⟨_, _, rfl, rfl, rfl⟩
  obtain ⟨t, P, hp, htrue, hfalse⟩ := hrun
  have honce := h t P (Steps.play answer_sound .nil hp)
  cases honce.once true false htrue hfalse

/-- The second poll starts when the first has returned. -/
theorem delivered_to_first : ∃ t P, Steps
      (momentWorld (fun o a => silent o = some a) now) (LoadsAlone firstId)
      twoPolls t P ∧
    P.thread true = .ret (.ok (.complete (.opaqueAccess "abc"))) ∧
    P.thread false = .ret (.ok .gone) ∧
    DeliveredOnce (.opaqueAccess "abc") P := by
  have hrun : ∃ u P v Q, Pool.play (answer silent now)
        (List.replicate 3 true) ([], twoPolls) = some (u ++ [], P) ∧
      Pool.play (answer silent now) (List.replicate 1 false) (u ++ [], P) =
        some (v ++ (u ++ []), Q) ∧
      P.thread true = .ret (.ok (.complete (.opaqueAccess "abc"))) ∧
      Q.thread false = .ret (.ok .gone) :=
    ⟨[_, _, _], _, [_], _, rfl, rfl, rfl, rfl⟩
  obtain ⟨u, P, v, Q, hp, hq, htrue, hfalse⟩ := hrun
  obtain ⟨run, -⟩ := Steps.play_one (G := LoadsAlone firstId)
    (C := fun _ => True) answer_sound
    (fun R o _ hR _ _ j hj => .inl (hR j hj)) .nil hp fun _ _ => trivial
  obtain ⟨run, hothers⟩ := Steps.play_one (G := LoadsAlone firstId)
    (C := fun _ => True) answer_sound
    (fun R o _ hR _ _ j hj => .inr ⟨_, by
      cases j with
      | false => exact absurd rfl hj
      | true => exact (hR true hj).trans htrue⟩) run hq fun _ _ => trivial
  have hstill := (hothers true nofun).trans htrue
  exact ⟨_, Q, run, hstill, hfalse,
    delivered_at_most_once lookup_granted rfl rfl run⟩

end Sample

end Resource

end Aauth
