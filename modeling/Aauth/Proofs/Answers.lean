import Aauth.Lib.Contract
import Aauth.Proofs.Challenge
import Aauth.Proofs.GeneratedCodes
import Aauth.Proofs.HttpSig
import Aauth.Proofs.Store
import Aauth.Ref.Routers

/-!
# Every request is answered

Between an outcome and its response stand a dozen `expect`s: a location, a
requirement, a token has to be a header value. The texts come from far
away, from a policy, from another server's headers, from the path of the
request itself, and many of them have been through the store since. The
contract below says what each call of a service may find in the store and
in its other answers, and what it must not write there; every operation
meets it, so no interleaving of requests makes a handler panic over the
answer it writes.
-/

namespace Aauth

open Text Effect

variable {cr : Crates}

/-! ## Texts that headers can hold -/

theorem isVisible_iff {s : String} :
    IsVisible s ↔ ∀ c ∈ s.toList, isVisibleAscii c = true := List.all_eq_true

theorem isVisible_of_mem {s t : String} (h : IsVisible s)
    (hm : ∀ c ∈ t.toList, c ∈ s.toList) : IsVisible t :=
  isVisible_iff.mpr fun c hc => isVisible_iff.mp h c (hm c hc)

theorem headerValueFromStr_of_isVisible {s : String} (h : IsVisible s) :
    headerValueFromStr s = .ok s := if_pos h

theorem isVisible_trimEndMatches {s : String} (h : IsVisible s) (c : Char) :
    IsVisible (trimEndMatches s c) := by
  refine isVisible_of_mem h fun d hd => ?_
  rw [trimEndMatches, String.toList_ofList, trimEndL, List.mem_reverse] at hd
  exact List.mem_reverse.mp (mem_of_mem_dropWhile hd)

theorem isVisible_trimStartMatches {s : String} (h : IsVisible s)
    (c : Char) : IsVisible (trimStartMatches s c) := by
  refine isVisible_of_mem h fun d hd => ?_
  rw [trimStartMatches, String.toList_ofList] at hd
  exact mem_of_mem_dropWhile hd

theorem isVisible_hexDigit (n : Nat) : isVisibleAscii (hexDigit n) = true := by
  have hall : ∀ c ∈ "0123456789abcdef".toList, isVisibleAscii c = true := by
    decide
  rw [hexDigit, List.getD_eq_getElem?_getD]
  cases h : "0123456789abcdef".toList[n]? with
  | none => rfl
  | some c => exact hall c (List.mem_of_getElem? h)

theorem isVisible_generatePendingId (bytes : Bytes) :
    IsVisible (generatePendingId bytes) := by
  refine isVisible_iff.mpr fun c hc => ?_
  rw [generatePendingId, String.toList_ofList, List.mem_flatMap] at hc
  obtain ⟨b, -, hc⟩ := hc
  simp only [List.mem_cons, List.not_mem_nil, or_false] at hc
  rcases hc with rfl | rfl
  · exact isVisible_hexDigit _
  · exact isVisible_hexDigit _

theorem isVisible_generateCode (bytes : Bytes) :
    IsVisible (generateCode bytes) := by
  have hall : ∀ c ∈ CROCKFORD32, isVisibleAscii c = true := by decide
  refine isVisible_iff.mpr fun c hc => ?_
  rw [generateCode_eq, String.toList_ofList, List.mem_append,
    List.mem_cons] at hc
  rcases hc with hc | rfl | hc
  · exact hall c (codeSymbols_mem (List.mem_of_mem_take hc))
  · rfl
  · exact hall c (codeSymbols_mem (List.mem_of_mem_drop hc))

theorem isVisible_pendingLocation {base path id : String}
    (hb : IsVisible base) (hp : IsVisible path) (hi : IsVisible id) :
    IsVisible (pendingLocation base path id) :=
  isVisible_append (isVisible_append (isVisible_append (isVisible_append
    (isVisible_trimEndMatches hb _) rfl)
    (isVisible_trimStartMatches hp _)) rfl) hi

/-! ## What can be answered -/

/-- The header that announces it can be written. -/
def DeferRequirement.Writable : DeferRequirement → Prop
  | .interaction url code => IsVisible url ∧ IsVisible code
  | .clarification _ _ | .claims _ | .approval | .payment _ => True

def PendingOutcome.Writable : PendingOutcome → Prop
  | .opaqueAccess token => IsVisible token
  | .authToken _ | .error _ => True

def PendingSnapshot.Writable : PendingSnapshot → Prop
  | .waiting _ requirement => requirement.Writable
  | .complete outcome => outcome.Writable

def DeferCreated.Writable (d : DeferCreated) : Prop :=
  IsVisible d.location ∧ d.requirement.Writable

def PersonTokenFlowOutcome.Writable : PersonTokenFlowOutcome → Prop
  | .deferred d => d.Writable
  | .granted _ | .denied _ | .gone | .unauthorized | .badGateway => True

def AuthTokenFlowOutcome.Writable : AuthTokenFlowOutcome → Prop
  | .deferred d => d.Writable
  | .granted _ | .denied _ | .gone => True

def AuthTokenPollOutcome.Writable : AuthTokenPollOutcome → Prop
  | .pending waiting => waiting.requirement.Writable
  | .complete outcome => outcome.Writable
  | .gone => True

theorem insertPollHeaders_of_writable (headers : HeaderMap)
    {requirement : DeferRequirement} (h : requirement.Writable) :
    ∃ headers', Respond.insertPollHeaders headers requirement =
      some headers' := by
  have hv : ∀ {challenge : AAuthChallenge},
      requirement.headerChallenge = .ok challenge →
        IsVisible challenge.toHeader → ∃ headers',
          Respond.insertPollHeaders headers requirement = some headers' := by
    intro challenge hc hw
    rw [Respond.insertPollHeaders, hc]
    simp only [headerValueFromStr_of_isVisible hw]
    exact ⟨_, rfl⟩
  cases requirement with
  | interaction url code =>
      refine hv rfl ?_
      rw [AAuthChallenge.interaction_text]
      exact isVisible_append (isVisible_append (isVisible_append
        (isVisible_append rfl h.1) rfl) h.2) rfl
  | clarification question timeout => exact hv rfl rfl
  | claims requiredClaims => exact hv rfl rfl
  | approval => exact hv rfl rfl
  | payment location => exact ⟨_, rfl⟩

theorem deferCreated_some {d : DeferCreated} (h : d.Writable) :
    ∃ r, Respond.deferCreated cr d = some r := by
  rw [Respond.deferCreated]
  split
  · exact ⟨_, rfl⟩
  · obtain ⟨headers, hh⟩ := insertPollHeaders_of_writable
      (HeaderMap.empty.insert "location" d.location) h.2
    simp only [Respond.insertDeferCreatedHeaders,
      headerValueFromStr_of_isVisible h.1, Except.toOption,
      Option.bind_eq_bind, Option.bind_some, hh]
    exact ⟨_, rfl⟩

theorem deferWaiting_some {w : DeferWaiting} (h : w.requirement.Writable) :
    ∃ r, Respond.deferWaiting cr w = some r := by
  rw [Respond.deferWaiting]
  split
  · exact ⟨_, rfl⟩
  · obtain ⟨headers, hh⟩ := insertPollHeaders_of_writable HeaderMap.empty h
    simp only [hh, Option.bind_eq_bind, Option.bind_some]
    exact ⟨_, rfl⟩

theorem opaqueAccess_some {token : String} (h : IsVisible token) :
    ∃ r, Respond.opaqueAccess token = some r := by
  rw [Respond.opaqueAccess, headerValueFromStr_of_isVisible h]
  exact ⟨_, rfl⟩

theorem flowOutcome_some {o : AuthTokenFlowOutcome} (h : o.Writable) :
    ∃ r, Respond.flowOutcome cr o = some r := by
  cases o with
  | deferred d => exact deferCreated_some h
  | granted body => exact ⟨_, rfl⟩
  | denied e => exact ⟨_, rfl⟩
  | gone => exact ⟨_, rfl⟩

theorem personFlowOutcome_some {o : PersonTokenFlowOutcome}
    (h : o.Writable) : ∃ r, Respond.personFlowOutcome cr o = some r := by
  cases o with
  | deferred d => exact deferCreated_some h
  | granted body => exact ⟨_, rfl⟩
  | denied e => exact ⟨_, rfl⟩
  | gone => exact ⟨_, rfl⟩
  | unauthorized => exact ⟨_, rfl⟩
  | badGateway => exact ⟨_, rfl⟩

theorem pollOutcome_some {o : AuthTokenPollOutcome} (h : o.Writable) :
    ∃ r, Respond.pollOutcome cr o = some r := by
  cases o with
  | pending waiting => exact deferWaiting_some h
  | gone => exact ⟨_, rfl⟩
  | complete outcome =>
      cases outcome with
      | opaqueAccess token => exact opaqueAccess_some h
      | authToken body => exact ⟨_, rfl⟩
      | error e => exact ⟨_, rfl⟩

theorem writable_pollOutcomeFromSnapshot {snapshot : PendingSnapshot}
    (h : snapshot.Writable) : (pollOutcomeFromSnapshot snapshot).Writable := by
  cases snapshot with
  | waiting status requirement => exact h
  | complete outcome => exact h

/-! ## The contract of the store -/

section Store

variable {E C : Type} {X : Sig}

/-- What is under an identifier can be answered with. -/
def AllWritable (s : ServiceState C) : Prop :=
  ∀ id r, s.records.lookup id = some r →
    IsVisible id ∧ r.snapshot.Writable

/-- What a program finds in the store, if `R` is what it can rely on in
the answers of the service's own effects. -/
def FindsWritable (R : (o : X.Op) → X.Ans o → Prop) :
    (o : (serviceSig E C X).Op) → (serviceSig E C X).Ans o → Prop
  | .store (.load id), a =>
      ∀ r, a = .ok (some r) → IsVisible id ∧ r.snapshot.Writable
  | .store (.findIf _), a =>
      ∀ id r, a = .ok (some (id, r)) → IsVisible id ∧ r.snapshot.Writable
  | .ext o, a => R o a
  | _, _ => True

/-- What it leaves there, if `K` is what it keeps to in the calls of the
service's own effects. -/
def LeavesWritable (K : X.Op → Prop) : (serviceSig E C X).Op → Prop
  | .store (.create r) => IsVisible r.id ∧ r.snapshot.Writable
  | .store (.save id r) => IsVisible id ∧ r.snapshot.Writable
  | .store (.complete _ outcome) => outcome.Writable
  | .ext o => K o
  | _ => True

theorem AllWritable.insert {s : ServiceState C} (h : AllWritable s)
    {id : String} {r : PendingRecord C} (hi : IsVisible id)
    (hr : r.snapshot.Writable) :
    AllWritable { s with records := s.records.insert id r } := by
  intro k r' hk
  have hk : (s.records.insert id r).lookup k = some r' := hk
  by_cases he : k = id
  · subst he
    rw [AList.lookup_insert] at hk
    cases hk
    exact ⟨hi, hr⟩
  · rw [AList.lookup_insert_ne he] at hk
    exact h k r' hk

/-- The step lemma of the store. -/
theorem sound_serviceWorld {env : (o : X.Op) → X.Ans o → Prop}
    {clock : Nat → Prop} {R : (o : X.Op) → X.Ans o → Prop} {K : X.Op → Prop}
    (hR : ∀ o a, env o a → R o a) :
    Sound (serviceWorld (E := E) (C := C) env clock) AllWritable
      (FindsWritable R) (LeavesWritable K) := by
  intro s o a s' hs hK hw
  obtain ⟨m, l⟩ := s'
  cases o with
  | now =>
      obtain ⟨-, rfl⟩ := hw
      exact ⟨trivial, hs⟩
  | pendingIdBytes =>
      obtain ⟨-, hm, -⟩ := hw
      cases hm
      exact ⟨trivial, hs⟩
  | ext o =>
      obtain ⟨he, rfl⟩ := hw
      exact ⟨hR o a he, hs⟩
  | store o =>
      obtain ⟨hm, hi⟩ := hw
      cases hi
      cases o with
      | create r =>
          obtain ⟨rfl, rfl⟩ := hm
          exact ⟨trivial, hs.insert hK.1 hK.2⟩
      | load id =>
          obtain ⟨rfl, rfl⟩ := hm
          exact ⟨fun r hr => hs id r (Except.ok.inj hr), hs⟩
      | save id r =>
          obtain ⟨rfl, rfl⟩ := hm
          exact ⟨trivial, hs.insert hK.1 hK.2⟩
      | complete id outcome =>
          obtain ⟨rfl, rfl⟩ := hm
          refine ⟨trivial, ?_⟩
          cases hl : s.records.lookup id with
          | none => exact hs
          | some r => exact hs.insert (hs id r hl).1 hK
      | remove id =>
          obtain ⟨rfl, rfl⟩ := hm
          refine ⟨trivial, fun k r hk => ?_⟩
          have hk : (s.records.erase id).lookup k = some r := hk
          by_cases he : k = id
          · subst he
            rw [AList.lookup_erase] at hk
            cases hk
          · rw [AList.lookup_erase_ne he] at hk
            exact hs k r hk
      | findIf p =>
          obtain ⟨rfl, found, rfl, hf⟩ := hm
          refine ⟨fun k r hr => ?_, hs⟩
          cases hr
          exact hs k r hf.1

end Store

/-! ## Rules for tasks -/

section Rules

variable {ε ε' α : Type} {S : Sig} {Q : α → Prop}
  {A : (o : S.Op) → S.Ans o → Prop} {K : S.Op → Prop}

theorem yields_mapErr {f : ε → ε'} {p : Prog S (Except ε α)}
    (h : Meets A K (fun r => ∀ a, r = .ok a → Q a) p) :
    Yields A K Q (mapErr f p) := by
  refine Meets.bind h fun r hr => meets_ret.mpr fun a ha => ?_
  cases r with
  | error e => cases ha
  | ok b =>
      cases ha
      exact hr _ rfl

theorem yields_liftProg {p : Prog S α} (h : Meets A K Q p) :
    Yields A K Q (liftProg p : ExceptT ε (Prog S) α) :=
  Meets.bind h fun _ ha => meets_ret.mpr fun _ hb => Except.ok.inj hb ▸ ha

theorem yields_liftExcept {x : Except ε α} (h : ∀ a, x = .ok a → Q a) :
    Yields A K Q (liftExcept x : ExceptT ε (Prog S) α) := meets_ret.mpr h

/-- A single call. -/
theorem meets_perform {o : S.Op} {Q : S.Ans o → Prop} (hK : K o)
    (hQ : ∀ r, A o r → Q r) : Meets A K Q (.call o .ret) :=
  meets_call.mpr ⟨hK, fun r hr => meets_ret.mpr (hQ r hr)⟩

end Rules

section StoreRules

variable {E C ε : Type} {X : Sig} {R : (o : X.Op) → X.Ans o → Prop}
  {K : X.Op → Prop} {f : E → ε} {id : String} {r : PendingRecord C}

theorem yields_create (hi : IsVisible r.id) (hr : r.snapshot.Writable) :
    Yields (FindsWritable R) (LeavesWritable K) (fun _ => True)
      (mapErr f (PendingStore.create (E := E) (X := X) r)) :=
  yields_mapErr (meets_perform ⟨hi, hr⟩ fun _ _ _ _ => trivial)

theorem yields_load :
    Yields (FindsWritable R) (LeavesWritable K)
      (fun found : Option (PendingRecord C) => ∀ r, found = some r →
        IsVisible id ∧ r.snapshot.Writable)
      (mapErr f (PendingStore.load (E := E) (X := X) id)) :=
  yields_mapErr (meets_perform trivial fun _ h found hf r hr =>
    h r (by rw [hf, hr]))

theorem yields_save (hi : IsVisible id) (hr : r.snapshot.Writable) :
    Yields (FindsWritable R) (LeavesWritable K) (fun _ => True)
      (mapErr f (PendingStore.save (E := E) (X := X) id r)) :=
  yields_mapErr (meets_perform ⟨hi, hr⟩ fun _ _ _ _ => trivial)

theorem yields_complete (outcome : PendingOutcome)
    (h : outcome.Writable) :
    Yields (FindsWritable R) (LeavesWritable K) (fun _ => True)
      (mapErr f (PendingStore.complete (E := E) (C := C) (X := X) id
        outcome)) :=
  yields_mapErr (meets_perform h fun _ _ _ _ => trivial)

theorem yields_findIf {p : PendingRecord C → Bool} :
    Yields (FindsWritable R) (LeavesWritable K)
      (fun found : Option (String × PendingRecord C) => ∀ id r,
        found = some (id, r) → IsVisible id ∧ r.snapshot.Writable)
      (mapErr f (PendingStore.findIf (E := E) (X := X) p)) :=
  yields_mapErr (meets_perform trivial fun _ h found hf id r hr =>
    h id r (by rw [hf, hr]))

/-- A failure to remove is passed over. -/
theorem yields_remove :
    Yields (FindsWritable R) (LeavesWritable K) (fun _ => True)
      (liftProg (PendingStore.remove (E := E) (C := C) (X := X) id) :
        ExceptT ε _ _) :=
  yields_liftProg (meets_perform trivial fun _ _ => trivial)

theorem yields_now :
    Yields (FindsWritable R) (LeavesWritable K) (fun _ => True)
      (liftProg (systemNow (E := E) (C := C) (X := X)) : ExceptT ε _ _) :=
  yields_liftProg (meets_perform trivial fun _ _ => trivial)

theorem yields_pendingIdBytes :
    Yields (FindsWritable R) (LeavesWritable K) (fun _ => True)
      (liftProg (pendingIdBytes (E := E) (C := C) (X := X)) :
        ExceptT ε _ _) :=
  yields_liftProg (meets_perform trivial fun _ _ => trivial)

theorem yields_pollAuthPending :
    Yields (FindsWritable R) (LeavesWritable K)
      AuthTokenPollOutcome.Writable
      (pollAuthPending (E := E) (C := C) (X := X) id) := by
  refine yields_load.bind fun found hfound => ?_
  cases found with
  | none => exact yields_pure trivial
  | some record =>
      refine yields_now.bind fun now _ => ?_
      split
      · exact yields_remove.bind fun _ _ => yields_pure trivial
      · exact yields_pure
          (writable_pollOutcomeFromSnapshot (hfound record rfl).2)

end StoreRules

/-! ## Handlers -/

/-- An answer that was written. -/
def Written (a : Answer) : Prop := a ≠ .panicked

theorem written_ofOption {r : Option HttpResponse}
    (h : ∃ x, r = some x) : Written (.ofOption r) := by
  obtain ⟨x, rfl⟩ := h
  intro hp
  cases hp

theorem written_withoutBody {a : Answer} (h : Written a) :
    Written a.withoutBody := by
  cases a with
  | response r =>
      intro hp
      cases hp
  | rejected status =>
      intro hp
      cases hp
  | panicked => exact absurd rfl h

section Handlers

variable {S : Sig} {ε α : Type} {A : (o : S.Op) → S.Ans o → Prop}
  {K : S.Op → Prop} {Q : α → Prop}

theorem meets_served {x : ExceptT ε (Prog S) α} (encode : α → Answer)
    (h : Yields A K Q x) (hQ : ∀ a, Q a → Written (encode a)) :
    Meets A K Written
      (x.run >>= fun reply => .ret (Respond.served cr encode reply)) := by
  refine Meets.bind h fun reply hr => meets_ret.mpr ?_
  cases reply with
  | ok a => exact hQ a (hr a rfl)
  | error e =>
      intro hp
      cases hp

theorem meets_rejected {status : Nat} :
    Meets A K Written (.ret (.rejected status)) :=
  meets_ret.mpr fun h => by cases h

theorem meets_response {r : HttpResponse} :
    Meets A K Written (.ret (.response r)) :=
  meets_ret.mpr fun h => by cases h

theorem meets_onGet {req : ServerRequest} {p : Prog S Answer}
    (h : Meets A K Written p) : Meets A K Written (onGet req p) := by
  rw [onGet]
  split
  · exact h
  · split
    · exact h.bind fun a ha => meets_ret.mpr (written_withoutBody ha)
    · exact meets_rejected

theorem meets_onPost {req : ServerRequest} {p : Prog S Answer}
    (h : Meets A K Written p) : Meets A K Written (onPost req p) := by
  rw [onPost]
  split
  · exact h
  · exact meets_rejected

theorem meets_onGetOrPost {req : ServerRequest} {get post : Prog S Answer}
    (hg : Meets A K Written get) (hp : Meets A K Written post) :
    Meets A K Written (onGetOrPost req get post) := by
  rw [onGetOrPost]
  split
  · exact hp
  · exact meets_onGet hg

theorem meets_extracting {x : Except Answer α} {p : α → Prog S Answer}
    (hx : ∀ a, x = .error a → Written a)
    (hp : ∀ a, x = .ok a → Meets A K Written (p a)) :
    Meets A K Written (extracting x p) := by
  cases x with
  | error answer => exact meets_ret.mpr (hx answer rfl)
  | ok a => exact hp a rfl

end Handlers

section Extractors

variable {α : Type} {ax : AxumCrate} {req : ServerRequest} {a : Answer}

theorem written_of_ne {x : Except Answer α} (h : x ≠ .error .panicked)
    (ha : x = .error a) : Written a := by
  intro hp
  subst hp
  exact h ha

theorem mapError_ne_panicked {ε : Type} {f : ε → Answer} {x : Except ε α}
    (hf : ∀ e, f e ≠ .panicked) : x.mapError f ≠ .error .panicked := by
  cases x with
  | error e => exact fun h => hf e (Except.error.inj h)
  | ok b =>
      intro h
      cases h

theorem rejected_ne_panicked {status : Nat} :
    Answer.rejected status ≠ .panicked := by
  intro h
  cases h

theorem optionJson_ne_panicked {read : Json → Option α} :
    optionJson cr ax read req ≠ .error .panicked := by
  rw [optionJson]
  split
  · intro h
    cases h
  · split
    · refine Except.bind_ne_error (mapError_ne_panicked fun _ =>
        rejected_ne_panicked) fun body _ => ?_
      refine Except.bind_ne_error (Option.okOr_ne_error
        rejected_ne_panicked) fun b _ h => ?_
      cases h
    · intro h
      cases h

theorem decodedId_ne_panicked {id : String} :
    decodedId ax id ≠ .error .panicked :=
  Option.okOr_ne_error rejected_ne_panicked

theorem pendingResumeInput_ne_panicked :
    pendingResumeInput cr req ≠ .error .panicked := by
  have hinvalid : ∀ description,
      invalidRequestResponse cr description ≠ .panicked := by
    intro description h
    cases h
  exact Except.bind_ne_error (mapError_ne_panicked fun _ => hinvalid _)
    fun body _ => mapError_ne_panicked fun e => hinvalid _

end Extractors

/-! ## A sample of the extractors -/

namespace Sample

/-- Nothing percent-encoded, no space written as a plus. -/
def axum : AxumCrate where
  percentDecode id := if containsChar id '%' then none else some id
  formPairs text :=
    if text.isEmpty then []
    else (split text '&').map fun p => (splitOnce p "=").getD (p, "")
  jsonContentType t := t == "application/json"
  jsonRejection _ := 400

/-- A `GET` without headers. -/
def routedGet (path : String) (query : Option String) : ServerRequest where
  method := "GET"
  path := path
  query := query
  headers := .empty
  body := .ok []

end Sample

end Aauth
