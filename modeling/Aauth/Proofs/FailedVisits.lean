import Aauth.Proofs.InteractionGate

/-!
# Visits that fail

`begin_interaction` consumes a code and saves the record before it works out
what to answer. A visit that ends in an error, or with an invalid code after
all, has therefore left the store as it was exactly when it never got that
far: when the record that the code is for can be answered (`Answerable`).
-/

namespace Aauth

open Effect Except

section Visits

variable {E : Type} {cr : Crates} {config : PersonServerConfig}
  {s : ServiceState PersonPendingContext} {id : String}
  {r : PersonPendingRecord}

/-- The visit brought the user nowhere: it failed, or the code is no
good. -/
def Unserved : Except (PersonTokenServiceError E) PersonInteractionOutcome →
    Prop
  | .error _ | .ok .invalidCode => True
  | .ok (.redirect _) | .ok (.pending _) | .ok .expired => False

/-- There is an answer for whoever visits with the code of the record: the
resource's interaction is at an https URL, or the request waits for
something other than a payment. -/
def Answerable (cr : Crates) (r : PersonPendingRecord) : Prop :=
  match r.context.resourceInteraction with
  | some ix => ∃ url, cr.urlParse ix.url = .ok url ∧ url.scheme = "https"
  | none => ∃ status requirement, r.snapshot = .waiting status requirement ∧
      ∀ p, requirement ≠ .payment p

/-! ## The reply -/

theorem validateInteractionUrl_eq_ok {url : String} {u : Unit} :
    validateInteractionUrl cr url = .ok u ↔
      ∃ parsed, cr.urlParse url = .ok parsed ∧ parsed.scheme = "https" := by
  simp only [validateInteractionUrl, bind_eq_ok, mapError_eq_ok,
    failIf_eq_ok, not_ne_iff]

theorem interactionReply_redirects {ix : ResourceInteractionClaim}
    (hix : r.context.resourceInteraction = some ix) :
    Unserved (E := E) ((interactionReply cr config id r).mapError
      .orchestration) ↔
    ¬ ∃ url, cr.urlParse ix.url = .ok url ∧ url.scheme = "https" := by
  rw [interactionReply, hix]
  cases hv : validateInteractionUrl cr ix.url with
  | error e =>
      refine iff_of_true ?_ fun h => ?_
      · show Unserved (Except.mapError _
          (validateInteractionUrl cr ix.url >>= _))
        rw [hv, error_bind]
        trivial
      · cases hv.symm.trans (validateInteractionUrl_eq_ok (u := ()).mpr h)
  | ok u =>
      have hurl := validateInteractionUrl_eq_ok.mp hv
      refine iff_of_false ?_ fun h => h hurl
      obtain ⟨url, hurl, -⟩ := hurl
      have hbuild : ∀ callback, buildResourceInteractionRedirect cr ix
          callback = .ok (cr.urlWithQueryPairs url
            [("code", ix.code), ("callback", callback)]) := by
        intro callback
        rw [buildResourceInteractionRedirect, hurl]
        rfl
      show ¬ Unserved (Except.mapError _
        (validateInteractionUrl cr ix.url >>= _))
      rw [hv, ok_bind]
      show ¬ Unserved (Except.mapError _
        (buildResourceInteractionRedirect cr ix _ >>= _))
      rw [hbuild, ok_bind]
      exact fun h => h

theorem interactionReply_unserved :
    Unserved (E := E) ((interactionReply cr config id r).mapError
      .orchestration) ↔ ¬ Answerable cr r := by
  cases hix : r.context.resourceInteraction with
  | some ix =>
      rw [Answerable, hix]
      exact interactionReply_redirects hix
  | none =>
      rw [Answerable, interactionReply, hix]
      cases hs : r.snapshot with
      | complete o =>
          refine iff_of_true trivial ?_
          rintro ⟨status, requirement, h, -⟩
          cases h
      | waiting status requirement =>
          cases requirement with
          | payment p =>
              refine iff_of_true trivial ?_
              rintro ⟨status', requirement', h, hp⟩
              cases h
              exact hp p rfl
          | _ => exact iff_of_false nofun fun h => h ⟨status, _, rfl, nofun⟩

theorem answerable_consumed : Answerable cr r.consumed ↔ Answerable cr r := by
  rw [Answerable, Answerable, PersonPendingRecord.consumed]
  cases r.context.resourceInteraction with
  | some ix => exact Iff.rfl
  | none =>
      cases hs : r.snapshot with
      | complete o => exact Iff.rfl
      | waiting status requirement =>
          constructor
          · rintro ⟨_, _, h, hp⟩
            cases h
            exact ⟨status, requirement, rfl, hp⟩
          · rintro ⟨_, _, h, hp⟩
            cases h
            exact ⟨.interacting, requirement, rfl, hp⟩

/-! ## The store after a visit that failed -/

variable (E cr config) in
/-- A visit with the code that brings the user nowhere leaves the store as
it was. -/
def AtomicOnFailure (m : Occasion personExt)
    (s : ServiceState PersonPendingContext) (code : String) : Prop :=
  ∀ reply s', Exec (occasionWorld m) s
    (beginInteraction (E := E) cr config code).run reply s' →
      Unserved reply → s' = s

/-- A record that a visit with the code may be about, and that it would
consume. -/
structure Visitable (cr : Crates) (t : Nat)
    (s : ServiceState PersonPendingContext) (code id : String)
    (r : PersonPendingRecord) : Prop where
  stored : s.records.lookup id = some r
  coded : ∃ canonical, canonicalizeCode cr code = some canonical ∧
    matchesCode canonical r = true
  live : r.isExpired t = false

/-- Consuming a code that can still be used shows in the store. -/
theorem consumed_ne {canonical : String}
    (hl : s.records.lookup id = some r) (hm : matchesCode canonical r = true) :
    { s with records := s.records.insert id r.consumed } ≠ s := by
  intro h
  have hr : some r.consumed = some r := by
    rw [← AList.lookup_insert s.records, ← hl]
    exact congrArg (·.records.lookup id) h
  have hc := congrArg (·.context.interactionCodeConsumed) (Option.some.inj hr)
  exact absurd ((matchesCode_iff.mp hm).2.symm.trans hc.symm) nofun

/-- A failed visit leaves the store as it was if and only if every record
that it may be about can be answered. -/
theorem beginInteraction_atomic {m : Occasion personExt} {code : String} :
    AtomicOnFailure E cr config m s code ↔
      ∀ id r, Visitable cr m.time s code id r → Answerable cr r := by
  constructor
  · intro h id r hv
    obtain ⟨hl, ⟨canonical, hc, hm⟩, hx⟩ := hv
    by_contra ha
    have hexec : Exec (occasionWorld m) s
        (beginInteraction (E := E) cr config code).run
        ((interactionReply cr config id r.consumed).mapError .orchestration)
        { s with records := s.records.insert id r.consumed } :=
      beginInteraction_begun hc hl hm hx
    refine consumed_ne hl hm (h _ _ hexec ?_)
    exact interactionReply_unserved.mpr (mt answerable_consumed.mp ha)
  · intro h reply s' hexec hun
    obtain ⟨canonical, hc, id, ch, hv, rfl⟩ := personServes_of_exec
      (c := .beginInteraction code) hexec
    cases hv with
    | unknown _ => rfl
    | expired _ _ _ => exact hun.elim
    | begun hl hm hx =>
        have ha := h id _ ⟨hl, ⟨canonical, hc, hm⟩, hx⟩
        exact absurd (answerable_consumed.mpr ha)
          (interactionReply_unserved.mp hun)

end Visits

/-! ## An interaction that is not at an https URL -/

namespace Sample

/-- The resource asked for an interaction without TLS. -/
def insecureContext : PersonPendingContext :=
  (botContext gatedClaims).toPending botJwt none
    (some { url := "http://resource.example/connect", code := "R2D2-C3P0" })
    (some gateCode)

def insecure : ServiceState PersonPendingContext :=
  waitingFor insecureContext
    (.interaction personConfig.interactionUrl gateCode)

def insecureRecord : PersonPendingRecord :=
  .new now firstId insecureContext (.ofRequirement
    (.interaction personConfig.interactionUrl gateCode)) 600

theorem lookup_insecure :
    insecure.records.lookup firstId = some insecureRecord :=
  AList.lookup_insert _

theorem insecureRecord_not_answerable :
    ¬ Answerable crates insecureRecord := by
  rintro ⟨url, hurl, hs⟩
  have h : (urlParse "http://resource.example/connect").map (·.scheme) =
      .ok "http" := by decide
  rw [show urlParse "http://resource.example/connect" = .ok url from hurl] at h
  have hscheme : url.scheme = "http" := Except.ok.inj h
  exact absurd (hs.symm.trans hscheme) (by decide)

/-- The visit fails and has consumed the code. -/
theorem failed_visit_consumes :
    ¬ ∀ m s code, AtomicOnFailure Empty crates personConfig m s code := by
  intro h
  have hm : matchesCode gateCode insecureRecord = true :=
    matchesCode_iff.mpr ⟨rfl, rfl⟩
  have hexec : Exec (occasionWorld ⟨now, gatedEnv⟩) insecure
      (beginInteraction (E := Empty) crates personConfig gateCode).run
      ((interactionReply crates personConfig firstId
        insecureRecord.consumed).mapError .orchestration)
      { insecure with
        records := insecure.records.insert firstId insecureRecord.consumed } :=
    beginInteraction_begun canonicalize_gateCode lookup_insecure hm (by rfl)
  refine consumed_ne lookup_insecure hm (h _ _ _ _ _ hexec ?_)
  exact interactionReply_unserved.mpr
    (mt answerable_consumed.mp insecureRecord_not_answerable)

end Sample

end Aauth
