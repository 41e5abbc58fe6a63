import Aauth.Proofs.FetcherCalls
import Aauth.Sample.Fetcher
import Aauth.Sample.Crates

/-!
# How often a URL is fetched

A call asks when its URL was last fetched, and records a fetch of its own,
in two holds of one mutex; the request leaves after that. So a minute lies
between two GETs of a URL only as long as nobody else records in between
(`Exclusive`), the request leaves when it is recorded, and a call that may
not fetch has something to use instead: `fetch_metadata` goes on without.
-/

namespace Aauth

open Effect Except

section Rate

variable {ι : Type} {cr : Crates} {jwkSetFromSlice : Bytes → Option JwkSet}
  {call : ι → FetcherCall} {start : Instant}

abbrev FetchTrace (ι : Type) := List (ι × FetchEvent)

/-! ## The condition -/

/-- Since the last thing the call did, no other has recorded a fetch. -/
def Exclusive (i : ι) (key : String) (t : FetchTrace ι) : Prop :=
  ∀ t₁ e t₂, t = t₁ ++ (i, e) :: t₂ → (∀ d ∈ t₁, d.1 ≠ i) →
    ∀ d ∈ t₁, d.2.op ≠ .recordFetch key

/-- A call that goes on at once is alone. -/
theorem Exclusive.of_head {i : ι} {key : String} {e : FetchEvent}
    {t : FetchTrace ι} : Exclusive i key ((i, e) :: t) := by
  intro t₁ e' t₂ h ht₁ d hd
  cases t₁ with
  | nil => cases hd
  | cons c t₁ =>
      cases h
      exact absurd rfl (ht₁ _ List.mem_cons_self)

/-- A step that keeps the limit: no call is denied with nothing to use
instead, none records between the question and the record of another, and a
request leaves at the time it was recorded. -/
def KeepsLimit [DecidableEq ι] (t : FetchTrace ι) (e : ι × FetchEvent) :
    Prop :=
  match e with
  | (_, ⟨.anyMetadata _, r⟩) => r.value ≠ none
  | (i, ⟨.recordFetch key, _⟩) => Exclusive i key t
  | (i, ⟨.startGet _, r⟩) => ∀ d ∈ (proj i t).head?, FetchEvent.time d = r.time
  | _ => True

/-- Two GETs of one URL, the second at least a minute after the first. -/
def Spaced (t : FetchTrace ι) : Prop :=
  t.Pairwise fun later earlier => ∀ url,
    later.2.op = .startGet url → earlier.2.op = .startGet url →
      earlier.2.time + MIN_FETCH_INTERVAL ≤ later.2.time

/-! ## The invariant -/

/-- The event says that `key` may be fetched. -/
def FetchEvent.allows (key : String) : FetchEvent → Prop
  | ⟨.canFetch k, r⟩ => k = key ∧ r.value = true
  | _ => False

/-- What a run that keeps the limit has done by the time it reaches a
state. -/
structure RateInv (t : FetchTrace ι) (s : FetcherState) : Prop where
  clock : ∀ e ∈ t, e.2.time ≤ s.now
  /-- The last fetch of a URL is no earlier than any recorded. -/
  recorded : ∀ e ∈ t, ∀ key, e.2.op = .recordFetch key →
    ∃ last ∈ s.cache.lastFetch.lookup key, e.2.time ≤ last
  allowed : t.Pairwise fun later earlier => ∀ key, later.2.allows key →
    earlier.2.op = .recordFetch key →
      earlier.2.time + MIN_FETCH_INTERVAL ≤ later.2.time
  apart : t.Pairwise fun later earlier => ∀ key,
    later.2.op = .recordFetch key → earlier.2.op = .recordFetch key →
      earlier.2.time + MIN_FETCH_INTERVAL ≤ later.2.time
  started : ∀ e ∈ t, ∀ url, e.2.op = .startGet url →
    ∃ d ∈ t, d.1 = e.1 ∧ d.2.op = .recordFetch url ∧ d.2.time = e.2.time
  spaced : Spaced t

/-- Only two operations change when a URL was last fetched. -/
theorem lastFetch_answers {c c' : MetadataCache} {now : Instant}
    {o : FetchOp} {v : o.Reply} (h : c.answers now o v c')
    (hr : ∀ key, o ≠ .recordFetch key) (hc : o ≠ .clearLastFetch) :
    c'.lastFetch = c.lastFetch := by
  cases o with
  | recordFetch key => exact absurd rfl (hr key)
  | clearLastFetch => exact absurd rfl hc
  | freshMetadata _ | anyMetadata _ | canFetch _ | cachedJwks _ => rw [h.1]
  | storeMetadata _ _ | storeJwks _ _ | clearMetadata | clearJwks
  | startGet _ | finishGet _ => rw [h]

section Step

variable {t : FetchTrace ι} {s s' : FetcherState} {i : ι} {o : FetchOp}
  {r : Timed o.Reply}

/-- What the call of a thread has done before the step. -/
abbrev Made [DecidableEq ι] (jwkSetFromSlice : Bytes → Option JwkSet) (call : ι → FetcherCall)
    (t : FetchTrace ι) (i : ι) (o : FetchOp) : Prop :=
  MayCall jwkSetFromSlice (call i) (proj i t) o

theorem RateInv.clock_step (inv : RateInv t s)
    (hw : fetcherWorld s o r s') :
    ∀ e ∈ ((i, ⟨o, r⟩) :: t : FetchTrace ι),
      FetchEvent.time e.2 ≤ s'.now := by
  intro e he
  rcases List.mem_cons.mp he with rfl | he
  · exact Nat.le_of_eq hw.2.1.symm
  · have hnow : s.now ≤ s'.now := hw.2.1 ▸ hw.1
    exact Nat.le_trans (inv.clock e he) hnow

theorem RateInv.recorded_step (inv : RateInv t s)
    (hw : fetcherWorld s o r s') (hc : o ≠ .clearLastFetch) :
    ∀ e ∈ ((i, ⟨o, r⟩) :: t : FetchTrace ι), ∀ key,
      e.2.op = .recordFetch key →
      ∃ last ∈ s'.cache.lastFetch.lookup key,
        FetchEvent.time e.2 ≤ last := by
  have hnow : ∀ e ∈ t, e.2.time ≤ r.time := fun e he =>
    Nat.le_trans (inv.clock e he) hw.1
  by_cases hr : ∃ k, o = .recordFetch k
  · obtain ⟨k, rfl⟩ := hr
    have hcache : s'.cache.lastFetch =
        s.cache.lastFetch.insert k r.time := by
      rw [hw.2.2]
    intro e he key hop
    rw [hcache]
    by_cases hk : key = k
    · subst hk
      rw [AList.lookup_insert]
      refine ⟨r.time, rfl, ?_⟩
      rcases List.mem_cons.mp he with rfl | he
      · exact Nat.le_refl _
      · exact hnow e he
    · rw [AList.lookup_insert_ne hk]
      rcases List.mem_cons.mp he with rfl | he
      · cases hop
        exact absurd rfl hk
      · exact inv.recorded e he key hop
  · have hcache := lastFetch_answers hw.2.2 (fun k h => hr ⟨k, h⟩) hc
    intro e he key hop
    rw [hcache]
    rcases List.mem_cons.mp he with rfl | he
    · exact absurd ⟨key, hop⟩ hr
    · exact inv.recorded e he key hop

theorem RateInv.allowed_step (inv : RateInv t s)
    (hw : fetcherWorld s o r s') (key : String)
    (ha : FetchEvent.allows key ⟨o, r⟩) :
    ∀ e ∈ t, e.2.op = .recordFetch key →
      e.2.time + MIN_FETCH_INTERVAL ≤ r.time := by
  cases o with
  | canFetch k =>
      obtain ⟨rfl, hv⟩ := ha
      intro e he hop
      obtain ⟨last, hl, hle⟩ := inv.recorded e he k hop
      have hans := hw.2.2.2
      rw [hv, Option.mem_def.mp hl] at hans
      have helapsed : MIN_FETCH_INTERVAL ≤ r.time - last :=
        of_decide_eq_true hans.symm
      have hpos : 0 < MIN_FETCH_INTERVAL := by decide
      omega
  | _ => exact ha.elim

variable [DecidableEq ι]

theorem RateInv.apart_step (inv : RateInv t s)
    (hw : fetcherWorld s o r s') {key : String} (ho : o = .recordFetch key)
    (hmade : Made jwkSetFromSlice call t i o)
    (hkeeps : KeepsLimit t (i, ⟨o, r⟩)) (halong : Along KeepsLimit t) :
    ∀ e ∈ t, e.2.op = .recordFetch key →
      e.2.time + MIN_FETCH_INTERVAL ≤ r.time := by
  subst ho
  have hcleared : ∃ c l, proj i t = ⟨.canFetch key, ⟨c, true⟩⟩ :: l := by
    cases hp : proj i t with
    | nil =>
        rw [Made, hp] at hmade
        exact hmade.elim
    | cons d l =>
        have hd : (i, d) ∈ t := mem_proj.mp (hp ▸ List.mem_cons_self)
        rw [Made, hp] at hmade
        obtain ⟨op, time, value⟩ := d
        cases op with
        | canFetch k =>
            cases value with
            | false => exact hmade.elim
            | true =>
                cases (show k = key from hmade)
                exact ⟨time, l, rfl⟩
        | anyMetadata k =>
            cases value with
            | some _ => exact hmade.elim
            | none =>
                obtain ⟨t', h⟩ := halong.of_mem hd
                exact absurd rfl h
        | _ => exact hmade.elim
  obtain ⟨c, l, hp⟩ := hcleared
  obtain ⟨t₁, t₂, rfl, ht₁, -⟩ := proj_eq_cons hp
  have hc : c ≤ r.time := Nat.le_trans
    (inv.clock (i, ⟨.canFetch key, ⟨c, true⟩⟩) (by simp)) hw.1
  intro e he hop
  rcases List.mem_append.mp he with he | he
  · exact absurd hop (hkeeps t₁ _ t₂ rfl ht₁ e he)
  · rcases List.mem_cons.mp he with rfl | he
    · cases hop
    · have hall := (List.pairwise_append.mp inv.allowed).2.1
      have h := (List.pairwise_cons.mp hall).1 e he key ⟨rfl, rfl⟩ hop
      exact Nat.le_trans h hc

theorem RateInv.started_step (hmade : Made jwkSetFromSlice call t i o)
    {url : String} (ho : o = .startGet url)
    (hkeeps : KeepsLimit t (i, ⟨o, r⟩)) :
    ∃ d ∈ t, d.1 = i ∧ d.2.op = .recordFetch url ∧ d.2.time = r.time := by
  subst ho
  obtain ⟨⟨r₀, l, hp⟩, -⟩ := hmade
  have hd : (i, (⟨.recordFetch url, r₀⟩ : FetchEvent)) ∈ t :=
    mem_proj.mp (hp ▸ List.mem_cons_self)
  refine ⟨_, hd, rfl, rfl, ?_⟩
  refine hkeeps ⟨.recordFetch url, r₀⟩ ?_
  rw [hp]
  rfl

theorem RateInv.spaced_step (inv : RateInv t s)
    (hw : fetcherWorld s o r s') (hmade : Made jwkSetFromSlice call t i o)
    {url : String} (ho : o = .startGet url)
    (hkeeps : KeepsLimit t (i, ⟨o, r⟩)) :
    ∀ e ∈ t, e.2.op = .startGet url →
      e.2.time + MIN_FETCH_INTERVAL ≤ r.time := by
  intro e he hop
  obtain ⟨d, hd, hdi, hdop, hdt⟩ := inv.started e he url hop
  obtain ⟨d', hd', hdi', hdop', hdt'⟩ :=
    RateInv.started_step hmade ho hkeeps
  subst ho
  have hne : e.1 ≠ i := by
    intro hi
    have hfirst := hmade.2 e.2 (mem_proj.mpr (hi ▸ he))
    obtain ⟨j, op, ans⟩ := e
    cases hop
    cases hfirst
  have hdd : d ≠ d' := by
    rintro rfl
    exact hne (hdi.symm.trans hdi')
  have hle : e.2.time ≤ r.time := Nat.le_trans (inv.clock e he) hw.1
  have hpos : 0 < MIN_FETCH_INTERVAL := by decide
  -- of the two records the one of the new GET is the later: the clock says so
  rcases inv.apart.or_of_mem hd hd' hdd with h | h
  · have hlt := h url hdop hdop'
    omega
  · have hlt := h url hdop' hdop
    omega

theorem RateInv.step (inv : RateInv t s) (hw : fetcherWorld s o r s')
    (hmade : Made jwkSetFromSlice call t i o)
    (hcall : call i ≠ .clearCache) (hkeeps : KeepsLimit t (i, ⟨o, r⟩))
    (halong : Along KeepsLimit t) : RateInv ((i, ⟨o, r⟩) :: t) s' where
  clock := inv.clock_step hw
  recorded := by
    refine inv.recorded_step hw ?_
    rintro rfl
    exact hcall hmade
  allowed := .cons (fun e he key ha => inv.allowed_step hw key ha e he)
    inv.allowed
  apart := .cons
    (fun e he key ho => inv.apart_step hw ho hmade hkeeps halong e he)
    inv.apart
  started := by
    intro e he url hop
    rcases List.mem_cons.mp he with rfl | he
    · obtain ⟨d, hd, h⟩ := RateInv.started_step hmade hop hkeeps
      exact ⟨d, List.mem_cons_of_mem _ hd, h⟩
    · obtain ⟨d, hd, h⟩ := inv.started e he url hop
      exact ⟨d, List.mem_cons_of_mem _ hd, h⟩
  spaced := .cons
    (fun e he url ho => inv.spaced_step hw hmade ho hkeeps e he) inv.spaced

end Step

/-! ## Every run -/

variable [DecidableEq ι]

end Rate

/-! ## A server that does not answer -/

namespace Sample

def agentMetadataUrl : String :=
  "https://agent.example/.well-known/aauth-agent.json"

/-- Two calls for the metadata of one agent. -/
def metadataCalls (start : Instant) :
    Pool fetchSig FetcherState Bool (Except AAuthError FetcherReply) :=
  fetchers crates (fun _ => none)
    (fun _ => .fetchMetadata agentMetadataUrl) start

/-- Every GET fails after `patience`. -/
def unreachable (patience : Nat) : Surroundings where
  wait o := match o with
    | .finishGet _ => patience
    | _ => 0
  response := none

end Sample

end Aauth
