import Aauth.Proofs.AgentInput

/-!
# What a posted body is taken for

A body that is posted to a pending URL has no discriminator. The reader
tries the kinds of input in order, and the last of them, an empty record,
takes whatever object the others have refused, and arrays are read by
position. So what the members of a body say (`Tells`) is what the body is
taken for exactly when it is no such object and no such array (`Plain`).
-/

namespace Aauth

open Json

variable {cr : Crates} {ms : List (String × Json)} {name : String}

/-! ## Members with the right type -/

/-- The object has one member of the name, a text. -/
def HasText (ms : List (String × Json)) (name text : String) : Prop :=
  occurrences name ms = [.str text]

/-- The object has at most one member of the name, a text or `null`. -/
def HasOptional (ms : List (String × Json)) (name : String) :
    Option String → Prop
  | some text => HasText ms name text
  | none => occurrences name ms = [] ∨ occurrences name ms = [.null]

theorem required_asStr {text : String}
    (h : (occurrences name ms).length ≤ 1) :
    required asStr (member ms name) = some text ↔ HasText ms name text := by
  rw [HasText, member]
  cases ho : occurrences name ms with
  | nil => simp [required]
  | cons v vs =>
      rw [ho, List.length_cons] at h
      cases vs with
      | cons w vs =>
          rw [List.length_cons] at h
          omega
      | nil => cases v <;> simp [required, asStr]

theorem optional_asStr {o : Option String}
    (h : (occurrences name ms).length ≤ 1) :
    optional asStr (member ms name) = some o ↔ HasOptional ms name o := by
  have hcases : occurrences name ms = [] ∨ ∃ v, occurrences name ms = [v] := by
    cases ho : occurrences name ms with
    | nil => exact .inl rfl
    | cons v vs =>
        rw [ho, List.length_cons] at h
        cases vs with
        | nil => exact .inr ⟨v, rfl⟩
        | cons w vs =>
            rw [List.length_cons] at h
            omega
  rcases hcases with ho | ⟨v, ho⟩
  · cases o <;> simp [HasOptional, HasText, member, ho, Json.optional]
  · cases o <;> cases v <;>
      simp [HasOptional, HasText, member, ho, Json.optional, asStr]

theorem HasText.length {text : String} (h : HasText ms name text) :
    (occurrences name ms).length ≤ 1 := by
  rw [HasText] at h
  rw [h]
  exact Nat.le_refl 1

theorem HasOptional.length {o : Option String} (h : HasOptional ms name o) :
    (occurrences name ms).length ≤ 1 := by
  cases o with
  | some text => exact HasText.length h
  | none =>
      rcases h with h | h
      · rw [h]
        exact Nat.zero_le 1
      · rw [h]
        exact Nat.le_refl 1

/-- A record of an object is read when none of its names occurs twice. -/
theorem fields_obj_eq_some {names : List String}
    {field : String → Option Json} :
    fields names (.obj ms) = some field ↔
      (∀ n ∈ names, (occurrences n ms).length ≤ 1) ∧ member ms = field := by
  rw [fields]
  simp only [Option.ite_none_right_eq_some, List.all_eq_true,
    decide_eq_true_eq, Option.some.injEq]

/-! ## The kinds of input -/

/-- The object is a submission of claims, the extra ones left aside. -/
structure IsSubmission (ms : List (String × Json)) (c : ClaimsSubmission) :
    Prop where
  sub : HasText ms "sub" c.sub
  email : HasOptional ms "email" c.email
  tenant : HasOptional ms "tenant" c.tenant

/-- The object is an updated token. -/
structure IsUpdate (ms : List (String × Json)) (r : UpdatedTokenRequest) :
    Prop where
  resourceToken : HasText ms "resource_token" r.resourceToken
  justification : HasOptional ms "justification" r.justification

theorem ClaimsSubmission.fromJson_obj {c : ClaimsSubmission} :
    fromJson (.obj ms) = some c ↔ IsSubmission ms c ∧
      c.extra = mapFromMembers (others ["sub", "email", "tenant"] ms) := by
  simp only [fromJson, Option.bind_eq_bind, Option.bind_eq_some_iff,
    fields_obj_eq_some, Option.pure_def, Option.some.injEq]
  constructor
  · rintro ⟨_, ⟨hn, rfl⟩, sub, hs, email, he, tenant, ht, rfl⟩
    refine ⟨⟨?_, ?_, ?_⟩, rfl⟩
    · exact (required_asStr (hn _ (by simp))).mp hs
    · exact (optional_asStr (hn _ (by simp))).mp he
    · exact (optional_asStr (hn _ (by simp))).mp ht
  · rintro ⟨⟨hs, he, ht⟩, hx⟩
    refine ⟨_, ⟨?_, rfl⟩, _, (required_asStr hs.length).mpr hs, _,
      (optional_asStr he.length).mpr he, _,
      (optional_asStr ht.length).mpr ht, ?_⟩
    · intro n hn
      simp only [List.mem_cons, List.not_mem_nil, or_false] at hn
      rcases hn with rfl | rfl | rfl
      · exact hs.length
      · exact he.length
      · exact ht.length
    · cases c
      cases hx
      rfl

theorem IsSubmission.read {c : ClaimsSubmission} (h : IsSubmission ms c) :
    ∃ c', ClaimsSubmission.fromJson (.obj ms) = some c' :=
  ⟨{ c with extra := mapFromMembers (others ["sub", "email", "tenant"] ms) },
    ClaimsSubmission.fromJson_obj.mpr ⟨⟨h.sub, h.email, h.tenant⟩, rfl⟩⟩

theorem UpdatedTokenRequest.fromJson_obj {r : UpdatedTokenRequest} :
    fromJson (.obj ms) = some r ↔ IsUpdate ms r := by
  simp only [fromJson, Option.bind_eq_bind, Option.bind_eq_some_iff,
    fields_obj_eq_some, Option.pure_def, Option.some.injEq]
  constructor
  · rintro ⟨_, ⟨hn, rfl⟩, token, ht, justification, hj, rfl⟩
    refine ⟨?_, ?_⟩
    · exact (required_asStr (hn _ (by simp))).mp ht
    · exact (optional_asStr (hn _ (by simp))).mp hj
  · rintro ⟨ht, hj⟩
    refine ⟨_, ⟨?_, rfl⟩, _, (required_asStr ht.length).mpr ht, _,
      (optional_asStr hj.length).mpr hj, rfl⟩
    intro n hn
    simp only [List.mem_cons, List.not_mem_nil, or_false] at hn
    rcases hn with rfl | rfl
    · exact ht.length
    · exact hj.length

/-- What the members of an object say, the first kind of input going before
the others. -/
inductive Tells (ms : List (String × Json)) : PendingInput → Prop where
  | answer {text : String} : HasText ms "clarification_response" text →
      Tells ms (.clarificationResponse text)
  | claims {c : ClaimsSubmission} :
      (∀ text, ¬ HasText ms "clarification_response" text) →
      IsSubmission ms c → Tells ms (.claimsSubmission c)
  | update {r : UpdatedTokenRequest} :
      (∀ text, ¬ HasText ms "clarification_response" text) →
      (∀ c, ¬ IsSubmission ms c) → IsUpdate ms r → Tells ms (.updatedToken r)
  | completed : ms = [] → Tells ms .interactionCompleted

/-- Some kind of input is told by the object. -/
def Understood (ms : List (String × Json)) : Prop :=
  ms = [] ∨ (∃ text, HasText ms "clarification_response" text) ∨
    (∃ c, IsSubmission ms c) ∨ ∃ r, IsUpdate ms r

/-- What the reader takes an object for is what the object tells, unless the
object tells nothing. -/
theorem tells_iff_understood {b : PendingPostBody}
    (h : PendingPostBody.fromJson (.obj ms) = some b) :
    Tells ms (.ofBody b) ↔ Understood ms := by
  rw [PendingPostBody.fromJson] at h
  cases ha : ClarificationResponse.fromJson (.obj ms) with
  | some r =>
      rw [ha] at h
      cases h
      have ht := ClarificationResponse.fromJson_obj.mp ha
      exact iff_of_true (.answer ht) (.inr (.inl ⟨_, ht⟩))
  | none =>
      have hna : ∀ text, ¬ HasText ms "clarification_response" text := by
        intro text ht
        have hr : ClarificationResponse.fromJson (.obj ms) = some ⟨text⟩ :=
          ClarificationResponse.fromJson_obj.mpr ht
        cases ha.symm.trans hr
      rw [ha] at h
      cases hc : ClaimsSubmission.fromJson (.obj ms) with
      | some c =>
          rw [hc] at h
          cases h
          have hs := (ClaimsSubmission.fromJson_obj.mp hc).1
          exact iff_of_true (.claims hna hs) (.inr (.inr (.inl ⟨_, hs⟩)))
      | none =>
          have hnc : ∀ c, ¬ IsSubmission ms c := by
            intro c hs
            obtain ⟨c', hr⟩ := hs.read
            cases hc.symm.trans hr
          rw [hc] at h
          cases hu : UpdatedTokenRequest.fromJson (.obj ms) with
          | some r =>
              rw [hu] at h
              cases h
              have hr := UpdatedTokenRequest.fromJson_obj.mp hu
              exact iff_of_true (.update hna hnc hr)
                (.inr (.inr (.inr ⟨_, hr⟩)))
          | none =>
              rw [hu] at h
              cases h
              constructor
              · rintro ⟨⟩
                exact .inl ‹_›
              · rintro (h | ⟨text, h⟩ | ⟨c, h⟩ | ⟨r, h⟩)
                · exact .completed h
                · exact absurd h (hna text)
                · exact absurd h (hnc c)
                · cases hu.symm.trans (UpdatedTokenRequest.fromJson_obj.mpr h)

/-- No object is refused. -/
theorem fromJson_obj_isSome : ∃ b, PendingPostBody.fromJson (.obj ms) =
    some b := by
  rw [PendingPostBody.fromJson]
  cases ClarificationResponse.fromJson (.obj ms) with
  | some r => exact ⟨_, rfl⟩
  | none =>
      cases ClaimsSubmission.fromJson (.obj ms) with
      | some c => exact ⟨_, rfl⟩
      | none =>
          cases UpdatedTokenRequest.fromJson (.obj ms) with
          | some r => exact ⟨_, rfl⟩
          | none => exact ⟨_, rfl⟩

/-! ## Arrays -/

/-- The items are read as a record by position. -/
inductive Positional : List Json → Prop where
  | completed : Positional []
  | answer {text : String} : Positional [.str text]
  | update {token : String} : Positional [.str token, .null]
  | justified {token text : String} : Positional [.str token, .str text]

theorem positional_iff {items : List Json} :
    (∃ b, PendingPostBody.fromJson (.arr items) = some b) ↔
      Positional items := by
  have refused : PendingPostBody.fromJson (.arr items) = none →
      ¬ ∃ b, PendingPostBody.fromJson (.arr items) = some b := by
    rintro h ⟨b, hb⟩
    cases h.symm.trans hb
  cases items with
  | nil => exact iff_of_true ⟨_, rfl⟩ .completed
  | cons v items =>
      cases items with
      | nil =>
          cases v with
          | str text => exact iff_of_true ⟨_, rfl⟩ .answer
          | _ => exact iff_of_false (refused rfl) nofun
      | cons w items =>
          cases items with
          | nil =>
              cases v with
              | str token =>
                  cases w with
                  | null => exact iff_of_true ⟨_, rfl⟩ .update
                  | str text => exact iff_of_true ⟨_, rfl⟩ .justified
                  | _ => exact iff_of_false (refused rfl) nofun
              | _ => exact iff_of_false (refused rfl) nofun
          | cons x items =>
              refine iff_of_false (refused ?_) nofun
              simp [PendingPostBody.fromJson, ClarificationResponse.fromJson,
                ClaimsSubmission.fromJson, UpdatedTokenRequest.fromJson,
                interactionCompletedFromJson, fields]

/-! ## Every body -/

/-- Whatever the body is taken for is what it tells: nothing at all, or
what the members of its object say. -/
def ReadAsTold (cr : Crates) (body : Bytes) : Prop :=
  ∀ input, parsePendingPostBody cr body = .ok input →
    (body.all isAsciiWhitespace = true ∧ input = .interactionCompleted) ∨
    ∃ ms, cr.json.value.fromSlice body = .ok (.obj ms) ∧ Tells ms input

/-- A value that is taken for what it tells, or is refused. -/
def Plain : Json → Prop
  | .obj ms => Understood ms
  | .arr items => ¬ Positional items
  | _ => True

/-- A body that is not blank is left to the untagged reader. -/
theorem parse_not_blank {body : Bytes}
    (hblank : body.all isAsciiWhitespace = false) (input : PendingInput) :
    parsePendingPostBody cr body = .ok input ↔
      ∃ v, cr.json.value.fromSlice body = .ok v ∧
        ∃ b, PendingPostBody.fromJson v = some b ∧ .ofBody b = input := by
  have hempty : body.isEmpty = false := by
    cases body with
    | nil => cases hblank
    | cons _ _ => rfl
  rw [parsePendingPostBody, hempty, hblank, fromSlice]
  simp only [Bool.or_self, Bool.false_eq_true, if_false, Except.bind_eq_ok,
    Option.okOr_eq_ok, Except.pure_eq_ok, Option.bind_eq_some_iff]
  cases cr.json.value.fromSlice body with
  | error e => simp [Except.toOption]
  | ok v => simp [Except.toOption]

/-- A body is read as what it tells if and only if it is blank, or is no
JSON, or its value is plain. -/
theorem post_body_read_as_told {body : Bytes} :
    ReadAsTold cr body ↔ (body.all isAsciiWhitespace = false →
      ∀ v, cr.json.value.fromSlice body = .ok v → Plain v) := by
  constructor
  · intro h hblank v hv
    have htold : ∀ b, PendingPostBody.fromJson v = some b →
        ∃ ms, v = .obj ms ∧ Tells ms (.ofBody b) := by
      intro b hb
      have hp := (parse_not_blank hblank _).mpr ⟨v, hv, b, hb, rfl⟩
      rcases h _ hp with ⟨ht, -⟩ | ⟨ms, hms, ht⟩
      · cases ht.symm.trans hblank
      · exact ⟨ms, Except.ok.inj (hv.symm.trans hms), ht⟩
    cases v with
    | obj ms =>
        obtain ⟨b, hb⟩ := @fromJson_obj_isSome ms
        obtain ⟨ms', hms, ht⟩ := htold b hb
        cases hms
        exact (tells_iff_understood hb).mp ht
    | arr items =>
        intro hpos
        obtain ⟨b, hb⟩ := positional_iff.mpr hpos
        obtain ⟨ms, hms, -⟩ := htold b hb
        cases hms
    | _ => trivial
  · intro h input hp
    cases hblank : body.all isAsciiWhitespace with
    | true =>
        rw [parsePendingPostBody, hblank, Bool.or_true, if_pos rfl] at hp
        exact .inl ⟨rfl, (Except.ok.inj hp).symm⟩
    | false =>
        obtain ⟨v, hv, b, hb, rfl⟩ := (parse_not_blank hblank _).mp hp
        have hplain := h hblank v hv
        cases v with
        | obj ms => exact .inr ⟨ms, hv, (tells_iff_understood hb).mpr hplain⟩
        | arr items => exact absurd (positional_iff.mp ⟨b, hb⟩) hplain
        | _ => cases hb

/-- An object that tells nothing is taken for something all the same. -/
theorem not_as_told (h : JsonLaws cr) (hj : IsJson cr (.obj ms))
    (hn : ¬ Understood ms) : ¬ ReadAsTold cr (jsonBytes cr (.obj ms)) := by
  have hblank := jsonBytes_not_blank h hj
  have hv : cr.json.value.fromSlice (jsonBytes cr (.obj ms)) =
      .ok (.obj ms) := h.written hj
  obtain ⟨b, hb⟩ := @fromJson_obj_isSome ms
  have hp := (parse_not_blank hblank _).mpr ⟨_, hv, b, hb, rfl⟩
  intro hr
  rcases hr _ hp with ⟨ht, -⟩ | ⟨ms', hms, ht⟩
  · cases ht.symm.trans hblank
  · cases Except.ok.inj (hv.symm.trans hms)
    exact hn ((tells_iff_understood hb).mp ht)

/-! ## A misspelt member -/

namespace Sample

/-- An answer under a name that no kind of input has. -/
def misspelt : List (String × Json) := [("clarification", .str "no")]

theorem misspelt_not_understood : ¬ Understood misspelt := by
  have hnames : ∀ n ∈ ["clarification_response", "sub", "resource_token"],
      n ∉ misspelt.map (·.1) := by decide
  have hnone : ∀ n ∈ ["clarification_response", "sub", "resource_token"],
      ∀ text, ¬ HasText misspelt n text := by
    intro n hn text h
    rw [HasText, occurrences_eq_nil.mpr (hnames n hn)] at h
    cases h
  rintro (h | ⟨text, h⟩ | ⟨c, h⟩ | ⟨r, h⟩)
  · cases h
  · exact hnone _ (by simp) _ h
  · exact hnone _ (by simp) _ h.sub
  · exact hnone _ (by simp) _ h.resourceToken

/-- The answer is taken for a completed interaction. -/
theorem misspelt_not_as_told :
    ¬ ReadAsTold wireCrates (jsonBytes wireCrates (.obj misspelt)) :=
  not_as_told wireCrates_json (wireCrates_isJson _) misspelt_not_understood

end Sample

end Aauth
