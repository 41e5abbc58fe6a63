import Aauth.Proofs.Wire
import Aauth.Ref.AccessClient
import Aauth.Sample.Json

/-!
# Agent input over the federation hop

The Person Server's client writes what the agent posted, and the Access
Server reads it again. The body has no discriminator: the reader takes the
first kind of input whose members it finds. An input comes back as it was
exactly when it is no cancellation, which has no body of its own, and, if
it submits claims, none of the extra ones has the name of a field of the
submission or is a text called `clarification_response`.
-/

namespace Aauth

open Json ReqwestAccessServerClient

variable {cr : Crates}

/-! ## Inputs -/

/-- The extra claims are a map of JSON values. -/
structure ClaimsSubmission.WellFormed (cr : Crates)
    (c : ClaimsSubmission) : Prop where
  names : (c.extra.map (·.1)).Nodup
  values : ∀ m ∈ c.extra, IsJson cr m.2

def PendingInput.WellFormed (cr : Crates) : PendingInput → Prop
  | .claimsSubmission c => c.WellFormed cr
  | _ => True

/-- No extra claim is taken for a field of the submission, or for the
answer to a question. -/
structure ClaimsSubmission.Distinct (c : ClaimsSubmission) : Prop where
  fields : ∀ n ∈ ["sub", "email", "tenant"], n ∉ c.extra.map (·.1)
  answer : ∀ text, ("clarification_response", .str text) ∉ c.extra

/-- The inputs that the body tells apart. -/
def PendingInput.Distinct : PendingInput → Prop
  | .cancelled => False
  | .claimsSubmission c => c.Distinct
  | _ => True

/-! ## Reading one kind of input -/

theorem mapFromMembers_of_nodup {ms : List (String × Json)}
    (h : (ms.map (·.1)).Nodup) : mapFromMembers ms = ms := by
  induction ms with
  | nil => rfl
  | cons m ms ih =>
      rw [List.map_cons, List.nodup_cons] at h
      have hm : (ms.map (·.1)).contains m.1 = false := by
        rw [← Bool.not_eq_true, List.contains_iff_mem]
        exact h.1
      rw [mapFromMembers, hm, ih h.2]
      rfl

theorem mem_mapFromMembers {ms : List (String × Json)} {m : String × Json}
    (h : m ∈ mapFromMembers ms) : m ∈ ms := by
  induction ms with
  | nil => exact h
  | cons m' ms ih =>
      rw [mapFromMembers] at h
      split at h
      · exact List.mem_cons_of_mem _ (ih h)
      · rcases List.mem_cons.mp h with rfl | h
        · exact List.mem_cons_self
        · exact List.mem_cons_of_mem _ (ih h)

/-- An object is an answer when it has one text of that name. -/
theorem ClarificationResponse.fromJson_obj {ms : List (String × Json)}
    {r : ClarificationResponse} : fromJson (.obj ms) = some r ↔
      occurrences "clarification_response" ms =
        [.str r.clarificationResponse] := by
  rw [fromJson, fields]
  cases ho : occurrences "clarification_response" ms with
  | nil => simp [ho, member, required]
  | cons v vs =>
      cases vs with
      | cons w ws => simp [ho]
      | nil =>
          cases r
          cases v <;> simp [ho, member, required, asStr]

/-- The members of the map are none of the fields. -/
theorem ClaimsSubmission.extra_of_fromJson {j : Json}
    {c : ClaimsSubmission} (h : fromJson j = some c) :
    ∀ n ∈ ["sub", "email", "tenant"], n ∉ c.extra.map (·.1) := by
  intro n hn hm
  cases j with
  | obj ms =>
      simp only [fromJson, Option.bind_eq_bind, Option.bind_eq_some_iff,
        Option.pure_def, Option.some.injEq] at h
      obtain ⟨_, -, _, -, _, -, _, -, rfl⟩ := h
      obtain ⟨m, hx, rfl⟩ := List.mem_map.mp hm
      exact not_mem_others hn (List.mem_map_of_mem (mem_mapFromMembers hx))
  | _ => exact nomatch h

/-! ## Claims -/

namespace ClaimsSubmission

variable {c : ClaimsSubmission}

/-- The fields as they are written. -/
def head (c : ClaimsSubmission) : List (String × Json) :=
  [("sub", .str c.sub)] ++ written "email" .str c.email
    ++ written "tenant" .str c.tenant

theorem toJson_eq : c.toJson = .obj (c.head ++ c.extra) := rfl

theorem head_names :
    (c.head.map (·.1)).Sublist ["sub", "email", "tenant"] := by
  rw [head, List.map_append, List.map_append]
  exact .append (.append (.refl _) (names_written ..)) (names_written ..)

theorem isJson (h : JsonLaws cr) (hc : c.WellFormed cr) :
    IsJson cr c.toJson := by
  rw [toJson_eq]
  apply h.obj
  apply isJson_append (isJson_append (isJson_append _ _) _) hc.values
  · exact isJson_cons (h.str _) isJson_nil
  · exact isJson_written _ fun s _ => h.str s
  · exact isJson_written _ fun s _ => h.str s

/-- A name that is no field occurs as often as among the extra claims. -/
theorem occurrences_members {n : String}
    (hn : n ∉ ["sub", "email", "tenant"]) :
    occurrences n (c.head ++ c.extra) = occurrences n c.extra := by
  have hh : occurrences n c.head = [] :=
    occurrences_eq_nil.mpr fun hm => hn (head_names.subset hm)
  rw [occurrences_append, hh, List.nil_append]

theorem answer_iff (hc : c.WellFormed cr) {text : String} :
    ("clarification_response", .str text) ∈ c.extra ↔
      ClarificationResponse.fromJson c.toJson = some ⟨text⟩ := by
  rw [toJson_eq, ClarificationResponse.fromJson_obj,
    occurrences_members (by decide)]
  constructor
  · exact occurrences_of_mem hc.names
  · intro h
    rw [← mem_occurrences, h]
    exact List.mem_singleton_self _

theorem fromJson_toJson (hc : c.WellFormed cr) (hd : c.Distinct) :
    fromJson c.toJson = some c := by
  have hx : ∀ n ∈ ["sub", "email", "tenant"], occurrences n c.extra = [] :=
    fun n hn => occurrences_eq_nil.mpr (hd.fields n hn)
  have hw : ∀ o : Option String, optional asStr (o.map .str) = some o :=
    fun o => optional_written (fun _ _ => rfl) fun _ => nofun
  have hnames : ((c.head ++ c.extra).map (·.1)).Nodup := by
    rw [List.map_append, List.nodup_append]
    refine ⟨head_names.nodup (by decide), hc.names, ?_⟩
    intro a ha b hb hab
    exact hd.fields a (head_names.subset ha) (hab ▸ hb)
  have hextra : mapFromMembers
      (others ["sub", "email", "tenant"] (c.head ++ c.extra)) = c.extra := by
    rw [others_append, others_eq_nil fun n hn => head_names.subset hn,
      List.nil_append, others_of_disjoint hd.fields,
      mapFromMembers_of_nodup hc.names]
  have hsub : member (c.head ++ c.extra) "sub" = some (.str c.sub) := by
    simp [member, head, occurrences_cons]
  have hemail : member (c.head ++ c.extra) "email" = c.email.map .str := by
    simp [member, head, occurrences_cons, occurrences_written, hx]
  have htenant : member (c.head ++ c.extra) "tenant" = c.tenant.map .str := by
    simp [member, head, occurrences_cons, occurrences_written, hx]
  rw [toJson_eq, fromJson, fields_obj hnames]
  simp only [Option.bind_eq_bind, Option.bind_some, hsub, hemail, htenant,
    hextra, hw, required, asStr, Option.pure_def]

end ClaimsSubmission

/-! ## The other inputs -/

theorem ClarificationResponse.fromJson_toJson (r : ClarificationResponse) :
    fromJson r.toJson = some r :=
  fromJson_obj.mpr (by simp [occurrences_cons])

namespace UpdatedTokenRequest

variable (r : UpdatedTokenRequest)

def members : List (String × Json) :=
  [("resource_token", .str r.resourceToken)]
    ++ written "justification" .str r.justification

theorem toJson_eq : r.toJson = .obj r.members := rfl

theorem names : (r.members.map (·.1)).Sublist
    ["resource_token", "justification"] := by
  rw [members, List.map_append]
  exact .append (.refl ["resource_token"]) (names_written ..)

theorem fields_toJson (l : List String) :
    fields l r.toJson = some (member r.members) :=
  fields_obj_sublist _ r.names (by decide)

theorem isJson (h : JsonLaws cr) : IsJson cr r.toJson :=
  h.obj (isJson_append (isJson_cons (h.str _) isJson_nil)
    (isJson_written _ fun s _ => h.str s))

/-- What is not called so is not there. -/
theorem occurrences_members {n : String}
    (hn : n ∉ ["resource_token", "justification"]) :
    occurrences n r.members = [] :=
  occurrences_eq_nil.mpr fun hm => hn (r.names.subset hm)

theorem fromJson_toJson : fromJson r.toJson = some r := by
  have hw : ∀ o : Option String, optional asStr (o.map .str) = some o :=
    fun o => optional_written (fun _ _ => rfl) fun _ => nofun
  rw [fromJson, fields_toJson]
  simp [members, member, occurrences_cons, occurrences_written, required,
    asStr, hw]

theorem not_answer : ClarificationResponse.fromJson r.toJson = none := by
  rw [Option.eq_none_iff_forall_ne_some]
  intro a ha
  rw [toJson_eq, ClarificationResponse.fromJson_obj,
    r.occurrences_members (by decide)] at ha
  exact nomatch ha

theorem not_claims : ClaimsSubmission.fromJson r.toJson = none := by
  have hsub : member r.members "sub" = none := by
    rw [member, r.occurrences_members (by decide)]
    rfl
  have hf := r.fields_toJson ["sub", "email", "tenant"]
  rw [toJson_eq] at hf ⊢
  rw [ClaimsSubmission.fromJson, hf, Option.bind_eq_bind, Option.bind_some,
    hsub]
  rfl

end UpdatedTokenRequest

/-! ## The hop -/

/-- A body with a tree is read by the first variant that takes it. -/
theorem parse_jsonBytes (h : JsonLaws cr) {v : Json} (hv : IsJson cr v)
    (input : PendingInput) :
    parsePendingPostBody cr (jsonBytes cr v) = .ok input ↔
      ∃ b, PendingPostBody.fromJson v = some b ∧ .ofBody b = input := by
  rw [parsePendingPostBody, jsonBytes_not_empty h hv,
    jsonBytes_not_blank h hv, fromSlice_jsonBytes h hv]
  simp only [Bool.or_self, Bool.false_eq_true, if_false, Except.bind_eq_ok,
    Option.okOr_eq_ok, Except.pure_eq_ok]

/-- The empty object is no input of the other kinds. -/
theorem parse_emptyObject (h : JsonLaws cr) :
    parsePendingPostBody cr "{}".toUTF8.data.toList =
      .ok .interactionCompleted := by
  have hb : ("{}".toUTF8.data.toList.isEmpty ||
      "{}".toUTF8.data.toList.all isAsciiWhitespace) = false := by decide
  rw [parsePendingPostBody, hb, fromSlice, h.emptyObject]
  rfl

/-- A submission is read as one when it is read back and is no answer. -/
theorem fromJson_claims {c c' : ClaimsSubmission} :
    PendingPostBody.fromJson c.toJson = some (.claims c') ↔
      ClarificationResponse.fromJson c.toJson = none ∧
        ClaimsSubmission.fromJson c.toJson = some c' := by
  rw [PendingPostBody.fromJson]
  cases ClarificationResponse.fromJson c.toJson with
  | some r => simp
  | none =>
      cases hc : ClaimsSubmission.fromJson c.toJson with
      | some d => simp
      | none =>
          cases UpdatedTokenRequest.fromJson c.toJson with
          | some r => simp
          | none => simp

/-- Only a submission is read as claims. -/
theorem ofBody_claims {b : PendingPostBody} {c : ClaimsSubmission} :
    PendingInput.ofBody b = .claimsSubmission c ↔ b = .claims c := by
  cases b <;> simp [PendingInput.ofBody]

theorem claims_survive (h : JsonLaws cr) {c : ClaimsSubmission}
    (hc : c.WellFormed cr) :
    parsePendingPostBody cr (jsonBytes cr c.toJson) =
      .ok (.claimsSubmission c) ↔ c.Distinct := by
  rw [parse_jsonBytes h (c.isJson h hc)]
  simp only [ofBody_claims, exists_eq_right, fromJson_claims]
  constructor
  · intro hr
    obtain ⟨hn, hs⟩ := hr
    refine ⟨c.extra_of_fromJson hs, ?_⟩
    intro text hm
    rw [ClaimsSubmission.answer_iff hc, hn] at hm
    exact nomatch hm
  · intro hd
    refine ⟨?_, c.fromJson_toJson hc hd⟩
    rw [Option.eq_none_iff_forall_ne_some]
    intro r hr
    exact hd.answer r.clarificationResponse
      ((ClaimsSubmission.answer_iff hc).mpr hr)

namespace Sample

/-- A submission whose extra claims are none of its fields. -/
def namedClaims : ClaimsSubmission where
  sub := "user-1"
  email := some "user@example.com"
  tenant := none
  extra := [("org", .str "acme"), ("clarification_response", .null)]

/-- One that carries a text under the name of an answer. -/
def answerClaims : ClaimsSubmission :=
  { namedClaims with extra := [("clarification_response", .str "yes")] }

theorem wireCrates_isJson (v : Json) : IsJson wireCrates v :=
  ⟨_, jsonText_written v⟩

theorem namedClaims_wellFormed : namedClaims.WellFormed wireCrates where
  names := by decide
  values := fun _ _ => wireCrates_isJson _

theorem answerClaims_wellFormed : answerClaims.WellFormed wireCrates where
  names := by decide
  values := fun _ _ => wireCrates_isJson _

end Sample

end Aauth
