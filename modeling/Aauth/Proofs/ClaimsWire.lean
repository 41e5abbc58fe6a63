import Aauth.Proofs.Wire
import Aauth.Ref.Claims
import Aauth.Sample.Json
import Aauth.Sample.Parties

/-!
# Tokens say what was minted into them

The claims of each kind of token, and the bodies of the two token requests,
come back as they were written, a delegation chain at any depth. A token's
payload has two readers, the claims and `httpsig-key`'s, which looks for
`cnf` alone. They agree on the key whenever both read the payload, and on
an object they both do. An array is read as claims only: `httpsig-key`
expects one field where the claims have seven at least.
-/

namespace Aauth

open Json

variable {cr : Crates}

/-! ## Texts that may be left out -/

theorem optional_texts (o : Option String) :
    optional asStr (o.map .str) = some o :=
  optional_written (fun _ _ => rfl) fun _ h => by cases h

/-- One field after the other. -/
theorem bind_of_eq {α β : Type} {o : Option α} {a : α} {f : α → Option β}
    {b : Option β} (h : o = some a) (hf : f a = b) : (o >>= f) = b := by
  rw [h]
  exact hf

/-! ## Keys -/

theorem PublicJwk.fromJson_toJson (k : PublicJwk) :
    fromJson k.toJson = some k := by
  rw [toJson, fromJson, fields_record]
  · simp [required, asStr, optional_texts]
  · show ["kty", "crv", "x", "y", "kid"].Nodup
    decide

theorem CnfClaim.fromJson_toJson (c : CnfClaim) :
    fromJson c.toJson = some c := by
  rw [toJson, fromJson, fields_obj]
  · simp [member, occurrences_cons, required, PublicJwk.fromJson_toJson]
  · exact List.nodup_singleton "jwk"

/-! ## Parts of the claims -/

theorem Mission.fromJson_toJson (m : Mission) :
    fromJson m.toJson = some m := by
  rw [toJson, fromJson, fields_obj]
  · simp [member, occurrences_cons, required, asStr]
  · show ["approver", "s256"].Nodup
    decide

theorem ResourceInteractionClaim.fromJson_toJson
    (c : ResourceInteractionClaim) : fromJson c.toJson = some c := by
  rw [toJson, fromJson, fields_obj]
  · simp [member, occurrences_cons, required, asStr]
  · show ["url", "code"].Nodup
    decide

theorem ActClaim.toJson_ne_null (a : ActClaim) : a.toJson ≠ .null := by
  obtain ⟨agent, act⟩ := a
  cases act with
  | none => rw [toJson]; intro h; cases h
  | some act => rw [toJson]; intro h; cases h

/-- A node is read like any record, its tail by the same reader. -/
theorem ActClaim.fromJson_fields {j : Json} {field : String → Option Json}
    (h : j.fields ["agent", "act"] = some field) :
    fromJson j = (required asStr (field "agent")).bind fun agent =>
      (optional fromJson (field "act")).map fun act => ⟨agent, act⟩ := by
  rw [fromJson]
  split
  · next hn =>
    rw [hn] at h
    cases h
  · next field' hf =>
    rw [hf] at h
    cases h
    refine congrArg (required asStr (field "agent")).bind
      (funext fun agent => ?_)
    split
    · next hv =>
      rw [hv]
      rfl
    · next hv =>
      rw [hv]
      rfl
    · next v hnull hv =>
      rw [hv, Json.optional]
      · cases fromJson v with
        | none => rfl
        | some act => rfl
      · exact hnull

/-- By induction on the chain, each node on the one below it. -/
theorem ActClaim.fromJson_toJson : ∀ a : ActClaim,
    fromJson a.toJson = some a
  | ⟨agent, none⟩ => by
      have hf : (Json.obj [("agent", .str agent)]).fields ["agent", "act"] =
          some (member [("agent", .str agent)]) :=
        fields_obj (show ["agent"].Nodup by decide)
      rw [toJson, fromJson_fields hf]
      simp [member, occurrences_cons, required, asStr, Json.optional]
  | ⟨agent, some act⟩ => by
      have ih : optional fromJson (some act.toJson) = some (some act) :=
        optional_written (o := some act)
          (fun a ha => by cases ha; exact fromJson_toJson act)
          toJson_ne_null
      have hf : (Json.obj [("agent", .str agent), ("act", act.toJson)]).fields
          ["agent", "act"] = some (member
            [("agent", .str agent), ("act", act.toJson)]) :=
        fields_obj (show ["agent", "act"].Nodup by decide)
      rw [toJson, fromJson_fields hf]
      simp [member, occurrences_cons, required, asStr, ih]

/-! ## Claims -/

/-- Times are 64-bit numbers. -/
def AgentClaims.Fits (c : AgentClaims) : Prop :=
  (-2 ^ 63 ≤ c.iat ∧ c.iat < 2 ^ 63) ∧ -2 ^ 63 ≤ c.exp ∧ c.exp < 2 ^ 63

def AuthClaims.Fits (c : AuthClaims) : Prop :=
  (-2 ^ 63 ≤ c.iat ∧ c.iat < 2 ^ 63) ∧ -2 ^ 63 ≤ c.exp ∧ c.exp < 2 ^ 63

def ResourceClaims.Fits (c : ResourceClaims) : Prop :=
  c.iat < 2 ^ 64 ∧ c.exp < 2 ^ 64

theorem AgentClaims.fromJson_toJson {c : AgentClaims} (h : c.Fits) :
    fromJson c.toJson = some c := by
  refine bind_of_eq (fields_record ?_) ?_
  · show ["iss", "dwk", "sub", "jti", "cnf", "iat", "exp", "ps",
      "parent_agent"].Nodup
    decide
  · refine bind_of_eq rfl (bind_of_eq rfl (bind_of_eq rfl ?_))
    refine bind_of_eq rfl (bind_of_eq c.cnf.fromJson_toJson ?_)
    refine bind_of_eq (asI64_int h.1) (bind_of_eq (asI64_int h.2) ?_)
    exact bind_of_eq (optional_texts _) (bind_of_eq (optional_texts _) rfl)

theorem AuthClaims.fromJson_toJson {c : AuthClaims} (h : c.Fits) :
    fromJson c.toJson = some c := by
  have hact : Json.optional ActClaim.fromJson (c.act.map ActClaim.toJson) =
      some c.act :=
    optional_written (fun a _ => a.fromJson_toJson) ActClaim.toJson_ne_null
  have hmission : Json.optional Mission.fromJson
      (c.mission.map Mission.toJson) = some c.mission :=
    optional_written (fun m _ => m.fromJson_toJson) fun _ h => by cases h
  refine bind_of_eq (fields_record ?_) ?_
  · show ["iss", "dwk", "aud", "jti", "agent", "act", "cnf", "iat", "exp",
      "sub", "scope", "tenant", "mission"].Nodup
    decide
  · refine bind_of_eq rfl (bind_of_eq rfl (bind_of_eq rfl ?_))
    refine bind_of_eq rfl (bind_of_eq rfl (bind_of_eq hact ?_))
    refine bind_of_eq c.cnf.fromJson_toJson ?_
    refine bind_of_eq (asI64_int h.1) (bind_of_eq (asI64_int h.2) ?_)
    refine bind_of_eq (optional_texts _) (bind_of_eq (optional_texts _) ?_)
    exact bind_of_eq (optional_texts _) (bind_of_eq hmission rfl)

theorem ResourceClaims.fromJson_toJson {c : ResourceClaims} (h : c.Fits) :
    fromJson c.toJson = some c := by
  have hmission : Json.optional Mission.fromJson
      (c.mission.map Mission.toJson) = some c.mission :=
    optional_written (fun m _ => m.fromJson_toJson) fun _ h => by cases h
  have hinteraction : Json.optional ResourceInteractionClaim.fromJson
      (c.interaction.map ResourceInteractionClaim.toJson) =
        some c.interaction :=
    optional_written (fun i _ => i.fromJson_toJson) fun _ h => by cases h
  refine bind_of_eq (fields_record ?_) ?_
  · show ["iss", "dwk", "aud", "jti", "agent", "agent_jkt", "iat", "exp",
      "scope", "mission", "interaction"].Nodup
    decide
  · refine bind_of_eq rfl (bind_of_eq rfl (bind_of_eq rfl ?_))
    refine bind_of_eq rfl (bind_of_eq rfl (bind_of_eq rfl ?_))
    refine bind_of_eq (asU64_int h.1) (bind_of_eq (asU64_int h.2) ?_)
    refine bind_of_eq (optional_texts _) (bind_of_eq hmission ?_)
    exact bind_of_eq hinteraction rfl

/-! ## Their texts -/

theorem isJson_record {l : List (String × Option Json)}
    (h : ∀ f ∈ l, ∀ v ∈ f.2, IsJson cr v) : ∀ m ∈ record l, IsJson cr m.2 := by
  intro m hm
  obtain ⟨f, hf, hm⟩ := List.mem_filterMap.mp hm
  obtain ⟨v, hv, rfl⟩ := Option.map_eq_some_iff.mp hm
  exact h f hf v hv

theorem isJson_texts (laws : JsonLaws cr) (o : Option String) :
    ∀ v ∈ o.map Json.str, IsJson cr v := by
  intro v hv
  obtain ⟨s, -, rfl⟩ := Option.map_eq_some_iff.mp hv
  exact laws.str s

theorem isJson_value {v : Json} (h : IsJson cr v) :
    ∀ w ∈ some v, IsJson cr w := by
  intro w hw
  cases hw
  exact h

theorem PublicJwk.isJson (laws : JsonLaws cr) (k : PublicJwk) :
    IsJson cr k.toJson := by
  refine laws.obj (isJson_record ?_)
  simp only [List.forall_mem_cons]
  exact ⟨isJson_value (laws.str _), isJson_value (laws.str _),
    isJson_value (laws.str _), isJson_texts laws _, isJson_texts laws _,
    fun f hf => absurd hf List.not_mem_nil⟩

theorem CnfClaim.isJson (laws : JsonLaws cr) (c : CnfClaim) :
    IsJson cr c.toJson :=
  laws.obj (isJson_cons (c.jwk.isJson laws) isJson_nil)

theorem Mission.isJson (laws : JsonLaws cr) (m : Mission) :
    IsJson cr m.toJson :=
  laws.obj (isJson_cons (laws.str _) (isJson_cons (laws.str _) isJson_nil))

theorem ResourceInteractionClaim.isJson (laws : JsonLaws cr)
    (c : ResourceInteractionClaim) : IsJson cr c.toJson :=
  laws.obj (isJson_cons (laws.str _) (isJson_cons (laws.str _) isJson_nil))

theorem isJson_time (laws : JsonLaws cr) {n : Int}
    (h : -2 ^ 63 ≤ n ∧ n < 2 ^ 63) : IsJson cr (.int n) :=
  laws.int n h.1 (by omega)

theorem isJson_mapped {α : Type} {write : α → Json} {o : Option α}
    (h : ∀ a ∈ o, IsJson cr (write a)) : ∀ v ∈ o.map write, IsJson cr v := by
  intro v hv
  obtain ⟨a, ha, rfl⟩ := Option.map_eq_some_iff.mp hv
  exact h a ha

theorem AgentClaims.isJson (laws : JsonLaws cr) {c : AgentClaims}
    (h : c.Fits) : IsJson cr c.toJson := by
  refine laws.obj (isJson_record ?_)
  simp only [List.forall_mem_cons]
  exact ⟨isJson_value (laws.str _), isJson_value (laws.str _),
    isJson_value (laws.str _), isJson_value (laws.str _),
    isJson_value (c.cnf.isJson laws), isJson_value (isJson_time laws h.1),
    isJson_value (isJson_time laws h.2), isJson_texts laws _,
    isJson_texts laws _, fun f hf => absurd hf List.not_mem_nil⟩

/-- The chain has to be one that can be read back as text. -/
theorem AuthClaims.isJson (laws : JsonLaws cr) {c : AuthClaims}
    (h : c.Fits) (hact : ∀ a ∈ c.act, IsJson cr a.toJson) :
    IsJson cr c.toJson := by
  refine laws.obj (isJson_record ?_)
  simp only [List.forall_mem_cons]
  exact ⟨isJson_value (laws.str _), isJson_value (laws.str _),
    isJson_value (laws.str _), isJson_value (laws.str _),
    isJson_value (laws.str _), isJson_mapped hact,
    isJson_value (c.cnf.isJson laws), isJson_value (isJson_time laws h.1),
    isJson_value (isJson_time laws h.2), isJson_texts laws _,
    isJson_texts laws _, isJson_texts laws _,
    isJson_mapped fun m _ => m.isJson laws,
    fun f hf => absurd hf List.not_mem_nil⟩

theorem ResourceClaims.isJson (laws : JsonLaws cr) {c : ResourceClaims}
    (h : c.Fits) : IsJson cr c.toJson := by
  refine laws.obj (isJson_record ?_)
  simp only [List.forall_mem_cons]
  exact ⟨isJson_value (laws.str _), isJson_value (laws.str _),
    isJson_value (laws.str _), isJson_value (laws.str _),
    isJson_value (laws.str _), isJson_value (laws.str _),
    isJson_value (isJson_nat laws h.1), isJson_value (isJson_nat laws h.2),
    isJson_texts laws _, isJson_mapped fun m _ => m.isJson laws,
    isJson_mapped fun i _ => i.isJson laws,
    fun f hf => absurd hf List.not_mem_nil⟩

theorem Serde.Derived.read_back {α : Type} {s : Serde α} {write : α → Json}
    {read : Json → Option α} (d : s.Derived cr write read)
    (laws : JsonLaws cr) {a : α} (hj : IsJson cr (write a))
    (hr : read (write a) = some a) : s.fromSlice (s.toVec a) = .ok a := by
  rw [d.fromSlice, d.toVec]
  exact fromSlice_of_tree laws hj hr

/-- What a record has of an object is the same for every record that names
it. -/
theorem fields_obj_of_fields {names : List String} (names' : List String)
    {members : List (String × Json)} {field : String → Option Json}
    (h : (Json.obj members).fields names = some field)
    (hsub : ∀ n ∈ names', n ∈ names) :
    (Json.obj members).fields names' = some field := by
  rw [fields] at h ⊢
  split at h
  · next hall =>
    rw [if_pos]
    · exact h
    · rw [List.all_eq_true] at hall ⊢
      exact fun n hn => hall n (hsub n hn)
  · cases h

/-- How many items an array needs for the record to have a field. -/
theorem length_of_fields_arr {names : List String} {items : List Json}
    {field : String → Option Json} {n : String} {v : Json}
    (h : (Json.arr items).fields names = some field)
    (hv : field n = some v) : names.idxOf n < items.length := by
  rw [fields] at h
  split at h
  · cases h
    obtain ⟨hi, -⟩ := List.getElem?_eq_some_iff.mp hv
    exact hi
  · cases h

theorem required_eq_some {α : Type} {read : Json → Option α}
    {o : Option Json} {a : α} :
    required read o = some a ↔ ∃ v, o = some v ∧ read v = some a :=
  Option.bind_eq_some_iff

theorem PublicJwk.fromJson_null : fromJson .null = none := rfl

theorem CnfClaim.fromJson_null : fromJson .null = none := rfl

/-- A field that is required and was read is there for who may do without
it. -/
theorem optional_of_required {α β : Type} {read : Json → Option α}
    {read' : Json → Option β} {o : Option Json} {a : α} {b : β}
    (h : required read o = some a) (hn : read .null = none)
    (hr : ∀ v, read v = some a → read' v = some b) :
    Json.optional read' o = some (some b) := by
  obtain ⟨v, rfl, hv⟩ := required_eq_some.mp h
  rw [Json.optional, hr v hv]
  · rfl
  · intro he
    rw [he, hn] at hv
    cases hv

/-- The confirmation claim of a token names its key to either reader. -/
theorem cnfFromJson_of_cnf {v : Json} {c : CnfClaim}
    (h : CnfClaim.fromJson v = some c) : cnfFromJson v = some (some c.jwk) := by
  obtain ⟨field, hf, h⟩ := Option.bind_eq_some_iff.mp h
  obtain ⟨jwk, hj, h⟩ := Option.bind_eq_some_iff.mp h
  cases h
  have hopt := optional_of_required hj PublicJwk.fromJson_null
    (fun v hv => hv)
  rw [cnfFromJson]
  · exact bind_of_eq hf hopt
  · intro he
    subst he
    cases hf
    cases hj

/-- What `httpsig-key` reads where a record reads a required `cnf`, in a
place that is not the first. -/
theorem payload_of_cnf {names : List String} {j : Json}
    {field : String → Option Json} {c : CnfClaim}
    (hf : j.fields names = some field) (hcnf : "cnf" ∈ names)
    (hpos : 0 < names.idxOf "cnf")
    (h : required CnfClaim.fromJson (field "cnf") = some c) :
    JwtPayload.fromJson j =
      if j.isObject then some ⟨some (some c.jwk)⟩ else none := by
  cases j with
  | obj members =>
      have hf' := fields_obj_of_fields ["cnf"] hf
        (fun n hn => by
          rw [List.mem_singleton] at hn
          rw [hn]
          exact hcnf)
      exact bind_of_eq hf' (bind_of_eq (optional_of_required h
        CnfClaim.fromJson_null fun _ => cnfFromJson_of_cnf) rfl)
  | arr items =>
      -- the array is longer than the one field that is asked for
      obtain ⟨v, hv, -⟩ := required_eq_some.mp h
      have hlen := length_of_fields_arr hf hv
      cases items with
      | nil => rfl
      | cons v' items =>
          have hlong : ¬ (v' :: items).length ≤ ["cnf"].length := by
            have : ["cnf"].length = 1 := rfl
            omega
          rw [JwtPayload.fromJson, fields, if_neg hlong]
          · rfl
          · intro he
            cases he
  | null | bool _ | int _ | float _ | str _ => cases hf

theorem AgentClaims.payload {j : Json} {c : AgentClaims}
    (h : fromJson j = some c) :
    JwtPayload.fromJson j =
      if j.isObject then some ⟨some (some c.cnf.jwk)⟩ else none := by
  obtain ⟨field, hf, h⟩ := Option.bind_eq_some_iff.mp h
  obtain ⟨iss, -, h⟩ := Option.bind_eq_some_iff.mp h
  obtain ⟨dwk, -, h⟩ := Option.bind_eq_some_iff.mp h
  obtain ⟨sub, -, h⟩ := Option.bind_eq_some_iff.mp h
  obtain ⟨jti, -, h⟩ := Option.bind_eq_some_iff.mp h
  obtain ⟨cnf, hcnf, h⟩ := Option.bind_eq_some_iff.mp h
  have hc : c.cnf = cnf := by
    simp only [Option.bind_eq_bind, Option.bind_eq_some_iff] at h
    obtain ⟨iat, -, exp, -, ps, -, parent, -, h⟩ := h
    cases h
    rfl
  rw [hc]
  exact payload_of_cnf hf (by decide) (by decide) hcnf

theorem AuthClaims.payload {j : Json} {c : AuthClaims}
    (h : fromJson j = some c) :
    JwtPayload.fromJson j =
      if j.isObject then some ⟨some (some c.cnf.jwk)⟩ else none := by
  obtain ⟨field, hf, h⟩ := Option.bind_eq_some_iff.mp h
  obtain ⟨iss, -, h⟩ := Option.bind_eq_some_iff.mp h
  obtain ⟨dwk, -, h⟩ := Option.bind_eq_some_iff.mp h
  obtain ⟨aud, -, h⟩ := Option.bind_eq_some_iff.mp h
  obtain ⟨jti, -, h⟩ := Option.bind_eq_some_iff.mp h
  obtain ⟨agent, -, h⟩ := Option.bind_eq_some_iff.mp h
  obtain ⟨act, -, h⟩ := Option.bind_eq_some_iff.mp h
  obtain ⟨cnf, hcnf, h⟩ := Option.bind_eq_some_iff.mp h
  have hc : c.cnf = cnf := by
    simp only [Option.bind_eq_bind, Option.bind_eq_some_iff] at h
    obtain ⟨iat, -, exp, -, sub, -, scope, -, tenant, -, mission, -, h⟩ := h
    cases h
    rfl
  rw [hc]
  exact payload_of_cnf hf (by decide) (by decide) hcnf

@[simp] theorem Capability.fromJson_asStr (c : Capability) :
    fromJson (.str c.asStr) = some c := by
  cases c <;> decide

theorem TokenExchangeRequest.toJson_eq (r : TokenExchangeRequest) :
    r.toJson = .obj (record [("resource_token", some (.str r.resourceToken)),
      ("upstream_token", r.upstreamToken.map .str),
      ("subagent_token", r.subagentToken.map .str),
      ("justification", r.justification.map .str),
      ("login_hint", r.loginHint.map .str), ("tenant", r.tenant.map .str),
      ("domain_hint", r.domainHint.map .str),
      ("capabilities", r.capabilities.map
        fun cs : List Capability => .arr (cs.map fun c => .str c.asStr)),
      ("prompt", r.prompt.map .str), ("platform", r.platform.map .str),
      ("device", r.device.map .str)]) := by
  rw [toJson]
  simp only [written_eq_record]
  have hone : [("resource_token", Json.str r.resourceToken)] =
      record [("resource_token", some (.str r.resourceToken))] := rfl
  rw [hone]
  simp only [← record_append]
  rfl

theorem TokenExchangeRequest.fromJson_toJson (r : TokenExchangeRequest) :
    fromJson r.toJson = some r := by
  have hcapabilities : Json.optional (asList Capability.fromJson)
      (r.capabilities.map fun cs : List Capability =>
        .arr (cs.map fun c => .str c.asStr)) = some r.capabilities :=
    optional_written (fun cs _ => asList_map Capability.fromJson_asStr cs)
      fun _ h => by cases h
  rw [toJson_eq]
  refine bind_of_eq (fields_record ?_) ?_
  · show ["resource_token", "upstream_token", "subagent_token",
      "justification", "login_hint", "tenant", "domain_hint", "capabilities",
      "prompt", "platform", "device"].Nodup
    decide
  · refine bind_of_eq rfl (bind_of_eq (optional_texts _) ?_)
    refine bind_of_eq (optional_texts _) (bind_of_eq (optional_texts _) ?_)
    refine bind_of_eq (optional_texts _) (bind_of_eq (optional_texts _) ?_)
    refine bind_of_eq (optional_texts _) (bind_of_eq hcapabilities ?_)
    refine bind_of_eq (optional_texts _) (bind_of_eq (optional_texts _) ?_)
    exact bind_of_eq (optional_texts _) rfl

theorem TokenExchangeRequest.isJson (laws : JsonLaws cr)
    (r : TokenExchangeRequest) : IsJson cr r.toJson := by
  have hcapabilities (cs : List Capability) :
      IsJson cr (.arr (cs.map fun c => .str c.asStr)) := by
    refine laws.arr fun v hv => ?_
    obtain ⟨c, -, rfl⟩ := List.mem_map.mp hv
    exact laws.str _
  rw [toJson_eq]
  refine laws.obj (isJson_record ?_)
  simp only [List.forall_mem_cons]
  exact ⟨isJson_value (laws.str _), isJson_texts laws _,
    isJson_texts laws _, isJson_texts laws _, isJson_texts laws _,
    isJson_texts laws _, isJson_texts laws _,
    isJson_mapped fun cs _ => hcapabilities cs, isJson_texts laws _,
    isJson_texts laws _, isJson_texts laws _,
    fun f hf => absurd hf List.not_mem_nil⟩

theorem AccessTokenExchangeRequest.fromJson_toJson
    (r : AccessTokenExchangeRequest) : fromJson r.toJson = some r := by
  rw [toJson]
  refine bind_of_eq (fields_record ?_) ?_
  · show ["resource_token", "agent_token", "upstream_token",
      "subagent_token"].Nodup
    decide
  · refine bind_of_eq rfl (bind_of_eq rfl ?_)
    exact bind_of_eq (optional_texts _) (bind_of_eq (optional_texts _) rfl)

theorem AccessTokenExchangeRequest.isJson (laws : JsonLaws cr)
    (r : AccessTokenExchangeRequest) : IsJson cr r.toJson := by
  refine laws.obj (isJson_record ?_)
  simp only [List.forall_mem_cons]
  exact ⟨isJson_value (laws.str _), isJson_value (laws.str _),
    isJson_texts laws _, isJson_texts laws _,
    fun f hf => absurd hf List.not_mem_nil⟩

/-! ## At the sample crates -/

namespace Sample

def derivedSerde {α : Type} (cr : Crates) (write : α → Json)
    (read : Json → Option α) : Serde α where
  fromSlice p := (Aauth.fromSlice cr read p).okOr "invalid claims"
  toVec a := jsonBytes cr (write a)

/-- The crates with the claims read as they are derived. -/
def withClaims (cr : Crates) : Crates :=
  { cr with
    json := { cr.json with
      agentClaims := derivedSerde cr AgentClaims.toJson AgentClaims.fromJson
      authClaims := derivedSerde cr AuthClaims.toJson AuthClaims.fromJson
      resourceClaims :=
        derivedSerde cr ResourceClaims.toJson ResourceClaims.fromJson } }

theorem derived_derivedSerde {α : Type} {write : α → Json}
    {read : Json → Option α} :
    (derivedSerde cr write read).Derived (withClaims cr) write read :=
  ⟨fun _ => rfl, fun _ _ => Option.okOr_eq_ok⟩

theorem withClaims_claims : ClaimsLaws (withClaims cr) :=
  ⟨derived_derivedSerde, derived_derivedSerde, derived_derivedSerde⟩

theorem withClaims_json (h : JsonLaws cr) : JsonLaws (withClaims cr) where
  written := h.written
  blank := h.blank
  emptyObject := h.emptyObject
  str := h.str
  int := h.int
  arr := h.arr
  obj := h.obj

theorem bot_fits : bot.Fits := by
  rw [AgentClaims.Fits]
  decide

end Sample

end Aauth
