import Aauth.Lib.Quoted
import Aauth.Proofs.Challenge

/-!
# Header parameters by name

`AAuth-Requirement` and `AAuth-Mission` carry quoted-string parameters, and
the reader of both looks for `name="` anywhere in the header. What it reads
is the value of the parameter of that name unless another parameter stands
in the way: one before it whose name only ends in the name, or whose value
ends in the name and an equals sign (`Uncaptured`).
-/

namespace Aauth

open Text

/-! ## Headers made of parameters -/

/-- A quoted-string parameter and the spaces before its name. -/
structure QuotedParam where
  spaces : Nat
  name : String
  value : String
deriving DecidableEq, Repr

/-- The characters of a parameter name (RFC 8941). -/
def isParamNameChar (c : Char) : Bool :=
  c.isLower || c.isDigit || c == '_' || c == '-' || c == '.' || c == '*'

namespace QuotedParam

def assignment (p : QuotedParam) : String :=
  p.name ++ "=\"" ++ p.value ++ "\""

def render (p : QuotedParam) : String :=
  ";" ++ String.ofList (List.replicate p.spaces ' ') ++ p.assignment

structure WellFormed (p : QuotedParam) : Prop where
  name : p.name.toList.all isParamNameChar = true
  value : '"' ∉ p.value.toList

end QuotedParam

/-- Distinct names, and values without quotes. -/
structure WellFormedParams (params : List QuotedParam) : Prop where
  each : ∀ p ∈ params, p.WellFormed
  distinct : (params.map (·.name)).Nodup

/-- A requirement and its parameters. -/
def requirementHeader (level : RequirementLevel)
    (params : List QuotedParam) : String :=
  "requirement=" ++ level.asStr ++ String.join (params.map (·.render))

/-- A mission header, which has nothing before its first parameter. -/
def missionHeader : List QuotedParam → String
  | [] => ""
  | p :: ps => p.assignment ++ String.join (ps.map (·.render))

/-- The value of the parameter of a name. -/
def paramValue (params : List QuotedParam) (name : String) :
    Option String :=
  (params.find? (·.name == name)).map (·.value)

/-! ## What is read -/

namespace QuotedParam

def toParam (p : QuotedParam) : Param where
  sep := ';' :: List.replicate p.spaces ' '
  name := p.name.toList
  value := p.value.toList

/-- The first of a header. -/
def toFirst (p : QuotedParam) : Param where
  sep := []
  name := p.name.toList
  value := p.value.toList

theorem toParam_name (p : QuotedParam) : p.toParam.name = p.name.toList :=
  rfl

theorem toParam_sep (p : QuotedParam) :
    p.toParam.sep = ';' :: List.replicate p.spaces ' ' := rfl

theorem toParam_value (p : QuotedParam) :
    p.toParam.value = p.value.toList := rfl

theorem assignment_toList (p : QuotedParam) : p.assignment.toList =
    p.name.toList ++ '=' :: '"' :: (p.value.toList ++ ['"']) := by
  simp [assignment]

theorem render_toList (p : QuotedParam) :
    p.render.toList = p.toParam.render := by
  rw [render, String.toList_append, String.toList_append,
    String.toList_ofList, assignment_toList, Param.render, toParam]
  simp

theorem join_toList (params : List QuotedParam) :
    (String.join (params.map (·.render))).toList =
      Param.renderAll (params.map toParam) := by
  rw [String.toList_join, List.flatMap_map, Param.renderAll,
    List.flatMap_map]
  exact List.flatMap_congr fun p _ => p.render_toList

end QuotedParam

/-- What another parameter before the named one passes off as its value. -/
def captured (name : String) (params : List QuotedParam) : Option String :=
  (Param.captured name.toList (params.map (·.toParam))).map String.ofList

/-- Nothing does, or by chance the very value. -/
def Uncaptured (name : String) (params : List QuotedParam) : Prop :=
  ∀ text, captured name params = some text →
    paramValue params name = some text

/-- The reader of a header, its parameters known. -/
def paramRead (params : List QuotedParam) (name : String) : Option String :=
  (captured name params).or (paramValue params name)

theorem paramRead_eq_iff {params : List QuotedParam} {name : String} :
    paramRead params name = paramValue params name ↔
      Uncaptured name params := by
  rw [paramRead, Uncaptured]
  cases captured name params with
  | none => simp
  | some text => simp [eq_comm]

theorem paramRead_eq_none {params : List QuotedParam} {name : String} :
    paramRead params name = none ↔
      captured name params = none ∧ paramValue params name = none := by
  rw [paramRead, Option.or_eq_none_iff]

/-! ## The reader -/

theorem extractQuotedParam_eq {input key : String} :
    extractQuotedParam input key =
      (readParam key.toList input.toList).map String.ofList := by
  have hp : (key ++ "=\"").toList = key.toList ++ ['=', '"'] := by
    rw [String.toList_append]
    rfl
  have hq : "\"".toList = ['"'] := rfl
  rw [extractQuotedParam, splitOnce, hp, readParam]
  cases splitOnceL (key.toList ++ ['=', '"']) input.toList with
  | none => rfl
  | some found =>
      simp only [Option.map_some, Option.bind_some, splitOnce, hq,
        String.toList_ofList, Option.map_map]
      rfl

theorem quote_not_paramName {name : String}
    (h : name.toList.all isParamNameChar = true) : '"' ∉ name.toList := by
  intro hm
  have hc := List.all_eq_true.mp h '"' hm
  exact absurd hc (by decide)

section Reads

variable {params : List QuotedParam} {key : String}

theorem QuotedParam.WellFormed.separated {p : QuotedParam}
    (h : p.WellFormed) (hk : key.toList.all isParamNameChar = true) :
    p.toParam.Separated key.toList where
  sep := by
    intro hm
    rcases List.mem_cons.mp hm with hm | hm
    · exact absurd hm (by decide)
    · exact absurd (List.eq_of_mem_replicate hm) (by decide)
  name := quote_not_paramName h.name
  value := h.value
  last := by
    intro c hc hm
    have hn : isParamNameChar c = true := List.all_eq_true.mp hk c hm
    have hsep : c ∈ ';' :: List.replicate p.spaces ' ' :=
      List.mem_of_getLast? hc
    rcases List.mem_cons.mp hsep with rfl | hm
    · exact absurd hn (by decide)
    · rw [List.eq_of_mem_replicate hm] at hn
      exact absurd hn (by decide)

theorem QuotedParam.WellFormed.separated_first {p : QuotedParam}
    (h : p.WellFormed) : p.toFirst.Separated key.toList where
  sep := nofun
  name := quote_not_paramName h.name
  value := h.value
  last := nofun

theorem lookup_toParam (params : List QuotedParam) (key : String) :
    (Param.lookup key.toList (params.map (·.toParam))).map String.ofList =
      paramValue params key := by
  have hb : (fun p : QuotedParam => p.toParam.name == key.toList) =
      fun p => p.name == key := by
    funext p
    rw [Bool.eq_iff_iff, beq_iff_eq, beq_iff_eq]
    exact String.toList_inj
  rw [Param.lookup, List.find?_map, paramValue]
  show Option.map _ (Option.map _ (Option.map _
    (params.find? fun p => p.toParam.name == key.toList))) = _
  rw [hb]
  cases params.find? (·.name == key) with
  | none => rfl
  | some p => exact congrArg some String.ofList_toList

theorem scan_toParam (params : List QuotedParam) (key : String) :
    (Param.scan key.toList (params.map (·.toParam))).map String.ofList =
      paramRead params key := by
  rw [Param.scan_eq, paramRead, ← lookup_toParam, captured]
  cases Param.captured key.toList (params.map (·.toParam)) with
  | none => rfl
  | some text => rfl

/-- What is read from a header of parameters, whatever stands before
them. -/
theorem extract_params {lead : String}
    (h : ∀ p ∈ params, p.WellFormed) (hl : '"' ∉ lead.toList)
    (hk : key.toList.all isParamNameChar = true) :
    extractQuotedParam (lead ++ String.join (params.map (·.render))) key =
      paramRead params key := by
  have hsep : ∀ q ∈ params.map (·.toParam), q.Separated key.toList := by
    intro q hq
    obtain ⟨p, hp, rfl⟩ := List.mem_map.mp hq
    exact (h p hp).separated hk
  have hlead : ∀ q ∈ (params.map (·.toParam)).head?, q.sep = [] →
      lead.toList = [] := by
    intro q hq hnil
    have hm := List.mem_of_mem_head? hq
    obtain ⟨p, -, rfl⟩ := List.mem_map.mp hm
    cases hnil
  rw [extractQuotedParam_eq, String.toList_append, QuotedParam.join_toList,
    Param.readParam_lead (quote_not_paramName hk) hl hsep hlead,
    scan_toParam]

variable (key) in
theorem extract_mission (h : ∀ p ∈ params, p.WellFormed)
    (hk : key.toList.all isParamNameChar = true) :
    extractQuotedParam (missionHeader params) key = paramRead params key := by
  cases params with
  | nil =>
      have hpat : '"' ∈ key.toList ++ ['=', '"'] :=
        List.mem_append_right _ (by decide)
      rw [extractQuotedParam_eq, missionHeader, readParam,
        splitOnceL_eq_none hpat (by decide)]
      rfl
  | cons p ps =>
      have hsep : ∀ q ∈ p.toFirst :: ps.map (·.toParam),
          q.Separated key.toList := by
        intro q hq
        rcases List.mem_cons.mp hq with rfl | hq
        · exact (h p List.mem_cons_self).separated_first
        · obtain ⟨p', hp', rfl⟩ := List.mem_map.mp hq
          exact (h p' (List.mem_cons_of_mem p hp')).separated hk
      have htext : (missionHeader (p :: ps)).toList =
          Param.renderAll (p.toFirst :: ps.map (·.toParam)) := by
        rw [missionHeader, String.toList_append, QuotedParam.join_toList,
          QuotedParam.assignment_toList, Param.renderAll, Param.renderAll,
          List.flatMap_cons, Param.render, QuotedParam.toFirst]
        rfl
      -- the separator of the first parameter is never read
      have hscan : Param.scan key.toList (p.toFirst :: ps.map (·.toParam)) =
          Param.scan key.toList ((p :: ps).map (·.toParam)) := rfl
      rw [extractQuotedParam_eq, htext,
        Param.readParam_render (quote_not_paramName hk) hsep, hscan,
        scan_toParam]

end Reads

/-! ## Requirement headers -/

/-- The parameters a requirement needs. -/
def requiredParams : RequirementLevel → List String
  | .authToken => ["resource-token"]
  | .interaction => ["url", "code"]
  | .agentToken | .approval | .clarification | .claims => []

/-- The challenge of a requirement whose parameters are read by `read`. -/
def challengeOf (read : String → Option String) :
    RequirementLevel → Option AAuthChallenge
  | .agentToken => some .agentToken
  | .approval => some .approval
  | .clarification => some .clarification
  | .claims => some .claims
  | .authToken => (read "resource-token").map .authToken
  | .interaction => (read "url").bind fun url =>
      (read "code").map (.interaction url)

/-- The mission whose parameters are read by `read`. -/
def missionOf (read : String → Option String) : Option Mission :=
  (read "approver").bind fun approver =>
    (read "s256").map fun s256 => { approver, s256 }

/-- Every required parameter is read by its name, or one is missing that
nothing else is taken for. -/
def Faithful (required : List String) (params : List QuotedParam) : Prop :=
  (∀ name ∈ required, Uncaptured name params) ∨
    ∃ name ∈ required, captured name params = none ∧
      paramValue params name = none

section Requirement

variable {level : RequirementLevel} {params : List QuotedParam}

theorem getLast?_renderAll (ps : List Param) :
    ∀ c ∈ (Param.renderAll ps).getLast?, c = '"' := by
  induction ps with
  | nil => exact nofun
  | cons p ps ih =>
      intro c hc
      have hr : p.render =
          (p.sep ++ p.name ++ '=' :: '"' :: p.value) ++ ['"'] := by
        simp [Param.render]
      have hall : Param.renderAll (p :: ps) =
          p.render ++ Param.renderAll ps := List.flatMap_cons
      rw [hall, hr, List.getLast?_append, List.getLast?_concat] at hc
      cases hps : (Param.renderAll ps).getLast? with
      | none =>
          rw [hps] at hc
          exact (Option.some.inj hc).symm
      | some d =>
          rw [hps] at hc
          exact ih c (hps.trans hc)

theorem requirementHeader_cons (p : QuotedParam) (ps : List QuotedParam) :
    requirementHeader level (p :: ps) = levelHeader level.asStr
      (String.ofList (List.replicate p.spaces ' ') ++ p.assignment ++
        String.join (ps.map (·.render))) := by
  rw [← String.toList_inj, levelHeader_toList, requirementHeader,
    List.map_cons]
  simp only [String.toList_append, String.toList_join, List.flatMap_cons,
    QuotedParam.render, List.append_assoc]
  rfl

variable (level) in
theorem trim_requirementHeader_cons (p : QuotedParam)
    (ps : List QuotedParam) :
    trim (requirementHeader level (p :: ps)) =
      requirementHeader level (p :: ps) := by
  have hl : (requirementHeader level (p :: ps)).toList =
      "requirement=".toList ++ (level.asStr.toList ++
        Param.renderAll ((p :: ps).map (·.toParam))) := by
    rw [requirementHeader, String.toList_append, String.toList_append,
      QuotedParam.join_toList, List.append_assoc]
  apply trim_of_ends
  · intro c hc
    rw [hl, List.head?_append_of_ne_nil _ (by decide)] at hc
    have hr : 'r' = c := Option.some.inj hc
    rw [← hr]
    decide
  · intro c hc
    have hne : Param.renderAll ((p :: ps).map (·.toParam)) ≠ [] := by
      rw [List.map_cons, Param.renderAll_cons]
      simp
    rw [hl, List.getLast?_append, List.getLast?_append,
      List.getLast?_eq_some_getLast hne, Option.some_or, Option.some_or,
      ← List.getLast?_eq_some_getLast hne] at hc
    rw [getLast?_renderAll _ c hc]
    decide

/-- The level is found, and then the parameters are read. -/
theorem fromHeader_requirement (h : ∀ p ∈ params, p.WellFormed) :
    (AAuthChallenge.fromHeader (requirementHeader level params)).toOption =
      challengeOf (paramRead params) level := by
  cases params with
  | nil => cases level <;> rfl
  | cons p ps =>
      have hread : ∀ key : String,
          key.toList.all isParamNameChar = true →
          extractQuotedParam (requirementHeader level (p :: ps)) key =
            paramRead (p :: ps) key := by
        intro key hk
        refine extract_params h ?_ hk
        cases level <;> decide
      have hrt := hread "resource-token" (by decide)
      have hurl := hread "url" (by decide)
      have hcode := hread "code" (by decide)
      have htrim := trim_requirementHeader_cons level p ps
      rw [requirementHeader_cons] at htrim hrt hurl hcode ⊢
      have hm := requirement_of_levelHeader level.asStr
        (String.ofList (List.replicate p.spaces ' ') ++ p.assignment ++
          String.join (ps.map (·.render))) (by cases level <;> decide)
        (by cases level <;> rfl)
      simp only [AAuthChallenge.fromHeader, htrim, hm, hrt, hurl, hcode,
        Except.failIf_of_not (levelHeader_not_empty _ _)]
      cases level with
      | authToken =>
          rw [challengeOf]
          cases paramRead (p :: ps) "resource-token" with
          | none => rfl
          | some token => rfl
      | interaction =>
          rw [challengeOf]
          cases paramRead (p :: ps) "url" with
          | none => rfl
          | some url =>
              cases paramRead (p :: ps) "code" with
              | none => rfl
              | some code => rfl
      | _ => rfl

end Requirement

theorem fromHeader_mission {params : List QuotedParam}
    (h : ∀ p ∈ params, p.WellFormed) :
    (Mission.fromHeader (missionHeader params)).toOption =
      missionOf (paramRead params) := by
  have ha := extract_mission "approver" h (by decide)
  have hs := extract_mission "s256" h (by decide)
  rw [Mission.fromHeader, ha, hs, missionOf]
  cases paramRead params "approver" with
  | none => rfl
  | some approver =>
      cases paramRead params "s256" with
      | none => rfl
      | some s256 => rfl

/-! ## By name -/

/-- Two reads that are put together agree when each does, or when neither
gets as far. -/
theorem both_eq_iff {α : Type} (mk : String → String → α)
    (hmk : ∀ {a b c d}, mk a b = mk c d → a = c ∧ b = d)
    {r₁ r₂ v₁ v₂ : Option String} (h₁ : r₁ = none → v₁ = none)
    (h₂ : r₂ = none → v₂ = none) :
    (r₁.bind fun a => r₂.map (mk a)) = (v₁.bind fun a => v₂.map (mk a)) ↔
      (r₁ = v₁ ∧ r₂ = v₂) ∨ r₁ = none ∨ r₂ = none := by
  constructor
  · intro h
    cases r₁ with
    | none => exact .inr (.inl rfl)
    | some a =>
        cases r₂ with
        | none => exact .inr (.inr rfl)
        | some b =>
            cases v₁ with
            | none => cases h
            | some c =>
                cases v₂ with
                | none => cases h
                | some d =>
                    obtain ⟨rfl, rfl⟩ := hmk (Option.some.inj h)
                    exact .inl ⟨rfl, rfl⟩
  · intro h
    rcases h with ⟨rfl, rfl⟩ | h | h
    · rfl
    · rw [h, h₁ h]
      rfl
    · simp only [h, h₂ h, Option.map_none, Option.bind_fun_none]

section ByName

variable {params : List QuotedParam}

theorem paramValue_none {name : String} (h : paramRead params name = none) :
    paramValue params name = none := (paramRead_eq_none.mp h).2

/-- The condition, of two names. -/
theorem faithful_pair {a b : String} : Faithful [a, b] params ↔
    (paramRead params a = paramValue params a ∧
      paramRead params b = paramValue params b) ∨
    paramRead params a = none ∨ paramRead params b = none := by
  rw [Faithful, paramRead_eq_iff, paramRead_eq_iff, paramRead_eq_none,
    paramRead_eq_none]
  simp

theorem challenge_by_name_iff (level : RequirementLevel) :
    challengeOf (paramRead params) level =
        challengeOf (paramValue params) level ↔
      Faithful (requiredParams level) params := by
  have htrivial : Faithful [] params := .inl nofun
  cases level with
  | authToken =>
      rw [challengeOf, challengeOf, requiredParams, Faithful]
      have hinj := Option.map_injective
        (f := AAuthChallenge.authToken) fun _ _ h => by cases h; rfl
      rw [hinj.eq_iff, paramRead_eq_iff]
      constructor
      · intro h
        exact .inl fun name hn => by
          rw [List.mem_singleton.mp hn]
          exact h
      · intro h
        rcases h with h | ⟨name, hn, hc, -⟩
        · exact h _ List.mem_cons_self
        · rw [List.mem_singleton.mp hn] at hc
          intro text ht
          rw [hc] at ht
          cases ht
  | interaction =>
      rw [requiredParams, faithful_pair]
      exact both_eq_iff AAuthChallenge.interaction
        (fun h => by cases h; exact ⟨rfl, rfl⟩) paramValue_none
        paramValue_none
  | _ => exact ⟨fun _ => htrivial, fun _ => rfl⟩

theorem mission_by_name_iff :
    missionOf (paramRead params) = missionOf (paramValue params) ↔
      Faithful ["approver", "s256"] params := by
  rw [faithful_pair]
  exact both_eq_iff (fun a s => (⟨a, s⟩ : Mission))
    (fun h => by cases h; exact ⟨rfl, rfl⟩) paramValue_none paramValue_none

end ByName

/-! ## Round trips -/

/-- A mission as the parameters it is written as. -/
def missionParams (m : Mission) : List QuotedParam :=
  [⟨0, "approver", m.approver⟩, ⟨1, "s256", m.s256⟩]

theorem toHeader_mission (m : Mission) :
    m.toHeader = missionHeader (missionParams m) := by
  rw [← String.toList_inj]
  simp [Mission.toHeader, missionHeader, missionParams,
    QuotedParam.assignment, QuotedParam.render]

theorem captured_approver (m : Mission) :
    captured "approver" (missionParams m) = none := by
  have hname := QuotedParam.toParam_name ⟨0, "approver", m.approver⟩
  rw [captured, missionParams, List.map_cons, Param.captured_head hname,
    Option.map_none]

/-- What the reader takes for the second parameter of a mission. -/
theorem captured_s256 (m : Mission) :
    captured "s256" (missionParams m) =
      if "s256=".toList <:+ m.approver.toList then some "; s256="
        else none := by
  have hp : "s256".toList ++ ['='] = "s256=".toList := by simp
  have hopen : String.ofList (';' :: List.replicate 1 ' ' ++
      "s256".toList ++ ['=']) = "; s256=" := by decide
  have hfirst : (QuotedParam.toParam ⟨0, "approver", m.approver⟩).name =
      "approver".toList := QuotedParam.toParam_name _
  have hsecond : (QuotedParam.toParam ⟨1, "s256", m.s256⟩).name =
      "s256".toList := QuotedParam.toParam_name _
  have hn : ¬ "s256".toList <:+
      (QuotedParam.toParam ⟨0, "approver", m.approver⟩).name := by
    rw [hfirst]
    decide
  have hne : (QuotedParam.toParam ⟨0, "approver", m.approver⟩).name ≠
      "s256".toList := by
    rw [hfirst]
    decide
  rw [captured, missionParams, List.map_cons, List.map_cons,
    Param.captured_second hne hn hsecond, hp, hsecond,
    QuotedParam.toParam_value, QuotedParam.toParam_sep]
  by_cases hs : "s256=".toList <:+ m.approver.toList
  · rw [if_pos hs, if_pos hs, Option.map_some]
    exact congrArg some hopen
  · rw [if_neg hs, if_neg hs, Option.map_none]

theorem paramRead_mission (m : Mission) :
    paramRead (missionParams m) "approver" = some m.approver ∧
    paramRead (missionParams m) "s256" =
      some (if "s256=".toList <:+ m.approver.toList then "; s256="
        else m.s256) := by
  have ha : paramValue (missionParams m) "approver" = some m.approver := by
    simp [paramValue, missionParams]
  have hs : paramValue (missionParams m) "s256" = some m.s256 := by
    simp [paramValue, missionParams]
  refine ⟨?_, ?_⟩
  · rw [paramRead, captured_approver, ha, Option.none_or]
  · rw [paramRead, captured_s256, hs]
    split <;> rfl

theorem fromHeader_toHeader_mission_iff {m : Mission}
    (ha : '"' ∉ m.approver.toList) (hs : '"' ∉ m.s256.toList) :
    Mission.fromHeader m.toHeader = .ok m ↔
      ¬ "s256=".toList <:+ m.approver.toList ∨ m.s256 = "; s256=" := by
  have hwf : ∀ p ∈ missionParams m, p.WellFormed := by
    intro p hp
    have hn : "approver".toList.all isParamNameChar = true := by decide
    have hn' : "s256".toList.all isParamNameChar = true := by decide
    rcases List.mem_cons.mp hp with rfl | hp
    · exact ⟨hn, ha⟩
    · rw [List.mem_singleton.mp hp]
      exact ⟨hn', hs⟩
  obtain ⟨happ, hs256⟩ := paramRead_mission m
  rw [← Except.toOption_eq_some, toHeader_mission, fromHeader_mission hwf,
    missionOf, happ, hs256]
  obtain ⟨approver, s256⟩ := m
  by_cases hx : "s256=".toList <:+ approver.toList
  · rw [if_pos hx]
    constructor
    · intro h
      cases h
      exact .inr rfl
    · intro h
      rcases h with h | h
      · exact absurd hx h
      · have h : s256 = "; s256=" := h
        rw [h]
        rfl
  · rw [if_neg hx]
    exact ⟨fun _ => .inl hx, fun _ => rfl⟩

/-- No field of the challenge holds a quote. -/
def AAuthChallenge.Unquoted : AAuthChallenge → Prop
  | .authToken token => '"' ∉ token.toList
  | .interaction url code => '"' ∉ url.toList ∧ '"' ∉ code.toList
  | .agentToken | .approval | .clarification | .claims => True

/-- The URL of an interaction does not end where the code is looked for. -/
def AAuthChallenge.ReadsBack : AAuthChallenge → Prop
  | .interaction url code =>
      ¬ "code=".toList <:+ url.toList ∨ code = "; code="
  | .authToken _ | .agentToken | .approval | .clarification | .claims => True

theorem fromHeader_toHeader_iff {c : AAuthChallenge} (hc : c.Unquoted) :
    AAuthChallenge.fromHeader c.toHeader = .ok c ↔ c.ReadsBack := by
  cases c with
  | authToken token =>
      exact ⟨fun _ => trivial, fun _ =>
        AAuthChallenge.fromHeader_authToken hc⟩
  | interaction url code =>
      rw [AAuthChallenge.fromHeader_interaction hc.1 hc.2,
        AAuthChallenge.codeRead, AAuthChallenge.ReadsBack]
      by_cases hx : "code=".toList <:+ url.toList
      · rw [if_pos hx]
        constructor
        · intro h
          cases h
          exact .inr rfl
        · intro h
          rcases h with h | h
          · exact absurd hx h
          · rw [h]
      · rw [if_neg hx]
        exact ⟨fun _ => .inl hx, fun _ => rfl⟩
  | _ => exact ⟨fun _ => trivial, fun _ => rfl⟩

/-! ## The readers of both headers -/

/-- A header is read by the names of its parameters if and only if, for
each name it needs, no parameter before the named one has a name that ends
in it or a value that ends in it and an equals sign; and so a challenge or
a mission that was written comes back except for a URL that ends in
`code=` and an approver that ends in `s256=`. -/
theorem read_by_name_iff {params : List QuotedParam}
    (h : WellFormedParams params) (level : RequirementLevel)
    {c : AAuthChallenge} (hc : c.Unquoted) {m : Mission}
    (ha : '"' ∉ m.approver.toList) (hs : '"' ∉ m.s256.toList) :
    ((AAuthChallenge.fromHeader (requirementHeader level params)).toOption =
        challengeOf (paramValue params) level ↔
      Faithful (requiredParams level) params) ∧
    ((Mission.fromHeader (missionHeader params)).toOption =
        missionOf (paramValue params) ↔
      Faithful ["approver", "s256"] params) ∧
    (AAuthChallenge.fromHeader c.toHeader = .ok c ↔ c.ReadsBack) ∧
    (Mission.fromHeader m.toHeader = .ok m ↔
      ¬ "s256=".toList <:+ m.approver.toList ∨ m.s256 = "; s256=") := by
  refine ⟨?_, ?_, fromHeader_toHeader_iff hc,
    fromHeader_toHeader_mission_iff ha hs⟩
  · rw [fromHeader_requirement h.each]
    exact challenge_by_name_iff level
  · rw [fromHeader_mission h.each]
    exact mission_by_name_iff

/-- A URL that asks for its code in a query. -/
def interactionParams : List QuotedParam :=
  [⟨1, "url", "https://ps.example/i?code="⟩, ⟨1, "code", "ABCD-EFGH"⟩]

theorem interactionParams_wellFormed : WellFormedParams interactionParams where
  each := by
    intro p hp
    rcases List.mem_cons.mp hp with rfl | hp
    · exact ⟨by decide, by decide⟩
    · rw [List.mem_singleton.mp hp]
      exact ⟨by decide, by decide⟩
  distinct := by decide

/-- The text after the URL is taken for the code. -/
theorem code_misread : ¬ ∀ (level : RequirementLevel)
    (params : List QuotedParam), WellFormedParams params →
    (∀ name ∈ requiredParams level, paramValue params name ≠ none) →
    (AAuthChallenge.fromHeader (requirementHeader level params)).toOption =
      challengeOf (paramValue params) level := by
  intro h
  have hread := h .interaction interactionParams interactionParams_wellFormed
    (by decide)
  have hcode : (AAuthChallenge.fromHeader
      (requirementHeader .interaction interactionParams)).toOption =
        some (.interaction "https://ps.example/i?code=" "; code=") := rfl
  rw [hcode] at hread
  have hvalue : challengeOf (paramValue interactionParams) .interaction =
      some (.interaction "https://ps.example/i?code=" "ABCD-EFGH") := rfl
  rw [hvalue] at hread
  exact absurd hread (by decide)

/-- The same header with its parameters the other way round. -/
theorem read_by_name_reversed :
    (AAuthChallenge.fromHeader (requirementHeader .interaction
      interactionParams.reverse)).toOption =
        challengeOf (paramValue interactionParams.reverse) .interaction ∧
    Mission.fromHeader (Mission.toHeader ⟨"p.example", "abc"⟩) =
      .ok ⟨"p.example", "abc"⟩ := by
  have hwf : WellFormedParams interactionParams.reverse :=
    ⟨fun p hp => interactionParams_wellFormed.each p
      (List.mem_reverse.mp hp), by decide⟩
  have hx := read_by_name_iff hwf .interaction (c := .claims) trivial
    (m := ⟨"p.example", "abc"⟩) (by decide) (by decide)
  refine ⟨hx.1.mpr (.inl ?_), hx.2.2.2.mpr (.inl (by decide))⟩
  intro name hn text ht
  rcases List.mem_cons.mp hn with rfl | hn
  · cases ht
  · rw [List.mem_singleton.mp hn] at ht
    cases ht

end Aauth
