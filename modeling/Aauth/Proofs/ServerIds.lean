import Aauth.Ref.Identifiers
import Aauth.Sample.WebUrl

/-!
# What is accepted as a server identifier

`is_valid_server_identifier` looks at the URL that a text is parsed to, and
the parser forgives: it strips blanks, takes any number of slashes and
backslashes for the two in front of the host, drops an empty name, an empty
port and the default one, and carries out the dot segments of a path. What
it forgives leaves no trace in the URL, so every such spelling of an origin
is accepted, although identifiers are compared as texts.

A literal identifier is always accepted; what is accepted is a literal
identifier exactly when the parser had nothing to forgive.
-/

namespace Aauth

open WebUrl

variable {cr : Crates} {host : List Char → Option (List Char)} {s : String}
  {rest name : List Char}

/-! ## Literal identifiers -/

/-- A host that stands in an identifier: lower case, nothing but a host, and
written as the host parser writes it. -/
structure IsServerName (host : List Char → Option (List Char))
    (name : List Char) : Prop where
  canonical : host name = some name
  plain : PlainHost name
  lower : ∀ c ∈ name, c.isUpper = false
  solid : ∀ c ∈ name, isBlank c = false

/-- `https://` and a host. -/
def IsServerIdentifier (host : List Char → Option (List Char)) (s : String) :
    Prop :=
  ∃ name, s = "https://" ++ String.ofList name ∧ IsServerName host name

/-! ## Spellings -/

/-- The text spells an `https` origin: whatever else it has amounts to
nothing. -/
structure SpellsOrigin (host : List Char → Option (List Char)) (s : String)
    (rest : List Char) : Prop where
  https : IsHttps s.toList rest
  lower : ∀ c ∈ s.toList, c.isUpper = false
  noSlash : s.toList.getLast? ≠ some '/'
  host : (host (Parts.ofRest rest).host).isSome = true
  anonymous : (Parts.ofRest rest).Anonymous
  port : (Parts.ofRest rest).DefaultPort
  path : (Parts.ofRest rest).AtRoot
  query : (Parts.ofRest rest).query = none
  fragment : (Parts.ofRest rest).fragment = none

/-- Nothing is stripped, removed, dropped or rewritten in the text. -/
structure SpelledOut (host : List Char → Option (List Char)) (s : String)
    (rest : List Char) : Prop where
  clean : clean s.toList = s.toList
  untouched : (Parts.ofRest rest).Untouched
  canonical :
    host (Parts.ofRest rest).host = some (Parts.ofRest rest).host

/-- The tests on the parsed URL. -/
theorem url_checks_iff {u : Url} :
    (if u.scheme != "https" then false
      else if u.port.isSome then false
      else if !u.username.isEmpty || u.password.isSome then false
      else if u.query.isSome || u.fragment.isSome then false
      else if u.path != "/" && !u.path.isEmpty then false
      else match u.hostStr with
        | some host => !host.isEmpty
        | none => false) = true ↔
      u.scheme = "https" ∧ u.port = none ∧
        (u.username = "" ∧ u.password = none) ∧
        (u.query = none ∧ u.fragment = none) ∧
        (u.path = "/" ∨ u.path = "") ∧
        ∃ host, u.hostStr = some host ∧ host ≠ "" := by
  obtain ⟨scheme, username, password, hostStr, port, path, query, fragment,
    origin⟩ := u
  cases port <;> cases password <;> cases query <;> cases fragment <;>
    cases hostStr <;> simp

/-- What the code accepts besides the loopback. -/
theorem isValid_iff_checks (hl : isLoopbackHttpIdentifier cr s = false) :
    isValidServerIdentifier cr s = true ↔
      (s ≠ "" ∧ s.toList.getLast? ≠ some '/') ∧
      (∀ c ∈ s.toList, c.isUpper = false) ∧
      ∃ u, cr.urlParse s = .ok u ∧ u.scheme = "https" ∧ u.port = none ∧
        (u.username = "" ∧ u.password = none) ∧
        (u.query = none ∧ u.fragment = none) ∧
        (u.path = "/" ∨ u.path = "") ∧
        ∃ host, u.hostStr = some host ∧ host ≠ "" := by
  have hends : (s.isEmpty || Text.endsWithChar s '/') = true ↔
      ¬ (s ≠ "" ∧ s.toList.getLast? ≠ some '/') := by
    rw [Bool.or_eq_true, String.isEmpty_iff, Text.endsWithChar, beq_iff_eq,
      not_and_or, not_not, not_not]
  have hupper : s.toList.any Char.isUpper = true ↔
      ¬ ∀ c ∈ s.toList, c.isUpper = false := by
    rw [← Bool.not_eq_false, List.any_eq_false]
    simp only [Bool.not_eq_true]
  rw [isValidServerIdentifier, hl, if_neg Bool.false_ne_true]
  by_cases he : s ≠ "" ∧ s.toList.getLast? ≠ some '/'
  · rw [if_neg fun h => hends.mp h he]
    by_cases hc : ∀ c ∈ s.toList, c.isUpper = false
    · rw [if_neg fun h => hupper.mp h hc]
      cases hu : cr.urlParse s with
      | error e =>
          refine iff_of_false Bool.false_ne_true ?_
          rintro ⟨-, -, u, hu', -⟩
          cases hu'
      | ok u =>
          refine Iff.trans url_checks_iff ?_
          constructor
          · intro h
            exact ⟨he, hc, u, rfl, h⟩
          · rintro ⟨-, -, u', hu', h⟩
            cases hu'
            exact h
    · rw [if_pos (hupper.mpr hc)]
      exact iff_of_false Bool.false_ne_true fun h => hc h.2.1
  · rw [if_pos (hends.mpr he)]
    exact iff_of_false Bool.false_ne_true fun h => he h.1

/-- The code accepts the spellings of the origins. -/
theorem isValid_iff_spells (h : HttpsLaws cr host)
    (hl : isLoopbackHttpIdentifier cr s = false) :
    isValidServerIdentifier cr s = true ↔
      ∃ rest, SpellsOrigin host s rest := by
  rw [isValid_iff_checks hl]
  constructor
  · rintro ⟨⟨-, hslash⟩, hlower, u, hu, hs, hport, huser, hq, hpath, -⟩
    obtain ⟨rest, hrest, hd⟩ := h.parsed hu hs
    obtain ⟨name, hname, -⟩ := hd.hostStr
    exact ⟨rest,
      { https := hrest
        lower := hlower
        noSlash := hslash
        host := by rw [hname]; rfl
        anonymous := hd.anonymous.mp huser
        port := hd.port.mp hport
        path := hd.path.mp (hpath.resolve_right hd.rooted)
        query := hd.query.mp hq.1
        fragment := hd.fragment.mp hq.2 }⟩
  · rintro ⟨rest, hr⟩
    obtain ⟨u, hu, hs⟩ := h.parses hr.https hr.host hr.port.fits
    obtain ⟨rest', hrest, hd⟩ := h.parsed hu hs
    cases hrest.unique hr.https
    have hne : s ≠ "" := by
      rintro rfl
      obtain ⟨scheme, htake, -⟩ := hr.https
      cases htake
    obtain ⟨name, hname, hstr⟩ := hd.hostStr
    refine ⟨⟨hne, hr.noSlash⟩, hr.lower, u, hu, hs, hd.port.mpr hr.port,
      hd.anonymous.mpr hr.anonymous,
      ⟨hd.query.mpr hr.query, hd.fragment.mpr hr.fragment⟩,
      .inl (hd.path.mpr hr.path), _, hstr, ?_⟩
    intro he
    rw [← String.toList_inj, String.toList_ofList] at he
    exact (h.solid hname).1 he

/-! ## Literal identifiers among the spellings -/

/-- A literal identifier is spelled out. -/
theorem IsServerName.spells (hn : IsServerName host name) :
    SpellsOrigin host ("https://" ++ String.ofList name)
        ('/' :: '/' :: name) ∧
      SpelledOut host ("https://" ++ String.ofList name)
        ('/' :: '/' :: name) := by
  have htext : ("https://" ++ String.ofList name).toList =
      "https://".toList ++ name := by
    simp
  have hscheme : ∀ c ∈ "https://".toList,
      isBlank c = false ∧ c.isUpper = false := by decide
  have hsolid : ∀ c ∈ "https://".toList ++ name, isBlank c = false := by
    intro c hc
    rcases List.mem_append.mp hc with hc | hc
    · exact (hscheme c hc).1
    · exact hn.solid c hc
  have hclean := clean_of_solid hsolid
  have hlower : ∀ c ∈ "https://".toList ++ name, c.isUpper = false := by
    intro c hc
    rcases List.mem_append.mp hc with hc | hc
    · exact (hscheme c hc).2
    · exact hn.lower c hc
  have hlast : ("https://".toList ++ name).getLast? ≠ some '/' := by
    rw [List.getLast?_append, List.getLast?_eq_some_getLast hn.plain.ne_nil]
    intro he
    have hends := hn.plain.ends _ (List.getLast_mem hn.plain.ne_nil)
    rw [Option.some.inj he] at hends
    cases hends
  have hrest := hn.plain.ofRest
  refine ⟨⟨⟨"https".toList, ?_, rfl⟩, ?_, ?_, ?_, ?_, ?_, ?_, ?_, ?_⟩,
    ⟨?_, ?_, ?_⟩⟩
  · rw [htext, hclean]
    rfl
  · rw [htext]
    exact hlower
  · rw [htext]
    exact hlast
  · rw [hrest, hn.canonical]
    rfl
  · rw [hrest]
    exact nofun
  · rw [hrest]
    exact nofun
  · rw [hrest]
    rfl
  · rw [hrest]
  · rw [hrest]
  · rw [htext]
    exact hclean
  · rw [hrest]
    exact ⟨rfl, rfl, rfl, rfl, rfl, rfl⟩
  · rw [hrest]
    exact hn.canonical

/-- What is spelled out is a literal identifier. -/
theorem SpellsOrigin.identifier (h : HttpsLaws cr host)
    (hs : SpellsOrigin host s rest) (ho : SpelledOut host s rest) :
    IsServerIdentifier host s := by
  obtain ⟨scheme, htake, hscheme⟩ := hs.https
  rw [ho.clean] at htake
  have htext := takeScheme_text htake
  have hne := (h.solid ho.canonical).1
  have hmem : ∀ c ∈ scheme, c.isUpper = false := by
    intro c hc
    refine hs.lower c ?_
    rw [htext]
    exact List.mem_append_left _ hc
  have hlower : scheme = "https".toList := by
    rw [← hscheme, map_toLower_of_lower hmem]
  have hrest := ho.untouched.text
  refine ⟨(Parts.ofRest rest).host, ?_, ho.canonical,
    plain_ofRest hne ho.untouched.port, ?_, (h.solid ho.canonical).2⟩
  · rw [← String.toList_inj, htext, hlower]
    conv => lhs; rw [hrest]
    simp
  · intro c hc
    refine hs.lower c ?_
    rw [htext, hrest]
    exact List.mem_append_right _ (List.mem_cons_of_mem _
      (List.mem_cons_of_mem _ (List.mem_cons_of_mem _ hc)))

theorem isValid_of_identifier (h : HttpsLaws cr host)
    (hl : isLoopbackHttpIdentifier cr s = false)
    (hi : IsServerIdentifier host s) : isValidServerIdentifier cr s = true := by
  obtain ⟨name, rfl, hn⟩ := hi
  exact (isValid_iff_spells h hl).mpr ⟨_, hn.spells.1⟩

/-- A text that is no loopback address is accepted exactly if it is a
literal identifier, if and only if every origin it spells is spelled out. -/
theorem server_identifier_grammar (h : HttpsLaws cr host)
    (hl : isLoopbackHttpIdentifier cr s = false) :
    (isValidServerIdentifier cr s = true ↔ IsServerIdentifier host s) ↔
      ∀ rest, SpellsOrigin host s rest → SpelledOut host s rest := by
  constructor
  · intro hrule rest hs
    obtain ⟨name, rfl, hn⟩ := hrule.mp
      ((isValid_iff_spells h hl).mpr ⟨rest, hs⟩)
    obtain ⟨hspells, hout⟩ := hn.spells
    cases hs.https.unique hspells.https
    exact hout
  · intro hall
    refine ⟨fun hv => ?_, isValid_of_identifier h hl⟩
    obtain ⟨rest, hs⟩ := (isValid_iff_spells h hl).mp hv
    exact hs.identifier h (hall rest hs)

/-! ## Spellings that are accepted -/

namespace Sample

/-- A name that the sample parser keeps. -/
theorem agentServer_identifier :
    IsServerIdentifier ldhHost "https://agent.example" := by
  refine ⟨"agent.example".toList, by decide, ?_, ?_, by decide, by decide⟩
  · decide
  · exact ⟨by decide, by decide, by decide, by decide⟩

theorem server_identifier_grammar_agent :
    isValidServerIdentifier httpsCrates "https://agent.example" = true ↔
      IsServerIdentifier ldhHost "https://agent.example" := by
  refine (server_identifier_grammar httpsLaws (by decide)).mpr ?_
  intro rest hs
  obtain ⟨name, he, hn⟩ := agentServer_identifier
  rw [he] at hs ⊢
  obtain ⟨hspells, hout⟩ := hn.spells
  cases hs.https.unique hspells.https
  exact hout

/-- Other spellings of `https://agent.example`. -/
def forgiven : List String :=
  ["https://agent.example:443", "https://agent.example:", "https:agent.example",
    "https:\\\\agent.example", "https://@agent.example",
    "https://agent.example/.", "https://agent.example/x/..",
    " https://agent.example", "https://agent.\texample"]

theorem named_of_identifier {s : String} (h : IsServerIdentifier ldhHost s) :
    ((Text.stripPrefix s "https://").bind fun name =>
      ldhHost name.toList).isSome = true := by
  obtain ⟨name, rfl, hn⟩ := h
  rw [Text.stripPrefix_append, Option.bind_some, String.toList_ofList,
    hn.canonical]
  rfl

/-- None of them is a literal identifier, and all of them are accepted. -/
theorem forgiven_accepted : ∀ s ∈ forgiven,
    isLoopbackHttpIdentifier httpsCrates s = false ∧
    isValidServerIdentifier httpsCrates s = true ∧
    ¬ IsServerIdentifier ldhHost s := by
  have hparsed : ∀ s ∈ forgiven,
      isLoopbackHttpIdentifier httpsCrates s = false ∧
      isValidServerIdentifier httpsCrates s = true ∧
      ((Text.stripPrefix s "https://").bind fun name =>
        ldhHost name.toList).isSome = false := by decide
  intro s hs
  obtain ⟨hl, hv, hn⟩ := hparsed s hs
  refine ⟨hl, hv, fun h => ?_⟩
  rw [named_of_identifier h] at hn
  cases hn

theorem default_port_accepted :
    isLoopbackHttpIdentifier httpsCrates "https://agent.example:443" =
        false ∧
      isValidServerIdentifier httpsCrates "https://agent.example:443" =
        true ∧
      ¬ IsServerIdentifier ldhHost "https://agent.example:443" :=
  forgiven_accepted _ List.mem_cons_self

end Sample

end Aauth
