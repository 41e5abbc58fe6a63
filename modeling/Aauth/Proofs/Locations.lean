import Mathlib.Data.List.TakeWhile
import Aauth.Lib.UriRef
import Aauth.Ref.AccessClient
import Aauth.Ref.AgentClient
import Aauth.Sample.Crates

/-!
# The two readings of a relative `Location`

The agent resolves a relative `Location` as it stands. The Person Server
first takes the leading slashes off, so that an absolute path is read below
the directories of the base, and the name of a host as the first segment of
a path.

`target_dropSlashes_iff` says exactly where this does no harm: a reference
that starts with no slash; one whose dot segments climb out of whatever the
base, or the base and the host, put in front of it; the root, on a base that
is at its root; and what is, behind its slashes, the text of the very URL
that the reference resolves to.
-/

namespace Aauth

open UriRef Text

/-! ## References whose slashes do not matter -/

/-- The slashes that a reference starts with make no difference to its
target. -/
inductive Harmless (base : Reference) (ref : List Char) : Prop where
  /-- It starts with no slash. -/
  | relative (h : ref.head? ≠ some '/')
  /-- It is the root, and the base is at its root. -/
  | root (scheme : (parse (dropSlashes ref)).scheme = none)
      (authority : (parse ref).authority = none)
      (path : (parse (dropSlashes ref)).path = [])
      (own : base.ownPath = ['/'])
      (query : queryOf ref ≠ none ∨ base.query = none)
  /-- It is a path that climbs out of the directories of the base. -/
  | climbs (scheme : (parse (dropSlashes ref)).scheme = none)
      (authority : (parse ref).authority = none)
      (path : (parse (dropSlashes ref)).path ≠ [])
      (out : base.dirs.length ≤ climb 0 (segments (parse ref).path))
  /-- It names the host of the base, and its path climbs out of the
  directories of the base and out of the name. -/
  | host (host : List Char)
      (scheme : (parse (dropSlashes ref)).scheme = none)
      (authority : (parse ref).authority = some host)
      (same : base.authority = some host)
      (out : (push base.dirs host).length ≤
        climb 0 (segments (parse ref).path))
  /-- Behind its slashes it is the text of its target. -/
  | absolute (scheme : (parse (dropSlashes ref)).scheme ≠ none)
      (text : ((base.resolve (parse (dropSlashes ref))).rooted).text =
        ((base.resolve (parse ref)).rooted).text)

section Slashes

variable {base : Reference} {host s : List Char}

theorem takeScheme_none {s : List Char} (h : (takeScheme s).1 = none) :
    takeScheme s = (none, s) := by
  rw [takeScheme.eq_def] at h ⊢
  split
  · next p rest hc =>
    rw [hc] at h
    by_cases hp : isScheme p = true
    · dsimp only at h
      rw [if_pos hp] at h
      cases h
    · rw [if_neg hp]
  · rfl

/-- One slash in front. -/
theorem parse_one (h : (body s).head? ≠ some '/') :
    parse ('/' :: s) = ⟨none, none, '/' :: body s, queryOf s, fragmentOf s⟩ := by
  obtain ⟨hb, hq, hf⟩ := parts_slash s
  rw [parse_eq, hb, hq, hf, ofParts, takeScheme_slash, takeAuthority_slash h]

/-- Two or more. -/
theorem parse_two {u : List Char} (h : body s = '/' :: u) :
    parse ('/' :: s) = ⟨none, some (u.takeWhile (· ≠ '/')),
      u.dropWhile (· ≠ '/'), queryOf s, fragmentOf s⟩ := by
  obtain ⟨hb, hq, hf⟩ := parts_slash s
  rw [parse_eq, hb, hq, hf, ofParts, takeScheme_slash, h, takeAuthority]

/-- What is behind the slashes, when it has no scheme, is a path. -/
theorem parse_behind (h : (parse (dropSlashes s)).scheme = none) :
    parse (dropSlashes s) =
      ⟨none, none, dropSlashes (body s), queryOf s, fragmentOf s⟩ := by
  obtain ⟨hb, hq, hf⟩ := parts_dropSlashes s
  have hh := dropSlashes_head (body s)
  rw [parse_eq, hb, hq, hf] at h ⊢
  have hn := takeScheme_none h
  rw [ofParts, hn, takeAuthority_of_head hh]

/-! ## One slash -/

/-- The root: nothing is left behind the slash, and the base answers for
the path and, when there is none, the query. -/
theorem root_iff (hb : base.OnHost host) (hh : body s = [])
    (hs : (parse (dropSlashes s)).scheme = none) :
    (base.resolve (parse (dropSlashes s))).rooted.text =
        (base.resolve (parse ('/' :: s))).rooted.text ↔
      base.ownPath = ['/'] ∧ (queryOf s ≠ none ∨ base.query = none) := by
  have hr := @parse_one s (by rw [hh]; exact nofun)
  have hr' := parse_behind hs
  rw [hh] at hr hr'
  rw [Reference.resolve_empty hb (by rw [hr']) (by rw [hr'])
    (by rw [hr']; rfl), Reference.resolve_path hb (by rw [hr]) (by rw [hr])
    (by rw [hr]; exact nofun), hr, hr']
  show base.located host base.ownPath ((queryOf s).or base.query) _ =
    base.located host ['/'] (queryOf s) _ ↔ _
  obtain ⟨p, hp⟩ := Reference.ownPath_slash hb
  rw [hp, Reference.located_own_iff, List.cons.injEq, and_iff_right rfl]

/-- A path: it is read below the directories of the base. -/
theorem path_iff (hb : base.OnHost host) (hh : (body s).head? ≠ some '/')
    (hne : body s ≠ []) (hs : (parse (dropSlashes s)).scheme = none) :
    (base.resolve (parse (dropSlashes s))).rooted.text =
        (base.resolve (parse ('/' :: s))).rooted.text ↔
      base.dirs.length ≤ climb 0 (splitL '/' (body s)) := by
  have hr := parse_one hh
  have hr' := parse_behind hs
  rw [dropSlashes_of_head hh] at hr'
  rw [Reference.resolve_path hb (by rw [hr']) (by rw [hr'])
    (by rw [hr']; exact hne), Reference.resolve_path hb (by rw [hr])
    (by rw [hr]) (by rw [hr]; exact nofun), hr, hr', if_neg hh]
  show base.located host (render (dots base.dirs (splitL '/' (body s)))) _ _ =
    base.located host (render (dots [] (splitL '/' (body s)))) _ _ ↔ _
  have hsegs := splitL_ne_nil '/' (body s)
  rw [Reference.located_inj hb.plain hb.plain (dots_ne_nil hsegs)
    (dots_ne_nil hsegs), and_iff_right rfl, render_dots_eq_iff]

/-! ## Two slashes or more -/

theorem takeWhile_eq_nil {u : List Char} (h : dropSlashes u = []) :
    u.takeWhile (· ≠ '/') = [] := by
  cases u with
  | nil => rfl
  | cons c u =>
      have hc : c = '/' := by
        by_contra hc
        have hh : (c :: u).head? ≠ some '/' :=
          fun he => hc (Option.some.inj he)
        rw [dropSlashes_of_head hh] at h
        cases h
      rw [hc]
      rfl

/-- A text that begins with a name does not begin with a slash. -/
theorem head_of_takeWhile {u : List Char} (h : u.takeWhile (· ≠ '/') ≠ []) :
    u.head? ≠ some '/' := by
  cases u with
  | nil => exact nofun
  | cons c u =>
      intro he
      rw [Option.some.inj he] at h
      exact h rfl

/-- The name of the host, put on the stack like any segment. -/
theorem named_iff {u : List Char} (hn : u.takeWhile (· ≠ '/') = host)
    (hne : host ≠ []) (hplain : '/' ∉ host) :
    render (dots base.dirs (splitL '/' u)) =
        render (dots [] (segments (u.dropWhile (· ≠ '/')))) ↔
      (push base.dirs host).length ≤
        climb 0 (segments (u.dropWhile (· ≠ '/'))) := by
  have hu : u = host ++ u.dropWhile (· ≠ '/') := by
    rw [← hn, List.takeWhile_append_dropWhile]
  rcases dropWhile_slash u with hd | ⟨y, hd⟩
  · rw [hd, List.append_nil] at hu
    rw [hd, hu, splitL_of_not_mem hplain]
    show render (finish base.dirs host) = ['/'] ↔ _ ≤ 0
    rw [render_finish_iff hne, Nat.le_zero, List.length_eq_zero_iff]
  · rw [hd] at hu ⊢
    have hsegs := splitL_ne_nil '/' y
    have hfold := dots_foldl base.dirs [host] hsegs
    rw [hu, splitL_append hplain]
    show render (dots base.dirs ([host] ++ splitL '/' y)) =
      render (dots [] (splitL '/' y)) ↔ _
    rw [hfold]
    exact render_dots_eq_iff

/-- The name of the host is read as one more directory. -/
theorem host_iff {u : List Char} (hb : base.OnHost host)
    (hu : body s = '/' :: u) (hs : (parse (dropSlashes s)).scheme = none) :
    (base.resolve (parse (dropSlashes s))).rooted.text =
        (base.resolve (parse ('/' :: s))).rooted.text ↔
      u.takeWhile (· ≠ '/') = host ∧ (push base.dirs host).length ≤
        climb 0 (segments (u.dropWhile (· ≠ '/'))) := by
  have hr := parse_two hu
  have hr' := parse_behind hs
  have htext : (base.resolve (parse ('/' :: s))).rooted.text =
      base.located (u.takeWhile (· ≠ '/')) (render (dots []
        (segments (u.dropWhile (· ≠ '/'))))) (queryOf s) (fragmentOf s) := by
    rw [hr]
    exact Reference.resolve_host rfl rfl (dropWhile_slash u)
  have hplain := slash_not_mem_takeWhile u
  have hdots : dots [] (segments (u.dropWhile (· ≠ '/'))) ≠ [] :=
    dots_ne_nil (splitL_ne_nil _ _)
  rw [htext, hr', hu, dropSlashes_slash]
  by_cases hv : dropSlashes u = []
  · -- nothing but slashes: they name no host, and the base has one
    have hempty := takeWhile_eq_nil hv
    refine iff_of_false (fun he => ?_) fun h => hb.named (h.1.symm.trans hempty)
    rw [hv, Reference.resolve_empty hb rfl rfl rfl] at he
    obtain ⟨p, hp⟩ := Reference.ownPath_slash hb
    obtain ⟨p', hp'⟩ := render_head hdots
    rw [hp, hp'] at he
    exact hb.named ((Reference.located_host hb.plain hplain he).trans hempty)
  · have hhead := dropSlashes_head u
    rw [Reference.resolve_path hb rfl rfl hv, if_neg hhead,
      Reference.located_inj hb.plain hplain (dots_ne_nil (splitL_ne_nil _ _))
        hdots]
    constructor
    · intro h
      have hn := h.1.symm
      rw [dropSlashes_of_head (head_of_takeWhile (by rw [hn]; exact hb.named))]
        at h
      exact ⟨hn, (named_iff hn hb.named hb.plain).mp h.2⟩
    · intro h
      obtain ⟨hn, hout⟩ := h
      rw [dropSlashes_of_head (head_of_takeWhile (by rw [hn]; exact hb.named))]
      exact ⟨hn.symm, (named_iff hn hb.named hb.plain).mpr hout⟩

/-! ## All references -/

theorem harmless_root (hh : body s = [])
    (hs : (parse (dropSlashes s)).scheme = none) :
    Harmless base ('/' :: s) ↔
      base.ownPath = ['/'] ∧ (queryOf s ≠ none ∨ base.query = none) := by
  have hr := @parse_one s (by rw [hh]; exact nofun)
  have hr' := parse_behind hs
  rw [hh] at hr'
  constructor
  · intro h
    cases h with
    | relative h => exact absurd rfl h
    | root _ _ _ hown hq => exact ⟨hown, hq⟩
    | climbs _ _ hp =>
        rw [dropSlashes_slash, hr'] at hp
        exact absurd rfl hp
    | host _ _ ha => rw [hr] at ha; cases ha
    | absolute h => exact absurd hs h
  · intro h
    exact .root hs (by rw [hr]) (by rw [dropSlashes_slash, hr']; rfl) h.1 h.2

theorem harmless_path (hh : (body s).head? ≠ some '/') (hne : body s ≠ [])
    (hs : (parse (dropSlashes s)).scheme = none) :
    Harmless base ('/' :: s) ↔
      base.dirs.length ≤ climb 0 (splitL '/' (body s)) := by
  have hr := parse_one hh
  have hr' := parse_behind hs
  rw [dropSlashes_of_head hh] at hr'
  constructor
  · intro h
    cases h with
    | relative h => exact absurd rfl h
    | root _ _ hp =>
        rw [dropSlashes_slash, hr'] at hp
        exact absurd hp hne
    | climbs _ _ _ hout =>
        rw [hr] at hout
        exact hout
    | host _ _ ha => rw [hr] at ha; cases ha
    | absolute h => exact absurd hs h
  · intro h
    refine .climbs hs (by rw [hr]) (by rw [dropSlashes_slash, hr']; exact hne) ?_
    rw [hr]
    exact h

theorem harmless_host {u : List Char} (hb : base.OnHost host)
    (hu : body s = '/' :: u) (hs : (parse (dropSlashes s)).scheme = none) :
    Harmless base ('/' :: s) ↔
      u.takeWhile (· ≠ '/') = host ∧ (push base.dirs host).length ≤
        climb 0 (segments (u.dropWhile (· ≠ '/'))) := by
  have hr := parse_two hu
  constructor
  · intro h
    cases h with
    | relative h => exact absurd rfl h
    | root _ ha => rw [hr] at ha; cases ha
    | climbs _ ha => rw [hr] at ha; cases ha
    | host host' _ ha hsame hout =>
        cases hsame.symm.trans hb.authority
        rw [hr] at ha hout
        exact ⟨Option.some.inj ha, hout⟩
    | absolute h => exact absurd hs h
  · intro h
    obtain ⟨hn, hout⟩ := h
    refine .host host hs (by rw [hr, hn]) hb.authority ?_
    rw [hr]
    exact hout

/-- The slashes that a reference starts with make no difference to its
target exactly where they are harmless. -/
theorem target_dropSlashes_iff {base ref : List Char}
    (hb : (parse base).OnHost host) :
    target base (dropSlashes ref) = target base ref ↔
      Harmless (parse base) ref := by
  rw [target, target]
  by_cases hh : ref.head? = some '/'
  · obtain ⟨s, rfl⟩ := List.head?_eq_some_iff.mp hh
    rw [dropSlashes_slash]
    by_cases hs : (parse (dropSlashes s)).scheme = none
    · by_cases hv : (body s).head? = some '/'
      · obtain ⟨u, hu⟩ := List.head?_eq_some_iff.mp hv
        rw [host_iff hb hu hs, harmless_host hb hu hs]
      · by_cases hempty : body s = []
        · rw [root_iff hb hempty hs, harmless_root hempty hs]
        · rw [path_iff hb hv hempty hs, harmless_path hv hempty hs]
    · constructor
      · exact fun h => .absolute hs h
      · intro h
        cases h with
        | relative h => exact absurd hh h
        | root h => exact absurd h hs
        | climbs h => exact absurd h hs
        | host _ h => exact absurd h hs
        | absolute _ ht => exact ht
  · rw [dropSlashes_of_head hh]
    exact iff_of_true rfl (.relative hh)

end Slashes

/-! ## The two functions -/

/-- `Url::join` resolves a reference against the URL of a server. -/
structure JoinLaws (cr : Crates) : Prop where
  join : ∀ {base reference : String} {host : List Char},
    (parse base.toList).OnHost host →
      cr.urlJoin base reference =
        .ok (String.ofList (target base.toList reference.toList))

/-- A relative reference does not start like an absolute URL. -/
theorem not_startsWith_http {reference : String}
    (h : (parse reference.toList).scheme = none) :
    startsWith reference "http://" = false ∧
      startsWith reference "https://" = false := by
  constructor
  · rw [Bool.eq_false_iff]
    intro hs
    obtain ⟨rest, rfl⟩ := startsWith_iff.mp hs
    rw [String.toList_append] at h
    cases h
  · rw [Bool.eq_false_iff]
    intro hs
    obtain ⟨rest, rfl⟩ := startsWith_iff.mp hs
    rw [String.toList_append] at h
    cases h

section Functions

variable {cr : Crates} {base reference : String} {host : List Char}

/-- Both read a relative reference as it resolves, if and only if its
slashes are harmless; the agent's function always does. -/
theorem one_meaning_iff (laws : JoinLaws cr)
    (hb : (parse base.toList).OnHost host)
    (hr : (parse reference.toList).scheme = none) :
    (resolveDeferredLocation cr base reference =
        resolveUrl cr base reference ∧
      resolveUrl cr base reference =
        String.ofList (target base.toList reference.toList)) ↔
      Harmless (parse base.toList) reference.toList := by
  obtain ⟨hhttp, hhttps⟩ := not_startsWith_http hr
  have hagent : resolveUrl cr base reference =
      String.ofList (target base.toList reference.toList) := by
    rw [resolveUrl, hhttp, hhttps, laws.join hb]
    rfl
  have hperson : resolveDeferredLocation cr base reference =
      String.ofList (target base.toList (dropSlashes reference.toList)) := by
    rw [resolveDeferredLocation, hhttp, hhttps, laws.join hb,
      trimStartMatches, String.toList_ofList]
    rfl
  rw [hagent, hperson, and_iff_left rfl, ← target_dropSlashes_iff hb]
  constructor
  · intro h
    exact String.ofList_injective h
  · intro h
    rw [h]

end Functions

/-! ## Two references -/

namespace Sample

/-- Joining as the generic syntax has it. -/
def joining : Crates :=
  { crates with
    urlJoin := fun base reference =>
      .ok (String.ofList (target base.toList reference.toList)) }

/-- An absolute path is read below the directory of the base, and the own
host of the base as a directory. -/
theorem two_meanings :
    resolveDeferredLocation joining "https://as.example/aauth/token"
        "/pending/1" = "https://as.example/aauth/pending/1" ∧
      resolveUrl joining "https://as.example/aauth/token" "/pending/1" =
        "https://as.example/pending/1" ∧
      resolveDeferredLocation joining "https://as.example"
        "//as.example/pending/1" = "https://as.example/as.example/pending/1" ∧
      resolveUrl joining "https://as.example" "//as.example/pending/1" =
        "https://as.example/pending/1" := by
  decide

/-- On a base without directories an absolute path climbs out of them all. -/
theorem one_meaning_on_origin :
    resolveDeferredLocation joining "https://as.example" "/pending/1?n=2" =
      resolveUrl joining "https://as.example" "/pending/1?n=2" := by
  have hb : (parse "https://as.example".toList).OnHost "as.example".toList :=
    Reference.onHost_parse nofun rfl nofun
  have hharmless : Harmless (parse "https://as.example".toList)
      "/pending/1?n=2".toList :=
    .climbs rfl rfl nofun (by decide)
  exact ((one_meaning_iff ⟨fun _ => rfl⟩ hb rfl).mpr hharmless).1

end Sample

end Aauth
