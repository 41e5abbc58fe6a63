import Mathlib.Data.List.Basic
import Mathlib.Data.List.TakeWhile
import Mathlib.Tactic.Common
import Aauth.Lib.Text

/-!
# References and their resolution

The generic syntax of URI references (RFC 3986): the five components, the
removal of dot segments, and the resolution of a reference against a base.

A path is worked on as a stack of segments. The one fact about stacks that
everything rests on is `dots_append`: what lies at the bottom of the stack
comes through unharmed, except for what the dot segments climb out of. So a
path read below some directories is the path read at the root if and only if
it climbs out of all of them (`render_dots_eq_iff`).
-/

namespace UriRef

open Text

abbrev Seg := List Char

/-! ## Stacks of segments -/

def dot : Seg := ['.']

def dotDot : Seg := ['.', '.']

/-- A segment that more follow, on a stack with the newest on top. -/
def push (st : List Seg) (s : Seg) : List Seg :=
  if s = dot then st else if s = dotDot then st.tail else s :: st

/-- The last segment: after a dot segment the path ends in a slash. -/
def finish (st : List Seg) (s : Seg) : List Seg :=
  if s = dot then [] :: st else if s = dotDot then [] :: st.tail else s :: st

/-- The segments of a path put on a stack, dot segments carried out. -/
def dots : List Seg → List Seg → List Seg
  | st, [] => st
  | st, [s] => finish st s
  | st, s :: s' :: rest => dots (push st s) (s' :: rest)

/-- How far the segments climb below a stack of the given height. -/
def climb : Nat → List Seg → Nat
  | _, [] => 0
  | n, s :: rest =>
      if s = dot then climb n rest
      else if s = dotDot then
        match n with
        | 0 => climb 0 rest + 1
        | n + 1 => climb n rest
      else climb (n + 1) rest

/-- A path, from the stack. -/
def render (st : List Seg) : List Char := st.reverse.flatMap ('/' :: ·)

theorem render_append (st bottom : List Seg) :
    render (st ++ bottom) = render bottom ++ render st := by
  rw [render, List.reverse_append, List.flatMap_append]
  rfl

theorem render_eq_nil {st : List Seg} : render st = [] ↔ st = [] := by
  rw [render, List.flatMap_eq_nil_iff]
  constructor
  · intro h
    cases st with
    | nil => rfl
    | cons s st =>
        have := h s (List.mem_reverse.mpr List.mem_cons_self)
        cases this
  · rintro rfl
    exact nofun

theorem render_head {st : List Seg} (h : st ≠ []) :
    ∃ p, render st = '/' :: p := by
  cases hr : st.reverse with
  | nil => exact absurd (List.reverse_eq_nil_iff.mp hr) h
  | cons s rest =>
      refine ⟨s ++ rest.flatMap ('/' :: ·), ?_⟩
      rw [render, hr, List.flatMap_cons, List.cons_append]

theorem finish_ne_nil (st : List Seg) (s : Seg) : finish st s ≠ [] := by
  rw [finish]
  split
  · exact nofun
  · split
    · exact nofun
    · exact nofun

theorem dots_ne_nil {st segs : List Seg} (h : segs ≠ []) :
    dots st segs ≠ [] := by
  induction segs generalizing st with
  | nil => exact absurd rfl h
  | cons s rest ih =>
      cases rest with
      | nil => exact finish_ne_nil st s
      | cons s' rest => exact ih nofun

/-- Segments that more follow only build the stack. -/
theorem dots_foldl (st : List Seg) (dirs : List Seg) {segs : List Seg}
    (h : segs ≠ []) : dots st (dirs ++ segs) = dots (dirs.foldl push st) segs := by
  induction dirs generalizing st with
  | nil => rfl
  | cons s rest ih =>
      cases hr : rest ++ segs with
      | nil => exact absurd (List.append_eq_nil_iff.mp hr).2 h
      | cons s' rest' =>
          rw [List.cons_append, hr, dots, ← hr, ih, List.foldl_cons]

/-- What lies at the bottom comes through, but for what the segments climb
out of. By induction on the segments: a dot-dot segment takes from the
stack while there is one, and from the bottom after that. -/
theorem dots_append (st bottom segs : List Seg) :
    dots (st ++ bottom) segs =
      dots st segs ++ bottom.drop (climb st.length segs) := by
  induction segs generalizing st bottom with
  | nil => rfl
  | cons s rest ih =>
      have hdd : dotDot ≠ dot := by decide
      cases rest with
      | nil =>
          rw [dots, dots, finish, finish, climb.eq_def]
          by_cases h : s = dot
          · simp [h, climb]
          · by_cases h' : s = dotDot
            · cases st with
              | nil => simp [h', hdd, climb]
              | cons t st => simp [h', hdd, climb]
            · simp [h, h', climb]
      | cons s' rest =>
          rw [dots, dots, push, push, climb.eq_def]
          by_cases h : s = dot
          · simp only [h, if_true]
            exact ih st bottom
          · by_cases h' : s = dotDot
            · cases st with
              | nil =>
                  have htail := ih [] bottom.tail
                  simp only [h', hdd, if_false, if_true, List.nil_append,
                    List.length_nil, List.tail_nil] at htail ⊢
                  rw [htail, List.drop_tail]
              | cons t st =>
                  simp only [h', hdd, if_false, if_true, List.cons_append,
                    List.tail_cons, List.length_cons]
                  exact ih st bottom
            · simp only [h, h', if_false]
              exact ih (s :: st) bottom

theorem render_cons (s : Seg) (st : List Seg) :
    render (s :: st) = render st ++ '/' :: s := by
  rw [render, List.reverse_cons, List.flatMap_append, List.flatMap_singleton]
  rfl

/-- A last segment leaves nothing but a slash when it is a dot segment that
leaves no directory. -/
theorem render_finish_iff {st : List Seg} {s : Seg} (h : s ≠ []) :
    render (finish st s) = ['/'] ↔ push st s = [] := by
  have hslash : ∀ st' : List Seg, render ([] :: st') = ['/'] ↔ st' = [] := by
    intro st'
    rw [render_cons, List.append_left_eq_self, render_eq_nil]
  rw [finish, push]
  by_cases hd : s = dot
  · rw [if_pos hd, if_pos hd, hslash]
  · rw [if_neg hd, if_neg hd]
    by_cases hdd : s = dotDot
    · rw [if_pos hdd, if_pos hdd, hslash]
    · rw [if_neg hdd, if_neg hdd]
      refine iff_of_false (fun he => h ?_) nofun
      rw [render_cons] at he
      have hlen := congrArg List.length he
      rw [List.length_append, List.length_cons, List.length_singleton] at hlen
      exact List.length_eq_zero_iff.mp (by omega)

theorem length_render_drop {bottom : List Seg} {n : Nat} :
    render (bottom.drop n) = [] ↔ bottom.length ≤ n := by
  rw [render_eq_nil, List.drop_eq_nil_iff]

/-- A path read below some directories is the path read at the root, if and
only if it climbs out of all of them. -/
theorem render_dots_eq_iff {dirs segs : List Seg} :
    render (dots dirs segs) = render (dots [] segs) ↔
      dirs.length ≤ climb 0 segs := by
  have h := dots_append [] dirs segs
  rw [List.nil_append, List.length_nil] at h
  rw [h, render_append, List.append_left_eq_self, length_render_drop]

/-! ## Paths -/

/-- The segments of a path that is empty or starts with a slash. -/
def segments (path : List Char) : List Seg := splitL '/' path.tail

/-- A path without its dot segments. One that starts with a segment loses
it when the rest climbs out. -/
def removeDots : List Char → List Char
  | [] => []
  | '/' :: path => render (dots [] (splitL '/' path))
  | path =>
      match (splitL '/' path).dropWhile fun s => s = dot ∨ s = dotDot with
      | [] => []
      | s :: rest =>
          (if climb 0 rest = 0 then s else []) ++ render (dots [] rest)

/-- A path up to its last slash. -/
def directory : List Char → List Char
  | [] => []
  | c :: s => if '/' ∈ c :: s then c :: directory s else []

/-- The segments of what stands behind a directory. -/
theorem splitL_directory (s p : List Char) :
    splitL '/' (directory s ++ p) = (splitL '/' s).dropLast ++ splitL '/' p := by
  induction s with
  | nil => rfl
  | cons c s ih =>
      by_cases hc : c = '/'
      · have hm : '/' ∈ c :: s := hc ▸ List.mem_cons_self
        rw [directory, if_pos hm, hc, List.cons_append, splitL, if_pos rfl,
          splitL, if_pos rfl, ih, List.dropLast_cons_of_ne_nil
            (splitL_ne_nil '/' s), List.cons_append]
      · by_cases hs : '/' ∈ s
        · have hm : '/' ∈ c :: s := List.mem_cons_of_mem c hs
          rw [directory, if_pos hm, List.cons_append, splitL, if_neg hc, ih,
            splitL, if_neg hc]
          obtain ⟨u, t, hst, hu⟩ := List.eq_append_cons_of_mem hs
          have hne := splitL_ne_nil '/' t
          rw [hst, splitL_append hu, List.dropLast_cons_of_ne_nil hne]
          show _ = ((c :: u) :: splitL '/' t).dropLast ++ _
          rw [List.dropLast_cons_of_ne_nil hne]
          rfl
        · have hm : '/' ∉ c :: s := by
            rw [List.mem_cons, not_or]
            exact ⟨fun h => hc h.symm, hs⟩
          rw [directory, if_neg hm, splitL_of_not_mem hm]
          rfl

/-! ## References -/

structure Reference where
  scheme : Option (List Char)
  authority : Option (List Char)
  path : List Char
  query : Option (List Char)
  fragment : Option (List Char)
deriving DecidableEq

/-- The text before the first `c`, and the text behind it if there is
one. -/
def cut (c : Char) : List Char → List Char × Option (List Char)
  | [] => ([], none)
  | d :: s =>
      if d = c then ([], some s)
      else ((d :: (cut c s).1), (cut c s).2)

/-- A letter, then letters, digits, `+`, `-` and `.`. -/
def isScheme : List Char → Bool
  | [] => false
  | c :: s => c.isAlpha &&
      s.all fun d => d.isAlphanum || d == '+' || d == '-' || d == '.'

/-- The scheme and what follows its colon. -/
def takeScheme (s : List Char) : Option (List Char) × List Char :=
  match cut ':' s with
  | (p, some rest) => if isScheme p then (some p, rest) else (none, s)
  | (_, none) => (none, s)

/-- The authority and the path. -/
def takeAuthority : List Char → Option (List Char) × List Char
  | '/' :: '/' :: s => (some (s.takeWhile (· ≠ '/')), s.dropWhile (· ≠ '/'))
  | s => (none, s)

/-- A text without query and fragment, and these. -/
def ofParts (s : List Char) (query fragment : Option (List Char)) :
    Reference where
  scheme := (takeScheme s).1
  authority := (takeAuthority (takeScheme s).2).1
  path := (takeAuthority (takeScheme s).2).2
  query := query
  fragment := fragment

def parse (s : List Char) : Reference :=
  ofParts (cut '?' (cut '#' s).1).1 (cut '?' (cut '#' s).1).2 (cut '#' s).2

namespace Reference

/-- A component with the delimiter it is written with. -/
def part (before after : List Char) : Option (List Char) → List Char
  | none => []
  | some s => before ++ s ++ after

/-- The text of a reference. -/
def text (r : Reference) : List Char :=
  part [] [':'] r.scheme ++ part ['/', '/'] [] r.authority ++ r.path ++
    part ['?'] [] r.query ++ part ['#'] [] r.fragment

/-- A relative path behind the directory of the base. -/
def merge (base : Reference) (path : List Char) : List Char :=
  if base.authority.isSome ∧ base.path = [] then '/' :: path
  else directory base.path ++ path

/-- The target of a reference, component by component. -/
def resolve (base r : Reference) : Reference :=
  if r.scheme.isSome then { r with path := removeDots r.path }
  else if r.authority.isSome then
    { r with scheme := base.scheme, path := removeDots r.path }
  else if r.path = [] then
    { base with query := r.query.or base.query, fragment := r.fragment }
  else
    { base with
      path := removeDots
        (if r.path.head? = some '/' then r.path else base.merge r.path),
      query := r.query, fragment := r.fragment }

/-- An empty path behind an authority is written as a slash. -/
def rooted (r : Reference) : Reference :=
  if r.authority.isSome ∧ r.path = [] then { r with path := ['/'] } else r

end Reference

/-- The target of a reference as a text. -/
def target (base reference : List Char) : List Char :=
  ((parse base).resolve (parse reference)).rooted.text

example : target "http://a/b/c/d;p?q".toList "../../g?y#s".toList =
    "http://a/g?y#s".toList := by decide

/-! ## What stands behind slashes -/

/-- The text without query and fragment. -/
def body (s : List Char) : List Char := (cut '?' (cut '#' s).1).1

def queryOf (s : List Char) : Option (List Char) := (cut '?' (cut '#' s).1).2

def fragmentOf (s : List Char) : Option (List Char) := (cut '#' s).2

theorem parse_eq (s : List Char) :
    parse s = ofParts (body s) (queryOf s) (fragmentOf s) := rfl

theorem parts_slash (s : List Char) : body ('/' :: s) = '/' :: body s ∧
    queryOf ('/' :: s) = queryOf s ∧ fragmentOf ('/' :: s) = fragmentOf s :=
  ⟨rfl, rfl, rfl⟩

/-- A text without its leading slashes. -/
def dropSlashes (s : List Char) : List Char := s.dropWhile (· == '/')

theorem dropSlashes_slash (s : List Char) :
    dropSlashes ('/' :: s) = dropSlashes s := rfl

theorem dropSlashes_of_head {s : List Char} (h : s.head? ≠ some '/') :
    dropSlashes s = s := by
  cases s with
  | nil => rfl
  | cons c s =>
      have hc : c ≠ '/' := fun he => h (congrArg some he)
      rw [dropSlashes, List.dropWhile_cons_of_neg (by simp [hc])]

theorem dropSlashes_head (s : List Char) :
    (dropSlashes s).head? ≠ some '/' := by
  intro he
  have h := List.head?_dropWhile_not (· == '/') s
  rw [show s.dropWhile (· == '/') = dropSlashes s from rfl, he] at h
  simp at h

theorem body_head {s : List Char} (h : s.head? ≠ some '/') :
    (body s).head? ≠ some '/' := by
  cases s with
  | nil => exact nofun
  | cons c s =>
      have hc : c ≠ '/' := fun he => h (congrArg some he)
      rw [body, cut]
      split
      · exact nofun
      · rw [cut]
        split
        · exact nofun
        · exact fun he => hc (Option.some.inj he)

/-- Query and fragment are those of what stands behind the slashes. -/
theorem parts_dropSlashes (s : List Char) :
    body (dropSlashes s) = dropSlashes (body s) ∧
      queryOf (dropSlashes s) = queryOf s ∧
      fragmentOf (dropSlashes s) = fragmentOf s := by
  induction s with
  | nil => exact ⟨rfl, rfl, rfl⟩
  | cons c s ih =>
      by_cases hc : c = '/'
      · rw [hc]
        exact ih
      · have hh : (c :: s).head? ≠ some '/' :=
          fun he => hc (Option.some.inj he)
        rw [dropSlashes_of_head hh, dropSlashes_of_head (body_head hh)]
        exact ⟨rfl, rfl, rfl⟩

theorem takeScheme_slash (s : List Char) :
    takeScheme ('/' :: s) = (none, '/' :: s) := by
  rw [takeScheme, cut, if_neg (by decide)]
  cases (cut ':' s).2 with
  | none => rfl
  | some rest => rfl

theorem takeAuthority_of_head {s : List Char} (h : s.head? ≠ some '/') :
    takeAuthority s = (none, s) := by
  cases s with
  | nil => rfl
  | cons c s =>
      have hc : c ≠ '/' := fun he => h (congrArg some he)
      rw [takeAuthority.eq_def]
      split
      · next he => exact absurd (List.cons.inj he).1 hc
      · rfl

theorem takeAuthority_slash {s : List Char} (h : s.head? ≠ some '/') :
    takeAuthority ('/' :: s) = (none, '/' :: s) := by
  cases s with
  | nil => rfl
  | cons c s =>
      have hc : c ≠ '/' := fun he => h (congrArg some he)
      rw [takeAuthority.eq_def]
      split
      · next he =>
        exact absurd (List.cons.inj (List.cons.inj he).2).1 hc
      · rfl

theorem dropWhile_slash (u : List Char) :
    u.dropWhile (· ≠ '/') = [] ∨ ∃ p, u.dropWhile (· ≠ '/') = '/' :: p := by
  cases hd : u.dropWhile (· ≠ '/') with
  | nil => exact .inl rfl
  | cons c p =>
      have h := List.head?_dropWhile_not (· ≠ '/') u
      rw [hd] at h
      have hc : c = '/' := by simpa using h
      exact .inr ⟨p, by rw [hc]⟩

theorem slash_not_mem_takeWhile (u : List Char) :
    '/' ∉ u.takeWhile (· ≠ '/') := by
  intro h
  have := List.mem_takeWhile_imp h
  simp at this

/-! ## Targets on a server -/

namespace Reference

/-- A base with a host: its path, if it has one, starts with a slash. -/
structure OnHost (base : Reference) (host : List Char) : Prop where
  scheme : base.scheme ≠ none
  authority : base.authority = some host
  named : host ≠ []
  plain : '/' ∉ host
  path : base.path = [] ∨ ∃ p, base.path = '/' :: p

theorem takeAuthority_some {s host : List Char}
    (h : (takeAuthority s).1 = some host) : '/' ∉ host ∧
      ((takeAuthority s).2 = [] ∨ ∃ p, (takeAuthority s).2 = '/' :: p) := by
  rw [takeAuthority.eq_def] at h ⊢
  split at h
  · next s =>
    rw [← Option.some.inj h]
    exact ⟨slash_not_mem_takeWhile s, dropWhile_slash s⟩
  · cases h

/-- A text with a scheme and a host is such a base. -/
theorem onHost_parse {s host : List Char} (hs : (parse s).scheme ≠ none)
    (ha : (parse s).authority = some host) (hn : host ≠ []) :
    (parse s).OnHost host where
  scheme := hs
  authority := ha
  named := hn
  plain := (takeAuthority_some ha).1
  path := (takeAuthority_some ha).2

/-- The directories of a base, dot segments carried out, the last on top. -/
def dirs (base : Reference) : List Seg :=
  (segments base.path).dropLast.foldl push []

variable {base r : Reference} {host : List Char}

/-- Query and fragment as written. -/
def suffix (query fragment : Option (List Char)) : List Char :=
  part ['?'] [] query ++ part ['#'] [] fragment

theorem text_eq (r : Reference) :
    r.text = part [] [':'] r.scheme ++ part ['/', '/'] [] r.authority ++
      r.path ++ suffix r.query r.fragment := by
  simp only [text, suffix, List.append_assoc]

theorem removeDots_merge (h : base.OnHost host) {p : List Char} :
    removeDots (base.merge p) = render (dots base.dirs (splitL '/' p)) := by
  have hne := splitL_ne_nil '/' p
  rw [merge, h.authority]
  rcases h.path with hp | ⟨p₀, hp⟩
  · rw [if_pos ⟨rfl, hp⟩, removeDots, dirs, hp]
    rfl
  · rw [if_neg (by simp [hp]), hp, directory, if_pos List.mem_cons_self,
      List.cons_append, removeDots, splitL_directory, dots_foldl [] _ hne, dirs,
      hp]
    rfl

/-- A target with the scheme of the base. -/
def located (base : Reference) (host path : List Char)
    (query fragment : Option (List Char)) : List Char :=
  part [] [':'] base.scheme ++ part ['/', '/'] [] (some host) ++ path ++
    suffix query fragment

theorem append_slash_inj {host' p p' : List Char} (hh : '/' ∉ host)
    (hh' : '/' ∉ host') (h : host ++ '/' :: p = host' ++ '/' :: p') :
    host = host' ∧ p = p' := by
  have hs := splitL_append hh p
  rw [h, splitL_append hh'] at hs
  obtain ⟨he, -⟩ := List.cons.inj hs
  rw [he] at h
  exact ⟨he.symm, (List.cons.inj (List.append_cancel_left h)).2⟩

theorem located_host {host' p p' : List Char}
    {query query' fragment fragment' : Option (List Char)} (hh : '/' ∉ host)
    (hh' : '/' ∉ host')
    (h : located base host ('/' :: p) query fragment =
      located base host' ('/' :: p') query' fragment') : host = host' := by
  simp only [located, part, List.append_assoc, List.cons_append,
    List.nil_append] at h
  have h₁ := List.append_cancel_left h
  exact (append_slash_inj hh hh'
    (List.cons.inj (List.cons.inj h₁).2).2).1

theorem located_inj {host' : List Char} {st st' : List Seg}
    {query fragment : Option (List Char)} (hh : '/' ∉ host)
    (hh' : '/' ∉ host') (hst : st ≠ []) (hst' : st' ≠ []) :
    located base host (render st) query fragment =
        located base host' (render st') query fragment ↔
      host = host' ∧ render st = render st' := by
  obtain ⟨p, hp⟩ := render_head hst
  obtain ⟨p', hp'⟩ := render_head hst'
  constructor
  · intro h
    have he : host = host' := by
      rw [hp, hp'] at h
      exact located_host hh hh' h
    refine ⟨he, ?_⟩
    rw [he, located, located] at h
    exact List.append_cancel_left (List.append_cancel_right h)
  · intro h
    rw [h.1, h.2]

/-- The path on the host of the base that the base has itself. -/
def ownPath (base : Reference) : List Char :=
  if base.path = [] then ['/'] else base.path

theorem ownPath_slash (h : base.OnHost host) :
    ∃ p, base.ownPath = '/' :: p := by
  rw [ownPath]
  rcases h.path with hp | ⟨p, hp⟩
  · exact ⟨[], if_pos hp⟩
  · rw [hp]
    exact ⟨p, if_neg nofun⟩

/-- Own path and query against the root with a query that stands in for the
own one. -/
theorem located_own_iff {p : List Char}
    {query own fragment : Option (List Char)} :
    located base host ('/' :: p) (query.or own) fragment =
        located base host ['/'] query fragment ↔
      p = [] ∧ (query ≠ none ∨ own = none) := by
  have hcancel : located base host ('/' :: p) (query.or own) fragment =
      located base host ['/'] query fragment ↔
        p ++ part ['?'] [] (query.or own) = part ['?'] [] query := by
    rw [located, located, suffix, suffix]
    simp only [List.append_assoc, List.cons_append, List.nil_append,
      List.append_cancel_left_eq, List.cons.injEq, true_and]
    rw [← List.append_assoc, List.append_cancel_right_eq]
  rw [hcancel]
  cases query with
  | none =>
      rw [Option.none_or, part, List.append_eq_nil_iff]
      cases own with
      | none => simp [part]
      | some q => simp [part]
  | some q => simp [List.append_left_eq_self]

theorem rooted_text {path : List Char} {query fragment : Option (List Char)}
    {scheme : Option (List Char)} (hs : scheme = base.scheme) :
    (rooted ⟨scheme, some host, path, query, fragment⟩).text =
      located base host (if path = [] then ['/'] else path) query
        fragment := by
  rw [rooted, hs]
  by_cases h : path = []
  · rw [if_pos ⟨rfl, h⟩, if_pos h, text_eq, located]
  · rw [if_neg (fun hc => h hc.2), if_neg h, text_eq, located]

/-- A reference that is empty but for query and fragment. -/
theorem resolve_empty (h : base.OnHost host) (hs : r.scheme = none)
    (ha : r.authority = none) (hp : r.path = []) :
    (base.resolve r).rooted.text =
      located base host base.ownPath (r.query.or base.query) r.fragment := by
  rw [resolve, hs, ha, if_neg nofun, if_neg nofun, if_pos hp, h.authority]
  exact rooted_text rfl

/-- A path that is not empty is read below the directories of the base, or
at the root when it starts with a slash. -/
theorem resolve_path (h : base.OnHost host) (hs : r.scheme = none)
    (ha : r.authority = none) (hp : r.path ≠ []) :
    (base.resolve r).rooted.text = located base host
      (render (if r.path.head? = some '/' then dots [] (segments r.path)
        else dots base.dirs (splitL '/' r.path))) r.query r.fragment := by
  rw [resolve, hs, ha, if_neg nofun, if_neg nofun, if_neg hp, h.authority,
    rooted_text rfl]
  have hpath : removeDots
      (if r.path.head? = some '/' then r.path else base.merge r.path) =
        render (if r.path.head? = some '/' then dots [] (segments r.path)
          else dots base.dirs (splitL '/' r.path)) := by
    by_cases hc : r.path.head? = some '/'
    · rw [if_pos hc, if_pos hc]
      obtain ⟨p, hrp⟩ := List.head?_eq_some_iff.mp hc
      rw [hrp]
      rfl
    · rw [if_neg hc, if_neg hc, removeDots_merge h]
  have hne : (if r.path.head? = some '/' then dots [] (segments r.path)
      else dots base.dirs (splitL '/' r.path)) ≠ [] := by
    split
    · exact dots_ne_nil (splitL_ne_nil _ _)
    · exact dots_ne_nil (splitL_ne_nil _ _)
  rw [hpath, if_neg (fun he => hne (render_eq_nil.mp he))]

/-- A reference that names a host is read at the root of that host. -/
theorem resolve_host {host' : List Char} (hs : r.scheme = none)
    (ha : r.authority = some host')
    (hp : r.path = [] ∨ ∃ p, r.path = '/' :: p) :
    (base.resolve r).rooted.text = located base host'
      (render (dots [] (segments r.path))) r.query r.fragment := by
  rw [resolve, hs, ha, if_neg nofun, if_pos Option.isSome_some, rooted_text rfl]
  rcases hp with hp | ⟨p, hp⟩
  · rw [hp]
    rfl
  · have hne : render (dots [] (splitL '/' p)) ≠ [] := by
      rw [Ne, render_eq_nil]
      exact dots_ne_nil (splitL_ne_nil _ _)
    rw [hp, removeDots, if_neg hne]
    rfl

end Reference

end UriRef
