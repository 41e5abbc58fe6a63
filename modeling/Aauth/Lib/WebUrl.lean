import Mathlib.Algebra.Group.Nat.Defs
import Aauth.Lib.UriRef

/-!
# How a browser reads a reference

The URL Standard reads a reference against the URL of a web server with
more tolerance than the generic syntax: control characters and blanks
around it do not count, tabs and newlines nowhere, a backslash is as good as
a slash, and the scheme of the server may be repeated without effect.

Whether the reference stays on the server is decided before anything of its
path is looked at: either it is read there, or it amounts to an absolute
URL, which the reading names.

An absolute URL of a web server is taken apart with the same tolerance
(`Parts`). Most of what is tolerated leaves no trace in the URL: the text of
an origin can be spelled in many ways, of which `Untouched` is the one that
the URL is written in.
-/

namespace WebUrl

open Text

/-! ## Cleaning -/

/-- A control character or a blank. -/
def isBlank (c : Char) : Bool := c.toNat ≤ 32

def isBreak (c : Char) : Bool := c == '\t' || c == '\n' || c == '\r'

/-- Without what surrounds the text, and without the breaks in it. -/
def clean (s : List Char) : List Char :=
  (trimEndL isBlank (trimStartL isBlank s)).filter fun c => !isBreak c

theorem trimEndL_cons {p : Char → Bool} {c : Char} (hc : p c = false)
    (s : List Char) : trimEndL p (c :: s) = c :: trimEndL p s := by
  rw [trimEndL, trimEndL, List.reverse_cons]
  cases h : s.reverse.dropWhile p with
  | nil =>
      have hall : s.reverse.all p = true := by
        rw [List.all_eq_true]
        exact List.dropWhile_eq_nil_iff.mp h
      rw [List.dropWhile_append, h]
      simp [hc]
  | cons d t =>
      rw [List.dropWhile_append, h]
      simp

/-- A scheme without upper case is in lower case. -/
theorem map_toLower_of_lower {s : List Char}
    (h : ∀ c ∈ s, c.isUpper = false) : s.map Char.toLower = s := by
  induction s with
  | nil => rfl
  | cons c s ih =>
      have hc : c.toLower = c :=
        dif_neg (of_decide_eq_false (h c List.mem_cons_self))
      rw [List.map_cons, hc, ih fun d hd => h d (List.mem_cons_of_mem c hd)]

theorem filter_of_solid {s : List Char} (h : ∀ c ∈ s, isBlank c = false) :
    s.filter (fun c => !isBreak c) = s := by
  rw [List.filter_eq_self]
  intro c hc
  have hb := h c hc
  by_contra hn
  simp only [isBreak, Bool.not_eq_true', Bool.not_eq_false, Bool.or_eq_true,
    beq_iff_eq] at hn
  rcases hn with (rfl | rfl) | rfl
  · cases hb
  · cases hb
  · cases hb

/-- A text without blanks is kept whole in front of any other. -/
theorem clean_append {p : List Char} (hp : ∀ c ∈ p, isBlank c = false)
    (s : List Char) : ∃ t, clean (p ++ s) = p ++ t := by
  have hend : ∀ s, trimEndL isBlank (p ++ s) = p ++ trimEndL isBlank s := by
    intro s
    induction p with
    | nil => rfl
    | cons c p ih =>
        rw [List.cons_append, trimEndL_cons (hp c List.mem_cons_self),
          ih fun d hd => hp d (List.mem_cons_of_mem c hd), List.cons_append]
  have hstart : ∃ t, trimStartL isBlank (p ++ s) = p ++ t := by
    cases p with
    | nil => exact ⟨_, rfl⟩
    | cons c p =>
        refine ⟨s, ?_⟩
        have hc := hp c List.mem_cons_self
        rw [trimStartL, List.cons_append, List.dropWhile_cons_of_neg (by simp [hc])]
  obtain ⟨t, ht⟩ := hstart
  rw [clean, ht, hend, List.filter_append, filter_of_solid hp]
  exact ⟨_, rfl⟩

/-! ## Reading a reference -/

/-- Where a reference leads: it stays on the server, or it amounts to an
absolute URL. -/
inductive Reading where
  | here
  | away (url : List Char)
deriving DecidableEq

def isSlash (c : Char) : Bool := c == '/' || c == '\\'

/-- What follows the scheme starts with the name of a host. -/
def namesHost : List Char → Bool
  | c :: d :: _ => isSlash c && isSlash d
  | _ => false

/-- A reference against a web server that is reached by `scheme`. -/
def read (scheme s : List Char) : Reading :=
  match UriRef.takeScheme (clean s) with
  | (none, rest) =>
      if namesHost rest then .away (scheme ++ ':' :: rest) else .here
  | (some p, rest) =>
      if p.map Char.toLower = scheme ∧ namesHost rest = false then .here
      else .away s

/-- A text that names its own scheme. -/
def isAbsolute (s : List Char) : Bool :=
  (UriRef.takeScheme (clean s)).1.isSome

theorem isAbsolute_slash (s : List Char) : isAbsolute ('/' :: s) = false := by
  obtain ⟨t, ht⟩ := @clean_append ['/'] (by decide) s
  rw [isAbsolute, show '/' :: s = ['/'] ++ s from rfl, ht]
  show (UriRef.takeScheme ('/' :: t)).1.isSome = false
  rw [UriRef.takeScheme_slash]
  rfl

/-- A reading that leads away leads to the text itself, when that is
absolute. -/
theorem read_away {scheme s url : List Char}
    (h : read scheme s = .away url) : url = s ∨ isAbsolute s = false := by
  rw [read.eq_def] at h
  rw [isAbsolute]
  split at h
  · next hs =>
    rw [hs]
    exact .inr rfl
  · split at h
    · cases h
    · cases h
      exact .inl rfl

example : read "https".toList "HTTPS:\t\\/evil.example".toList =
    .away "HTTPS:\t\\/evil.example".toList := by decide

/-! ## Absolute URLs taken apart -/

/-- The end of an authority. -/
def endsAuthority (c : Char) : Bool := isSlash c || c == '?' || c == '#'

/-- A host and what stands behind the first colon outside of brackets. -/
def cutPort : Bool → List Char → List Char × Option (List Char)
  | _, [] => ([], none)
  | bracket, c :: s =>
      if c = ':' ∧ bracket = false then ([], some s)
      else
        let inside := if c = '[' then true else if c = ']' then false
          else bracket
        (c :: (cutPort inside s).1, (cutPort inside s).2)

/-- What stands in front of the last `@`, and what stands behind it. -/
def cutUserinfo (s : List Char) : Option (List Char) × List Char :=
  ((UriRef.cut '@' s.reverse).2.map List.reverse,
    (UriRef.cut '@' s.reverse).1.reverse)

/-- The parts of what follows the scheme and its colon. -/
structure Parts where
  slashes : List Char
  userinfo : Option (List Char)
  host : List Char
  port : Option (List Char)
  path : List Char
  query : Option (List Char)
  fragment : Option (List Char)
deriving DecidableEq

def Parts.ofRest (rest : List Char) : Parts :=
  let named := rest.dropWhile isSlash
  let authority := named.takeWhile (!endsAuthority ·)
  let behind := named.dropWhile (!endsAuthority ·)
  { slashes := rest.takeWhile isSlash
    userinfo := (cutUserinfo authority).1
    host := (cutPort false (cutUserinfo authority).2).1
    port := (cutPort false (cutUserinfo authority).2).2
    path := (UriRef.cut '?' (UriRef.cut '#' behind).1).1
    query := (UriRef.cut '?' (UriRef.cut '#' behind).1).2
    fragment := (UriRef.cut '#' behind).2 }

/-- A number in decimal digits. -/
def decimal (s : List Char) : Option Nat :=
  if s.all Char.isDigit then
    some (s.foldl (fun n c => 10 * n + (c.toNat - '0'.toNat)) 0)
  else none

/-- No port, an empty one, or a number in range. -/
def Parts.PortFits (p : Parts) : Prop :=
  ∀ text ∈ p.port, ∃ n ∈ decimal text, n < 2 ^ 16

/-- The port of `https`, written or not. -/
def Parts.DefaultPort (p : Parts) : Prop :=
  ∀ text ∈ p.port, text = [] ∨ decimal text = some 443

theorem Parts.DefaultPort.fits {p : Parts} (h : p.DefaultPort) :
    p.PortFits := by
  intro text ht
  rcases h text ht with rfl | hn
  · exact ⟨0, rfl, by decide⟩
  · exact ⟨443, hn, by decide⟩

/-- Neither a name nor a password. -/
def Parts.Anonymous (p : Parts) : Prop :=
  ∀ text ∈ p.userinfo, text = [] ∨ text = [':']

/-- A segment as the standard reads it: dots may be written in percent
encoding. -/
def dotSegment (s : List Char) : List Char :=
  let lower := s.map Char.toLower
  if lower = "%2e".toList then UriRef.dot
  else if lower ∈ [".%2e".toList, "%2e.".toList, "%2e%2e".toList] then
    UriRef.dotDot
  else s

/-- The segments of the path, dot segments carried out. A backslash is a
slash. -/
def Parts.stack (p : Parts) : List (List Char) :=
  UriRef.dots [] ((UriRef.segments (p.path.map fun c =>
    if isSlash c then '/' else c)).map dotSegment)

/-- The path leads to the root. -/
def Parts.AtRoot (p : Parts) : Prop := p.stack = [[]]

instance (p : Parts) : Decidable p.PortFits :=
  inferInstanceAs (Decidable (∀ text ∈ p.port, ∃ n ∈ decimal text, n < 2 ^ 16))

/-- A text of scheme `https`, and what follows the scheme. -/
def IsHttps (s rest : List Char) : Prop :=
  ∃ scheme, UriRef.takeScheme (clean s) = (some scheme, rest) ∧
    scheme.map Char.toLower = "https".toList

/-- The spelling of an origin that is kept: nothing but two slashes and a
host. -/
structure Parts.Untouched (p : Parts) : Prop where
  slashes : p.slashes = ['/', '/']
  userinfo : p.userinfo = none
  port : p.port = none
  path : p.path = []
  query : p.query = none
  fragment : p.fragment = none

theorem Parts.stack_ne_nil (p : Parts) : p.stack ≠ [] := by
  refine UriRef.dots_ne_nil ?_
  rw [ne_eq, List.map_eq_nil_iff]
  exact splitL_ne_nil _ _

/-- The text of a path is a lone slash at the root. -/
theorem render_eq_slash {st : List (List Char)} :
    UriRef.render st = ['/'] ↔ st = [[]] := by
  constructor
  · intro h
    cases st with
    | nil => cases h
    | cons s st =>
        rw [UriRef.render_cons] at h
        have hlen := congrArg List.length h
        rw [List.length_append, List.length_cons, List.length_singleton] at hlen
        have hst : UriRef.render st = [] :=
          List.length_eq_zero_iff.mp (by omega)
        have hs : s = [] := List.length_eq_zero_iff.mp (by omega)
        rw [UriRef.render_eq_nil.mp hst, hs]
  · rintro rfl
    rfl

theorem IsHttps.unique {s rest rest' : List Char} (h : IsHttps s rest)
    (h' : IsHttps s rest') : rest = rest' := by
  obtain ⟨scheme, h, -⟩ := h
  obtain ⟨scheme', h', -⟩ := h'
  rw [h] at h'
  exact (Prod.mk.inj h').2

/-! ## Nothing is lost -/

theorem cut_text (c : Char) (s : List Char) :
    s = (UriRef.cut c s).1 ++
      UriRef.Reference.part [c] [] (UriRef.cut c s).2 := by
  induction s with
  | nil => rfl
  | cons d s ih =>
      rw [UriRef.cut]
      by_cases hd : d = c
      · rw [if_pos hd, hd]
        simp [UriRef.Reference.part]
      · rw [if_neg hd, List.cons_append, ← ih]

theorem takeScheme_text {s scheme rest : List Char}
    (h : UriRef.takeScheme s = (some scheme, rest)) :
    s = scheme ++ ':' :: rest := by
  have htext := cut_text ':' s
  rw [UriRef.takeScheme] at h
  cases hc : UriRef.cut ':' s with
  | mk p q =>
      rw [hc] at h htext
      cases q with
      | none => cases h
      | some r =>
          simp only [] at h
          by_cases hp : UriRef.isScheme p = true
          · rw [if_pos hp] at h
            cases h
            simpa [UriRef.Reference.part] using htext
          · rw [if_neg hp] at h
            cases h

theorem not_mem_cut (c : Char) (s : List Char) :
    c ∉ (UriRef.cut c s).1 := by
  induction s with
  | nil => exact List.not_mem_nil
  | cons d s ih =>
      rw [UriRef.cut]
      by_cases hd : d = c
      · rw [if_pos hd]
        exact List.not_mem_nil
      · rw [if_neg hd]
        intro hm
        rcases List.mem_cons.mp hm with he | hm
        · exact hd he.symm
        · exact ih hm

theorem cut_of_not_mem {c : Char} {s : List Char} (h : c ∉ s) :
    UriRef.cut c s = (s, none) := by
  induction s with
  | nil => rfl
  | cons d s ih =>
      have hd : d ≠ c := fun he => h (he ▸ List.mem_cons_self)
      have hs : c ∉ s := fun hm => h (List.mem_cons_of_mem d hm)
      rw [UriRef.cut, if_neg hd, ih hs]

theorem cutPort_text (bracket : Bool) (s : List Char) :
    s = (cutPort bracket s).1 ++
      UriRef.Reference.part [':'] [] (cutPort bracket s).2 := by
  induction s generalizing bracket with
  | nil => rfl
  | cons c s ih =>
      rw [cutPort]
      by_cases hc : c = ':' ∧ bracket = false
      · rw [if_pos hc, hc.1]
        simp [UriRef.Reference.part]
      · rw [if_neg hc, List.cons_append, ← ih]

theorem cutUserinfo_text (s : List Char) :
    s = UriRef.Reference.part [] ['@'] (cutUserinfo s).1 ++
      (cutUserinfo s).2 := by
  have h := congrArg List.reverse (cut_text '@' s.reverse)
  rw [List.reverse_reverse, List.reverse_append] at h
  rw [cutUserinfo]
  cases hc : (UriRef.cut '@' s.reverse).2 with
  | none =>
      rw [hc] at h
      exact h
  | some u =>
      rw [hc] at h
      simpa [UriRef.Reference.part] using h

/-- A text without blanks is clean. -/
theorem clean_of_solid {s : List Char} (h : ∀ c ∈ s, isBlank c = false) :
    clean s = s := by
  have hstart : trimStartL isBlank s = s :=
    dropWhile_of_not fun c hc => h c (List.mem_of_mem_head? hc)
  have hend : trimEndL isBlank s = s := by
    rw [trimEndL, dropWhile_of_not, List.reverse_reverse]
    intro c hc
    rw [List.head?_reverse] at hc
    exact h c (List.mem_of_getLast? hc)
  rw [clean, hstart, hend, filter_of_solid h]

/-- The text of a host as it stands in an authority. -/
structure PlainHost (host : List Char) : Prop where
  ne_nil : host ≠ []
  ends : ∀ c ∈ host, endsAuthority c = false
  at_not_mem : '@' ∉ host
  noPort : cutPort false host = (host, none)

/-- The kept spelling is taken apart as it is put together. -/
theorem PlainHost.ofRest {host : List Char} (h : PlainHost host) :
    Parts.ofRest ('/' :: '/' :: host) =
      ⟨['/', '/'], none, host, none, [], none, none⟩ := by
  have hslash : ∀ c ∈ host.head?, isSlash c = false := by
    intro c hc
    have he := h.ends c (List.mem_of_mem_head? hc)
    rw [endsAuthority, Bool.or_eq_false_iff, Bool.or_eq_false_iff] at he
    exact he.1.1
  have hdrop : host.dropWhile isSlash = host := dropWhile_of_not hslash
  have htake : host.takeWhile isSlash = [] := by
    cases host with
    | nil => rfl
    | cons c host =>
        rw [List.takeWhile_cons_of_neg]
        rw [hslash c rfl]
        exact Bool.false_ne_true
  have hall : ∀ c ∈ host, (!endsAuthority c) = true := by
    intro c hc
    rw [h.ends c hc]
    rfl
  have hauthority : host.takeWhile (!endsAuthority ·) = host :=
    List.takeWhile_eq_self_iff.mpr hall
  have hbehind : host.dropWhile (!endsAuthority ·) = [] :=
    List.dropWhile_eq_nil_iff.mpr hall
  have hcut : cutUserinfo host = (none, host) := by
    rw [cutUserinfo, cut_of_not_mem (by simpa using h.at_not_mem)]
    simp
  have hnamed : ('/' :: '/' :: host).dropWhile isSlash = host := hdrop
  have hslashes : ('/' :: '/' :: host).takeWhile isSlash = ['/', '/'] :=
    congrArg (fun t => '/' :: '/' :: t) htake
  rw [Parts.ofRest, hslashes, hnamed, hauthority, hbehind, hcut, h.noPort]
  rfl

theorem cutPort_of_none {bracket : Bool} {s : List Char}
    (h : (cutPort bracket s).2 = none) : cutPort bracket s = (s, none) := by
  have htext := cutPort_text bracket s
  rw [h, UriRef.Reference.part, List.append_nil] at htext
  exact Prod.ext htext.symm h

/-- What stands between the slashes and the path. -/
def authorityOf (rest : List Char) : List Char :=
  (rest.dropWhile isSlash).takeWhile (!endsAuthority ·)

/-- Without a port the host is all that stands behind the name and the
password. -/
theorem cutPort_ofRest {rest : List Char}
    (h : (Parts.ofRest rest).port = none) :
    cutPort false (cutUserinfo (authorityOf rest)).2 =
      ((cutUserinfo (authorityOf rest)).2, none) :=
  cutPort_of_none h

theorem host_ofRest {rest : List Char}
    (h : (Parts.ofRest rest).port = none) :
    (Parts.ofRest rest).host = (cutUserinfo (authorityOf rest)).2 :=
  congrArg Prod.fst (cutPort_ofRest h)

theorem plain_ofRest {rest : List Char} (hne : (Parts.ofRest rest).host ≠ [])
    (h : (Parts.ofRest rest).port = none) :
    PlainHost (Parts.ofRest rest).host := by
  have hport := cutPort_ofRest h
  rw [host_ofRest h] at hne ⊢
  refine ⟨hne, ?_, ?_, hport⟩
  · intro c hc
    have hm : c ∈ authorityOf rest := by
      rw [cutUserinfo_text (authorityOf rest)]
      exact List.mem_append_right _ hc
    simpa using List.mem_takeWhile_imp hm
  · intro hm
    exact not_mem_cut '@' _ (List.mem_reverse.mp hm)

/-- What follows the scheme in the kept spelling. -/
theorem Parts.Untouched.text {rest : List Char}
    (h : (Parts.ofRest rest).Untouched) :
    rest = '/' :: '/' :: (Parts.ofRest rest).host := by
  have hslashes : rest.takeWhile isSlash = ['/', '/'] := h.slashes
  have hauthority : authorityOf rest = (Parts.ofRest rest).host := by
    have huser : (cutUserinfo (authorityOf rest)).1 = none := h.userinfo
    have htext := cutUserinfo_text (authorityOf rest)
    rw [huser, ← host_ofRest h.port] at htext
    exact htext
  have hbehind : (rest.dropWhile isSlash).dropWhile (!endsAuthority ·) =
      [] := by
    have hquery := cut_text '#' ((rest.dropWhile isSlash).dropWhile
      (!endsAuthority ·))
    have hpath := cut_text '?' (UriRef.cut '#' ((rest.dropWhile
      isSlash).dropWhile (!endsAuthority ·))).1
    have h₁ : (UriRef.cut '#' ((rest.dropWhile isSlash).dropWhile
      (!endsAuthority ·))).2 = none := h.fragment
    have h₂ : (UriRef.cut '?' (UriRef.cut '#' ((rest.dropWhile
      isSlash).dropWhile (!endsAuthority ·))).1).2 = none := h.query
    have h₃ : (UriRef.cut '?' (UriRef.cut '#' ((rest.dropWhile
      isSlash).dropWhile (!endsAuthority ·))).1).1 = [] := h.path
    rw [h₂, h₃] at hpath
    rw [h₁, hpath] at hquery
    exact hquery
  have hnamed : rest.dropWhile isSlash = authorityOf rest := by
    conv => lhs; rw [← List.takeWhile_append_dropWhile
      (p := (!endsAuthority ·)) (l := rest.dropWhile isSlash)]
    rw [hbehind, List.append_nil]
    rfl
  conv => lhs; rw [← List.takeWhile_append_dropWhile (p := isSlash) (l := rest)]
  rw [hslashes, hnamed, hauthority]
  rfl

end WebUrl
