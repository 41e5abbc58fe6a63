/-!
# Slicing text

The few operations on strings that header parsers are made of: trimming,
prefixes, and splitting at a character or at the first occurrence of a
pattern. Each is a recursion on the list of characters with a wrapper at
`String`; the lemmas say how a parser undoes a concatenation, which is
the shape every serialiser produces.
-/

namespace Text

/-! ## Lists of characters -/

/-- What is asked of the members of a list is decided on the list, also
where `Char` is known to be finite. -/
instance (priority := 2000) decidableForallMem {α : Type} (p : α → Prop)
    [DecidablePred p] (l : List α) : Decidable (∀ a ∈ l, p a) :=
  List.decidableBAll p l

/-- What follows `p` when the list starts with it. -/
def stripPrefixL : List Char → List Char → Option (List Char)
  | [], s => some s
  | _ :: _, [] => none
  | c :: p, d :: s => if c = d then stripPrefixL p s else none

/-- The text before and after the first occurrence of `p`. -/
def splitOnceL (p : List Char) : List Char → Option (List Char × List Char)
  | [] => (stripPrefixL p []).map fun r => ([], r)
  | c :: s =>
      match stripPrefixL p (c :: s) with
      | some r => some ([], r)
      | none => (splitOnceL p s).map fun q => (c :: q.1, q.2)

/-- The pieces between the occurrences of `c`; never empty. -/
def splitL (c : Char) : List Char → List (List Char)
  | [] => [[]]
  | d :: s =>
      if d = c then [] :: splitL c s
      else match splitL c s with
        | [] => [[d]]
        | q :: qs => (d :: q) :: qs

def trimStartL (p : Char → Bool) (s : List Char) : List Char := s.dropWhile p

def trimEndL (p : Char → Bool) (s : List Char) : List Char :=
  (s.reverse.dropWhile p).reverse

/-- Characters with the Unicode `White_Space` property. -/
def isWhitespace (c : Char) : Bool :=
  let n := c.toNat
  (9 ≤ n && n ≤ 13) || n == 32 || n == 0x85 || n == 0xA0 || n == 0x1680 ||
    (0x2000 ≤ n && n ≤ 0x200A) || n == 0x2028 || n == 0x2029 ||
    n == 0x202F || n == 0x205F || n == 0x3000

/-! ## Strings -/

def stripPrefix (s p : String) : Option String :=
  (stripPrefixL p.toList s.toList).map String.ofList

def stripSuffix (s p : String) : Option String :=
  (stripPrefixL p.toList.reverse s.toList.reverse).map fun q =>
    String.ofList q.reverse

def startsWith (s p : String) : Bool := (stripPrefix s p).isSome

def endsWithChar (s : String) (c : Char) : Bool :=
  s.toList.getLast? == some c

def containsChar (s : String) (c : Char) : Bool := s.toList.contains c

def splitOnce (s p : String) : Option (String × String) :=
  (splitOnceL p.toList s.toList).map fun q =>
    (String.ofList q.1, String.ofList q.2)

def contains (s p : String) : Bool := (splitOnce s p).isSome

def split (s : String) (c : Char) : List String :=
  (splitL c s.toList).map String.ofList

def trim (s : String) : String :=
  String.ofList (trimEndL isWhitespace (trimStartL isWhitespace s.toList))

def trimMatches (s : String) (c : Char) : String :=
  String.ofList (trimEndL (· == c) (trimStartL (· == c) s.toList))

def trimStartMatches (s : String) (c : Char) : String :=
  String.ofList (trimStartL (· == c) s.toList)

def trimEndMatches (s : String) (c : Char) : String :=
  String.ofList (trimEndL (· == c) s.toList)

/-- ASCII letters only; every other character is kept. -/
def asciiLower (s : String) : String :=
  String.ofList (s.toList.map Char.toLower)

def asciiUpper (s : String) : String :=
  String.ofList (s.toList.map Char.toUpper)

/-- Each line with a newline after it. -/
def unlines (lines : List String) : String :=
  String.ofList (lines.flatMap fun line => line.toList ++ ['\n'])

/-! ## Undoing a concatenation -/

@[simp] theorem stripPrefixL_append (p s : List Char) :
    stripPrefixL p (p ++ s) = some s := by
  induction p with
  | nil => cases s <;> rfl
  | cons c p ih => simp only [List.cons_append, stripPrefixL, if_true, ih]

@[simp] theorem stripPrefix_append (p s : String) :
    stripPrefix (p ++ s) p = some s := by
  simp [stripPrefix]

/-- Up to a character that does not occur before it. -/
theorem splitOnceL_char {c : Char} {s : List Char} (h : c ∉ s)
    (t : List Char) : splitOnceL [c] (s ++ c :: t) = some (s, t) := by
  induction s with
  | nil => simp [splitOnceL, stripPrefixL]
  | cons d s ih =>
      have hd : c ≠ d := fun he => h (he ▸ List.mem_cons_self)
      have hs : c ∉ s := fun hm => h (List.mem_cons_of_mem d hm)
      simp only [List.cons_append, splitOnceL, stripPrefixL, if_neg hd, ih hs,
        Option.map_some]

theorem splitL_of_not_mem {c : Char} {s : List Char} (h : c ∉ s) :
    splitL c s = [s] := by
  induction s with
  | nil => rfl
  | cons d s ih =>
      have hd : d ≠ c := fun he => h (he ▸ List.mem_cons_self)
      have hs : c ∉ s := fun hm => h (List.mem_cons_of_mem d hm)
      simp only [splitL, if_neg hd, ih hs]

theorem splitL_append {c : Char} {s : List Char} (h : c ∉ s)
    (t : List Char) : splitL c (s ++ c :: t) = s :: splitL c t := by
  induction s with
  | nil => simp only [List.nil_append, splitL, if_true]
  | cons d s ih =>
      have hd : d ≠ c := fun he => h (he ▸ List.mem_cons_self)
      have hs : c ∉ s := fun hm => h (List.mem_cons_of_mem d hm)
      simp only [List.cons_append, splitL, if_neg hd, ih hs]

/-- A character that is no separator stays in front of the first piece. -/
theorem splitL_cons_of_ne {c d : Char} (h : d ≠ c) (s : List Char) :
    ∃ q qs, splitL c (d :: s) = (d :: q) :: qs := by
  rw [splitL, if_neg h]
  cases splitL c s with
  | nil => exact ⟨[], [], rfl⟩
  | cons q qs => exact ⟨q, qs, rfl⟩

/-- A text that starts with the pattern is split there. -/
theorem splitOnceL_append {c : Char} {p : List Char} (t : List Char) :
    splitOnceL (c :: p) (c :: p ++ t) = some ([], t) := by
  have h := stripPrefixL_append (c :: p) t
  rw [List.cons_append] at h ⊢
  simp only [splitOnceL, h]

theorem eq_append_of_stripPrefixL {p s t : List Char}
    (h : stripPrefixL p s = some t) : s = p ++ t := by
  induction p generalizing s with
  | nil =>
      cases s with
      | nil => exact Option.some.inj h
      | cons d s => exact Option.some.inj h
  | cons c p ih =>
      cases s with
      | nil => cases h
      | cons d s =>
          rw [stripPrefixL] at h
          by_cases hc : c = d
          · rw [if_pos hc] at h
            rw [ih h, hc, List.cons_append]
          · rw [if_neg hc] at h
            cases h

theorem splitOnce_append {p : String} (hp : p.toList ≠ []) (t : String) :
    splitOnce (p ++ t) p = some ("", t) := by
  obtain ⟨c, q, hq⟩ := List.exists_cons_of_ne_nil hp
  rw [splitOnce, String.toList_append, hq, splitOnceL_append, Option.map_some,
    String.ofList_toList]

theorem startsWith_iff {value p : String} :
    startsWith value p = true ↔ ∃ rest, value = p ++ rest := by
  rw [startsWith, stripPrefix, Option.isSome_map]
  constructor
  · intro h
    obtain ⟨rest, hr⟩ := Option.isSome_iff_exists.mp h
    refine ⟨String.ofList rest, ?_⟩
    rw [← String.toList_inj, eq_append_of_stripPrefixL hr,
      String.toList_append, String.toList_ofList]
  · rintro ⟨rest, rfl⟩
    rw [String.toList_append, stripPrefixL_append]
    rfl

/-- A pattern with a character the text lacks is nowhere in it. -/
theorem splitOnceL_eq_none {c : Char} {p s : List Char} (hp : c ∈ p)
    (hs : c ∉ s) : splitOnceL p s = none := by
  have hstrip : ∀ s, c ∉ s → stripPrefixL p s = none := by
    intro s hs
    cases h : stripPrefixL p s with
    | none => rfl
    | some t =>
        rw [eq_append_of_stripPrefixL h] at hs
        exact absurd (List.mem_append_left t hp) hs
  induction s with
  | nil =>
      rw [splitOnceL, hstrip [] hs]
      rfl
  | cons d s ih =>
      rw [splitOnceL, hstrip (d :: s) hs,
        ih fun hm => hs (List.mem_cons_of_mem d hm)]
      rfl

/-- Splitting at one character gives the text before it, which is free of it. -/
theorem splitOnceL_char_iff {c : Char} {s a b : List Char} :
    splitOnceL [c] s = some (a, b) ↔ c ∉ a ∧ s = a ++ c :: b := by
  constructor
  · intro h
    induction s generalizing a with
    | nil => cases h
    | cons d s ih =>
        rw [splitOnceL, stripPrefixL] at h
        by_cases hd : c = d
        · rw [if_pos hd, stripPrefixL] at h
          cases h
          rw [hd]
          exact ⟨List.not_mem_nil, rfl⟩
        · rw [if_neg hd] at h
          obtain ⟨⟨q, r⟩, hq, hr⟩ := Option.map_eq_some_iff.mp h
          cases hr
          obtain ⟨hmem, hs⟩ := ih hq
          rw [hs]
          refine ⟨fun hm => ?_, rfl⟩
          rcases List.mem_cons.mp hm with he | hm
          · exact hd he
          · exact hmem hm
  · rintro ⟨hmem, rfl⟩
    exact splitOnceL_char hmem b

theorem splitOnce_char_iff {c : Char} {s a b : String} :
    splitOnce s (String.singleton c) = some (a, b) ↔
      c ∉ a.toList ∧ s = a ++ String.singleton c ++ b := by
  rw [splitOnce, String.toList_singleton, ← String.toList_inj,
    String.toList_append, String.toList_append, String.toList_singleton,
    List.append_assoc, List.singleton_append, ← splitOnceL_char_iff,
    Option.map_eq_some_iff]
  constructor
  · rintro ⟨⟨q, r⟩, hq, hr⟩
    cases hr
    rw [String.toList_ofList, String.toList_ofList]
    exact hq
  · intro h
    refine ⟨_, h, ?_⟩
    rw [String.ofList_toList, String.ofList_toList]

theorem stripPrefix_iff {s p rest : String} :
    stripPrefix s p = some rest ↔ s = p ++ rest := by
  constructor
  · intro h
    obtain ⟨r, hr, hrest⟩ := Option.map_eq_some_iff.mp h
    rw [← String.toList_inj, eq_append_of_stripPrefixL hr,
      String.toList_append, ← hrest, String.toList_ofList]
  · rintro rfl
    exact stripPrefix_append p rest

theorem stripSuffix_iff {s p rest : String} :
    stripSuffix s p = some rest ↔ s = rest ++ p := by
  rw [stripSuffix, Option.map_eq_some_iff, ← String.toList_inj,
    String.toList_append]
  constructor
  · rintro ⟨q, hq, rfl⟩
    rw [String.toList_ofList, ← List.reverse_inj,
      eq_append_of_stripPrefixL hq, List.reverse_append,
      List.reverse_reverse]
  · intro h
    refine ⟨rest.toList.reverse, ?_, ?_⟩
    · rw [h, List.reverse_append, stripPrefixL_append]
    · rw [List.reverse_reverse, String.ofList_toList]

/-! ## Pieces and their text -/

theorem splitL_eq_splitOn (c : Char) (s : List Char) :
    splitL c s = s.splitOn c := by
  induction s with
  | nil => rfl
  | cons d s ih =>
      rw [List.splitOn_cons_eq_if_modifyHead, splitL, ih]
      by_cases hd : d = c
      · rw [if_pos hd, if_pos (beq_iff_eq.mpr hd)]
      · rw [if_neg hd, if_neg (by simpa using hd)]
        obtain ⟨q, qs, hq⟩ := List.exists_cons_of_ne_nil
          (List.splitOn_ne_nil c s)
        rw [hq]
        rfl

theorem splitL_ne_nil (c : Char) (s : List Char) : splitL c s ≠ [] := by
  rw [splitL_eq_splitOn]
  exact List.splitOn_ne_nil c s

/-- No piece holds the separator. -/
theorem not_mem_of_mem_splitL {c : Char} {s q : List Char}
    (h : q ∈ splitL c s) : c ∉ q := by
  induction s generalizing q with
  | nil =>
      rw [splitL, List.mem_singleton] at h
      rw [h]
      exact List.not_mem_nil
  | cons d s ih =>
      rw [splitL] at h
      split at h
      · rcases List.mem_cons.mp h with rfl | h
        · exact List.not_mem_nil
        · exact ih h
      · rename_i hd
        obtain ⟨r, rs, hr⟩ := List.exists_cons_of_ne_nil (splitL_ne_nil c s)
        rw [hr] at h ih
        rcases List.mem_cons.mp h with rfl | h
        · intro hm
          rcases List.mem_cons.mp hm with he | hm
          · exact hd he.symm
          · exact ih List.mem_cons_self hm
        · exact ih (List.mem_cons_of_mem r h)

/-- The pieces make up the text they were cut from. -/
theorem intercalate_split (s : String) (c : Char) :
    (String.singleton c).intercalate (split s c) = s := by
  rw [← String.toList_inj, String.toList_intercalate, split, List.map_map,
    String.toList_singleton, splitL_eq_splitOn]
  have hid : (String.toList ∘ String.ofList) = id := by
    funext l
    exact String.toList_ofList
  rw [hid, List.map_id, List.intercalate_splitOn]

/-- Pieces without the separator are read back from the text they make up. -/
theorem split_intercalate {c : Char} {ps : List String} (hne : ps ≠ [])
    (h : ∀ p ∈ ps, c ∉ p.toList) :
    split ((String.singleton c).intercalate ps) c = ps := by
  have hpieces : ∀ q ∈ ps.map String.toList, c ∉ q := by
    intro q hq
    obtain ⟨p, hp, rfl⟩ := List.mem_map.mp hq
    exact h p hp
  have hmap : ps.map String.toList ≠ [] := by
    rw [ne_eq, List.map_eq_nil_iff]
    exact hne
  have hid : (String.ofList ∘ String.toList) = id := by
    funext s
    exact String.ofList_toList
  rw [split, String.toList_intercalate, String.toList_singleton,
    splitL_eq_splitOn, List.splitOn_intercalate c hpieces hmap, List.map_map,
    hid, List.map_id]

theorem not_mem_of_mem_split {s p : String} {c : Char} (h : p ∈ split s c) :
    c ∉ p.toList := by
  obtain ⟨q, hq, rfl⟩ := List.mem_map.mp h
  rw [String.toList_ofList]
  exact not_mem_of_mem_splitL hq

/-- Two texts in a row: the last piece of one and the first of the other
are a single piece. -/
theorem splitL_append_eq (c : Char) (s t : List Char) :
    splitL c (s ++ t) = (splitL c s).dropLast ++
      ((splitL c s).getLastD [] ++ (splitL c t).headD []) ::
        (splitL c t).tail := by
  induction s with
  | nil =>
      obtain ⟨q, qs, hq⟩ := List.exists_cons_of_ne_nil (splitL_ne_nil c t)
      rw [List.nil_append, hq]
      rfl
  | cons d s ih =>
      rw [List.cons_append, splitL, splitL, ih]
      obtain ⟨q, qs, hq⟩ := List.exists_cons_of_ne_nil (splitL_ne_nil c s)
      by_cases hd : d = c
      · rw [if_pos hd, if_pos hd, hq]
        rfl
      · rw [if_neg hd, if_neg hd, hq]
        cases qs with
        | nil => rfl
        | cons r rs => rfl

theorem splitL_append_cons (c : Char) (s t : List Char) :
    splitL c (s ++ c :: t) = splitL c s ++ splitL c t := by
  simp only [splitL_eq_splitOn, List.splitOn_append_cons_self]

/-- A text of parts is cut at the separators between them and in them. -/
theorem splitL_intercalate {c : Char} {ts : List (List Char)}
    (hne : ts ≠ []) : splitL c ([c].intercalate ts) = ts.flatMap (splitL c) := by
  induction ts with
  | nil => exact absurd rfl hne
  | cons t ts ih =>
      cases ts with
      | nil => simp
      | cons u ts =>
          rw [List.intercalate_cons_cons, List.append_assoc,
            List.singleton_append, splitL_append_cons,
            ih (List.cons_ne_nil u ts)]
          rfl

/-- Cutting invents no characters. -/
theorem mem_of_mem_splitL {c d : Char} {s q : List Char}
    (hq : q ∈ splitL c s) (hd : d ∈ q) : d ∈ s := by
  rw [← @List.intercalate_splitOn _ s _ _ c, ← splitL_eq_splitOn]
  generalize splitL c s = ps at hq
  induction ps with
  | nil => cases hq
  | cons p ps ih =>
      cases ps with
      | nil =>
          rw [List.mem_singleton.mp hq] at hd
          rw [List.intercalate_singleton]
          exact hd
      | cons r ps =>
          rw [List.intercalate_cons_cons, List.mem_append, List.mem_append]
          rcases List.mem_cons.mp hq with rfl | hq
          · exact .inl (.inl hd)
          · exact .inr (ih hq)

theorem mem_of_mem_split {s p : String} {c d : Char} (hp : p ∈ split s c)
    (hd : d ∈ p.toList) : d ∈ s.toList := by
  obtain ⟨q, hq, rfl⟩ := List.mem_map.mp hp
  rw [String.toList_ofList] at hd
  exact mem_of_mem_splitL hq hd

theorem eq_append_of_splitOnceL {p s a b : List Char}
    (h : splitOnceL p s = some (a, b)) : s = a ++ (p ++ b) := by
  induction s generalizing a with
  | nil =>
      obtain ⟨r, hr, he⟩ := Option.map_eq_some_iff.mp h
      cases he
      rw [List.nil_append]
      exact eq_append_of_stripPrefixL hr
  | cons c s ih =>
      rw [splitOnceL] at h
      cases hstrip : stripPrefixL p (c :: s) with
      | some r =>
          rw [hstrip] at h
          cases h
          rw [List.nil_append]
          exact eq_append_of_stripPrefixL hstrip
      | none =>
          rw [hstrip] at h
          obtain ⟨⟨q, r⟩, hq, he⟩ := Option.map_eq_some_iff.mp h
          cases he
          rw [ih hq, List.cons_append]

theorem splitOnce_eq_append {s p a b : String}
    (h : splitOnce s p = some (a, b)) : s = a ++ (p ++ b) := by
  obtain ⟨⟨q, r⟩, hq, he⟩ := Option.map_eq_some_iff.mp h
  cases he
  rw [← String.toList_inj, eq_append_of_splitOnceL hq, String.toList_append,
    String.toList_append, String.toList_ofList, String.toList_ofList]

/-! ## A pattern that ends in a delimiter -/

/-- A pattern whose delimiter is its last character can only end at one. -/
theorem stripPrefixL_delim {c : Char} {q s : List Char} (hq : c ∉ q)
    (hs : c ∉ s) (t : List Char) :
    stripPrefixL (q ++ [c]) (s ++ c :: t) =
      if q = s then some t else none := by
  induction q generalizing s with
  | nil =>
      cases s with
      | nil => simp [stripPrefixL]
      | cons d s =>
          have hd : c ≠ d := fun he => hs (he ▸ List.mem_cons_self)
          simp [stripPrefixL, hd]
  | cons e q ih =>
      have hq' : c ∉ q := fun hm => hq (List.mem_cons_of_mem e hm)
      cases s with
      | nil =>
          have he : e ≠ c := fun he => hq (he ▸ List.mem_cons_self)
          simp [stripPrefixL, he]
      | cons d s =>
          have hs' : c ∉ s := fun hm => hs (List.mem_cons_of_mem d hm)
          by_cases he : e = d
          · simp [stripPrefixL, he, ih hq' hs']
          · simp [stripPrefixL, he]

/-- The text up to a delimiter ends in the rest of the pattern: the first
occurrence is there. -/
theorem splitOnceL_delim {c : Char} {q s : List Char} (hq : c ∉ q)
    (hs : c ∉ s) (t : List Char) :
    splitOnceL (q ++ [c]) (s ++ q ++ c :: t) = some (s, t) := by
  induction s with
  | nil =>
      have h := stripPrefixL_delim hq hq t
      rw [if_pos rfl] at h
      cases q with
      | nil => simp [splitOnceL, stripPrefixL]
      | cons e q =>
          simp only [List.nil_append, List.cons_append] at h ⊢
          rw [splitOnceL, h]
  | cons d s ih =>
      have hs' : c ∉ s := fun hm => hs (List.mem_cons_of_mem d hm)
      have hsq : c ∉ d :: s ++ q := by
        rw [List.mem_append]
        exact fun hm => hm.elim hs hq
      have hne : q ≠ d :: s ++ q := by
        intro he
        have hl := congrArg List.length he
        simp only [List.cons_append, List.length_cons,
          List.length_append] at hl
        omega
      have h := stripPrefixL_delim hq hsq t
      rw [if_neg hne, List.cons_append, List.cons_append] at h
      rw [List.cons_append, List.cons_append, splitOnceL, h, ih hs']
      rfl

/-- It does not: the first occurrence is after the delimiter. -/
theorem splitOnceL_past {c : Char} {q s : List Char} (hq : c ∉ q)
    (hs : c ∉ s) (hne : ¬ q <:+ s) (t : List Char) :
    splitOnceL (q ++ [c]) (s ++ c :: t) =
      (splitOnceL (q ++ [c]) t).map fun r => (s ++ c :: r.1, r.2) := by
  induction s with
  | nil =>
      have hq0 : q ≠ [] := fun he => hne (he ▸ List.suffix_refl _)
      have h := stripPrefixL_delim hq hs t
      rw [if_neg hq0, List.nil_append] at h
      rw [List.nil_append, splitOnceL, h]
      cases splitOnceL (q ++ [c]) t with
      | none => rfl
      | some r => rfl
  | cons d s ih =>
      have hs' : c ∉ s := fun hm => hs (List.mem_cons_of_mem d hm)
      have hne' : ¬ q <:+ s := fun hx =>
        hne (hx.trans (List.suffix_cons d s))
      have hqs : q ≠ d :: s := fun he => hne (he ▸ List.suffix_refl _)
      have h := stripPrefixL_delim hq hs t
      rw [if_neg hqs, List.cons_append] at h
      rw [List.cons_append, splitOnceL, h, ih hs' hne']
      cases splitOnceL (q ++ [c]) t with
      | none => rfl
      | some r => rfl

/-! ## Lines -/

@[simp] theorem unlines_nil : unlines [] = "" := rfl

theorem toList_unlines_cons (line : String) (lines : List String) :
    (unlines (line :: lines)).toList =
      line.toList ++ '\n' :: (unlines lines).toList := by
  simp [unlines]

/-- Under one label, a line that ends before the first newline. -/
theorem line_inj {label v w s t : List Char} (hv : '\n' ∉ v) (hw : '\n' ∉ w)
    (h : label ++ v ++ '\n' :: s = label ++ w ++ '\n' :: t) :
    v = w ∧ s = t := by
  rw [List.append_assoc, List.append_assoc] at h
  have hsplit := splitOnceL_char hv s
  rw [List.append_cancel_left h, splitOnceL_char hw t] at hsplit
  cases hsplit
  exact ⟨rfl, rfl⟩

/-! ## Trimming -/

theorem dropWhile_of_not {p : Char → Bool} {s : List Char}
    (h : ∀ c ∈ s.head?, p c = false) : s.dropWhile p = s := by
  cases s with
  | nil => rfl
  | cons c s => simp [h c rfl]

/-- Nothing is trimmed from a text whose ends are kept. -/
theorem trim_of_ends {s : String}
    (hs : ∀ c ∈ s.toList.head?, isWhitespace c = false)
    (he : ∀ c ∈ s.toList.getLast?, isWhitespace c = false) : trim s = s := by
  rw [trim, trimStartL, dropWhile_of_not hs, trimEndL, dropWhile_of_not]
  · simp
  · simpa using he

/-- What was trimmed has nothing left to trim. -/
theorem trimEndMatches_idem (s : String) (c : Char) :
    trimEndMatches (trimEndMatches s c) c = trimEndMatches s c := by
  have hd : (s.toList.reverse.dropWhile (· == c)).dropWhile (· == c) =
      s.toList.reverse.dropWhile (· == c) := by
    refine dropWhile_of_not fun d hd => ?_
    have hnot := List.head?_dropWhile_not (· == c) s.toList.reverse
    rw [hd] at hnot
    exact hnot
  simp only [trimEndMatches, trimEndL, String.toList_ofList,
    List.reverse_reverse, hd]

theorem dropWhile_congr {p q : Char → Bool} {s : List Char}
    (h : ∀ c ∈ s, p c = q c) : s.dropWhile p = s.dropWhile q := by
  induction s with
  | nil => rfl
  | cons c s ih =>
      have hs : s.dropWhile p = s.dropWhile q :=
        ih fun d hd => h d (List.mem_cons_of_mem c hd)
      rw [List.dropWhile_cons, List.dropWhile_cons, h c List.mem_cons_self, hs]

theorem mem_of_mem_dropWhile {p : Char → Bool} {s : List Char} {c : Char}
    (h : c ∈ s.dropWhile p) : c ∈ s :=
  (List.dropWhile_suffix p).subset h

/-- Two ways to trim that agree on the characters of a text. -/
theorem trimL_congr {p q : Char → Bool} {s : List Char}
    (h : ∀ c ∈ s, p c = q c) :
    trimEndL p (trimStartL p s) = trimEndL q (trimStartL q s) := by
  have hs : trimStartL p s = trimStartL q s := dropWhile_congr h
  rw [trimEndL, trimEndL, hs]
  refine congrArg List.reverse (dropWhile_congr fun c hc => h c ?_)
  exact mem_of_mem_dropWhile (List.mem_reverse.mp hc)

/-- What is dropped in front is of the kind that is dropped. -/
theorem mem_dropWhile_or {p : Char → Bool} {s : List Char} {c : Char}
    (h : c ∈ s) : c ∈ s.dropWhile p ∨ p c = true := by
  rw [← List.takeWhile_append_dropWhile (p := p) (l := s),
    List.mem_append] at h
  rcases h with h | h
  · exact .inr (List.all_eq_true.mp List.all_takeWhile c h)
  · exact .inl h

theorem mem_trimL_or {p : Char → Bool} {s : List Char} {c : Char}
    (h : c ∈ s) : c ∈ trimEndL p (trimStartL p s) ∨ p c = true := by
  rcases mem_dropWhile_or (p := p) h with h | h
  · rw [trimEndL, List.mem_reverse]
    exact mem_dropWhile_or (List.mem_reverse.mpr h)
  · exact .inr h

/-- What is put around a text is trimmed off again. -/
theorem trim_padded {before s after : List Char}
    (hb : ∀ c ∈ before, isWhitespace c = true)
    (ha : ∀ c ∈ after, isWhitespace c = true) (hne : s ≠ [])
    (hs : ∀ c ∈ s.head?, isWhitespace c = false)
    (he : ∀ c ∈ s.getLast?, isWhitespace c = false) :
    trim (String.ofList (before ++ s ++ after)) = String.ofList s := by
  have hstart : trimStartL isWhitespace (before ++ s ++ after) = s ++ after := by
    rw [trimStartL, List.append_assoc,
      List.dropWhile_append_of_pos fun c hc => hb c hc]
    refine dropWhile_of_not fun c hc => ?_
    rw [List.head?_append, List.head?_eq_some_head hne, Option.some_or,
      ← List.head?_eq_some_head hne] at hc
    exact hs c hc
  have hend : (after.reverse ++ s.reverse).dropWhile isWhitespace =
      s.reverse := by
    rw [List.dropWhile_append_of_pos fun c hc => ha c (List.mem_reverse.mp hc)]
    exact dropWhile_of_not fun c hc => he c (List.head?_reverse ▸ hc)
  rw [trim, String.toList_ofList, hstart, trimEndL, List.reverse_append, hend,
    List.reverse_reverse]

/-- Trimming invents no characters. -/
theorem mem_of_mem_trimL {p : Char → Bool} {s : List Char} {c : Char}
    (h : c ∈ trimEndL p (trimStartL p s)) : c ∈ s := by
  rw [trimEndL, List.mem_reverse] at h
  exact mem_of_mem_dropWhile (List.mem_reverse.mp (mem_of_mem_dropWhile h))

theorem mem_of_mem_trim {s : String} {c : Char} (h : c ∈ (trim s).toList) :
    c ∈ s.toList := by
  rw [trim, String.toList_ofList] at h
  exact mem_of_mem_trimL h

theorem mem_of_mem_trimMatches {s : String} {c d : Char}
    (h : c ∈ (trimMatches s d).toList) : c ∈ s.toList := by
  rw [trimMatches, String.toList_ofList] at h
  exact mem_of_mem_trimL h

/-- A text of one-byte characters has as many bytes as characters. -/
theorem utf8ByteSize_ofList_eq_length {l : List Char}
    (h : ∀ c ∈ l, c.utf8Size = 1) :
    (String.ofList l).utf8ByteSize = l.length := by
  induction l with
  | nil => rfl
  | cons c l ih =>
      rw [String.ofList_cons, String.utf8ByteSize_append,
        String.utf8ByteSize_singleton, h c List.mem_cons_self,
        ih fun d hd => h d (List.mem_cons_of_mem c hd), List.length_cons]
      omega

/-- Where the ASCII letters and digits lie. -/
theorem isAlphanum_bounds {c : Char} (h : c.isAlphanum = true) :
    48 ≤ c.toNat ∧ c.toNat ≤ 122 := by
  have hle : ∀ {a b : UInt32}, a ≤ b → a.toNat ≤ b.toNat := fun hab => hab
  have hbetween : ∀ {a b : UInt32},
      (decide (c.val ≥ a) && decide (c.val ≤ b)) = true →
        a.toNat ≤ c.toNat ∧ c.toNat ≤ b.toNat := by
    intro a b hab
    rw [Bool.and_eq_true, decide_eq_true_eq, decide_eq_true_eq] at hab
    exact ⟨hle hab.1, hle hab.2⟩
  rcases Bool.or_eq_true_iff.mp h with h | h
  · rcases Bool.or_eq_true_iff.mp h with h | h
    · obtain ⟨h₁, h₂⟩ := of_decide_eq_true h
      have h₁ : 65 ≤ c.toNat := hle h₁
      have h₂ : c.toNat ≤ 90 := hle h₂
      omega
    · have hb : 97 ≤ c.toNat ∧ c.toNat ≤ 122 := hbetween h
      omega
  · have hb : 48 ≤ c.toNat ∧ c.toNat ≤ 57 := hbetween h
    omega

/-- A property of the characters of ASCII, checked one by one. -/
theorem forall_ascii {P : Char → Prop} (h : ∀ n < 128, P (Char.ofNat n))
    {c : Char} (hc : c.toNat < 128) : P c := by
  have hn := h c.toNat hc
  rw [Char.ofNat_toNat] at hn
  exact hn

/-- What starts and ends without whitespace stays in front of a text that is
trimmed. -/
theorem trim_append {p : List Char} (hne : p ≠ [])
    (hs : ∀ c ∈ p.head?, isWhitespace c = false)
    (he : ∀ c ∈ p.getLast?, isWhitespace c = false) (s : List Char) :
    ∃ t, trim (String.ofList (p ++ s)) = String.ofList (p ++ t) := by
  have hstart : trimStartL isWhitespace (p ++ s) = p ++ s :=
    dropWhile_of_not fun c hc => by
      rw [List.head?_append, List.head?_eq_some_head hne, Option.some_or,
        ← List.head?_eq_some_head hne] at hc
      exact hs c hc
  have hkeep : p.reverse.dropWhile isWhitespace = p.reverse :=
    dropWhile_of_not fun c hc => he c (List.head?_reverse ▸ hc)
  have hend : ∃ t, (s.reverse ++ p.reverse).dropWhile isWhitespace =
      t ++ p.reverse := by
    rw [List.dropWhile_append, hkeep]
    split
    · exact ⟨[], rfl⟩
    · exact ⟨_, rfl⟩
  obtain ⟨t, ht⟩ := hend
  refine ⟨t.reverse, ?_⟩
  rw [trim, String.toList_ofList, hstart, trimEndL, List.reverse_append, ht,
    List.reverse_append, List.reverse_reverse]

/-- A first character that is no whitespace stays where it is. -/
theorem trim_cons {c : Char} (h : isWhitespace c = false) (s : List Char) :
    ∃ t, trim (String.ofList (c :: s)) = String.ofList (c :: t) := by
  have hc : ∀ d ∈ some c, isWhitespace d = false := by
    intro d hd
    cases hd
    exact h
  exact @trim_append [c] (List.cons_ne_nil _ _) hc hc s

end Text
