import Aauth.Lib.Text

/-!
# Quoted parameters

A list of parameters `name="value"` as text, and what a reader finds in it
that looks for the first `key="`, wherever it stands, and takes what
follows up to the next quote. Every quote of the text either opens a value,
behind a name, or closes one; the reader stops at the first that has `key=`
before it (`readParam_render`). A parameter whose name only ends in the key
and a value that ends in `key=` stop it as well, and what is read there
is `captured`.
-/

namespace Text

/-- A parameter, and what stands between it and the one before. -/
structure Param where
  sep : List Char
  name : List Char
  value : List Char

/-- What follows the first `key="`, up to the next quote. -/
def readParam (key s : List Char) : Option (List Char) :=
  (splitOnceL (key ++ ['=', '"']) s).bind fun found =>
    (splitOnceL ['"'] found.2).map (·.1)

/-- A text does not reach over a character that it does not have. -/
theorem suffix_append_iff {key s t : List Char}
    (h : ∀ c ∈ s.getLast?, c ∉ key) : key <:+ s ++ t ↔ key <:+ t := by
  constructor
  · intro hs
    rcases List.suffix_or_suffix_of_suffix hs (List.suffix_append s t)
      with hk | ⟨u, hu⟩
    · exact hk
    · rw [← hu, List.suffix_append_self_iff] at hs
      by_cases hun : u = []
      · rw [hun, List.nil_append] at hu
        exact hu ▸ List.suffix_refl _
      · have hlast := List.getLast?_eq_some_getLast hun
        have hsep : s.getLast? = u.getLast? := by
          obtain ⟨before, hs⟩ := hs
          rw [← hs, List.getLast?_append, hlast, Option.some_or]
        refine absurd ?_ (h (u.getLast hun) (hsep.trans hlast))
        rw [← hu]
        exact List.mem_append_left _ (List.getLast_mem hun)
  · exact fun hs => hs.trans (List.suffix_append _ _)

namespace Param

def render (p : Param) : List Char :=
  p.sep ++ p.name ++ '=' :: '"' :: (p.value ++ ['"'])

def renderAll (ps : List Param) : List Char := ps.flatMap render

/-- No quotes in the parts, and no character of the key right before the
name. -/
structure Separated (key : List Char) (p : Param) : Prop where
  sep : '"' ∉ p.sep
  name : '"' ∉ p.name
  value : '"' ∉ p.value
  last : ∀ c ∈ p.sep.getLast?, c ∉ key

/-- The value of the parameter that is named so. -/
def lookup (key : List Char) (ps : List Param) : Option (List Char) :=
  (ps.find? (·.name == key)).map (·.value)

/-- The text up to the first quote. -/
def opening : List Param → Option (List Char)
  | [] => none
  | p :: _ => some (p.sep ++ p.name ++ ['='])

/-- What the reader finds. -/
def scan (key : List Char) : List Param → Option (List Char)
  | [] => none
  | p :: ps =>
      if key <:+ p.name then some p.value
      else if key ++ ['='] <:+ p.value then opening ps
      else scan key ps

/-- What a parameter before the named one passes off as its value. -/
def captured (key : List Char) : List Param → Option (List Char)
  | [] => none
  | p :: ps =>
      if p.name = key then none
      else if key <:+ p.name then some p.value
      else if key ++ ['='] <:+ p.value then opening ps
      else captured key ps

variable {key : List Char} {p : Param} {ps : List Param}

theorem scan_eq :
    scan key ps = (captured key ps).or (lookup key ps) := by
  induction ps with
  | nil => rfl
  | cons p ps ih =>
      by_cases hn : p.name = key
      · rw [scan, captured, if_pos hn, ← hn, if_pos (List.suffix_refl _),
          lookup, List.find?_cons_of_pos (by simp)]
        rfl
      · have hl : lookup key (p :: ps) = lookup key ps := by
          rw [lookup, List.find?_cons_of_neg (by simpa using hn)]
          rfl
        rw [scan, captured, if_neg hn, hl]
        by_cases hk : key <:+ p.name
        · rw [if_pos hk, if_pos hk]
          rfl
        · rw [if_neg hk, if_neg hk]
          by_cases hv : key ++ ['='] <:+ p.value
          · rw [if_pos hv, if_pos hv]
            cases ps with
            | nil => rfl
            | cons q qs => rfl
          · rw [if_neg hv, if_neg hv, ih]

theorem captured_head (h : p.name = key) : captured key (p :: ps) = none := by
  rw [captured, if_pos h]

/-- A parameter in second place stands behind one that may end in its
key. -/
theorem captured_second {q : Param} (hp : p.name ≠ key)
    (hn : ¬ key <:+ p.name) (hq : q.name = key) :
    captured key (p :: q :: ps) =
      if key ++ ['='] <:+ p.value then some (q.sep ++ q.name ++ ['='])
        else none := by
  rw [captured, if_neg hp, if_neg hn, captured_head hq, opening]

/-- A key that ends a text with a name behind a separator ends the name. -/
theorem Separated.suffix_iff (h : p.Separated key) :
    key <:+ p.sep ++ p.name ↔ key <:+ p.name :=
  suffix_append_iff h.last

/-- The key and its equals sign, right before a value. -/
theorem Separated.key_suffix_iff (h : p.Separated key) :
    key ++ ['='] <:+ p.sep ++ p.name ++ ['='] ↔ key <:+ p.name := by
  rw [List.suffix_append_self_iff, h.suffix_iff]

theorem renderAll_cons : renderAll (p :: ps) =
    (p.sep ++ p.name ++ ['=']) ++ '"' :: (p.value ++ '"' :: renderAll ps) := by
  rw [renderAll, List.flatMap_cons, render, renderAll]
  simp only [List.append_assoc, List.cons_append, List.nil_append]

/-- Up to the first quote. -/
theorem split_opening (h : ∀ p ∈ ps, p.Separated key) :
    (splitOnceL ['"'] (renderAll ps)).map (·.1) = opening ps := by
  cases ps with
  | nil => rfl
  | cons p ps =>
      have hp := h p List.mem_cons_self
      have hq : '"' ∉ p.sep ++ p.name ++ ['='] := by
        simp only [List.mem_append, List.mem_singleton, not_or]
        exact ⟨⟨hp.sep, hp.name⟩, by decide⟩
      rw [renderAll_cons, splitOnceL_char hq]
      rfl

theorem readParam_of_split {s before rest : List Char}
    (h : splitOnceL (key ++ ['='] ++ ['"']) s = some (before, rest)) :
    readParam key s = (splitOnceL ['"'] rest).map (·.1) := by
  rw [List.append_assoc] at h
  show (splitOnceL (key ++ (['='] ++ ['"'])) s).bind _ = _
  rw [h]
  rfl

theorem readParam_of_past {s t before : List Char}
    (h : splitOnceL (key ++ ['='] ++ ['"']) s =
      (splitOnceL (key ++ ['='] ++ ['"']) t).map fun r =>
        (before ++ '"' :: r.1, r.2)) : readParam key s = readParam key t := by
  rw [List.append_assoc] at h
  show (splitOnceL (key ++ (['='] ++ ['"'])) s).bind _ =
    (splitOnceL (key ++ (['='] ++ ['"'])) t).bind _
  rw [h, Option.bind_map]
  rfl

/-- By induction on the parameters: each shows the reader two quotes, one
behind its name and one behind its value. -/
theorem readParam_render (hk : '"' ∉ key) (h : ∀ p ∈ ps, p.Separated key) :
    readParam key (renderAll ps) = scan key ps := by
  have hkey : '"' ∉ key ++ ['='] := by
    simp only [List.mem_append, List.mem_singleton, not_or]
    exact ⟨hk, by decide⟩
  induction ps with
  | nil =>
      rw [scan, readParam]
      cases key <;> rfl
  | cons p ps ih =>
      have hp := h p List.mem_cons_self
      have hps : ∀ q ∈ ps, q.Separated key :=
        fun q hq => h q (List.mem_cons_of_mem p hq)
      have hsep : '"' ∉ p.sep ++ p.name ++ ['='] := by
        simp only [List.mem_append, List.mem_singleton, not_or]
        exact ⟨⟨hp.sep, hp.name⟩, by decide⟩
      rw [renderAll_cons, scan]
      by_cases hn : key <:+ p.name
      · obtain ⟨before, hb⟩ := hp.key_suffix_iff.mpr hn
        have hq : '"' ∉ before := fun hm =>
          hsep (hb ▸ List.mem_append_left _ hm)
        have hs := splitOnceL_delim hkey hq (p.value ++ '"' :: renderAll ps)
        rw [hb] at hs
        rw [if_pos hn, readParam_of_split hs, splitOnceL_char hp.value]
        rfl
      · have hs := splitOnceL_past hkey hsep
          (fun hx => hn (hp.key_suffix_iff.mp hx))
          (p.value ++ '"' :: renderAll ps)
        rw [if_neg hn, readParam_of_past hs]
        by_cases hv : key ++ ['='] <:+ p.value
        · obtain ⟨before, hb⟩ := hv
          have hq : '"' ∉ before := fun hm =>
            hp.value (hb ▸ List.mem_append_left _ hm)
          have hs := splitOnceL_delim hkey hq (renderAll ps)
          rw [hb] at hs
          rw [if_pos ⟨before, hb⟩, readParam_of_split hs, split_opening hps]
        · have hs := splitOnceL_past hkey hp.value hv (renderAll ps)
          rw [if_neg hv, readParam_of_past hs, ih hps]

/-- With a text in front that is part of the first separator. -/
theorem readParam_lead {lead : List Char} (hk : '"' ∉ key)
    (hl : '"' ∉ lead) (h : ∀ p ∈ ps, p.Separated key)
    (hlead : ∀ p ∈ ps.head?, p.sep = [] → lead = []) :
    readParam key (lead ++ renderAll ps) = scan key ps := by
  cases ps with
  | nil =>
      have hpat : '"' ∈ key ++ ['=', '"'] :=
        List.mem_append_right key (by decide)
      rw [renderAll, List.flatMap_nil, List.append_nil, scan, readParam,
        splitOnceL_eq_none hpat hl]
      rfl
  | cons p ps =>
      have hp := h p List.mem_cons_self
      have hlast : ∀ c ∈ (lead ++ p.sep).getLast?, c ∉ key := by
        by_cases hs : p.sep = []
        · rw [hlead p rfl hs, List.nil_append]
          exact hp.last
        · rw [List.getLast?_append, List.getLast?_eq_some_getLast hs,
            Option.some_or, ← List.getLast?_eq_some_getLast hs]
          exact hp.last
      have hsep : '"' ∉ lead ++ p.sep := by
        rw [List.mem_append, not_or]
        exact ⟨hl, hp.sep⟩
      have hall : ∀ q ∈ { p with sep := lead ++ p.sep } :: ps,
          q.Separated key := by
        intro q hq
        rcases List.mem_cons.mp hq with rfl | hq
        · exact ⟨hsep, hp.name, hp.value, hlast⟩
        · exact h q (List.mem_cons_of_mem p hq)
      have hr := readParam_render hk hall
      rw [renderAll_cons] at hr ⊢
      simp only [List.append_assoc] at hr ⊢
      exact hr

end Param

/-! ## Looking for the key alone

A reader that looks for `key=` and not for the quote stops at the first
equals sign with the key before it, and finds the text behind that. -/

/-- What follows the first `key=`. -/
def afterKey (key s : List Char) : Option (List Char) :=
  (splitOnceL (key ++ ['=']) s).map (·.2)

theorem afterKey_eq_none {key s : List Char} (h : '=' ∉ s) :
    afterKey key s = none := by
  have hp : '=' ∈ key ++ ['='] := List.mem_append_right key (by decide)
  rw [afterKey, splitOnceL_eq_none hp h]
  rfl

/-- One equals sign: the key ends there, or the search goes on. -/
theorem afterKey_step {key s : List Char} (hk : '=' ∉ key) (hs : '=' ∉ s)
    (t : List Char) :
    afterKey key (s ++ '=' :: t) =
      if key <:+ s then some t else afterKey key t := by
  by_cases hx : key <:+ s
  · obtain ⟨before, hb⟩ := hx
    have hbefore : '=' ∉ before := fun hm =>
      hs (hb ▸ List.mem_append_left _ hm)
    rw [if_pos ⟨before, hb⟩, afterKey, ← hb, splitOnceL_delim hk hbefore t]
    rfl
  · rw [if_neg hx, afterKey, splitOnceL_past hk hs hx t, Option.map_map]
    rfl

namespace Param

/-- No equals signs in the parts, and a separator that the key does not
reach over. -/
structure Delimited (key : List Char) (p : Param) : Prop where
  sep : '=' ∉ p.sep
  name : '=' ∉ p.name
  value : '=' ∉ p.value
  some_sep : p.sep ≠ []
  last : ∀ c ∈ p.sep.getLast?, c ∉ key

variable {key lead tail : List Char} {p : Param} {ps : List Param}

theorem Delimited.lead_last (h : p.Delimited key) :
    ∀ c ∈ (lead ++ p.sep).getLast?, c ∉ key := by
  intro c hc
  rw [List.getLast?_append, List.getLast?_eq_some_getLast h.some_sep,
    Option.some_or, ← List.getLast?_eq_some_getLast h.some_sep] at hc
  exact h.last c hc

/-- The first equals sign of some parameters is behind the first name. -/
theorem afterKey_cons (hk : '=' ∉ key) (hp : p.Delimited key)
    (hl : '=' ∉ lead) :
    afterKey key (lead ++ (renderAll (p :: ps) ++ tail)) =
      if key <:+ p.name then
        some ('"' :: (p.value ++ '"' :: (renderAll ps ++ tail)))
      else afterKey key ('"' :: p.value ++ ['"'] ++
        (renderAll ps ++ tail)) := by
  have hs : '=' ∉ lead ++ p.sep ++ p.name := by
    simp only [List.mem_append, not_or]
    exact ⟨⟨hl, hp.sep⟩, hp.name⟩
  have h := afterKey_step hk hs
    ('"' :: (p.value ++ '"' :: (renderAll ps ++ tail)))
  have hx : key <:+ lead ++ p.sep ++ p.name ↔ key <:+ p.name :=
    suffix_append_iff hp.lead_last
  simp only [hx] at h
  rw [renderAll_cons]
  simp only [List.append_assoc, List.cons_append, List.nil_append] at h ⊢
  exact h

theorem Delimited.quoted (hp : p.Delimited key) :
    '=' ∉ '"' :: p.value ++ ['"'] := by
  simp only [List.mem_append, List.mem_cons, List.not_mem_nil, not_or]
  exact ⟨⟨by decide, hp.value⟩, by decide, not_false⟩

/-- A parameter whose name ends in the key is where the search stops: it
finds the quote of a value. -/
theorem afterKey_renderAll (hk : '=' ∉ key)
    (h : ∀ p ∈ ps, p.Delimited key) (hl : '=' ∉ lead)
    (hx : ∃ p ∈ ps, key <:+ p.name) :
    ∃ rest, afterKey key (lead ++ (renderAll ps ++ tail)) =
      some ('"' :: rest) := by
  induction ps generalizing lead with
  | nil =>
      obtain ⟨p, hm, -⟩ := hx
      cases hm
  | cons p ps ih =>
      have hp := h p List.mem_cons_self
      rw [afterKey_cons hk hp hl]
      by_cases hn : key <:+ p.name
      · rw [if_pos hn]
        exact ⟨_, rfl⟩
      · rw [if_neg hn]
        obtain ⟨q, hm, hq⟩ := hx
        rcases List.mem_cons.mp hm with rfl | hm
        · exact absurd hq hn
        · exact ih (fun q hm => h q (List.mem_cons_of_mem p hm)) hp.quoted
            ⟨q, hm, hq⟩

/-- Where no name does, the search goes on behind the parameters. -/
theorem afterKey_past_renderAll (hk : '=' ∉ key)
    (h : ∀ p ∈ ps, p.Delimited key) (hl : '=' ∉ lead)
    (hx : ∀ p ∈ ps, ¬ key <:+ p.name) (tail : List Char) :
    ∃ lead', '=' ∉ lead' ∧
      afterKey key (lead ++ (renderAll ps ++ tail)) =
        afterKey key (lead' ++ tail) := by
  induction ps generalizing lead with
  | nil => exact ⟨lead, hl, rfl⟩
  | cons p ps ih =>
      have hp := h p List.mem_cons_self
      rw [afterKey_cons hk hp hl, if_neg (hx p List.mem_cons_self)]
      exact ih (fun q hm => h q (List.mem_cons_of_mem p hm)) hp.quoted
        fun q hm => hx q (List.mem_cons_of_mem p hm)

end Param

end Text
