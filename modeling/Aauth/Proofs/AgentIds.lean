import Aauth.Ref.Identifiers

/-!
# The grammar of agent identifiers

`is_valid_agent_identifier` strips a prefix, splits at the first `@` and puts
the two halves through tests that overlap: lengths in bytes, sets of
characters, and three patterns a domain may not contain. Together they accept
one grammar, and nothing else:

    "aauth:" local "@" label *( "." label )

An `AgentIdentifier` is a derivation in this grammar. A string is accepted
exactly when it is the text of one, and then it is the text of only one: the
local part has no `@` and no label has a dot, so the two splits of the code
find the derivation again. The lengths agree because the characters that
pass are all of one byte, and the three patterns are made of characters that
no label has.
-/

namespace Aauth

open Text

/-! ## The grammar -/

def IsLabelChar (c : Char) : Prop :=
  ('a' ≤ c ∧ c ≤ 'z') ∨ ('0' ≤ c ∧ c ≤ '9') ∨ c = '-'

def IsLocalChar (c : Char) : Prop :=
  IsLabelChar c ∨ c = '_' ∨ c = '+' ∨ c = '.'

structure IsDomainLabel (label : String) : Prop where
  one_le : 1 ≤ label.length
  le_63 : label.length ≤ 63
  chars : ∀ c ∈ label.toList, IsLabelChar c
  head : label.toList.head? ≠ some '-'
  last : label.toList.getLast? ≠ some '-'

structure IsLocalPart (localPart : String) : Prop where
  one_le : 1 ≤ localPart.length
  le_255 : localPart.length ≤ 255
  chars : ∀ c ∈ localPart.toList, IsLocalChar c

/-- An agent identifier taken apart. -/
structure AgentIdentifier where
  localPart : String
  labels : List String
  isLocalPart : IsLocalPart localPart
  labels_ne_nil : labels ≠ []
  isLabel : ∀ label ∈ labels, IsDomainLabel label

def AgentIdentifier.text (a : AgentIdentifier) : String :=
  "aauth:" ++ a.localPart ++ "@" ++ ".".intercalate a.labels

/-! ## Characters -/

theorem isDomainLabelChar_iff {c : Char} :
    isDomainLabelChar c = true ↔ IsLabelChar c := by
  have hl : c.isLower = true ↔ 'a' ≤ c ∧ c ≤ 'z' :=
    Bool.and_eq_true_iff.trans (and_congr decide_eq_true_iff decide_eq_true_iff)
  have hd : c.isDigit = true ↔ '0' ≤ c ∧ c ≤ '9' :=
    Bool.and_eq_true_iff.trans (and_congr decide_eq_true_iff decide_eq_true_iff)
  rw [isDomainLabelChar, IsLabelChar, Bool.or_eq_true, Bool.or_eq_true, hl, hd,
    beq_iff_eq, or_assoc]

theorem isLocalChar_iff {c : Char} :
    (isDomainLabelChar c || c == '_' || c == '+' || c == '.') = true ↔
      IsLocalChar c := by
  simp [IsLocalChar, isDomainLabelChar_iff, or_assoc]

theorem IsLocalChar.toNat_lt {c : Char} (h : IsLocalChar c) :
    c.toNat < 128 := by
  have hle : ∀ {a b : Char}, a ≤ b → a.toNat ≤ b.toNat := fun hab => hab
  rcases h with (⟨-, h⟩ | ⟨-, h⟩ | rfl) | rfl | rfl | rfl
  · exact Nat.lt_of_le_of_lt (hle h) (by decide)
  · exact Nat.lt_of_le_of_lt (hle h) (by decide)
  all_goals decide

/-- One byte in UTF-8. -/
theorem IsLocalChar.utf8Size {c : Char} (h : IsLocalChar c) :
    c.utf8Size = 1 := by
  have hlt : c.val.toNat < 128 := h.toNat_lt
  rw [Char.utf8Size, if_pos]
  rw [UInt32.le_iff_toNat_le]
  show c.val.toNat ≤ 127
  omega

/-- What the domain's own tests look for is in no label. -/
theorem IsLabelChar.plain {c : Char} (h : IsLabelChar c) :
    c.isUpper = false ∧ c ≠ '/' ∧ c ≠ ':' ∧ c ≠ '.' := by
  have hall : ∀ n < 128, isDomainLabelChar (Char.ofNat n) = true →
      (Char.ofNat n).isUpper = false ∧ Char.ofNat n ≠ '/' ∧
        Char.ofNat n ≠ ':' ∧ Char.ofNat n ≠ '.' := by decide
  have hlocal : IsLocalChar c := .inl h
  have hc := hall c.toNat hlocal.toNat_lt
  rw [Char.ofNat_toNat] at hc
  exact hc (isDomainLabelChar_iff.mpr h)

theorem IsLocalChar.ne_at {c : Char} (h : IsLocalChar c) : c ≠ '@' := by
  rintro rfl
  revert h
  rw [← isLocalChar_iff]
  decide

/-- Bytes and characters are the same number. -/
theorem utf8ByteSize_eq_length {s : String}
    (h : ∀ c ∈ s.toList, IsLocalChar c) : s.utf8ByteSize = s.length := by
  have hsize := utf8ByteSize_ofList_eq_length fun c hc => (h c hc).utf8Size
  rw [String.ofList_toList] at hsize
  rw [hsize, String.length_toList]

/-! ## Labels -/

theorem startsWith_hyphen {s : String} :
    startsWith s "-" = true ↔ s.toList.head? = some '-' := by
  rw [startsWith_iff]
  constructor
  · rintro ⟨rest, rfl⟩
    rw [String.toList_append]
    rfl
  · intro h
    obtain ⟨tl, htl⟩ := List.head?_eq_some_iff.mp h
    refine ⟨String.ofList tl, ?_⟩
    rw [← String.toList_inj, htl, String.toList_append, String.toList_ofList,
      String.toList_ofList]
    rfl

/-- The tests on one piece of the domain. -/
theorem label_iff {label : String} :
    (!label.isEmpty && label.utf8ByteSize ≤ 63 &&
      label.toList.all isDomainLabelChar && !startsWith label "-" &&
      !endsWithChar label '-') = true ↔ IsDomainLabel label := by
  have hsize (hc : ∀ c ∈ label.toList, IsLabelChar c) :
      label.utf8ByteSize = label.length :=
    utf8ByteSize_eq_length fun c hm => .inl (hc c hm)
  have hpos : label.isEmpty = false ↔ 1 ≤ label.length := by
    rw [Bool.eq_false_iff, ne_eq, String.isEmpty_iff,
      ← String.length_eq_zero_iff]
    omega
  simp only [Bool.and_eq_true, Bool.not_eq_true', decide_eq_true_eq,
    List.all_eq_true, isDomainLabelChar_iff, hpos, ← Bool.not_eq_true,
    startsWith_hyphen]
  constructor
  · rintro ⟨⟨⟨⟨hne, hle⟩, hchars⟩, hhead⟩, hlast⟩
    rw [hsize hchars] at hle
    exact ⟨hne, hle, hchars, hhead, fun h => hlast (beq_iff_eq.mpr h)⟩
  · rintro ⟨hne, hle, hchars, hhead, hlast⟩
    rw [← hsize hchars] at hle
    exact ⟨⟨⟨⟨hne, hle⟩, hchars⟩, hhead⟩, fun h => hlast (beq_iff_eq.mp h)⟩

theorem IsDomainLabel.ne_empty {label : String} (h : IsDomainLabel label) :
    label ≠ "" := by
  rintro rfl
  exact absurd h.one_le (by decide)

theorem IsDomainLabel.dot_not_mem {label : String} (h : IsDomainLabel label) :
    '.' ∉ label.toList :=
  fun hm => (h.chars '.' hm).plain.2.2.2 rfl

/-! ## Domains -/

theorem split_labels {labels : List String} (hne : labels ≠ [])
    (h : ∀ label ∈ labels, IsDomainLabel label) :
    split (".".intercalate labels) '.' = labels :=
  @split_intercalate '.' labels hne fun l hl => (h l hl).dot_not_mem

/-- A domain is made of labels and dots. -/
theorem mem_domain {labels : List String}
    (h : ∀ label ∈ labels, IsDomainLabel label) {c : Char}
    (hc : c ∈ (".".intercalate labels).toList) : IsLabelChar c ∨ c = '.' := by
  induction labels with
  | nil => cases hc
  | cons l labels ih =>
      have hl : c ∈ l.toList → IsLabelChar c :=
        (h l List.mem_cons_self).chars c
      have hrest : ∀ label ∈ labels, IsDomainLabel label :=
        fun label hm => h label (List.mem_cons_of_mem l hm)
      cases labels with
      | nil =>
          rw [String.intercalate_singleton] at hc
          exact .inl (hl hc)
      | cons m labels =>
          rw [String.intercalate_cons_cons, String.toList_append,
            String.toList_append, List.mem_append, List.mem_append] at hc
          rcases hc with (hc | hc) | hc
          · exact .inl (hl hc)
          · exact .inr (List.mem_singleton.mp hc)
          · exact ih hrest hc

theorem contains_eq_false {s p : String} {c : Char} (hp : c ∈ p.toList)
    (hs : c ∉ s.toList) : contains s p = false := by
  rw [contains, splitOnce, splitOnceL_eq_none hp hs]
  rfl

theorem isValidDomainName_iff {domain : String} :
    isValidDomainName domain = true ↔ ∃ labels, labels ≠ [] ∧
      (∀ label ∈ labels, IsDomainLabel label) ∧
        ".".intercalate labels = domain := by
  constructor
  · intro h
    rw [isValidDomainName] at h
    split at h
    · cases h
    · split at h
      · cases h
      · refine ⟨split domain '.', ?_, ?_, intercalate_split domain '.'⟩
        · rw [split, ne_eq, List.map_eq_nil_iff]
          exact splitL_ne_nil '.' _
        · intro label hm
          exact label_iff.mp (List.all_eq_true.mp h label hm)
  · rintro ⟨labels, hne, hl, rfl⟩
    have hchars := fun c hc => @mem_domain labels hl c hc
    have hupper :
        (".".intercalate labels).toList.any Char.isUpper = false := by
      rw [List.any_eq_false]
      intro c hc
      rcases hchars c hc with hc | rfl
      · rw [hc.plain.1]
        exact Bool.false_ne_true
      · decide
    have hslash : '/' ∉ (".".intercalate labels).toList := fun hm =>
      (hchars '/' hm).elim (fun hc => hc.plain.2.1 rfl) (by decide)
    have hcolon : ':' ∉ (".".intercalate labels).toList := fun hm =>
      (hchars ':' hm).elim (fun hc => hc.plain.2.2.1 rfl) (by decide)
    have hempty : (".".intercalate labels).isEmpty = false := by
      rw [Bool.eq_false_iff, ne_eq, String.isEmpty_iff]
      intro he
      have hsplit := split_labels hne hl
      rw [he] at hsplit
      have hmem : "" ∈ labels := by
        rw [← hsplit]
        decide
      exact (hl "" hmem).ne_empty rfl
    have hpattern : contains (".".intercalate labels) "://" = false :=
      contains_eq_false (List.mem_cons_self) hcolon
    have hslash' : containsChar (".".intercalate labels) '/' = false := by
      rw [containsChar, List.contains_eq_mem, decide_eq_false hslash]
    have hcolon' : containsChar (".".intercalate labels) ':' = false := by
      rw [containsChar, List.contains_eq_mem, decide_eq_false hcolon]
    rw [isValidDomainName, hempty, hupper, hpattern, hslash', hcolon',
      split_labels hne hl]
    exact List.all_eq_true.mpr fun label hm => label_iff.mpr (hl label hm)

/-! ## Identifiers -/

/-- The tests on the local part, in front of the test of the domain. -/
theorem localPart_iff {localPart : String} {b : Bool} :
    (if localPart.isEmpty || 255 < localPart.utf8ByteSize then false
      else if !localPart.toList.all (fun c => isDomainLabelChar c ||
        c == '_' || c == '+' || c == '.') then false else b) = true ↔
      IsLocalPart localPart ∧ b = true := by
  have hchars : localPart.toList.all (fun c => isDomainLabelChar c ||
      c == '_' || c == '+' || c == '.') = true ↔
      ∀ c ∈ localPart.toList, IsLocalChar c := by
    simp only [List.all_eq_true, isLocalChar_iff]
  have hpos : localPart.isEmpty = true ↔ ¬ 1 ≤ localPart.length := by
    rw [String.isEmpty_iff, ← String.length_eq_zero_iff]
    omega
  by_cases hall : ∀ c ∈ localPart.toList, IsLocalChar c
  · have hlen : (localPart.isEmpty || 255 < localPart.utf8ByteSize) = true ↔
        ¬ (1 ≤ localPart.length ∧ localPart.length ≤ 255) := by
      rw [Bool.or_eq_true, hpos, decide_eq_true_eq, utf8ByteSize_eq_length hall]
      omega
    rw [hchars.mpr hall]
    by_cases hle : 1 ≤ localPart.length ∧ localPart.length ≤ 255
    · rw [if_neg (fun h => hlen.mp h hle), if_neg (by decide)]
      exact ⟨fun h => ⟨⟨hle.1, hle.2, hall⟩, h⟩, And.right⟩
    · rw [if_pos (hlen.mpr hle)]
      exact iff_of_false nofun fun h => hle ⟨h.1.one_le, h.1.le_255⟩
  · rw [Bool.eq_false_iff.mpr fun h => hall (hchars.mp h), Bool.not_false,
      if_pos rfl, ite_self]
    exact iff_of_false nofun fun h => hall h.1.chars

theorem AgentIdentifier.splits (a : AgentIdentifier) :
    splitOnce (a.localPart ++ "@" ++ ".".intercalate a.labels) "@" =
      some (a.localPart, ".".intercalate a.labels) :=
  splitOnce_char_iff.mpr
    ⟨fun hm => (a.isLocalPart.chars '@' hm).ne_at rfl, rfl⟩

theorem AgentIdentifier.strips (a : AgentIdentifier) :
    stripPrefix a.text "aauth:" =
      some (a.localPart ++ "@" ++ ".".intercalate a.labels) := by
  rw [stripPrefix_iff, AgentIdentifier.text]
  simp only [String.append_assoc]

/-- The two splits find the parts again. -/
theorem AgentIdentifier.text_inj {a b : AgentIdentifier}
    (h : a.text = b.text) : a = b := by
  have hrest := a.strips
  rw [h, b.strips] at hrest
  have hparts := a.splits
  rw [← Option.some.inj hrest, b.splits] at hparts
  have hpair := Prod.mk.inj (Option.some.inj hparts)
  have hlabels := split_labels a.labels_ne_nil a.isLabel
  rw [← hpair.2, split_labels b.labels_ne_nil b.isLabel] at hlabels
  cases a
  cases b
  cases hpair.1
  cases hlabels
  rfl

theorem AgentIdentifier.isValid (a : AgentIdentifier) :
    isValidAgentIdentifier a.text = true := by
  have hdomain : isValidDomainName (".".intercalate a.labels) = true :=
    isValidDomainName_iff.mpr ⟨a.labels, a.labels_ne_nil, a.isLabel, rfl⟩
  rw [isValidAgentIdentifier, a.strips]
  simp only [a.splits]
  exact localPart_iff.mpr ⟨a.isLocalPart, hdomain⟩

theorem exists_text_of_isValid {s : String}
    (h : isValidAgentIdentifier s = true) :
    ∃ a : AgentIdentifier, a.text = s := by
  rw [isValidAgentIdentifier] at h
  split at h
  · cases h
  · rename_i rest hstrip
    split at h
    · cases h
    · rename_i localPart domain hsplit
      obtain ⟨hlocal, hdomain⟩ := localPart_iff.mp h
      obtain ⟨labels, hne, hl, hd⟩ := isValidDomainName_iff.mp hdomain
      refine ⟨⟨localPart, labels, hlocal, hne, hl⟩, ?_⟩
      have hrest : rest = localPart ++ "@" ++ domain :=
        (@splitOnce_char_iff '@' _ _ _).mp hsplit |>.2
      rw [stripPrefix_iff.mp hstrip, hrest, ← hd, AgentIdentifier.text]
      simp only [String.append_assoc]

/-- A string is an agent identifier if and only if it is derived by the
grammar, and it has one derivation at most. -/
theorem isValidAgentIdentifier_iff (s : String) :
    (isValidAgentIdentifier s = true ↔
      ∃ a : AgentIdentifier, a.text = s) ∧
    ∀ a b : AgentIdentifier, a.text = s → b.text = s → a = b := by
  refine ⟨⟨exists_text_of_isValid, ?_⟩, ?_⟩
  · rintro ⟨a, rfl⟩
    exact a.isValid
  · intro a b ha hb
    exact AgentIdentifier.text_inj (ha.trans hb.symm)

end Aauth
