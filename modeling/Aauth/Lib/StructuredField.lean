import Aauth.Lib.Text

/-!
# Structured field lists

Lists of tokens with parameters, as structured field values write them
(RFC 8941): members apart by commas with optional white space around them,
a token, and for each parameter a semicolon, a key and perhaps a value.
Keys and values that are no strings are kept wide: any text of their
characters.

A reader that cuts a list at its commas before it looks at the quotes finds
the members that have no parameters, and of the others only what stands
between two commas of one string (`pieces_of_list`).
-/

namespace StructuredField

open Text

/-! ## The grammar -/

def isTokenLetter (c : Char) : Bool :=
  c.isAlphanum || "!#$%&'*+-.^_`|~:/".toList.contains c

structure IsToken (token : List Char) : Prop where
  first : ∃ c ∈ token.head?, c.isAlpha = true ∨ c = '*'
  each : ∀ c ∈ token, isTokenLetter c = true

def isKeyChar (c : Char) : Bool :=
  c.isLower || c.isDigit || "_-.*".toList.contains c

/-- Characters of a number, a token, a byte sequence or a boolean. -/
def isBareChar (c : Char) : Bool :=
  isTokenLetter c || "=?@".toList.contains c

/-- A string as it stands between its quotes. -/
def escape (content : List Char) : List Char :=
  content.flatMap fun c => if c = '"' ∨ c = '\\' then ['\\', c] else [c]

inductive BareItem where
  | string (content : List Char) (printable : ∀ c ∈ content, ' ' ≤ c ∧ c ≤ '~')
  | bare (text : List Char) (each : ∀ c ∈ text, isBareChar c = true)

structure Parameter where
  spaces : Nat
  key : List Char
  isKey : ∀ c ∈ key, isKeyChar c = true
  value : Option BareItem

structure Item where
  token : List Char
  isToken : IsToken token
  params : List Parameter

/-- An item of a list with the white space around it. -/
structure Member where
  before : List Char
  item : Item
  after : List Char
  blank_before : ∀ c ∈ before, c = ' ' ∨ c = '\t'
  blank_after : ∀ c ∈ after, c = ' ' ∨ c = '\t'

def BareItem.text : BareItem → List Char
  | string content _ => '"' :: (escape content ++ ['"'])
  | bare text _ => text

def Parameter.text (p : Parameter) : List Char :=
  ';' :: (List.replicate p.spaces ' ' ++ p.key ++
    match p.value with
    | none => []
    | some v => '=' :: v.text)

def Item.text (i : Item) : List Char :=
  i.token ++ i.params.flatMap Parameter.text

def Member.text (m : Member) : List Char :=
  m.before ++ m.item.text ++ m.after

def listText (ms : List Member) : List Char :=
  [','].intercalate (ms.map Member.text)

theorem isTokenLetter_lt {c : Char} (h : isTokenLetter c = true) :
    c.toNat < 128 := by
  rw [isTokenLetter, Bool.or_eq_true] at h
  rcases h with h | h
  · have hb := isAlphanum_bounds h
    omega
  · have hall : ∀ d ∈ "!#$%&'*+-.^_`|~:/".toList, d.toNat < 128 := by decide
    exact hall c (List.contains_iff_mem.mp h)

theorem isWhitespace_of_isTokenLetter {c : Char} (h : isTokenLetter c = true) :
    isWhitespace c = false := by
  have hall : ∀ n < 128, isTokenLetter (Char.ofNat n) = true →
      isWhitespace (Char.ofNat n) = false := by decide +kernel
  have hc := hall c.toNat (isTokenLetter_lt h)
  rw [Char.ofNat_toNat] at hc
  exact hc h

theorem IsToken.not_mem {token : List Char} (h : IsToken token) {c : Char}
    (hc : isTokenLetter c = false) : c ∉ token := by
  intro hm
  rw [h.each c hm] at hc
  cases hc

theorem IsToken.ne_nil {token : List Char} (h : IsToken token) :
    token ≠ [] := by
  rintro rfl
  obtain ⟨c, hc, -⟩ := h.first
  cases hc

/-- Trimming takes the white space around a token, and nothing else. -/
theorem IsToken.trim_padded {before token after : List Char}
    (h : IsToken token) (hb : ∀ c ∈ before, isWhitespace c = true)
    (ha : ∀ c ∈ after, isWhitespace c = true) :
    trim (String.ofList (before ++ token ++ after)) = String.ofList token :=
  Text.trim_padded hb ha h.ne_nil
    (fun c hc => isWhitespace_of_isTokenLetter
      (h.each c (List.mem_of_mem_head? hc)))
    fun c hc => isWhitespace_of_isTokenLetter
      (h.each c (List.mem_of_getLast? hc))

/-- A separator of a comma and a space: every text but the first has a
space in front. -/
theorem intercalate_spaced (t : List Char) (ts : List (List Char)) :
    [',', ' '].intercalate (t :: ts) =
      [','].intercalate (t :: ts.map (' ' :: ·)) := by
  induction ts generalizing t with
  | nil => rfl
  | cons u ts ih =>
      rw [List.intercalate_cons_cons, ih, List.map_cons,
        List.intercalate_cons_cons, List.intercalate_cons_cons_left]
      simp only [List.append_assoc, List.cons_append, List.nil_append]

/-! ## Between the commas -/

/-- What stands between two commas of a string. -/
def BareItem.enclosed : BareItem → List (List Char)
  | string content _ => (splitL ',' (escape content)).tail.dropLast
  | bare _ _ => []

def Parameter.enclosed (p : Parameter) : List (List Char) :=
  match p.value with
  | none => []
  | some v => v.enclosed

/-- The pieces that a reader can use who knows commas only. -/
def Member.heard (m : Member) : List (List Char) :=
  if m.item.params.isEmpty then [m.text]
  else m.item.params.flatMap Parameter.enclosed

section Pieces

variable {β : Type} {f : List Char → Option β}

/-- What is read from the pieces of a text after the first. -/
def inner (f : List Char → Option β) (t : List Char) : List β :=
  (splitL ',' t).tail.filterMap f

/-- A text without commas only adds to the first piece. -/
theorem inner_append {s : List Char} (hs : ',' ∉ s) (t : List Char) :
    inner f (s ++ t) = inner f t := by
  rw [inner, splitL_append_eq, splitL_of_not_mem hs]
  rfl

/-- It makes the first piece unreadable when it is. -/
theorem filterMap_blocked {s : List Char} (hs : ',' ∉ s)
    (hf : ∀ u, f (s ++ u) = none) (t : List Char) :
    (splitL ',' (s ++ t)).filterMap f = inner f t := by
  rw [splitL_append_eq, splitL_of_not_mem hs]
  show List.filterMap f ((s ++ (splitL ',' t).headD []) :: _) = _
  rw [List.filterMap_cons_none (hf _)]
  rfl

/-- Through a string: the first piece of it and the last are at a quote. -/
theorem inner_string (hf : ∀ s, '"' ∈ s → f s = none) (s t : List Char) :
    inner f ('"' :: (s ++ '"' :: t)) =
      (splitL ',' s).tail.dropLast.filterMap f ++ inner f t := by
  have hquote : ',' ∉ ['"'] := by decide
  rw [show '"' :: (s ++ '"' :: t) = ['"'] ++ (s ++ (['"'] ++ t)) from rfl,
    inner_append hquote, inner, splitL_append_eq, splitL_append_eq ',' ['"'],
    splitL_of_not_mem hquote]
  obtain ⟨q, qs, hq⟩ := List.exists_cons_of_ne_nil (splitL_ne_nil ',' s)
  rw [hq]
  cases qs with
  | nil => rfl
  | cons r rs =>
      have hlast : f ((q :: r :: rs).getLastD [] ++
          (['"'] ++ (splitL ',' t).headD [])) = none :=
        hf _ (List.mem_append_right _ List.mem_cons_self)
      show List.filterMap f ((r :: rs).dropLast ++
        (_ ++ (['"'] ++ (splitL ',' t).headD [])) :: (splitL ',' t).tail) = _
      rw [List.filterMap_append, List.filterMap_cons_none hlast]
      rfl

theorem inner_free {s : List Char} (hs : ',' ∉ s) : inner f s = [] := by
  rw [inner, splitL_of_not_mem hs]
  rfl

/-- Through a parameter, to what its string encloses. -/
theorem inner_parameter (hf : ∀ s, '"' ∈ s → f s = none) (p : Parameter)
    (t : List Char) :
    inner f (p.text ++ t) = p.enclosed.filterMap f ++ inner f t := by
  have hkey : ',' ∉ ';' :: (List.replicate p.spaces ' ' ++ p.key) := by
    intro hm
    rcases List.mem_cons.mp hm with hm | hm
    · cases hm
    · rcases List.mem_append.mp hm with hm | hm
      · cases List.eq_of_mem_replicate hm
      · exact absurd (p.isKey ',' hm) (by decide)
  rw [Parameter.text, Parameter.enclosed, ← List.cons_append,
    List.append_assoc, inner_append hkey]
  cases p.value with
  | none => rfl
  | some v =>
      have heq : ',' ∉ ['='] := by decide
      show inner f (['='] ++ (v.text ++ t)) = _
      rw [inner_append heq]
      cases v with
      | string content _ =>
          show inner f ('"' :: (escape content ++ ['"'] ++ t)) = _
          rw [List.append_assoc]
          exact inner_string hf (escape content) t
      | bare text each =>
          exact inner_append (fun hm => absurd (each ',' hm) (by decide)) t

theorem inner_parameters (hf : ∀ s, '"' ∈ s → f s = none)
    (ps : List Parameter) (t : List Char) :
    inner f (ps.flatMap Parameter.text ++ t) =
      (ps.flatMap Parameter.enclosed).filterMap f ++ inner f t := by
  induction ps with
  | nil => rfl
  | cons p ps ih =>
      rw [List.flatMap_cons, List.flatMap_cons, List.filterMap_append,
        List.append_assoc, List.append_assoc, inner_parameter hf, ih]

theorem Member.comma_not_mem_before (m : Member) :
    ',' ∉ m.before ++ m.item.token := by
  intro hm
  rcases List.mem_append.mp hm with hm | hm
  · rcases m.blank_before ',' hm with h | h <;> cases h
  · exact absurd (m.item.isToken.each ',' hm) (by decide)

theorem Member.comma_not_mem_after (m : Member) : ',' ∉ m.after := by
  intro hm
  rcases m.blank_after ',' hm with h | h <;> cases h

/-- A member without parameters is one piece. The first piece of any other
reaches at least to its first semicolon. -/
theorem pieces_of_member (hs : ∀ s, ';' ∈ s → f s = none)
    (hf : ∀ s, '"' ∈ s → f s = none) (m : Member) :
    (splitL ',' m.text).filterMap f = m.heard.filterMap f := by
  rw [Member.heard, Member.text, Item.text]
  cases hp : m.item.params with
  | nil =>
      have hfree : ',' ∉ m.before ++ (m.item.token ++ []) ++ m.after := by
        rw [List.append_nil, List.mem_append, not_or]
        exact ⟨m.comma_not_mem_before, m.comma_not_mem_after⟩
      rw [List.flatMap_nil, splitL_of_not_mem hfree]
      rfl
  | cons p ps =>
      have hlead : ',' ∉ m.before ++ m.item.token ++ [';'] := by
        rw [List.mem_append, not_or]
        exact ⟨m.comma_not_mem_before, by decide⟩
      have hblocked : ∀ u, f (m.before ++ m.item.token ++ [';'] ++ u) = none :=
        fun u => hs _ (List.mem_append_left u (List.mem_append_right _
          List.mem_cons_self))
      have htext : ∃ t, (p :: ps).flatMap Parameter.text = [';'] ++ t :=
        ⟨_, rfl⟩
      obtain ⟨t, ht⟩ := htext
      have hsemi : ',' ∉ [';'] := by decide
      have hrest : inner f (t ++ m.after) =
          ((p :: ps).flatMap Parameter.enclosed).filterMap f := by
        rw [← inner_append hsemi, ← List.append_assoc, ← ht,
          inner_parameters hf, inner_free m.comma_not_mem_after,
          List.append_nil]
      rw [ht, show m.before ++ (m.item.token ++ ([';'] ++ t)) ++ m.after =
          m.before ++ m.item.token ++ [';'] ++ (t ++ m.after) by
        simp only [List.append_assoc], filterMap_blocked hlead hblocked, hrest]
      rfl

/-- A list is cut into what its members are cut into. -/
theorem pieces_of_list (hnil : f [] = none) (hs : ∀ s, ';' ∈ s → f s = none)
    (hf : ∀ s, '"' ∈ s → f s = none) (ms : List Member) :
    (splitL ',' (listText ms)).filterMap f =
      (ms.flatMap Member.heard).filterMap f := by
  cases ms with
  | nil => exact List.filterMap_cons_none hnil
  | cons m ms =>
      have hne : (m :: ms).map Member.text ≠ [] := List.cons_ne_nil _ _
      rw [listText, splitL_intercalate hne, List.flatMap_map,
        List.filterMap_flatMap, List.filterMap_flatMap]
      exact congrArg (fun g => (m :: ms).flatMap g)
        (funext fun n => pieces_of_member hs hf n)

end Pieces

end StructuredField
