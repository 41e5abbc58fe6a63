import Mathlib.Data.String.Basic
import Aauth.Proofs.Codes

/-!
# Codes as texts

`canonicalize_code` slices the upper-cased code at the fourth and the eighth
byte and drops what is after that. The slices are taken between characters
when those bytes are, which they are in every ASCII code; and two codes have
one canonical form when they agree in their first eight symbols, whatever
comes after.
-/

namespace Aauth

open Text

/-! ## Splitting at a byte -/

theorem splitAtByte_zero {l front back : List Char} :
    splitAtByte l 0 = some (front, back) ↔
      l = front ++ back ∧ String.utf8Len front = 0 := by
  have hz : splitAtByte l 0 = some ([], l) := by cases l <;> rfl
  rw [hz, String.utf8Len_eq_zero]
  constructor
  · rintro ⟨⟩
    exact ⟨rfl, rfl⟩
  · rintro ⟨h, rfl⟩
    rw [h]
    rfl

theorem splitAtByte_cons {c : Char} {l : List Char} {n : Nat} :
    splitAtByte (c :: l) (n + 1) = if c.utf8Size ≤ n + 1 then
      (splitAtByte l (n + 1 - c.utf8Size)).map fun q => (c :: q.1, q.2)
    else none := rfl

/-- A text splits between two parts at the size of the first, and nowhere
else. -/
theorem splitAtByte_eq_some {l front back : List Char} {n : Nat} :
    splitAtByte l n = some (front, back) ↔
      l = front ++ back ∧ String.utf8Len front = n := by
  induction l generalizing n front with
  | nil =>
      cases n with
      | zero => exact splitAtByte_zero
      | succ n =>
          refine iff_of_false nofun ?_
          rintro ⟨h, hn⟩
          rw [(List.append_eq_nil_iff.mp h.symm).1] at hn
          cases hn
  | cons c l ih =>
      cases n with
      | zero => exact splitAtByte_zero
      | succ n =>
          have hpos := c.utf8Size_pos
          rw [splitAtByte_cons]
          constructor
          · intro h
            split at h
            · next hc =>
                obtain ⟨⟨front', back'⟩, hq, he⟩ := Option.map_eq_some_iff.mp h
                obtain ⟨rfl, rfl⟩ := Prod.mk.inj he
                obtain ⟨hl, hn⟩ := ih.mp hq
                refine ⟨by rw [hl]; rfl, ?_⟩
                show String.utf8Len front' + c.utf8Size = n + 1
                omega
            · cases h
          · rintro ⟨h, hn⟩
            cases front with
            | nil => cases hn
            | cons c' front =>
                cases h
                rw [String.utf8Len_cons] at hn
                have hq := ih.mpr
                  ⟨rfl, (by omega : String.utf8Len front = n + 1 - c.utf8Size)⟩
                rw [if_pos (by omega), hq]
                rfl

/-- Byte `k` of the text is between two characters, or past its end. -/
def Boundary (k : Nat) (l : List Char) : Prop :=
  String.utf8Len l ≤ k ∨
    ∃ front back, l = front ++ back ∧ String.utf8Len front = k

theorem boundary_iff {k : Nat} {l : List Char} : Boundary k l ↔
    ∃ front back, l = front ++ back ∧
      String.utf8Len front = min k (String.utf8Len l) := by
  constructor
  · rintro (h | ⟨front, back, rfl, rfl⟩)
    · exact ⟨l, [], (List.append_nil l).symm, (Nat.min_eq_right h).symm⟩
    · refine ⟨front, back, rfl, ?_⟩
      rw [String.utf8Len_append, Nat.min_eq_left (Nat.le_add_right _ _)]
  · rintro ⟨front, back, hl, hn⟩
    by_cases h : String.utf8Len l ≤ k
    · exact .inl h
    · refine .inr ⟨front, back, hl, ?_⟩
      omega

/-! ## The two slices -/

section Slices

variable {cr : Crates} {code : String}

/-- The code that is sliced, before its look-alikes are folded. -/
def upperCode (cr : Crates) (code : String) : List Char :=
  (cr.toUppercase (String.ofList (code.toList.filter (· != '-')))).toList

theorem utf8Len_map {f : Char → Char} (hf : ∀ c, (f c).utf8Size = c.utf8Size)
    (l : List Char) : String.utf8Len (l.map f) = String.utf8Len l := by
  induction l with
  | nil => rfl
  | cons c l ih =>
      rw [List.map_cons, String.utf8Len_cons, String.utf8Len_cons, ih, hf]

theorem boundary_map {f : Char → Char} (hf : ∀ c, (f c).utf8Size = c.utf8Size)
    {k : Nat} {l : List Char} : Boundary k (l.map f) ↔ Boundary k l := by
  refine or_congr (by rw [utf8Len_map hf]) ?_
  constructor
  · rintro ⟨front, back, h, hn⟩
    obtain ⟨front', back', rfl, rfl, rfl⟩ := List.map_eq_append_iff.mp h
    exact ⟨front', back', rfl, by rw [← hn, utf8Len_map hf]⟩
  · rintro ⟨front, back, rfl, hn⟩
    exact ⟨front.map f, back.map f, List.map_append,
      by rw [utf8Len_map hf, hn]⟩

/-- Folding a look-alike keeps its size. -/
theorem boundary_bareCode {k : Nat} :
    Boundary k (bareCode cr code) ↔ Boundary k (upperCode cr code) := by
  refine boundary_map fun c => ?_
  by_cases h : (c == 'I' || c == 'L') = true
  · rw [if_pos h]
    rw [Bool.or_eq_true, beq_iff_eq, beq_iff_eq] at h
    rcases h with rfl | rfl
    · rfl
    · rfl
  · rw [if_neg h]
    by_cases h' : (c == 'O') = true
    · rw [if_pos h', beq_iff_eq.mp h']
      rfl
    · rw [if_neg h']

/-- The two slices succeed together when both ends are between characters. -/
theorem slices_iff {l : List Char} {m n : Nat} (hmn : m ≤ n) :
    (∃ front back front' back', splitAtByte l m = some (front, back) ∧
      splitAtByte back (n - m) = some (front', back')) ↔
    (∃ front back, l = front ++ back ∧ String.utf8Len front = m) ∧
      ∃ front back, l = front ++ back ∧ String.utf8Len front = n := by
  simp only [splitAtByte_eq_some]
  constructor
  · rintro ⟨front, back, front', back', ⟨rfl, hm⟩, rfl, hn⟩
    refine ⟨⟨front, _, rfl, hm⟩, front ++ front', back', ?_, ?_⟩
    · rw [List.append_assoc]
    · rw [String.utf8Len_append]
      omega
  · rintro ⟨⟨front, back, rfl, hm⟩, front', back', h, hn⟩
    rcases List.append_eq_append_iff.mp h with
      ⟨mid, rfl, rfl⟩ | ⟨mid, rfl, rfl⟩
    · rw [String.utf8Len_append] at hn
      exact ⟨front, mid ++ back', mid, back', ⟨rfl, hm⟩, rfl, by omega⟩
    · rw [String.utf8Len_append] at hm
      have hmid : String.utf8Len mid = 0 := by omega
      rw [String.utf8Len_eq_zero] at hmid
      subst hmid
      refine ⟨front' ++ [], back, [], back, ⟨rfl, ?_⟩, rfl, ?_⟩
      · rw [String.utf8Len_append]
        omega
      · rw [String.utf8Len_nil]
        omega

/-- A code has a canonical form if and only if bytes 4 and 8 of it, without
its hyphens and upper-cased, are between characters. -/
theorem canonicalizeCode_returns :
    (∃ canonical, canonicalizeCode cr code = some canonical) ↔
      ∀ k ∈ [4, 8], Boundary k (upperCode cr code) := by
  have hcode : (∃ canonical, canonicalizeCode cr code = some canonical) ↔
      Boundary 4 (bareCode cr code) ∧ Boundary 8 (bareCode cr code) := by
    have hmn : min 4 (String.utf8Len (bareCode cr code)) ≤
        min 8 (String.utf8Len (bareCode cr code)) := by omega
    rw [boundary_iff, boundary_iff, ← slices_iff hmn, canonicalizeCode]
    simp only [String.utf8ByteSize_ofList, Option.bind_eq_some_iff,
      Option.map_eq_some_iff]
    constructor
    · rintro ⟨canonical, ⟨front, back⟩, h, ⟨front', back'⟩, h', -⟩
      exact ⟨front, back, front', back', h, h'⟩
    · rintro ⟨front, back, front', back', h, h'⟩
      exact ⟨_, (front, back), h, (front', back'), h', rfl⟩
  rw [hcode, boundary_bareCode, boundary_bareCode]
  simp

/-! ## ASCII codes -/

theorem keyOf_ascii {c : Char} (hc : c.toNat < 128) (hne : c ≠ '-') :
    (keyOf c).utf8Size = 1 ∧ keyOf c ≠ '-' := by
  let P (c : Char) : Prop :=
    c ≠ '-' → (keyOf c).utf8Size = 1 ∧ keyOf c ≠ '-'
  have hall : ∀ n < 128, P (Char.ofNat n) := by decide
  exact @forall_ascii P hall c hc hne

theorem keysOf_ascii (ha : IsAscii code) {c : Char} (hc : c ∈ keysOf code) :
    c.utf8Size = 1 ∧ c ≠ '-' := by
  obtain ⟨d, hd, rfl⟩ := List.mem_map.mp hc
  obtain ⟨hd, hne⟩ := List.mem_filter.mp hd
  exact keyOf_ascii (ha d hd) (by simpa using hne)

theorem utf8Len_eq_length {l : List Char} (h : ∀ c ∈ l, c.utf8Size = 1) :
    String.utf8Len l = l.length := by
  rw [← String.utf8ByteSize_ofList]
  exact utf8ByteSize_ofList_eq_length h

/-- The canonical form of an ASCII code: its first four symbols and the four
after them. -/
theorem canonicalizeCode_of_ascii (hc : CaseLaws cr) (ha : IsAscii code) :
    canonicalizeCode cr code = some (String.ofList ((keysOf code).take 4 ++
      '-' :: ((keysOf code).drop 4).take 4)) := by
  have hsize : ∀ {l : List Char}, (∀ c ∈ l, c ∈ keysOf code) →
      String.utf8Len l = l.length :=
    fun h => utf8Len_eq_length fun c hm => (keysOf_ascii ha (h c hm)).1
  have hlen := hsize fun c hm => hm
  have hfront : splitAtByte (keysOf code) (min 4 (keysOf code).length) =
      some ((keysOf code).take 4, (keysOf code).drop 4) := by
    refine splitAtByte_eq_some.mpr ⟨(List.take_append_drop 4 _).symm, ?_⟩
    rw [hsize fun c hm => List.mem_of_mem_take hm, List.length_take]
  have hback : splitAtByte ((keysOf code).drop 4)
      (min 8 (keysOf code).length - min 4 (keysOf code).length) =
      some (((keysOf code).drop 4).take 4,
        ((keysOf code).drop 4).drop 4) := by
    refine splitAtByte_eq_some.mpr ⟨(List.take_append_drop 4 _).symm, ?_⟩
    rw [hsize fun c hm => List.mem_of_mem_drop (List.mem_of_mem_take hm),
      List.length_take, List.length_drop]
    omega
  rw [canonicalizeCode, bareCode_of_ascii hc ha,
    String.utf8ByteSize_ofList, hlen, hfront, Option.bind_some, hback]
  rfl

/-! ## Comparing codes -/

theorem take_eight_eq {k k' : List Char} : k.take 8 = k'.take 8 ↔
    k.take 4 = k'.take 4 ∧ (k.drop 4).take 4 = (k'.drop 4).take 4 := by
  constructor
  · intro h
    have hfront := congrArg (List.take 4) h
    have hback := congrArg (List.drop 4) h
    rw [List.take_take, List.take_take] at hfront
    rw [List.drop_take, List.drop_take] at hback
    exact ⟨hfront, hback⟩
  · intro h
    rw [show 8 = 4 + 4 from rfl, List.take_add, List.take_add, h.1, h.2]

/-- Two ASCII codes have one canonical form when they agree in their first
eight symbols. -/
theorem canonicalizeCode_eq_iff (hc : CaseLaws cr) {a b : String}
    (ha : IsAscii a) (hb : IsAscii b) :
    canonicalizeCode cr a = canonicalizeCode cr b ↔
      (keysOf a).take 8 = (keysOf b).take 8 := by
  have hno : '-' ∉ keysOf a := fun hm => (keysOf_ascii ha hm).2 rfl
  rw [canonicalizeCode_of_ascii hc ha, canonicalizeCode_of_ascii hc hb,
    Option.some_inj, String.ofList_inj, List.append_cons_inj_of_notMem
      (fun hm => hno (List.mem_of_mem_take hm))
      (fun hm => hno (List.mem_of_mem_drop (List.mem_of_mem_take hm))),
    take_eight_eq]
  simp

/-- The canonical forms tell the two codes apart when they differ, and so
does a visit with the first to a record that has the second. -/
structure ComparedExactly (cr : Crates) (a b : String) : Prop where
  forms : canonicalizeCode cr a = canonicalizeCode cr b ↔
    keysOf a = keysOf b
  visits : ∀ (r : PersonPendingRecord) canonical,
    canonicalizeCode cr a = some canonical →
    r.context.psInteractionCode = canonicalizeCode cr b →
    (matchesCode canonical r = true ↔ keysOf a = keysOf b ∧
      r.context.interactionCodeConsumed = false)

/-- Two ASCII codes are compared exactly if and only if they do not agree in
their first eight symbols and differ after them. -/
theorem codes_compared_exactly (hc : CaseLaws cr) {a b : String}
    (ha : IsAscii a) (hb : IsAscii b) :
    ComparedExactly cr a b ↔
      ((keysOf a).take 8 = (keysOf b).take 8 → keysOf a = keysOf b) := by
  have heq := canonicalizeCode_eq_iff hc ha hb
  constructor
  · intro h htake
    exact h.forms.mp (heq.mpr htake)
  · intro h
    have hforms : canonicalizeCode cr a = canonicalizeCode cr b ↔
        keysOf a = keysOf b := by
      rw [heq]
      exact ⟨h, fun hk => by rw [hk]⟩
    refine ⟨hforms, ?_⟩
    intro r canonical hcode hr
    rw [matchesCode_iff, hr, ← hcode, eq_comm, hforms]

end Slices

/-! ## At concrete codes -/

namespace Sample

/-- The fourth byte of the text is inside a letter. -/
theorem canonicalizeCode_panics :
    ¬ ∀ code, ∃ canonical, canonicalizeCode crates code = some canonical := by
  intro h
  obtain ⟨canonical, hcode⟩ := h "AÉÉ"
  have hnone : canonicalizeCode crates "AÉÉ" = none := by decide +kernel
  cases hnone.symm.trans hcode

theorem isAscii_code : IsAscii "ABCD-EFGH" := by
  have h : ∀ c ∈ "ABCD-EFGH".toList, c.toNat < 128 := by decide
  exact h

theorem isAscii_longer : IsAscii "ABCD-EFGHX" := by
  have h : ∀ c ∈ "ABCD-EFGHX".toList, c.toNat < 128 := by decide
  exact h

/-- A code and one symbol more have one canonical form. -/
theorem longer_code_matches : ¬ ∀ a b, IsAscii a → IsAscii b →
    ComparedExactly crates a b := by
  intro h
  have hsame : canonicalizeCode crates "ABCD-EFGHX" =
      canonicalizeCode crates "ABCD-EFGH" := by decide +kernel
  have hkeys := (h _ _ isAscii_longer isAscii_code).forms.mp hsame
  exact absurd hkeys (by decide +kernel)

/-- A code as a user may type it. -/
theorem typed_code_compared : ComparedExactly crates typedCode "ABCD-EFGH" :=
  (codes_compared_exactly caseLaws typedCode_spells.ascii isAscii_code).mpr
    (by decide +kernel)

end Sample

end Aauth
