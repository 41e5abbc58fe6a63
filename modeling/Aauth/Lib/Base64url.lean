/-!
# Base64url without padding

The URL-safe alphabet, three bytes to four characters, the last group
shorter. The decoder refuses a character outside the alphabet, a last
group of one character, and bits after the last byte that are not zero.
-/

namespace Base64url

def alphabet : List Char :=
  "ABCDEFGHIJKLMNOPQRSTUVWXYZabcdefghijklmnopqrstuvwxyz0123456789-_".toList

def digit (n : Nat) : Char := alphabet.getD n 'A'

def value (c : Char) : Option Nat := alphabet.idxOf? c

theorem value_digit : ∀ n < 64, value (digit n) = some n := by decide

theorem digit_mem (n : Nat) : digit n ∈ alphabet := by
  rw [digit, List.getD_eq_getElem?_getD]
  cases h : alphabet[n]? with
  | none => decide
  | some c => exact List.mem_of_getElem? h

/-! ## Encoding -/

def encodeL : List UInt8 → List Char
  | [] => []
  | [a] => [digit (a.toNat / 4), digit (a.toNat % 4 * 16)]
  | [a, b] => [digit (a.toNat / 4), digit (a.toNat % 4 * 16 + b.toNat / 16),
      digit (b.toNat % 16 * 4)]
  | a :: b :: c :: bs =>
      digit (a.toNat / 4) :: digit (a.toNat % 4 * 16 + b.toNat / 16) ::
      digit (b.toNat % 16 * 4 + c.toNat / 64) :: digit (c.toNat % 64) ::
      encodeL bs

def decodeL : List Char → Option (List UInt8)
  | [] => some []
  | [_] => none
  | [w, x] => do
      let w ← value w
      let x ← value x
      if x % 16 = 0 then some [UInt8.ofNat (w * 4 + x / 16)] else none
  | [w, x, y] => do
      let w ← value w
      let x ← value x
      let y ← value y
      if y % 4 = 0 then some [UInt8.ofNat (w * 4 + x / 16),
        UInt8.ofNat (x % 16 * 16 + y / 4)] else none
  | w :: x :: y :: z :: cs => do
      let w ← value w
      let x ← value x
      let y ← value y
      let z ← value z
      let bs ← decodeL cs
      some (UInt8.ofNat (w * 4 + x / 16) ::
        UInt8.ofNat (x % 16 * 16 + y / 4) :: UInt8.ofNat (y % 4 * 64 + z) ::
        bs)

/-- A byte from its number. -/
theorem ofNat_eq {a : UInt8} {n : Nat} (h : n = a.toNat) :
    UInt8.ofNat n = a := by
  rw [h, UInt8.ofNat_toNat]

theorem decodeL_encodeL (bs : List UInt8) :
    decodeL (encodeL bs) = some bs := by
  induction bs using encodeL.induct with
  | case1 => rfl
  | case2 a =>
      have ha := a.toNat_lt
      simp only [encodeL, decodeL, value_digit (a.toNat / 4) (by omega),
        value_digit (a.toNat % 4 * 16) (by omega), Option.bind_eq_bind,
        Option.bind_some]
      rw [if_pos (by omega), ofNat_eq (a := a) (by omega)]
  | case3 a b =>
      have ha := a.toNat_lt
      have hb := b.toNat_lt
      simp only [encodeL, decodeL, value_digit (a.toNat / 4) (by omega),
        value_digit (a.toNat % 4 * 16 + b.toNat / 16) (by omega),
        value_digit (b.toNat % 16 * 4) (by omega), Option.bind_eq_bind,
        Option.bind_some]
      rw [if_pos (by omega), ofNat_eq (a := a) (by omega),
        ofNat_eq (a := b) (by omega)]
  | case4 a b c bs ih =>
      have ha := a.toNat_lt
      have hb := b.toNat_lt
      have hc := c.toNat_lt
      simp only [encodeL, decodeL, value_digit (a.toNat / 4) (by omega),
        value_digit (a.toNat % 4 * 16 + b.toNat / 16) (by omega),
        value_digit (b.toNat % 16 * 4 + c.toNat / 64) (by omega),
        value_digit (c.toNat % 64) (by omega), Option.bind_eq_bind,
        Option.bind_some, ih]
      rw [ofNat_eq (a := a) (by omega), ofNat_eq (a := b) (by omega),
        ofNat_eq (a := c) (by omega)]

theorem mem_encodeL {bs : List UInt8} {c : Char} (h : c ∈ encodeL bs) :
    c ∈ alphabet := by
  induction bs using encodeL.induct with
  | case1 => cases h
  | case2 a =>
      simp only [encodeL, List.mem_cons, List.not_mem_nil, or_false] at h
      rcases h with h | h <;> exact h ▸ digit_mem _
  | case3 a b =>
      simp only [encodeL, List.mem_cons, List.not_mem_nil, or_false] at h
      rcases h with h | h | h <;> exact h ▸ digit_mem _
  | case4 a b c bs ih =>
      simp only [encodeL, List.mem_cons] at h
      rcases h with h | h | h | h | h
      all_goals first | exact ih h | exact h ▸ digit_mem _

theorem mem_of_value {c : Char} {n : Nat} (h : value c = some n) :
    c ∈ alphabet := by
  rw [value] at h
  exact List.isSome_idxOf?.mp (by rw [h]; rfl)

/-- Only characters of the alphabet are decoded. -/
theorem mem_of_decodeL {s : List Char} {bs : List UInt8}
    (h : decodeL s = some bs) : ∀ c ∈ s, c ∈ alphabet := by
  induction s using decodeL.induct generalizing bs with
  | case1 => exact nofun
  | case2 => cases h
  | case3 w x =>
      simp only [decodeL, Option.bind_eq_bind, Option.bind_eq_some_iff] at h
      obtain ⟨_, hw, _, hx, -⟩ := h
      simp [mem_of_value hw, mem_of_value hx]
  | case4 w x y =>
      simp only [decodeL, Option.bind_eq_bind, Option.bind_eq_some_iff] at h
      obtain ⟨_, hw, _, hx, _, hy, -⟩ := h
      simp [mem_of_value hw, mem_of_value hx, mem_of_value hy]
  | case5 w x y z cs ih =>
      simp only [decodeL, Option.bind_eq_bind, Option.bind_eq_some_iff] at h
      obtain ⟨_, hw, _, hx, _, hy, _, hz, _, hcs, -⟩ := h
      simp [mem_of_value hw, mem_of_value hx, mem_of_value hy,
        mem_of_value hz]
      exact ih hcs

/-! ## Strings -/

def encode (bs : List UInt8) : String := String.ofList (encodeL bs)

def decode (s : String) : Option (List UInt8) := decodeL s.toList

@[simp] theorem decode_encode (bs : List UInt8) :
    decode (encode bs) = some bs := by
  rw [decode, encode, String.toList_ofList, decodeL_encodeL]

end Base64url
