import Mathlib.Algebra.Order.Ring.Nat
import Aauth.Proofs.CodeText

/-!
# Generated codes

A code is the eight base-32 digits of the number its five bytes make up.
Bytes and digits are two expansions of one number, so nothing is lost
between them. None of the thirty-two symbols is a hyphen or a letter that
another one may be typed for, and so every symbol is its own canonical form
and every respelling of the code leads back to it.
-/

namespace Aauth

open Text

/-! ## Expansions of a number -/

/-- Two numbers of `k` digits with the same digits are one number. -/
theorem eq_of_digits {b k n m : Nat} (hn : n < b ^ k) (hm : m < b ^ k)
    (h : ∀ i < k, n / b ^ i % b = m / b ^ i % b) : n = m := by
  induction k generalizing n m with
  | zero =>
      rw [Nat.pow_zero] at hn hm
      omega
  | succ k ih =>
      have hmod := h 0 (Nat.succ_pos k)
      rw [Nat.pow_zero, Nat.div_one, Nat.div_one] at hmod
      have hlt : ∀ {x}, x < b ^ (k + 1) → x / b < b ^ k := by
        intro x hx
        rw [Nat.pow_succ] at hx
        exact Nat.div_lt_of_lt_mul (by rw [Nat.mul_comm]; exact hx)
      have hdiv : n / b = m / b := by
        refine ih (hlt hn) (hlt hm) fun i hi => ?_
        have hs := h (i + 1) (Nat.succ_lt_succ hi)
        rw [Nat.pow_succ, Nat.mul_comm (b ^ i) b, ← Nat.div_div_eq_div_mul,
          ← Nat.div_div_eq_div_mul] at hs
        exact hs
      rw [← Nat.div_add_mod n b, ← Nat.div_add_mod m b, hdiv, hmod]

/-- The number that bytes make up, after what `a` stands for. -/
def bytesFrom (a : Nat) (buf : Bytes) : Nat :=
  buf.foldl (fun n b => n * 256 + b.toNat) a

theorem bytesFrom_lt {buf : Bytes} {a c : Nat} (h : a < c) :
    bytesFrom a buf < c * 256 ^ buf.length := by
  induction buf generalizing a c with
  | nil => simpa [bytesFrom] using h
  | cons b buf ih =>
      have hb := b.toNat_lt
      have hs : a * 256 + b.toNat < c * 256 := by omega
      have hlt := ih hs
      rw [List.length_cons, Nat.pow_succ, Nat.mul_comm (256 ^ _) 256,
        ← Nat.mul_assoc]
      exact hlt

/-- Bytes and what came before them can be told from the number. -/
theorem bytesFrom_inj {buf buf' : Bytes} {a a' : Nat}
    (hl : buf.length = buf'.length)
    (h : bytesFrom a buf = bytesFrom a' buf') : a = a' ∧ buf = buf' := by
  induction buf generalizing buf' a a' with
  | nil =>
      rw [List.eq_nil_of_length_eq_zero hl.symm] at h ⊢
      exact ⟨h, rfl⟩
  | cons b buf ih =>
      cases buf' with
      | nil => cases hl
      | cons b' buf' =>
          obtain ⟨hs, rfl⟩ := ih (Nat.succ.inj hl) h
          have hs : a * 256 + b.toNat = a' * 256 + b'.toNat := hs
          have hb := b.toNat_lt
          have hb' := b'.toNat_lt
          have hbb : b.toNat = b'.toNat := by omega
          rw [UInt8.toNat_inj.mp hbb]
          exact ⟨by omega, rfl⟩

/-! ## The symbols of a code -/

/-- The eight symbols of the code of a buffer. -/
def codeSymbols (buf : Bytes) : List Char :=
  (List.range 8).map fun i =>
    CROCKFORD32.getD ((bytesFrom 0 buf >>> ((7 - i) * 5)) % 32) '0'

theorem generateCode_eq (buf : Bytes) : generateCode buf =
    String.ofList ((codeSymbols buf).take 4 ++ '-' ::
      (codeSymbols buf).drop 4) := rfl

theorem codeSymbols_length (buf : Bytes) : (codeSymbols buf).length = 8 := by
  rw [codeSymbols, List.length_map, List.length_range]

theorem symbol_mem (n : Nat) : CROCKFORD32.getD (n % 32) '0' ∈ CROCKFORD32 := by
  have hall : ∀ i < 32, CROCKFORD32.getD i '0' ∈ CROCKFORD32 := by decide
  exact hall _ (Nat.mod_lt n (by decide))

theorem codeSymbols_mem {buf : Bytes} {c : Char} (h : c ∈ codeSymbols buf) :
    c ∈ CROCKFORD32 := by
  obtain ⟨i, -, rfl⟩ := List.mem_map.mp h
  exact symbol_mem _

/-- Different digits have different symbols. -/
theorem symbol_inj {n m : Nat}
    (h : CROCKFORD32.getD (n % 32) '0' = CROCKFORD32.getD (m % 32) '0') :
    n % 32 = m % 32 := by
  have hall : ∀ i < 32, ∀ j < 32,
      CROCKFORD32.getD i '0' = CROCKFORD32.getD j '0' → i = j := by decide
  exact hall _ (Nat.mod_lt n (by decide)) _ (Nat.mod_lt m (by decide)) h

/-- All forty bits are kept. -/
theorem codeSymbols_inj {buf buf' : Bytes} (h : buf.length = 5)
    (h' : buf'.length = 5) (he : codeSymbols buf = codeSymbols buf') :
    buf = buf' := by
  have hlt : ∀ {b : Bytes}, b.length = 5 → bytesFrom 0 b < 32 ^ 8 := by
    intro b hb
    have hlt : bytesFrom 0 b < 1 * 256 ^ b.length := bytesFrom_lt Nat.one_pos
    rw [hb] at hlt
    exact hlt
  suffices heq : bytesFrom 0 buf = bytesFrom 0 buf' from
    (bytesFrom_inj (h.trans h'.symm) heq).2
  refine eq_of_digits (hlt h) (hlt h') fun i hi => ?_
  have hsym := List.map_inj_left.mp he (7 - i) (List.mem_range.mpr (by omega))
  have hd := symbol_inj hsym
  have hi' : (7 - (7 - i)) * 5 = 5 * i := by omega
  rw [hi', Nat.shiftRight_eq_div_pow, Nat.shiftRight_eq_div_pow,
    Nat.pow_mul] at hd
  exact hd

/-! ## Respellings -/

/-- What may be typed for a symbol: itself in either case, and the letters
that look like a `1` or a `0`. -/
def MayStandFor (d c : Char) : Prop :=
  d = c ∨ d = c.toLower ∨ c = '1' ∧ d ∈ ['I', 'i', 'L', 'l'] ∨
    c = '0' ∧ d ∈ ['O', 'o']

instance (d c : Char) : Decidable (MayStandFor d c) :=
  inferInstanceAs (Decidable (_ ∨ _))

/-- One text is the other with hyphens put in and left out anywhere, and
symbols typed in any of their ways. -/
inductive Respells : List Char → List Char → Prop where
  | nil : Respells [] []
  | putIn {typed code : List Char} : Respells typed code →
      Respells ('-' :: typed) code
  | leaveOut {typed code : List Char} : Respells typed code →
      Respells typed ('-' :: code)
  | symbol {typed code : List Char} {d c : Char} : c ≠ '-' →
      MayStandFor d c → Respells typed code → Respells (d :: typed) (c :: code)

/-- Every symbol is its own key, and what may be typed for it has that
key. -/
theorem keyOf_symbol {d c : Char} (hc : c ∈ CROCKFORD32)
    (h : MayStandFor d c) : keyOf d = c ∧ d ≠ '-' ∧ d.toNat < 128 := by
  have hself : ∀ c ∈ CROCKFORD32, ∀ d ∈ [c, c.toLower],
      keyOf d = c ∧ d ≠ '-' ∧ d.toNat < 128 := by decide
  have hone : ∀ d ∈ ['I', 'i', 'L', 'l'],
      keyOf d = '1' ∧ d ≠ '-' ∧ d.toNat < 128 := by decide
  have hzero : ∀ d ∈ ['O', 'o'],
      keyOf d = '0' ∧ d ≠ '-' ∧ d.toNat < 128 := by decide
  rcases h with rfl | rfl | ⟨rfl, hd⟩ | ⟨rfl, hd⟩
  · exact hself d hc d (by simp)
  · exact hself c hc c.toLower (by simp)
  · exact hone d hd
  · exact hzero d hd

/-- A respelling has the keys of the code, and is ASCII as the code is. -/
theorem Respells.keys {typed code : List Char} (h : Respells typed code)
    (hc : ∀ c ∈ code, c ≠ '-' → c ∈ CROCKFORD32) :
    (typed.filter (· != '-')).map keyOf = code.filter (· != '-') ∧
      ∀ c ∈ typed, c.toNat < 128 := by
  induction h with
  | nil => exact ⟨rfl, List.forall_mem_nil _⟩
  | putIn _ ih =>
      obtain ⟨hk, ha⟩ := ih hc
      refine ⟨hk, fun c hm => ?_⟩
      rcases List.mem_cons.mp hm with rfl | hm
      · decide
      · exact ha c hm
  | leaveOut _ ih => exact ih fun c hm => hc c (List.mem_cons_of_mem _ hm)
  | @symbol typed code d c hne hd _ ih =>
      obtain ⟨hk, ha⟩ := ih fun c hm => hc c (List.mem_cons_of_mem _ hm)
      obtain ⟨hkey, hhyphen, hascii⟩ :=
        keyOf_symbol (hc c List.mem_cons_self hne) hd
      constructor
      · have hd : (d != '-') = true := bne_iff_ne.mpr hhyphen
        have hc : (c != '-') = true := bne_iff_ne.mpr hne
        rw [List.filter_cons, List.filter_cons, if_pos hd, if_pos hc,
          List.map_cons, hkey, hk]
      · intro e hm
        rcases List.mem_cons.mp hm with rfl | hm
        · exact hascii
        · exact ha e hm

/-- A code is a respelling of itself. -/
theorem Respells.refl (code : List Char) : Respells code code := by
  induction code with
  | nil => exact .nil
  | cons c code ih =>
      by_cases h : c = '-'
      · rw [h]
        exact .leaveOut (.putIn ih)
      · exact .symbol h (.inl rfl) ih

theorem generateCode_filter (buf : Bytes) :
    (generateCode buf).toList.filter (· != '-') = codeSymbols buf := by
  have hne : ∀ c ∈ codeSymbols buf, (c != '-') = true := by
    intro c hc
    have hall : ∀ c ∈ CROCKFORD32, (c != '-') = true := by decide
    exact hall c (codeSymbols_mem hc)
  rw [generateCode_eq, String.toList_ofList, List.filter_append,
    List.filter_cons_of_neg (by decide), ← List.filter_append,
    List.take_append_drop, List.filter_eq_self.mpr hne]

/-- Whatever a generated code is typed as, its canonical form is the code. -/
theorem Respells.canonical {cr : Crates} (hc : CaseLaws cr) {buf : Bytes}
    {typed : String} (h : Respells typed.toList (generateCode buf).toList) :
    canonicalizeCode cr typed = some (generateCode buf) := by
  have hmem : ∀ c ∈ (generateCode buf).toList, c ≠ '-' →
      c ∈ CROCKFORD32 := by
    intro c hm hne
    have hf : c ∈ (generateCode buf).toList.filter (· != '-') :=
      List.mem_filter.mpr ⟨hm, bne_iff_ne.mpr hne⟩
    rw [generateCode_filter] at hf
    exact codeSymbols_mem hf
  obtain ⟨hk, ha⟩ := h.keys hmem
  have hkeys : keysOf typed = codeSymbols buf := by
    rw [keysOf, hk, generateCode_filter]
  have hlen := codeSymbols_length buf
  rw [canonicalizeCode_of_ascii hc ha, hkeys, generateCode_eq,
    List.take_of_length_le (l := (codeSymbols buf).drop 4)
      (by rw [List.length_drop]; omega)]

/-- Generated codes are canonical and lossless. Every five bytes have a code
of twice four symbols around a hyphen; different bytes have different
codes; and the canonical form of the code, and of whatever it is typed as,
is the code itself. -/
theorem generated_codes_canonical {cr : Crates} (hc : CaseLaws cr)
    {buf : Bytes} (hbuf : buf.length = 5) :
    (∃ front back, front.length = 4 ∧ back.length = 4 ∧
      (∀ c ∈ front ++ back, c ∈ CROCKFORD32) ∧
      generateCode buf = String.ofList (front ++ '-' :: back)) ∧
    (∀ buf' : Bytes, buf'.length = 5 → generateCode buf' = generateCode buf →
      buf' = buf) ∧
    canonicalizeCode cr (generateCode buf) = some (generateCode buf) ∧
    ∀ typed : String, Respells typed.toList (generateCode buf).toList →
      canonicalizeCode cr typed = some (generateCode buf) := by
  have hlen := codeSymbols_length buf
  refine ⟨⟨(codeSymbols buf).take 4, (codeSymbols buf).drop 4, ?_, ?_, ?_,
    generateCode_eq buf⟩, ?_, (Respells.refl _).canonical hc,
    fun typed h => h.canonical hc⟩
  · rw [List.length_take]
    omega
  · rw [List.length_drop]
    omega
  · intro c hm
    rw [List.take_append_drop] at hm
    exact codeSymbols_mem hm
  · intro buf' hbuf' he
    refine codeSymbols_inj hbuf' hbuf ?_
    rw [← generateCode_filter, ← generateCode_filter, he]

namespace Sample

/-- A generated code, and one of the ways to type it. -/
theorem generated_code_typed :
    generateCode [0, 84, 0, 175, 224] = "01A0-1BZ0" ∧
      canonicalizeCode crates "o-la0Ibzo" = some (generateCode [0, 84, 0, 175, 224]) := by
  have hcode : generateCode [0, 84, 0, 175, 224] = "01A0-1BZ0" := by decide +kernel
  have hlen : ([0, 84, 0, 175, 224] : Bytes).length = 5 := rfl
  refine ⟨hcode, (generated_codes_canonical caseLaws hlen).2.2.2 _ ?_⟩
  have hs : ∀ d c, MayStandFor d c → c ≠ '-' → ∀ {typed code},
      Respells typed code → Respells (d :: typed) (c :: code) :=
    fun d c hd hne _ _ h => .symbol hne hd h
  rw [hcode]
  show Respells ['o', '-', 'l', 'a', '0', 'I', 'b', 'z', 'o']
    ['0', '1', 'A', '0', '-', '1', 'B', 'Z', '0']
  refine hs _ _ (by decide) (by decide) (.putIn ?_)
  refine hs _ _ (by decide) (by decide) (hs _ _ (by decide) (by decide) ?_)
  refine hs _ _ (by decide) (by decide) (.leaveOut ?_)
  refine hs _ _ (by decide) (by decide) (hs _ _ (by decide) (by decide) ?_)
  exact hs _ _ (by decide) (by decide) (hs _ _ (by decide) (by decide) .nil)

end Sample

end Aauth
