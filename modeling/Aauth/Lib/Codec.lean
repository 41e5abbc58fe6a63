import Mathlib.Data.Nat.Digits.Defs

/-!
# Codecs

A codec writes a value as bytes and reads it back from the front of a
longer input. The round trip is a field, so a codec that is put together
from codecs needs no proof of its own beyond the one its combinator asks
for.
-/

/-- A writer and a reader that undoes it and leaves the rest. -/
structure Codec (α : Type) where
  enc : α → List UInt8
  dec : List UInt8 → Option (α × List UInt8)
  dec_enc : ∀ a rest, dec (enc a ++ rest) = some (a, rest)

namespace Codec

variable {α β : Type}

/-! ## Numbers -/

/-- Digits in base 128, least significant first, closed by a zero byte. -/
def natEnc (n : Nat) : List UInt8 :=
  (Nat.digits 128 n).map (fun d => UInt8.ofNat (d + 128)) ++ [0]

def natDec : List UInt8 → Option (Nat × List UInt8)
  | [] => none
  | b :: bs =>
      if b = 0 then some (0, bs)
      else (natDec bs).map fun q => (b.toNat - 128 + 128 * q.1, q.2)

theorem natDec_digits {ds : List Nat} (h : ∀ d ∈ ds, d < 128)
    (rest : List UInt8) :
    natDec (ds.map (fun d => UInt8.ofNat (d + 128)) ++ 0 :: rest) =
      some (Nat.ofDigits 128 ds, rest) := by
  induction ds with
  | nil => rfl
  | cons d ds ih =>
      have hd : d < 128 := h d List.mem_cons_self
      have hb : (UInt8.ofNat (d + 128)).toNat = d + 128 := by
        rw [UInt8.toNat_ofNat', Nat.mod_eq_of_lt (by omega)]
      have h0 : UInt8.ofNat (d + 128) ≠ 0 := by
        intro he
        rw [he, UInt8.toNat_zero] at hb
        omega
      have ih := ih fun e he => h e (List.mem_cons_of_mem d he)
      simp only [List.map_cons, List.cons_append, natDec, if_neg h0, ih, hb,
        Option.map_some, Nat.ofDigits_cons, Nat.add_sub_cancel]

def nat : Codec Nat where
  enc := natEnc
  dec := natDec
  dec_enc n rest := by
    have hd : ∀ d ∈ Nat.digits 128 n, d < 128 := fun d h =>
      Nat.digits_lt_base (by omega) h
    rw [natEnc, List.append_assoc, List.singleton_append, natDec_digits hd,
      Nat.ofDigits_digits]

/-! ## Combinators -/

/-- A change of representation that not every value read has. -/
def refine (c : Codec α) (pack : α → Option β) (unpack : β → α)
    (h : ∀ b, pack (unpack b) = some b) : Codec β where
  enc b := c.enc (unpack b)
  dec bs := (c.dec bs).bind fun q => (pack q.1).map fun b => (b, q.2)
  dec_enc b rest := by rw [c.dec_enc, Option.bind_some, h, Option.map_some]

/-- A change of representation. -/
def iso (c : Codec α) (pack : α → β) (unpack : β → α)
    (h : ∀ b, pack (unpack b) = b) : Codec β :=
  c.refine (fun a => some (pack a)) unpack fun b => congrArg some (h b)

def pair (c : Codec α) (d : Codec β) : Codec (α × β) where
  enc p := c.enc p.1 ++ d.enc p.2
  dec bs := (c.dec bs).bind fun q => (d.dec q.2).map fun r =>
    ((q.1, r.1), r.2)
  dec_enc p rest := by
    rw [List.append_assoc, c.dec_enc, Option.bind_some, d.dec_enc]
    rfl

/-- The values of a list whose length is known. -/
def decMany (c : Codec α) : Nat → List UInt8 → Option (List α × List UInt8)
  | 0, bs => some ([], bs)
  | n + 1, bs => (c.dec bs).bind fun q => (decMany c n q.2).map fun r =>
      (q.1 :: r.1, r.2)

theorem decMany_flatMap (c : Codec α) (as : List α) (rest : List UInt8) :
    decMany c as.length (as.flatMap c.enc ++ rest) = some (as, rest) := by
  induction as with
  | nil => rfl
  | cons a as ih =>
      rw [List.flatMap_cons, List.append_assoc, List.length_cons, decMany,
        c.dec_enc, Option.bind_some, ih]
      rfl

/-- The length, then the values. -/
def list (c : Codec α) : Codec (List α) where
  enc as := natEnc as.length ++ as.flatMap c.enc
  dec bs := (natDec bs).bind fun q => decMany c q.1 q.2
  dec_enc as rest := by
    have h := nat.dec_enc as.length (as.flatMap c.enc ++ rest)
    simp only [nat] at h
    rw [List.append_assoc, h, Option.bind_some, decMany_flatMap]

def option (c : Codec α) : Codec (Option α) :=
  c.list.iso List.head? Option.toList fun o => by cases o <;> rfl

def char : Codec Char :=
  nat.iso Char.ofNat Char.toNat Char.ofNat_toNat

def string : Codec String :=
  char.list.iso String.ofList String.toList fun _ => String.ofList_toList

/-- A sign and an absolute value. -/
def int : Codec Int :=
  (nat.pair nat).iso (fun p => (p.1 : Int) - p.2)
    (fun i => (i.toNat, (-i).toNat)) fun i => by simp only []; omega

end Codec
