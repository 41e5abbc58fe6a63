import Aauth.Sample.Crates

/-!
# JSON text of the sample crates

A text for every tree: a tag in front of a value, numbers and strings in a
codec, brackets around what is nested. It shares with JSON what the bodies
need of it: `{}` is the empty object, and no text is blank.
-/

namespace Aauth.Sample

/-! ## Writing -/

mutual

def encValue : Json → Bytes
  | .null => [110]
  | .bool true => [116]
  | .bool false => [102]
  | .int n => 105 :: Codec.int.enc n
  | .float t => 46 :: Codec.string.enc t
  | .str s => 34 :: Codec.string.enc s
  | .arr items => 91 :: encItems items
  | .obj members => 123 :: encMembers members

def encItems : List Json → Bytes
  | [] => [93]
  | v :: vs => encValue v ++ encItems vs

def encMembers : List (String × Json) → Bytes
  | [] => [125]
  | (name, v) :: ms =>
      34 :: (Codec.string.enc name ++ (encValue v ++ encMembers ms))

end

/-! ## Reading -/

mutual

def decValue : Nat → Bytes → Option (Json × Bytes)
  | 0, _ => none
  | _, [] => none
  | n + 1, b :: bs =>
      if b = 110 then some (.null, bs)
      else if b = 116 then some (.bool true, bs)
      else if b = 102 then some (.bool false, bs)
      else if b = 105 then (Codec.int.dec bs).map fun q => (.int q.1, q.2)
      else if b = 46 then
        (Codec.string.dec bs).map fun q => (.float q.1, q.2)
      else if b = 34 then (Codec.string.dec bs).map fun q => (.str q.1, q.2)
      else if b = 91 then (decItems n bs).map fun q => (.arr q.1, q.2)
      else if b = 123 then (decMembers n bs).map fun q => (.obj q.1, q.2)
      else none

def decItems : Nat → Bytes → Option (List Json × Bytes)
  | 0, _ => none
  | _, [] => none
  | n + 1, b :: bs =>
      if b = 93 then some ([], bs)
      else (decValue n (b :: bs)).bind fun q =>
        (decItems n q.2).map fun r => (q.1 :: r.1, r.2)

def decMembers : Nat → Bytes → Option (List (String × Json) × Bytes)
  | 0, _ => none
  | _, [] => none
  | n + 1, b :: bs =>
      if b = 125 then some ([], bs)
      else if b = 34 then
        (Codec.string.dec bs).bind fun name =>
          (decValue n name.2).bind fun q =>
            (decMembers n q.2).map fun r => ((name.1, q.1) :: r.1, r.2)
      else none

end

/-! ## Reading what was written -/

/-- A value does not start like the end of a list. -/
theorem encValue_head (v : Json) :
    ∃ b bs, encValue v = b :: bs ∧ b ≠ 93 := by
  cases v with
  | bool b => cases b <;> exact ⟨_, _, by rw [encValue], by decide⟩
  | _ => exact ⟨_, _, by rw [encValue], by decide⟩

theorem encItems_length (vs : List Json) : 0 < (encItems vs).length := by
  cases vs with
  | nil => exact Nat.one_pos
  | cons v vs =>
      obtain ⟨b, bs, hv, -⟩ := encValue_head v
      rw [encItems, hv, List.cons_append, List.length_cons]
      omega

mutual

theorem decValue_encValue : ∀ (v : Json) (n : Nat) (rest : Bytes),
    (encValue v).length ≤ n → decValue n (encValue v ++ rest) = some (v, rest)
  | v, 0, rest, h => by
      obtain ⟨b, bs, hv, -⟩ := encValue_head v
      rw [hv] at h
      exact absurd h (by simp)
  | .null, n + 1, rest, _ => rfl
  | .bool true, n + 1, rest, _ => rfl
  | .bool false, n + 1, rest, _ => rfl
  | .int i, n + 1, rest, _ => by
      rw [encValue, List.cons_append]
      simp [decValue, Codec.int.dec_enc]
  | .float t, n + 1, rest, _ => by
      rw [encValue, List.cons_append]
      simp [decValue, Codec.string.dec_enc]
  | .str s, n + 1, rest, _ => by
      rw [encValue, List.cons_append]
      simp [decValue, Codec.string.dec_enc]
  | .arr items, n + 1, rest, h => by
      rw [encValue, List.length_cons] at h
      have hi := decItems_encItems items n rest (by omega)
      rw [encValue, List.cons_append]
      simp [decValue, hi]
  | .obj members, n + 1, rest, h => by
      rw [encValue, List.length_cons] at h
      have hm := decMembers_encMembers members n rest (by omega)
      rw [encValue, List.cons_append]
      simp [decValue, hm]

theorem decItems_encItems : ∀ (vs : List Json) (n : Nat) (rest : Bytes),
    (encItems vs).length ≤ n →
      decItems n (encItems vs ++ rest) = some (vs, rest)
  | [], 0, rest, h => by
      rw [encItems] at h
      exact absurd h (by simp)
  | [], n + 1, rest, _ => rfl
  | v :: vs, n, rest, h => by
      obtain ⟨b, bs, hb, hne⟩ := encValue_head v
      rw [encItems, List.length_append] at h
      have hl : (encValue v).length = bs.length + 1 := by
        rw [hb, List.length_cons]
      have hp := encItems_length vs
      cases n with
      | zero => omega
      | succ n =>
          have hv := decValue_encValue v n (encItems vs ++ rest) (by omega)
          have hvs := decItems_encItems vs n rest (by omega)
          rw [encItems, List.append_assoc]
          rw [hb, List.cons_append] at hv ⊢
          rw [decItems, if_neg hne, hv, Option.bind_some, hvs]
          rfl

theorem decMembers_encMembers :
    ∀ (ms : List (String × Json)) (n : Nat) (rest : Bytes),
      (encMembers ms).length ≤ n →
        decMembers n (encMembers ms ++ rest) = some (ms, rest)
  | [], 0, rest, h => by
      rw [encMembers] at h
      exact absurd h (by simp)
  | [], n + 1, rest, _ => rfl
  | (name, v) :: ms, 0, rest, h => by
      rw [encMembers] at h
      exact absurd h (by simp)
  | (name, v) :: ms, n + 1, rest, h => by
      rw [encMembers, List.length_cons, List.length_append,
        List.length_append] at h
      have hv := decValue_encValue v n (encMembers ms ++ rest) (by omega)
      have hms := decMembers_encMembers ms n rest (by omega)
      rw [encMembers, List.cons_append, List.append_assoc, List.append_assoc]
      simp [decMembers, Codec.string.dec_enc, hv, hms]

end

/-! ## The crates with this text -/

def jsonText : Serde Json where
  fromSlice bs := match decValue bs.length bs with
    | some (v, []) => .ok v
    | _ => .error "invalid JSON"
  toVec := encValue

theorem jsonText_written (v : Json) :
    jsonText.fromSlice (jsonText.toVec v) = .ok v := by
  have h := decValue_encValue v _ [] (Nat.le_refl _)
  rw [List.append_nil] at h
  simp only [jsonText, h]

/-- The first byte of a text is a tag, which no blank is. -/
theorem decValue_blank {b : UInt8} (h : isAsciiWhitespace b = true)
    (n : Nat) (bs : Bytes) : decValue n (b :: bs) = none := by
  cases n with
  | zero => rfl
  | succ n =>
      simp only [isAsciiWhitespace, Bool.or_eq_true, beq_iff_eq] at h
      rcases h with (((rfl | rfl) | rfl) | rfl) | rfl <;> rfl

def wireCrates : Crates :=
  { crates with json := { crates.json with value := jsonText } }

theorem wireCrates_json : JsonLaws wireCrates := by
  have hall : ∀ v, IsJson wireCrates v := fun v => ⟨_, jsonText_written v⟩
  exact
    { written := fun _ => jsonText_written _
      blank := by
        intro text v hb hv
        cases text with
        | nil => exact nomatch hv
        | cons b bs =>
            rw [List.all_cons, Bool.and_eq_true] at hb
            have hv : jsonText.fromSlice (b :: bs) = .ok v := hv
            simp only [jsonText, decValue_blank hb.1] at hv
            exact nomatch hv
      emptyObject := rfl
      str := fun s => hall _
      int := fun n _ _ => hall _
      arr := fun _ => hall _
      obj := fun _ => hall _ }

/-! ## The crates with bodies and headers

The headers of the sample tokens are read as before; every other text is
one of the above. The first byte tells them apart. -/

def startsHeader (bs : Bytes) : Bool :=
  bs.head? == some 0 || bs.head? == some 129

def anyJson : Serde Json where
  fromSlice bs :=
    if startsHeader bs then headerJson.fromSlice bs else jsonText.fromSlice bs
  toVec := encValue

theorem startsHeader_enc (h : Header) :
    startsHeader (header.enc h) = true := by
  obtain ⟨typ, alg, kid⟩ := h
  cases typ with
  | none => simp [startsHeader, header, Codec.refine, Codec.pair, optString,
      Codec.option, Codec.iso, Codec.list, Codec.natEnc]
  | some typ => simp [startsHeader, header, Codec.refine, Codec.pair,
      optString, Codec.option, Codec.iso, Codec.list, Codec.natEnc]

theorem not_startsHeader_encValue (v : Json) :
    startsHeader (encValue v) = false := by
  cases v with
  | bool b => cases b <;> rfl
  | _ => rfl

theorem anyJson_written (v : Json) :
    anyJson.fromSlice (anyJson.toVec v) = .ok v := by
  show (if startsHeader (encValue v) = true then _ else _) = _
  rw [not_startsHeader_encValue, if_neg Bool.false_ne_true]
  exact jsonText_written v

/-- The same crates, with another JSON. -/
def withJson (cr : Crates) (value : Serde Json) : Crates :=
  { cr with json := { cr.json with value := value } }

def fullCrates : Crates := withJson crates anyJson

end Aauth.Sample
