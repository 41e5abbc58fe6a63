import Aauth.Ref.CrateLaws

/-!
# What a body says is what was put in it

Each body type is read back from the tree it is written as, and from the
bytes of that tree. An error keeps its code as long as the code is spelled
as the name it has: a custom code that spells a named one comes back as
that one.
-/

namespace Aauth

open Json

variable {cr : Crates}

/-! ## Bytes -/

theorem fromSlice_jsonBytes {α : Type} {read : Json → Option α} {v : Json}
    (h : JsonLaws cr) (hv : IsJson cr v) :
    fromSlice cr read (jsonBytes cr v) = read v := by
  rw [fromSlice, jsonBytes, h.written hv]
  rfl

/-- A body is read back when its tree is. -/
theorem fromSlice_of_tree {α : Type} {read : Json → Option α} {v : Json}
    {a : α} (h : JsonLaws cr) (hv : IsJson cr v) (hr : read v = some a) :
    fromSlice cr read (jsonBytes cr v) = some a := by
  rw [fromSlice_jsonBytes h hv, hr]

/-- What is written is not taken for an empty body. -/
theorem jsonBytes_not_blank {v : Json} (h : JsonLaws cr)
    (hv : IsJson cr v) : (jsonBytes cr v).all isAsciiWhitespace = false := by
  cases hb : (jsonBytes cr v).all isAsciiWhitespace with
  | false => rfl
  | true => exact absurd (h.written hv) (h.blank hb)

theorem jsonBytes_not_empty {v : Json} (h : JsonLaws cr)
    (hv : IsJson cr v) : (jsonBytes cr v).isEmpty = false := by
  have hb := jsonBytes_not_blank h hv
  cases hj : jsonBytes cr v with
  | nil => rw [hj] at hb; exact absurd hb (by decide)
  | cons b bs => rfl

/-! ## Members that are JSON -/

theorem isJson_written {α : Type} {write : α → Json} {o : Option α}
    (name : String) (h : ∀ a ∈ o, IsJson cr (write a)) :
    ∀ m ∈ written name write o, IsJson cr m.2 := by
  intro m hm
  cases o with
  | none => exact absurd hm List.not_mem_nil
  | some a =>
      rw [written, List.mem_singleton] at hm
      rw [hm]
      exact h a rfl

theorem isJson_append {ms ms' : List (String × Json)}
    (h : ∀ m ∈ ms, IsJson cr m.2) (h' : ∀ m ∈ ms', IsJson cr m.2) :
    ∀ m ∈ ms ++ ms', IsJson cr m.2 := by
  intro m hm
  rcases List.mem_append.mp hm with hm | hm
  · exact h m hm
  · exact h' m hm

theorem isJson_cons {m : String × Json} {ms : List (String × Json)}
    (h : IsJson cr m.2) (h' : ∀ m ∈ ms, IsJson cr m.2) :
    ∀ m' ∈ m :: ms, IsJson cr m'.2 := by
  intro m' hm
  rcases List.mem_cons.mp hm with rfl | hm
  · exact h
  · exact h' m' hm

theorem isJson_nil : ∀ m ∈ ([] : List (String × Json)), IsJson cr m.2 :=
  fun _ hm => absurd hm List.not_mem_nil

theorem isJson_nat (h : JsonLaws cr) {n : Nat} (hn : n < 2 ^ 64) :
    IsJson cr (.int n) :=
  h.int n (by omega) (by omega)

theorem isJson_strings (h : JsonLaws cr) (l : List String) :
    IsJson cr (.arr (l.map .str)) := by
  apply h.arr
  intro v hv
  obtain ⟨s, -, rfl⟩ := List.mem_map.mp hv
  exact h.str s

/-! ## Token responses -/

theorem TokenResponseBody.isJson (h : JsonLaws cr) {b : TokenResponseBody}
    (hb : b.expiresIn < 2 ^ 64) : IsJson cr b.toJson :=
  h.obj (isJson_cons (h.str _) (isJson_cons (isJson_nat h hb) isJson_nil))

theorem TokenResponseBody.fromJson_toJson {b : TokenResponseBody}
    (hb : b.expiresIn < 2 ^ 64) : fromJson b.toJson = some b := by
  rw [toJson, fromJson, fields_obj]
  · simp [member, occurrences_cons, required, asStr, asU64_int hb]
  · show ["auth_token", "expires_in"].Nodup
    decide

/-! ## Pending bodies -/

@[simp] theorem PendingStatus.fromStr_asStr (s : PendingStatus) :
    fromStr s.asStr = some s := by
  cases s <;> decide

@[simp] theorem PendingStatus.fromJson_toJson (s : PendingStatus) :
    fromJson s.toJson = some s := fromStr_asStr s

theorem PendingStatus.isJson (h : JsonLaws cr) (s : PendingStatus) :
    IsJson cr s.toJson := h.str _

theorem asList_str (l : List String) :
    asList asStr (.arr (l.map .str)) = some l := by
  have h : ∀ s, asStr (.str s) = some s := fun _ => rfl
  exact asList_map h l

theorem ClaimsChallenge.isJson (h : JsonLaws cr) (c : ClaimsChallenge) :
    IsJson cr c.toJson :=
  h.obj (isJson_cons (c.status.isJson h)
    (isJson_cons (isJson_strings h _) isJson_nil))

theorem ClaimsChallenge.fromJson_toJson (c : ClaimsChallenge) :
    fromJson c.toJson = some c := by
  rw [toJson, fromJson, fields_obj]
  · simp [member, occurrences_cons, required, asList_str]
  · show ["status", "required_claims"].Nodup
    decide

/-- A timeout is a `u64`. -/
def ClarificationChallenge.Fits (c : ClarificationChallenge) : Prop :=
  ∀ n ∈ c.timeout, n < 2 ^ 64

theorem ClarificationChallenge.isJson (h : JsonLaws cr)
    {c : ClarificationChallenge} (hc : c.Fits) : IsJson cr c.toJson := by
  apply h.obj
  apply isJson_append (isJson_append _ _)
  · exact isJson_written _ fun o _ => isJson_strings h o
  · exact isJson_cons (c.status.isJson h)
      (isJson_cons (h.str _) isJson_nil)
  · exact isJson_written _ fun n hn => isJson_nat h (hc n hn)

theorem ClarificationChallenge.fromJson_toJson
    {c : ClarificationChallenge} (hc : c.Fits) :
    fromJson c.toJson = some c := by
  have ht : optional asU64 (c.timeout.map fun n : Nat => .int n) =
      some c.timeout :=
    optional_written (fun n hn => asU64_int (hc n hn)) fun _ => nofun
  have ho : optional (asList asStr) (c.options.map fun o => .arr (o.map .str))
      = some c.options :=
    optional_written (fun o _ => asList_str o) fun _ => nofun
  rw [toJson, fromJson, fields_obj_sublist
    (["status", "clarification"] ++ ["timeout"] ++ ["options"])]
  · simp [member, occurrences_cons, occurrences_written, required, asStr, ht, ho]
  · rw [List.map_append, List.map_append]
    exact .append (.append (.refl _) (names_written ..)) (names_written ..)
  · decide

/-! ## Errors -/

theorem AAuthErrorCode.fromWire_asStr_named {c : AAuthErrorCode}
    (h : c ∈ named) : fromWire c.asStr = c := by
  revert c
  decide

theorem AAuthErrorCode.fromWire_custom (code : String)
    (h : ∀ c ∈ named, c.asStr ≠ code) : fromWire code = custom code := by
  rw [fromWire, List.find?_eq_none.mpr]
  · rfl
  · intro c hc
    simpa using h c hc

theorem AAuthProtocolError.isJson (h : JsonLaws cr)
    (e : AAuthProtocolError) : IsJson cr e.toJson := by
  apply h.obj
  apply isJson_append (isJson_append _ _)
  · exact isJson_written _ fun s _ => h.str s
  · exact isJson_cons (h.str _) isJson_nil
  · exact isJson_written _ fun s _ => h.str s

/-- The code is read from its spelling, the texts as they are. -/
theorem AAuthProtocolError.fromJson_toJson (e : AAuthProtocolError) :
    fromJson e.toJson =
      some { e with error := .fromWire e.error.asStr } := by
  have hw : ∀ o : Option String, optional asStr (o.map .str) = some o :=
    fun o => optional_written (fun _ _ => rfl) fun _ => nofun
  rw [toJson, fromJson, fields_obj_sublist
    (["error"] ++ ["error_description"] ++ ["error_uri"])]
  · simp [member, occurrences_cons, occurrences_written, required, asStr, hw]
  · rw [List.map_append, List.map_append]
    exact .append (.append (.refl _) (names_written ..)) (names_written ..)
  · decide

end Aauth
