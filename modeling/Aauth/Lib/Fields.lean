import Mathlib.Algebra.Group.Int.Defs
import Mathlib.Algebra.Group.Nat.Defs
import Aauth.Lib.Json

/-!
# Reading the fields of a record

How a derived deserializer takes a record out of a JSON value. An object
gives its fields by name: a name of the record may occur once, a name it
does not know is passed over. An array gives them by position, and may
leave out those at its end. The lemmas are about objects that a derived
serializer wrote: the fields in order, an optional one only when it has a
value.
-/

namespace Json

/-! ## Values -/

def isObject : Json → Bool
  | obj _ => true
  | _ => false

/-- A `u64`; a larger number is read as a fraction and does not fit. -/
def asU64 : Json → Option Nat
  | int (.ofNat n) => if n < 2 ^ 64 then some n else none
  | _ => none

/-- An `i64`. -/
def asI64 : Json → Option Int
  | int n => if -2 ^ 63 ≤ n ∧ n < 2 ^ 63 then some n else none
  | _ => none

def asList {α : Type} (read : Json → Option α) : Json → Option (List α)
  | arr items => items.mapM read
  | _ => none

theorem asU64_int {n : Nat} (h : n < 2 ^ 64) : asU64 (int n) = some n :=
  if_pos h

theorem asI64_int {n : Int} (h : -2 ^ 63 ≤ n ∧ n < 2 ^ 63) :
    asI64 (int n) = some n := if_pos h

theorem asList_map {α : Type} {read : Json → Option α} {write : α → Json}
    (h : ∀ a, read (write a) = some a) (as : List α) :
    asList read (arr (as.map write)) = some as := by
  rw [asList]
  induction as with
  | nil => rfl
  | cons a as ih =>
      rw [List.map_cons, List.mapM_cons, h, ih]
      rfl

/-! ## Members -/

/-- The values of the members of one name, in order. -/
def occurrences (name : String) (members : List (String × Json)) :
    List Json :=
  (members.filter (·.1 == name)).map (·.2)

@[simp] theorem occurrences_nil (name : String) : occurrences name [] = [] :=
  rfl

@[simp] theorem occurrences_append (name : String)
    (ms ms' : List (String × Json)) :
    occurrences name (ms ++ ms') =
      occurrences name ms ++ occurrences name ms' := by
  rw [occurrences, List.filter_append, List.map_append]
  rfl

theorem occurrences_cons (name key : String) (v : Json)
    (ms : List (String × Json)) :
    occurrences name ((key, v) :: ms) =
      if key = name then v :: occurrences name ms
      else occurrences name ms := by
  by_cases h : key = name
  · simp [occurrences, h]
  · simp [occurrences, h]

theorem occurrences_eq_nil {name : String} {ms : List (String × Json)} :
    occurrences name ms = [] ↔ name ∉ ms.map (·.1) := by
  simp only [occurrences, List.map_eq_nil_iff, List.filter_eq_nil_iff,
    beq_iff_eq, List.mem_map, not_exists, not_and]

theorem mem_occurrences {name : String} {ms : List (String × Json)}
    {v : Json} : v ∈ occurrences name ms ↔ (name, v) ∈ ms := by
  simp [occurrences]

/-- In a map a name has at most one value. -/
theorem occurrences_of_mem {name : String} {ms : List (String × Json)}
    {v : Json} (hk : (ms.map (·.1)).Nodup) (h : (name, v) ∈ ms) :
    occurrences name ms = [v] := by
  induction ms with
  | nil => exact absurd h List.not_mem_nil
  | cons m ms ih =>
      obtain ⟨key, w⟩ := m
      rw [List.map_cons, List.nodup_cons] at hk
      rw [occurrences_cons]
      rcases List.mem_cons.mp h with heq | h
      · cases heq
        rw [if_pos rfl, occurrences_eq_nil.mpr hk.1]
      · have hne : key ≠ name := by
          intro he
          have hm : name ∈ ms.map (·.1) := List.mem_map_of_mem h
          exact hk.1 (he ▸ hm)
        rw [if_neg hne, ih hk.2 h]

theorem occurrences_length {ms : List (String × Json)}
    (hk : (ms.map (·.1)).Nodup) (name : String) :
    (occurrences name ms).length ≤ 1 := by
  cases ho : occurrences name ms with
  | nil => exact Nat.zero_le 1
  | cons v vs =>
      have hv : v ∈ occurrences name ms := by
        rw [ho]
        exact List.mem_cons_self
      rw [occurrences_of_mem hk (mem_occurrences.mp hv)] at ho
      rw [← ho]
      exact Nat.le_refl 1

/-- The members of no name of the record. -/
def others (names : List String) (members : List (String × Json)) :
    List (String × Json) :=
  members.filter fun m => !names.contains m.1

theorem others_append (names : List String) (ms ms' : List (String × Json)) :
    others names (ms ++ ms') = others names ms ++ others names ms' :=
  List.filter_append ..

theorem others_of_disjoint {names : List String} {ms : List (String × Json)}
    (h : ∀ n ∈ names, n ∉ ms.map (·.1)) : others names ms = ms := by
  rw [others, List.filter_eq_self]
  intro m hm
  have hn : m.1 ∉ names := fun hn => h _ hn (List.mem_map_of_mem hm)
  simpa using hn

theorem others_eq_nil {names : List String} {ms : List (String × Json)}
    (h : ∀ n ∈ ms.map (·.1), n ∈ names) : others names ms = [] := by
  rw [others, List.filter_eq_nil_iff]
  intro m hm
  have hn : m.1 ∈ names := h _ (List.mem_map_of_mem hm)
  simpa using hn

theorem not_mem_others {names : List String} {ms : List (String × Json)}
    {n : String} (hn : n ∈ names) : n ∉ (others names ms).map (·.1) := by
  intro h
  obtain ⟨m, hm, rfl⟩ := List.mem_map.mp h
  have hc := (List.mem_filter.mp hm).2
  rw [List.contains_iff_mem.mpr hn] at hc
  exact absurd hc (by decide)

/-! ## Records -/

/-- The value of a name, when there is one. -/
def member (members : List (String × Json)) (name : String) : Option Json :=
  (occurrences name members).head?

/-- The field of each name, unless a name occurs twice, there are too many
items, or the value is neither an object nor an array. -/
def fields (names : List String) : Json → Option (String → Option Json)
  | obj members =>
      if names.all fun n => (occurrences n members).length ≤ 1 then
        some (member members)
      else none
  | arr items =>
      if items.length ≤ names.length then
        some fun n => items[names.idxOf n]?
      else none
  | _ => none

def required {α : Type} (read : Json → Option α) (field : Option Json) :
    Option α :=
  field.bind read

/-- `null` is no value. -/
def optional {α : Type} (read : Json → Option α) :
    Option Json → Option (Option α)
  | none => some none
  | some null => some none
  | some v => (read v).map some

/-- An optional field as it is written: left out without a value. -/
def written {α : Type} (name : String) (write : α → Json) :
    Option α → List (String × Json)
  | none => []
  | some a => [(name, write a)]

theorem occurrences_written {α : Type} (n name : String) (write : α → Json)
    (o : Option α) :
    occurrences n (written name write o) =
      if name = n then (o.map write).toList else [] := by
  cases o with
  | none => simp [written]
  | some a => simp [written, occurrences_cons]

theorem names_written {α : Type} (name : String) (write : α → Json)
    (o : Option α) : ((written name write o).map (·.1)).Sublist [name] := by
  cases o with
  | none => exact List.nil_sublist _
  | some a => exact List.Sublist.refl _

theorem fields_obj {names : List String} {ms : List (String × Json)}
    (h : (ms.map (·.1)).Nodup) :
    fields names (obj ms) = some (member ms) := by
  rw [fields, if_pos]
  rw [List.all_eq_true]
  intro n _
  rw [decide_eq_true_eq]
  exact occurrences_length h n

/-- A record whose names are among distinct ones has no name twice. -/
theorem fields_obj_sublist (keys : List String) {names : List String}
    {ms : List (String × Json)} (h : (ms.map (·.1)).Sublist keys)
    (hk : keys.Nodup) :
    fields names (obj ms) = some (member ms) :=
  fields_obj (h.nodup hk)

/-- A field of a record is smaller than the record. -/
theorem sizeOf_field {names : List String} {j v : Json}
    {field : String → Option Json} {n : String}
    (h : fields names j = some field) (hv : field n = some v) :
    sizeOf v < sizeOf j := by
  cases j with
  | obj members =>
      rw [fields] at h
      split at h
      · cases h
        have hm : v ∈ occurrences n members :=
          List.mem_of_mem_head? (Option.mem_def.mpr hv)
        have hlt := List.sizeOf_lt_of_mem (mem_occurrences.mp hm)
        simp only [Prod.mk.sizeOf_spec, obj.sizeOf_spec] at hlt ⊢
        omega
      · cases h
  | arr items =>
      rw [fields] at h
      split at h
      · cases h
        have hlt := List.sizeOf_lt_of_mem (List.mem_of_getElem? hv)
        rw [arr.sizeOf_spec]
        omega
      · cases h
  | null | bool _ | int _ | float _ | str _ => cases h

/-- A record as it is written: a field without a value is left out. -/
def record (l : List (String × Option Json)) : List (String × Json) :=
  l.filterMap fun f => f.2.map fun v => (f.1, v)

theorem record_append (l l' : List (String × Option Json)) :
    record (l ++ l') = record l ++ record l' :=
  List.filterMap_append

theorem written_eq_record {α : Type} (name : String) (write : α → Json)
    (o : Option α) : written name write o = record [(name, o.map write)] := by
  cases o with
  | none => rfl
  | some a => rfl

theorem names_record (l : List (String × Option Json)) :
    ((record l).map (·.1)).Sublist (l.map (·.1)) := by
  induction l with
  | nil => exact List.Sublist.refl _
  | cons f l ih =>
      obtain ⟨n, o⟩ := f
      cases o with
      | none => exact ih.cons _
      | some v => exact ih.cons_cons _

theorem member_record {l : List (String × Option Json)}
    (h : (l.map (·.1)).Nodup) (n : String) :
    member (record l) n = (l.find? (·.1 == n)).bind (·.2) := by
  induction l with
  | nil => rfl
  | cons f l ih =>
      obtain ⟨key, o⟩ := f
      rw [List.map_cons, List.nodup_cons] at h
      by_cases hn : key = n
      · subst hn
        have hnone : occurrences key (record l) = [] :=
          occurrences_eq_nil.mpr fun hm => h.1 ((names_record l).subset hm)
        rw [List.find?_cons_of_pos (by simp), Option.bind_some]
        cases o with
        | none => exact congrArg List.head? hnone
        | some v =>
            show (occurrences key ((key, v) :: record l)).head? = some v
            rw [occurrences_cons, if_pos rfl]
            rfl
      · rw [List.find?_cons_of_neg (by simpa using hn), ← ih h.2]
        cases o with
        | none => rfl
        | some v =>
            show (occurrences n ((key, v) :: record l)).head? = _
            rw [occurrences_cons, if_neg hn]
            rfl

/-- A written record is read field by field. -/
theorem fields_record {names : List String} {l : List (String × Option Json)}
    (h : (l.map (·.1)).Nodup) :
    fields names (obj (record l)) =
      some fun n => (l.find? (·.1 == n)).bind (·.2) := by
  rw [fields_obj ((names_record l).nodup h)]
  exact congrArg some (funext (member_record h))

theorem optional_written {α : Type} {read : Json → Option α}
    {write : α → Json} {o : Option α} (h : ∀ a ∈ o, read (write a) = some a)
    (hn : ∀ a, write a ≠ null) : optional read (o.map write) = some o := by
  cases o with
  | none => rfl
  | some a =>
      rw [Option.map_some, optional, h a rfl, Option.map_some]
      exact hn a

end Json
