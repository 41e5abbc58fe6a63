import Mathlib.Tactic.Common
import Aauth.Ref.Http

/-!
# Header maps

What a header map holds after an insertion, and which values survive being
read as text.
-/

namespace Aauth

namespace HeaderMap

variable {h : HeaderMap} {name name' value : String}

@[simp] theorem get_insert_self :
    (h.insert name value).get name = some value := by
  have hf : (h.entries.filter (·.1 != name)).find? (·.1 == name) = none := by
    simp
  simp only [get, insert, List.find?_append, hf]
  simp

theorem get_insert_of_ne (hne : name' ≠ name) :
    (h.insert name value).get name' = h.get name' := by
  have hp : ∀ e : String × String,
      decide ((e.1 != name) = true ∧ (e.1 == name') = true) =
        (e.1 == name') := by
    intro e
    by_cases he : e.1 = name'
    · simp [he, hne]
    · simp [he]
  have hs : ([(name, value)] : List (String × String)).find?
      (·.1 == name') = none := by
    simp [hne.symm]
  simp only [get, insert, List.find?_append, List.find?_filter, hp, hs,
    Option.or_none]

@[simp] theorem getAll_insert_self :
    (h.insert name value).getAll name = [value] := by
  have hf : (h.entries.filter (·.1 != name)).filter (·.1 == name) = [] := by
    simp
  simp only [getAll, insert, List.filter_append, hf]
  simp

theorem getAll_insert_of_ne (hne : name' ≠ name) :
    (h.insert name value).getAll name' = h.getAll name' := by
  have hp : ∀ e : String × String,
      ((e.1 == name') && (e.1 != name)) = (e.1 == name') := by
    intro e
    by_cases he : e.1 = name'
    · simp [he, hne]
    · simp [he]
  have hs : ([(name, value)] : List (String × String)).filter
      (·.1 == name') = [] := by
    simp [hne.symm]
  simp only [getAll, insert, List.filter_append, List.filter_filter, hp, hs,
    List.append_nil]

/-! ## One value for each name -/

/-- No name has two values. -/
def Single (h : HeaderMap) : Prop := (h.entries.map (·.1)).Nodup

theorem single_empty : empty.Single := List.nodup_nil

theorem Single.insert (hs : h.Single) (name value : String) :
    (h.insert name value).Single := by
  have hf : ((h.entries.filter (·.1 != name)).map (·.1)).Nodup :=
    hs.sublist (List.filter_sublist.map _)
  rw [Single, HeaderMap.insert, List.map_append, List.nodup_append]
  refine ⟨hf, by simp, ?_⟩
  intro a ha b hb hab
  obtain ⟨e, he, rfl⟩ := List.mem_map.mp ha
  have hne := (List.mem_filter.mp he).2
  have hbn : b = name := List.mem_singleton.mp hb
  rw [hab, hbn] at hne
  simp at hne

theorem Single.extend (hs : h.Single) (more : HeaderMap) :
    (h.extend more).Single := by
  rw [HeaderMap.extend]
  induction more.entries generalizing h with
  | nil => exact hs
  | cons e es ih => exact ih (hs.insert e.1 e.2)

theorem get_cons (e : String × String) (es : List (String × String)) :
    get ⟨e :: es⟩ name = if e.1 = name then some e.2 else get ⟨es⟩ name := by
  by_cases he : e.1 = name
  · simp [get, he]
  · simp [get, he]

/-- The other map's value, and else the one that was there. -/
theorem get_extend {more : HeaderMap} (hm : more.Single) :
    (h.extend more).get name = (more.get name).or (h.get name) := by
  obtain ⟨es⟩ := more
  rw [HeaderMap.extend]
  induction es generalizing h with
  | nil => rfl
  | cons e es ih =>
      rw [Single, List.map_cons, List.nodup_cons] at hm
      rw [List.foldl_cons, ih hm.2, get_cons]
      by_cases he : e.1 = name
      · have hn : get ⟨es⟩ name = none := by
          rw [get, Option.map_eq_none_iff, List.find?_eq_none]
          intro e' he' heq
          have hk : e'.1 = e.1 := (beq_iff_eq.mp heq).trans he.symm
          exact hm.1 (hk ▸ List.mem_map_of_mem he')
        rw [hn, he, get_insert_self, if_pos rfl]
        rfl
      · rw [get_insert_of_ne (Ne.symm he), if_neg he]

/-- A copy made name by name has the values of the original. -/
theorem get_copy (hs : h.Single) : (empty.extend h).get name = h.get name := by
  rw [get_extend hs]
  cases h.get name <;> rfl

end HeaderMap

theorem headerValueFromStr_eq_ok {value v : String} :
    headerValueFromStr value = .ok v ↔ toStr value = some v := by
  simp only [headerValueFromStr, toStr]
  split <;> simp

theorem toStr_eq_some {value v : String} :
    toStr value = some v ↔ value.toList.all isVisibleAscii = true ∧
      value = v := by
  simp only [toStr]
  split
  · next h => simp [h]
  · next h => simp [h]

theorem headerValue_insert_self {h : HeaderMap} {name value v : String}
    (hv : toStr value = some v) :
    headerValue (h.insert name value) name = some v := by
  rw [headerValue, HeaderMap.get_insert_self, Option.bind_some, hv]

theorem headerValue_insert_of_ne {h : HeaderMap} {name name' value : String}
    (hne : name' ≠ name) :
    headerValue (h.insert name value) name' = headerValue h name' := by
  rw [headerValue, HeaderMap.get_insert_of_ne hne, headerValue]

/-- A header that is read is visible ASCII. -/
theorem headerValue_visible {h : HeaderMap} {name v : String}
    (hv : headerValue h name = some v) :
    v.toList.all isVisibleAscii = true := by
  rw [headerValue, Option.bind_eq_some_iff] at hv
  obtain ⟨value, -, hs⟩ := hv
  obtain ⟨hvis, rfl⟩ := toStr_eq_some.mp hs
  exact hvis

end Aauth
