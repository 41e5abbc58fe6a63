import Aauth.Lib.StructuredField
import Aauth.Ref.AgentClient

/-!
# The capabilities a header lists

`AAuth-Capabilities` is a structured field list of tokens. What is written
is read back. What others may write is read differently: a token that has
parameters is not recognised, though parameters are to be ignored, and a
name that stands alone between two commas of a quoted value is taken for a
member.
-/

namespace Aauth

open Text StructuredField

namespace Capability

/-! ## Lists -/

/-- What a piece between two commas is taken for. -/
def ofPiece (piece : List Char) : Option Capability :=
  fromStr (trim (String.ofList piece))

/-- What a list says: parameters and other tokens are ignored. -/
def stated (m : Member) : List Capability :=
  (fromStr (String.ofList m.item.token)).toList

/-- The names that stand alone between two commas of a quoted value. -/
def enclosed (m : Member) : List Capability :=
  m.item.params.flatMap fun p => p.enclosed.filterMap ofPiece

/-- Without the tokens that carry parameters, with what these enclose. -/
def exchanged (m : Member) : List Capability :=
  if m.item.params.isEmpty then stated m else enclosed m

theorem fromStr_asStr (c : Capability) : fromStr c.asStr = some c := by
  cases c <;> rfl

theorem asStr_of_fromStr {value : String} {c : Capability}
    (h : fromStr value = some c) : value = c.asStr := by
  unfold fromStr at h
  split at h
  · cases h
    rfl
  · cases h
    rfl
  · cases h
    rfl
  · cases h

theorem isToken_asStr (c : Capability) : IsToken c.asStr.toList := by
  cases c
  · exact ⟨⟨'i', rfl, by decide⟩, by decide⟩
  · exact ⟨⟨'c', rfl, by decide⟩, by decide⟩
  · exact ⟨⟨'p', rfl, by decide⟩, by decide⟩

/-- No name has a character that is neither of a token nor trimmed. -/
theorem ofPiece_eq_none {piece : List Char} {d : Char} (hd : d ∈ piece)
    (ht : isTokenLetter d = false) (hw : isWhitespace d = false) :
    ofPiece piece = none := by
  rw [ofPiece, Option.eq_none_iff_forall_not_mem]
  intro c hc
  have htrim : d ∈ (trim (String.ofList piece)).toList := by
    rw [trim, String.toList_ofList, String.toList_ofList]
    rcases @mem_trimL_or isWhitespace _ _ hd with h | h
    · exact h
    · rw [hw] at h
      cases h
  rw [asStr_of_fromStr hc] at htrim
  exact (isToken_asStr c).not_mem ht htrim

theorem parseHeader_eq (s : List Char) :
    parseHeader (String.ofList s) = (splitL ',' s).filterMap ofPiece := by
  rw [parseHeader, split, List.map_map, List.filterMap_map,
    String.toList_ofList]
  rfl

theorem ofPiece_bare {m : Member} (h : m.item.params = []) :
    ofPiece m.text = fromStr (String.ofList m.item.token) := by
  have hblank : ∀ {c : Char}, c = ' ' ∨ c = '\t' → isWhitespace c = true := by
    rintro c (rfl | rfl) <;> decide
  rw [ofPiece, Member.text, Item.text, h, List.flatMap_nil, List.append_nil,
    m.item.isToken.trim_padded (fun c hc => hblank (m.blank_before c hc))
      fun c hc => hblank (m.blank_after c hc)]

theorem heard_eq (m : Member) :
    m.heard.filterMap ofPiece = exchanged m := by
  unfold Member.heard exchanged
  by_cases h : m.item.params = []
  · have he : m.item.params.isEmpty = true := List.isEmpty_iff.mpr h
    rw [if_pos he, if_pos he, stated, ← ofPiece_bare h]
    cases hp : ofPiece m.text with
    | none => exact List.filterMap_cons_none hp
    | some c => exact List.filterMap_cons_some hp
  · have he : ¬ m.item.params.isEmpty = true := fun he =>
      h (List.isEmpty_iff.mp he)
    rw [if_neg he, if_neg he, List.filterMap_flatMap]
    rfl

/-- What is read from a list. -/
theorem parseHeader_list (ms : List Member) :
    parseHeader (String.ofList (listText ms)) = ms.flatMap exchanged := by
  rw [parseHeader_eq, pieces_of_list (by rfl)
    (fun s hs => ofPiece_eq_none hs (by decide) (by decide))
    (fun s hs => ofPiece_eq_none hs (by decide) (by decide)),
    List.filterMap_flatMap]
  exact congrArg (fun g => ms.flatMap g) (funext heard_eq)

/-! ## What is written -/

/-- A capability as it stands in a joined list. -/
def joined (before : List Char) (hb : ∀ c ∈ before, c = ' ' ∨ c = '\t')
    (c : Capability) : Member where
  before
  item := { token := c.asStr.toList, isToken := isToken_asStr c, params := [] }
  after := []
  blank_before := hb
  blank_after := nofun

theorem exchanged_joined {before : List Char}
    (hb : ∀ c ∈ before, c = ' ' ∨ c = '\t') (c : Capability) :
    exchanged (joined before hb c) = [c] := by
  show (fromStr (String.ofList c.asStr.toList)).toList = [c]
  rw [String.ofList_toList, fromStr_asStr]
  rfl

/-- Each member but the first has a space in front. -/
def joinedList : List Capability → List Member
  | [] => []
  | c :: cs => joined [] nofun c ::
      cs.map (joined [' '] fun _ hm => .inl (List.mem_singleton.mp hm))

theorem joinHeader_eq (cs : List Capability) :
    joinHeader cs = String.ofList (listText (joinedList cs)) := by
  rw [← String.toList_inj, String.toList_ofList, joinHeader,
    String.toList_intercalate]
  cases cs with
  | nil => rfl
  | cons c cs =>
      show [',', ' '].intercalate (c.asStr.toList ::
        (cs.map asStr).map String.toList) = _
      rw [List.map_map, intercalate_spaced, listText, joinedList,
        List.map_cons, List.map_map, List.map_map]
      have htext : ∀ (before : List Char) hb (d : Capability),
          (joined before hb d).text = before ++ d.asStr.toList := by
        intro before hb d
        simp [joined, Member.text, Item.text]
      rw [htext, List.nil_append]
      refine congrArg (fun ts => [','].intercalate (_ :: ts)) ?_
      refine List.map_congr_left fun d _ => ?_
      exact (htext [' '] _ d).symm

theorem parse_join (cs : List Capability) :
    parseHeader (joinHeader cs) = cs := by
  rw [joinHeader_eq, parseHeader_list]
  cases cs with
  | nil => rfl
  | cons c cs =>
      rw [joinedList, List.flatMap_cons, exchanged_joined, List.flatMap_map,
        List.singleton_append]
      simp only [exchanged_joined]
      rw [List.flatMap_singleton']

/-! ## Where the two agree -/

/-- With nothing enclosed, the tokens that carry parameters are missing. -/
theorem exchanged_eq_iff {ms : List Member}
    (hms : ∀ m ∈ ms, enclosed m = []) :
    ms.flatMap exchanged = ms.flatMap stated ↔
      ∀ m ∈ ms, stated m ≠ [] → m.item.params = [] := by
  have hlen : ∀ l : List Member, (∀ m ∈ l, enclosed m = []) →
      (l.flatMap exchanged).length ≤ (l.flatMap stated).length := by
    intro l hl
    induction l with
    | nil => exact Nat.le_refl 0
    | cons m l ih =>
        have hle : (exchanged m).length ≤ (stated m).length := by
          rw [exchanged, hl m List.mem_cons_self]
          split
          · exact Nat.le_refl _
          · exact Nat.zero_le _
        have hrest := ih fun n hn => hl n (List.mem_cons_of_mem m hn)
        rw [List.flatMap_cons, List.flatMap_cons, List.length_append,
          List.length_append]
        omega
  induction ms with
  | nil => exact iff_of_true rfl nofun
  | cons m ms ih =>
      have hrest : ∀ n ∈ ms, enclosed n = [] := fun n hn =>
        hms n (List.mem_cons_of_mem m hn)
      have ih := ih hrest
      rw [List.flatMap_cons, List.flatMap_cons, List.forall_mem_cons]
      by_cases hm : stated m ≠ [] → m.item.params = []
      · have he : exchanged m = stated m := by
          rw [exchanged, hms m List.mem_cons_self]
          split
          · rfl
          · rename_i hp
            have hs : stated m = [] := Classical.byContradiction fun hs =>
              hp (List.isEmpty_iff.mpr (hm hs))
            exact hs.symm
        rw [he, List.append_cancel_left_eq]
        exact ⟨fun h => ⟨hm, ih.mp h⟩, fun h => ih.mpr h.2⟩
      · refine iff_of_false (fun h => ?_) fun h => hm h.1
        obtain ⟨hs, hp⟩ := Classical.not_imp.mp hm
        have he : exchanged m = [] := by
          rw [exchanged, if_neg fun he => hp (List.isEmpty_iff.mp he),
            hms m List.mem_cons_self]
        have hlens := congrArg List.length h
        rw [he, List.nil_append, List.length_append] at hlens
        have hpos := List.length_pos_iff.mpr hs
        have hle := hlen ms hrest
        omega

/-- What is joined is read back. A list is read as stated if and only if
leaving out the tokens that carry parameters, and putting in what these
enclose, changes nothing; where nothing is enclosed, if and only if no
capability carries parameters. -/
theorem capabilities_header (cs : List Capability) (ms : List Member) :
    parseHeader (joinHeader cs) = cs ∧
    (parseHeader (String.ofList (listText ms)) = ms.flatMap stated ↔
      ms.flatMap exchanged = ms.flatMap stated) ∧
    ((∀ m ∈ ms, enclosed m = []) →
      (parseHeader (String.ofList (listText ms)) = ms.flatMap stated ↔
        ∀ m ∈ ms, stated m ≠ [] → m.item.params = [])) := by
  refine ⟨parse_join cs, ?_, fun hms => ?_⟩
  · rw [parseHeader_list]
  · rw [parseHeader_list]
    exact exchanged_eq_iff hms

/-- The list `interaction;a=1`. -/
def withParameter : List Member :=
  [{ before := []
     item :=
       { token := "interaction".toList
         isToken := isToken_asStr .interaction
         params :=
           [{ spaces := 0
              key := ['a']
              isKey := by decide
              value := some (.bare ['1'] (by decide)) }] }
     after := []
     blank_before := nofun
     blank_after := nofun }]

/-- A capability with a parameter is not recognised. -/
theorem parameter_misread :
    String.ofList (listText withParameter) = "interaction;a=1" ∧
    withParameter.flatMap stated = [.interaction] ∧
    parseHeader "interaction;a=1" = [] := by
  refine ⟨by decide, by decide, by decide⟩

end Capability

end Aauth
