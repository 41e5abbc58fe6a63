import Aauth.Proofs.Links
import Aauth.Sample.Json

/-!
# Links at the sample parties

The sample parser takes apart what a server puts together, whatever JSON
the crates have, and the sample Person Server is mounted where its
configuration says.
-/

namespace Aauth.Sample

open Text Except

theorem not_mem_pathText {c : Char} (hne : c ≠ '/')
    (hc : isUnreserved c = false) {segments : List String}
    (hall : ∀ s ∈ segments, IsSegment s) : c ∉ (pathText segments).toList := by
  rw [pathText, String.toList_ofList, List.mem_flatMap]
  rintro ⟨s, hs, hm⟩
  rcases List.mem_cons.mp hm with rfl | hm
  · exact hne rfl
  · exact (hall s hs).plain.not_mem hc hm

theorem not_mem_authority {c : Char} (hc : isAuthorityChar c = false)
    {authority : String}
    (hall : ∀ d ∈ authority.toList, isAuthorityChar d = true) :
    c ∉ authority.toList := by
  intro hm
  rw [hall c hm] at hc
  cases hc

/-- A path begins with a slash. -/
theorem pathText_cons {segments : List String} (hne : segments ≠ []) :
    ∃ rest, pathText segments = "/" ++ rest := by
  cases segments with
  | nil => exact absurd rfl hne
  | cons s segments =>
      refine ⟨s ++ pathText segments, ?_⟩
      rw [← String.append_assoc, ← pathText_one, ← pathText_append]
      rfl

theorem splitOnce_none {c : Char} {p s : String} (hp : p.toList = [c])
    (h : c ∉ s.toList) : splitOnce s p = none := by
  rw [splitOnce, hp, splitOnceL_eq_none List.mem_cons_self h]
  rfl

theorem splitOnce_char {c : Char} {p s : String} (hp : p.toList = [c])
    (h : c ∉ s.toList) (t : String) :
    splitOnce (s ++ p ++ t) p = some (s, t) := by
  rw [splitOnce, String.toList_append, String.toList_append, hp,
    List.append_assoc, List.singleton_append, splitOnceL_char h,
    Option.map_some, String.ofList_toList, String.ofList_toList]

theorem splitOnce_scheme {scheme : String}
    (h : scheme = "http" ∨ scheme = "https") (t : String) :
    splitOnce (scheme ++ "://" ++ t) "://" = some (scheme, t) := by
  have hcut : splitOnceL "://".toList (scheme.toList ++
      ("://".toList ++ t.toList)) = some (scheme.toList, t.toList) := by
    rcases h with rfl | rfl
    · rfl
    · rfl
  rw [splitOnce, String.toList_append, String.toList_append,
    List.append_assoc, hcut, Option.map_some, String.ofList_toList,
    String.ofList_toList]

/-- A link is taken apart as it was put together. -/
theorem urlParse_link {scheme authority : String} {segments : List String}
    {query : Option (String × String)}
    (hs : scheme = "http" ∨ scheme = "https")
    (ha : ∀ c ∈ authority.toList, isAuthorityChar c = true)
    (hne : segments ≠ []) (hall : ∀ s ∈ segments, IsSegment s)
    (hq : ∀ p ∈ query, PlainText p.1 ∧ PlainText p.2) : ∃ u,
      urlParse (scheme ++ "://" ++ authority ++ pathText segments ++
        queryText query) = .ok u ∧ u.path = pathText segments ∧
      u.query = query.map fun p => p.1 ++ "=" ++ p.2 := by
  have hhash : '#' ∉ (authority ++ pathText segments ++
      queryText query).toList := by
    rw [String.toList_append, String.toList_append]
    simp only [List.mem_append, not_or]
    refine ⟨⟨not_mem_authority (by decide) ha,
      not_mem_pathText (by decide) (by decide) hall⟩, ?_⟩
    cases query with
    | none => exact List.not_mem_nil
    | some p =>
        obtain ⟨hk, hv⟩ := hq p rfl
        rw [queryText]
        simp only [String.toList_append, List.mem_append, not_or]
        exact ⟨⟨⟨by decide, hk.not_mem (by decide)⟩, by decide⟩,
          hv.not_mem (by decide)⟩
  have hmark : '?' ∉ (authority ++ pathText segments).toList := by
    rw [String.toList_append, List.mem_append, not_or]
    exact ⟨not_mem_authority (by decide) ha,
      not_mem_pathText (by decide) (by decide) hall⟩
  obtain ⟨rest, hrest⟩ := pathText_cons hne
  have hpath : splitOnce (authority ++ pathText segments) "/" =
      some (authority, rest) := by
    rw [hrest, ← String.append_assoc]
    exact splitOnce_char (c := '/') rfl (not_mem_authority (by decide) ha) rest
  have hsplit : splitOnce (authority ++ pathText segments ++
      queryText query) "#" = none := splitOnce_none rfl hhash
  have htext : scheme ++ "://" ++ authority ++ pathText segments ++
      queryText query = scheme ++ "://" ++
        (authority ++ pathText segments ++ queryText query) := by
    simp only [String.append_assoc]
  rw [urlParse, htext, splitOnce_scheme hs]
  dsimp only
  rw [hsplit]
  dsimp only
  cases query with
  | none =>
      have hquery : splitOnce (authority ++ pathText segments ++
          queryText none) "?" = none := by
        rw [queryText, String.append_empty]
        exact splitOnce_none rfl hmark
      rw [hquery]
      dsimp only
      rw [queryText, String.append_empty, hpath]
      refine ⟨_, rfl, ?_, rfl⟩
      rw [hrest]
  | some p =>
      have hquery : splitOnce (authority ++ pathText segments ++
          queryText (some p)) "?" = some (authority ++ pathText segments,
            p.1 ++ "=" ++ p.2) := by
        have htail : authority ++ pathText segments ++ queryText (some p) =
            authority ++ pathText segments ++ "?" ++
              (p.1 ++ "=" ++ p.2) := by
          simp only [queryText, String.append_assoc]
        rw [htail]
        exact splitOnce_char rfl hmark _
      rw [hquery]
      dsimp only
      rw [hpath]
      refine ⟨_, rfl, ?_, rfl⟩
      rw [hrest]

theorem formPairs_one {k v : String} (hk : PlainText k) (hv : PlainText v) :
    axum.formPairs (k ++ "=" ++ v) = [(k, v)] := by
  have hempty : (k ++ "=" ++ v).isEmpty = false := by
    rw [Bool.eq_false_iff, ne_eq, String.isEmpty_iff]
    intro hn
    rw [← String.toList_inj, String.toList_append, String.toList_append] at hn
    exact hk.some (List.append_eq_nil_iff.mp
      (List.append_eq_nil_iff.mp hn).1).1
  have hamp : '&' ∉ (k ++ "=" ++ v).toList := by
    simp only [String.toList_append, List.mem_append, not_or]
    exact ⟨⟨hk.not_mem (by decide), by decide⟩, hv.not_mem (by decide)⟩
  have hcut : splitOnce (k ++ "=" ++ v) "=" = some (k, v) :=
    splitOnce_char (c := '=') rfl (hk.not_mem (by decide)) v
  show (if (k ++ "=" ++ v).isEmpty = true then [] else
    (split (k ++ "=" ++ v) '&').map fun p =>
      (splitOnce p "=").getD (p, "")) = _
  rw [hempty, if_neg Bool.false_ne_true, split, splitL_of_not_mem hamp,
    List.map_singleton, String.ofList_toList, List.map_singleton, hcut,
    Option.getD_some]

/-- The sample crates, with any JSON, and the sample extractors. -/
theorem linkLaws (value : Serde Json) :
    LinkLaws (withJson crates value) axum where
  uri {base segments query} hb _ _ _ := by
    have hempty : (base ++ pathText segments ++ queryText query).isEmpty =
        false := by
      obtain ⟨scheme, authority, hs, -, -, rfl⟩ := hb.text
      rw [Bool.eq_false_iff, ne_eq, String.isEmpty_iff]
      intro hn
      rw [← String.toList_inj, String.toList_empty] at hn
      simp only [String.toList_append, List.append_eq_nil_iff] at hn
      exact absurd hn.1.1.1.2 (by decide)
    show (failIf _ "empty string" >>= fun _ => Except.ok _) = _
    rw [hempty, failIf, if_neg Bool.false_ne_true]
    rfl
  parse {base segments query} hb hne hall hq := by
    obtain ⟨scheme, authority, hs, -, ha, rfl⟩ := hb.text
    exact urlParse_link hs ha hne hall hq
  percentDecode {s} h := by
    have hpercent : containsChar s '%' = false := by
      rw [containsChar, Bool.eq_false_iff]
      intro hn
      exact h.not_mem (by decide) (List.contains_iff_mem.mp hn)
    show (if containsChar s '%' = true then none else some s) = _
    rw [hpercent, if_neg Bool.false_ne_true]
  formPairs := formPairs_one
  jsonContentType := by rfl

theorem personState_mounted (value : Serde Json) :
    personState.Mounted (withJson crates value) personServer where
  isBase :=
    { text := ⟨"https", "person.example", .inr rfl, by decide, by decide,
        by rfl⟩
      parses := ⟨_, rfl⟩ }
  pendingBaseUrl := by rfl
  pendingPath := by rfl
  interactionUrl := by rfl

end Aauth.Sample
