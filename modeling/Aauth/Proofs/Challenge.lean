import Aauth.Ref.Http

/-!
# The `AAuth-Requirement` header, written and read

A challenge is read back from the header it is written as, as long as its
parameters hold no quote, with one exception: the reader looks for the
first `code="`, and an interaction URL that ends in `code=` puts one there
before the parameter.
-/

namespace Aauth

open Text

/-! ## Parameters -/

/-- The value of a parameter that the text before it does not mention. -/
theorem extractQuotedParam_of_split {input key : String}
    {before value rest : List Char} (hv : '"' ∉ value)
    (h : splitOnceL (key.toList ++ ['=', '"']) input.toList =
      some (before, value ++ '"' :: rest)) :
    extractQuotedParam input key = some (String.ofList value) := by
  have hp : (key ++ "=\"").toList = key.toList ++ ['=', '"'] := by
    rw [String.toList_append]
    rfl
  have hq : "\"".toList = ['"'] := rfl
  simp only [extractQuotedParam, splitOnce, hp, h, hq, Option.map_some,
    Option.bind_some, String.toList_ofList, splitOnceL_char hv]

/-! ## The level -/

/-- A header of a level and parameters. -/
def levelHeader (level params : String) : String :=
  "requirement=" ++ (level ++ ";" ++ params)

theorem requirement_of_levelHeader (level params : String)
    (hl : ';' ∉ level.toList) (ht : trim level = level) :
    ((stripPrefix (levelHeader level params) "requirement=").bind
      fun rest => (split rest ';').head?.map trim) = some level := by
  have hs : (level ++ ";" ++ params).toList =
      level.toList ++ ';' :: params.toList := by
    rw [String.toList_append, String.toList_append, List.append_assoc]
    rfl
  rw [levelHeader, stripPrefix_append, Option.bind_some, split, hs,
    splitL_append hl]
  simp only [List.map_cons, List.head?_cons, Option.map_some,
    String.ofList_toList, ht]

theorem levelHeader_toList (level params : String) :
    (levelHeader level params).toList =
      "requirement=".toList ++ (level.toList ++ ';' :: params.toList) := by
  rw [levelHeader, String.toList_append, String.toList_append,
    String.toList_append, List.append_assoc]
  rfl

/-- Nothing is trimmed from a header that ends in a quote. -/
theorem trim_levelHeader (level params : String) :
    trim (levelHeader level (params ++ "\"")) =
      levelHeader level (params ++ "\"") := by
  have hl := levelHeader_toList level (params ++ "\"")
  apply trim_of_ends
  · intro c hc
    rw [hl, List.head?_append_of_ne_nil _ (by decide)] at hc
    have hr : 'r' = c := Option.some.inj hc
    rw [← hr]
    decide
  · intro c hc
    have he : "requirement=".toList ++
        (level.toList ++ ';' :: (params ++ "\"").toList) =
        ("requirement=".toList ++ (level.toList ++ ';' :: params.toList))
          ++ ['"'] := by
      rw [String.toList_append, List.append_assoc, List.append_assoc]
      rfl
    rw [hl, he, List.getLast?_concat] at hc
    have hr : '"' = c := Option.some.inj hc
    rw [← hr]
    decide

theorem levelHeader_not_empty (level params : String) :
    ¬ (levelHeader level params).isEmpty = true := by
  rw [String.isEmpty_iff, ← String.toList_inj, levelHeader_toList]
  exact nofun

/-! ## Challenges -/

namespace AAuthChallenge

theorem authToken_text (token : String) : toHeader (.authToken token) =
    "requirement=auth-token; resource-token=\"" ++ token ++ "\"" := rfl

theorem interaction_text (url code : String) :
    toHeader (.interaction url code) =
      "requirement=interaction; url=\"" ++ url ++ "\"; code=\"" ++ code ++
        "\"" := rfl

theorem toHeader_authToken (token : String) :
    toHeader (.authToken token) =
      levelHeader "auth-token" (" resource-token=\"" ++ token ++ "\"") := by
  rw [authToken_text, ← String.toList_inj, levelHeader_toList]
  simp

theorem toHeader_interaction (url code : String) :
    toHeader (.interaction url code) = levelHeader "interaction"
      (" url=\"" ++ url ++ "\"; code=\"" ++ code ++ "\"") := by
  rw [interaction_text, ← String.toList_inj, levelHeader_toList]
  simp

theorem resourceToken_toHeader {token : String} (ht : '"' ∉ token.toList) :
    extractQuotedParam (toHeader (.authToken token)) "resource-token" =
      some token := by
  have hs : (toHeader (.authToken token)).toList =
      "requirement=auth-token; ".toList ++ "resource-token=".toList ++
        '"' :: (token.toList ++ ['"']) := by
    simp [authToken_text]
  have hf : splitOnceL ("resource-token".toList ++ ['=', '"'])
      (toHeader (.authToken token)).toList =
      some ("requirement=auth-token; ".toList, token.toList ++ ['"']) := by
    have hd := splitOnceL_delim (c := '"') (q := "resource-token=".toList)
      (s := "requirement=auth-token; ".toList) (by decide) (by decide)
      (token.toList ++ ['"'])
    rw [hs, ← hd]
    simp
  rw [extractQuotedParam_of_split ht hf, String.ofList_toList]

theorem fromHeader_authToken {token : String} (ht : '"' ∉ token.toList) :
    fromHeader (toHeader (.authToken token)) = .ok (.authToken token) := by
  have hx := resourceToken_toHeader ht
  rw [toHeader_authToken] at hx ⊢
  have hm := requirement_of_levelHeader "auth-token"
    (" resource-token=\"" ++ token ++ "\"") (by decide) rfl
  simp only [fromHeader, trim_levelHeader, hm, hx,
    Except.failIf_of_not (levelHeader_not_empty _ _)]
  rfl

theorem interaction_toList (url code : String) :
    (toHeader (.interaction url code)).toList =
      "requirement=interaction; url=".toList ++ '"' :: (url.toList ++
        '"' :: ("; code=".toList ++ '"' :: (code.toList ++ ['"']))) := by
  simp [interaction_text]

/-- The URL reaches up to the first quote. -/
theorem url_toHeader {url : String} (code : String)
    (hu : '"' ∉ url.toList) :
    extractQuotedParam (toHeader (.interaction url code)) "url" =
      some url := by
  have hd := splitOnceL_delim (c := '"') (q := "url=".toList)
    (s := "requirement=interaction; ".toList) (by decide) (by decide)
    (url.toList ++ '"' :: ("; code=".toList ++ '"' :: (code.toList ++ ['"'])))
  have hf : splitOnceL ("url".toList ++ ['=', '"'])
      (toHeader (.interaction url code)).toList =
      some ("requirement=interaction; ".toList, url.toList ++
        '"' :: ("; code=".toList ++ '"' :: (code.toList ++ ['"']))) := by
    rw [interaction_toList, ← hd]
    simp
  rw [extractQuotedParam_of_split hu hf, String.ofList_toList]

/-- What the reader takes for the code. -/
def codeRead (url code : String) : String :=
  if "code=".toList <:+ url.toList then "; code=" else code

theorem code_toHeader {url code : String} (hu : '"' ∉ url.toList)
    (hc : '"' ∉ code.toList) :
    extractQuotedParam (toHeader (.interaction url code)) "code" =
      some (codeRead url code) := by
  have hp : "code".toList ++ ['=', '"'] = "code=".toList ++ ['"'] := by simp
  have h1 := splitOnceL_past (c := '"') (q := "code=".toList)
    (s := "requirement=interaction; url=".toList) (by decide) (by decide)
    (by decide) (url.toList ++
      '"' :: ("; code=".toList ++ '"' :: (code.toList ++ ['"'])))
  rw [← interaction_toList, ← hp] at h1
  rw [codeRead]
  split
  · next hsuf =>
      obtain ⟨before, hb⟩ := hsuf
      have hn : '"' ∉ before := fun hm =>
        hu (hb ▸ List.mem_append_left _ hm)
      have h2 := splitOnceL_delim (c := '"') (q := "code=".toList)
        (by decide) hn ("; code=".toList ++ '"' :: (code.toList ++ ['"']))
      rw [hb, ← hp] at h2
      rw [h2, Option.map_some] at h1
      rw [extractQuotedParam_of_split (by decide) h1, String.ofList_toList]
  · next hsuf =>
      have h2 := splitOnceL_past (c := '"') (q := "code=".toList) (by decide)
        hu hsuf ("; code=".toList ++ '"' :: (code.toList ++ ['"']))
      have h3 := splitOnceL_delim (c := '"') (q := "code=".toList)
        (s := "; ".toList) (by decide) (by decide) (code.toList ++ ['"'])
      have hs : "; ".toList ++ "code=".toList = "; code=".toList := by simp
      rw [hs, ← hp] at h3
      rw [← hp, h3] at h2
      rw [h2, Option.map_some, Option.map_some] at h1
      rw [extractQuotedParam_of_split hc h1, String.ofList_toList]

theorem fromHeader_interaction {url code : String} (hu : '"' ∉ url.toList)
    (hc : '"' ∉ code.toList) :
    fromHeader (toHeader (.interaction url code)) =
      .ok (.interaction url (codeRead url code)) := by
  have hxu := url_toHeader code hu
  have hxc := code_toHeader hu hc
  rw [toHeader_interaction] at hxu hxc ⊢
  have hm := requirement_of_levelHeader "interaction"
    (" url=\"" ++ url ++ "\"; code=\"" ++ code ++ "\"") (by decide) rfl
  simp only [fromHeader, trim_levelHeader, hm, hxu, hxc,
    Except.failIf_of_not (levelHeader_not_empty _ _)]
  rfl

theorem fromHeader_clarification :
    fromHeader (toHeader .clarification) = .ok .clarification := rfl

theorem fromHeader_claims : fromHeader (toHeader .claims) = .ok .claims :=
  rfl

theorem fromHeader_approval :
    fromHeader (toHeader .approval) = .ok .approval := rfl

end AAuthChallenge

end Aauth
