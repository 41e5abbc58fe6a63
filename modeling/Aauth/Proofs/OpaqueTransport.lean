import Aauth.Proofs.AgentAuth
import Aauth.Proofs.HttpSig
import Aauth.Ref.AgentClient
import Aauth.Ref.ResourceLayer

/-!
# An opaque token on its way

A resource hands out an opaque token in `AAuth-Access`; the agent keeps it,
presents it in `Authorization`, signs that header, and the resource reads
it again. The four functions on the way look at the text each in its own
manner: here they are measured against one grammar, `token68` of RFC 9110,
and agree on every text.
-/

namespace Aauth

open Text Except

/-! ## The grammar -/

/-- RFC 9110: `token68 = 1*( ALPHA / DIGIT / "-" / "." / "_" / "~" / "+" /
"/" ) *"="` -/
def Token68 (t : String) : Prop :=
  ∃ (body : List Char) (n : Nat),
    t.toList = body ++ List.replicate n '=' ∧ body ≠ [] ∧
    ∀ c ∈ body, c.isAlphanum = true ∨ c ∈ ['-', '.', '_', '~', '+', '/']

def isOws (c : Char) : Bool := c == ' ' || c == '\t'

/-- A header value without the optional whitespace around it. -/
def trimOws (s : String) : String :=
  String.ofList (trimEndL isOws (trimStartL isOws s.toList))

/-- The token of a response: its only `AAuth-Access` header. -/
def AccessValue (headers : HeaderMap) (t : String) : Prop :=
  ∃ value, headers.getAll "aauth-access" = [value] ∧ t = trimOws value ∧
    Token68 t

/-- An `Authorization` value that is one credential of the `AAuth`
scheme. -/
def Credential (value t : String) : Prop :=
  trimOws value = "AAuth " ++ t ∧ Token68 t

theorem isToken68Char_iff {c : Char} : isToken68Char c = true ↔
    c.isAlphanum = true ∨ c ∈ ['-', '.', '_', '~', '+', '/'] := by
  simp only [isToken68Char, Bool.or_eq_true, beq_iff_eq, List.mem_cons,
    List.not_mem_nil, or_false, or_assoc]

/-- Equals signs are no characters of the body. -/
theorem trimEnd_padded {body : List Char} {n : Nat}
    (h : ∀ c ∈ body, isToken68Char c = true) :
    trimEndL (· == '=') (body ++ List.replicate n '=') = body := by
  have hbody : ∀ c ∈ body.reverse.head?, (c == '=') = false := by
    intro c hc
    have hm := List.mem_reverse.mp (List.mem_of_mem_head? hc)
    refine beq_eq_false_iff_ne.mpr fun he => ?_
    have ht := h c hm
    rw [he] at ht
    revert ht
    decide
  rw [trimEndL, List.reverse_append, List.reverse_replicate,
    List.dropWhile_append_of_pos]
  · rw [dropWhile_of_not hbody, List.reverse_reverse]
  · intro c hc
    rw [List.eq_of_mem_replicate hc]
    rfl

theorem exists_padding (s : List Char) :
    ∃ n, s = trimEndL (· == '=') s ++ List.replicate n '=' := by
  have h : s.reverse = s.reverse.takeWhile (· == '=') ++
      s.reverse.dropWhile (· == '=') :=
    List.takeWhile_append_dropWhile.symm
  have hpad : s.reverse.takeWhile (· == '=') =
      List.replicate (s.reverse.takeWhile (· == '=')).length '=' :=
    List.eq_replicate_iff.mpr ⟨rfl, fun c hc =>
      eq_of_beq (List.all_eq_true.mp List.all_takeWhile c hc)⟩
  refine ⟨(s.reverse.takeWhile (· == '=')).length, ?_⟩
  rw [trimEndL, ← List.reverse_replicate, ← List.reverse_append, ← hpad, ← h,
    List.reverse_reverse]

theorem isToken68_iff {t : String} : isToken68 t = true ↔ Token68 t := by
  rw [isToken68, Bool.and_eq_true, Bool.not_eq_true', trimEndMatches,
    String.toList_ofList, List.all_eq_true]
  constructor
  · rintro ⟨hne, hall⟩
    obtain ⟨n, hn⟩ := exists_padding t.toList
    refine ⟨_, n, hn, ?_, fun c hc => isToken68Char_iff.mp (hall c hc)⟩
    intro he
    rw [he] at hne
    revert hne
    decide
  · rintro ⟨body, n, ht, hne, hall⟩
    have hchars : ∀ c ∈ body, isToken68Char c = true :=
      fun c hc => isToken68Char_iff.mpr (hall c hc)
    rw [ht, trimEnd_padded hchars]
    refine ⟨?_, hchars⟩
    rw [← Bool.not_eq_true, String.isEmpty_iff]
    intro he
    rw [← String.toList_inj, String.toList_ofList] at he
    exact hne he

/-! ## Readable texts -/

theorem isVisible_of_isToken68Char {c : Char} (h : isToken68Char c = true) :
    isVisibleAscii c = true := by
  rcases isToken68Char_iff.mp h with h | h
  · refine isVisible_of_isJwtChar ?_
    rw [isJwtChar, h]
    rfl
  · simp only [List.mem_cons, List.not_mem_nil, or_false] at h
    rcases h with rfl | rfl | rfl | rfl | rfl | rfl <;> rfl

theorem isWhitespace_of_isToken68Char {c : Char}
    (h : isToken68Char c = true) : isWhitespace c = false := by
  have hall : ∀ n < 128, isToken68Char (Char.ofNat n) = true →
      isWhitespace (Char.ofNat n) = false := by decide
  exact @forall_ascii (fun c => isToken68Char c = true →
    isWhitespace c = false) hall c
      (toNat_of_isVisibleAscii (isVisible_of_isToken68Char h)) h

/-- The characters of a token: those of the body, and the padding. -/
theorem Token68.chars {t : String} (h : Token68 t) :
    ∀ c ∈ t.toList, isToken68Char c = true ∨ c = '=' := by
  obtain ⟨body, n, ht, -, hall⟩ := h
  intro c hc
  rw [ht, List.mem_append] at hc
  rcases hc with hc | hc
  · exact .inl (isToken68Char_iff.mpr (hall c hc))
  · exact .inr (List.eq_of_mem_replicate hc)

theorem Token68.isVisible {t : String} (h : Token68 t) : IsVisible t := by
  refine List.all_eq_true.mpr fun c hc => ?_
  rcases h.chars c hc with hc | rfl
  · exact isVisible_of_isToken68Char hc
  · rfl

theorem Token68.noWhitespace {t : String} (h : Token68 t) :
    ∀ c ∈ t.toList, isWhitespace c = false := by
  intro c hc
  rcases h.chars c hc with hc | rfl
  · exact isWhitespace_of_isToken68Char hc
  · decide

/-- On a value that can be read the two ways to trim are one. -/
theorem trim_eq_trimOws {s : String} (h : IsVisible s) :
    trim s = trimOws s := by
  have hall : ∀ n < 128, isVisibleAscii (Char.ofNat n) = true →
      isWhitespace (Char.ofNat n) = isOws (Char.ofNat n) := by decide
  refine congrArg String.ofList (trimL_congr fun c hc => ?_)
  have hv := List.all_eq_true.mp h c hc
  exact @forall_ascii (fun c => isVisibleAscii c = true →
    isWhitespace c = isOws c) hall c (toNat_of_isVisibleAscii hv) hv

/-- Optional whitespace can be read, so a value can if what it surrounds
can. -/
theorem isVisible_of_trimOws {s : String} (h : IsVisible (trimOws s)) :
    IsVisible s := by
  refine List.all_eq_true.mpr fun c hc => ?_
  rcases mem_trimL_or (p := isOws) hc with hc | hc
  · rw [IsVisible, trimOws, String.toList_ofList] at h
    exact List.all_eq_true.mp h c hc
  · simp only [isOws, Bool.or_eq_true, beq_iff_eq] at hc
    rcases hc with rfl | rfl <;> rfl

/-! ## The agent keeps the token -/

theorem accessToken_iff {headers : HeaderMap} {t : String} :
    AgentAuth.accessToken headers = some t ↔ AccessValue headers t := by
  constructor
  · intro h
    obtain ⟨value, hv, hvis, rfl, ht⟩ := AgentAuth.accessToken_eq_some h
    rw [trim_eq_trimOws hvis] at ht ⊢
    exact ⟨value, hv, rfl, isToken68_iff.mp ht⟩
  · rintro ⟨value, hv, rfl, ht⟩
    have hvis := isVisible_of_trimOws ht.isVisible
    have hparse : parseAauthAccessHeader value = .ok (trimOws value) := by
      rw [parseAauthAccessHeader, trim_eq_trimOws hvis, bind_eq_ok]
      refine ⟨(), failIf_of_not ?_ _, rfl⟩
      rw [isToken68_iff.mpr ht]
      exact Bool.noConfusion
    rw [AgentAuth.accessToken, hv]
    show (toStr value).bind _ = _
    rw [toStr_of_isVisible hvis, Option.bind_some, hparse]
    rfl

section Observe

variable (order : List AuthTokenCacheKey) (a : AgentAuth) (origin : String)
  (attempt : AgentAuthAttempt) {status : Nat} {headers : HeaderMap}

theorem observe_opaqueCache (hs : status ≠ 401) :
    (a.observeResponse order origin attempt status headers).2 =
      (a.cacheOpaqueFromHeaders origin headers).2 := by
  obtain ⟨step, h, -⟩ :=
    AgentAuth.observe_other order a origin attempt headers hs
  rw [h]

/-- The token of the response is kept, whatever was there before. -/
theorem observe_keeps {t : String} (hs : status ≠ 401)
    (ht : AccessValue headers t) :
    (a.observeResponse order origin attempt status
        headers).2.opaqueCache.lookup origin = some t ∧
    ∀ other, other ≠ origin →
      (a.observeResponse order origin attempt status
        headers).2.opaqueCache.lookup other = a.opaqueCache.lookup other := by
  have hacc := accessToken_iff.mpr ht
  rw [observe_opaqueCache order a origin attempt hs,
    AgentAuth.cacheOpaqueFromHeaders, hacc]
  by_cases ho : a.opaqueCache.lookup origin = some t
  · simp only [if_pos ho]
    exact ⟨ho, fun other _ => trivial⟩
  · simp only [if_neg ho]
    exact ⟨AList.lookup_insert _,
      fun other hne => AList.lookup_insert_ne hne⟩

/-- Without one, nothing changes. -/
theorem observe_unchanged (hs : status ≠ 401)
    (h : ∀ t, ¬ AccessValue headers t) :
    (a.observeResponse order origin attempt status headers).2 = a := by
  have hacc : AgentAuth.accessToken headers = none := by
    cases ha : AgentAuth.accessToken headers with
    | none => rfl
    | some t => exact absurd (accessToken_iff.mp ha) (h t)
  rw [observe_opaqueCache order a origin attempt hs,
    AgentAuth.cacheOpaqueFromHeaders, hacc]

end Observe

/-! ## The request that presents it -/

theorem credential_visible {t : String} (h : Token68 t) :
    IsVisible ("AAuth " ++ t) :=
  isVisible_append (by rfl) h.isVisible

theorem trim_credential {t : String} (h : Token68 t) :
    trim ("AAuth " ++ t) = "AAuth " ++ t := by
  obtain ⟨body, n, ht, hne, -⟩ := id h
  refine trim_of_ends ?_ ?_
  · rw [String.toList_append]
    intro c hc
    cases hc
    decide
  · intro c hc
    have htne : t.toList ≠ [] := by
      rw [ht]
      exact List.append_ne_nil_of_left_ne_nil hne _
    rw [String.toList_append, List.getLast?_append,
      List.getLast?_eq_some_getLast htne, Option.some_or] at hc
    exact h.noWhitespace c (List.mem_of_getLast?
      ((List.getLast?_eq_some_getLast htne).trans hc))

theorem parseAauthCredential_token {t : String} (h : Token68 t) :
    parseAauthCredential ("AAuth " ++ t) = .ok t := by
  rw [parseAauthCredential, trim_credential h, stripPrefix_append]
  simp only [bind_eq_ok, Option.okOr_eq_ok]
  refine ⟨t, rfl, (), failIf_of_not ?_ _, rfl⟩
  rw [isToken68_iff.mpr h]
  exact Bool.noConfusion

/-- A token that is kept can be presented: its header is covered by the
signature, and read back as the token. -/
theorem applyOpaqueToken_transports {t : String} (h : Token68 t)
    (req : AgentRequest) :
    ∃ req', applyOpaqueToken req t = some req' ∧
      ("authorization", "AAuth " ++ t) ∈
        (aauthSignOptions req'.headers).extras ∧
      extractAauthAccess req'.headers = .ok (some t) := by
  have hvis := credential_visible h
  have hstr := toStr_of_isVisible hvis
  refine ⟨{ req with headers :=
    req.headers.insert "authorization" ("AAuth " ++ t) }, ?_, ?_, ?_⟩
  · rw [applyOpaqueToken, headerValueFromStr_eq_ok.mpr hstr]
    rfl
  · refine mem_extras.mpr (.inl ⟨rfl, headerValue_insert_self hstr, ?_⟩)
    rw [startsWith, stripPrefix_append]
    rfl
  · have hstart : startsWith ("AAuth " ++ t) "AAuth" = true := by
      have he : "AAuth " ++ t = "AAuth" ++ (" " ++ t) := by
        rw [← String.append_assoc]
        rfl
      rw [he, startsWith, stripPrefix_append]
      rfl
    rw [extractAauthAccess, HeaderMap.getAll_insert_self]
    simp only [hstr, Option.okOr, ok_bind, trim_credential h, hstart,
      parseAauthCredential_token h, Bool.true_eq_false, if_false]
    rfl

/-! ## What is refused -/

/-- `AAuth` in front survives trimming. -/
theorem startsWith_trim {value : String}
    (h : startsWith value "AAuth" = true) :
    startsWith (trim value) "AAuth" = true := by
  obtain ⟨rest, rfl⟩ := startsWith_iff.mp h
  have hends : ∀ c ∈ "AAuth".toList, isWhitespace c = false := by decide
  obtain ⟨t, ht⟩ := @trim_append "AAuth".toList (by decide)
    (fun c hc => hends c (List.mem_of_mem_head? hc))
    (fun c hc => hends c (List.mem_of_getLast? hc)) rest.toList
  rw [← String.toList_append, String.ofList_toList] at ht
  refine startsWith_iff.mpr ⟨String.ofList t, ?_⟩
  rw [ht, ← String.toList_inj]
  simp

theorem parseAauthCredential_eq_ok {value t : String} (hv : IsVisible value)
    (h : parseAauthCredential value = .ok t) : Credential value t := by
  rw [parseAauthCredential] at h
  simp only [bind_eq_ok, Option.okOr_eq_ok, failIf_eq_ok,
    Bool.not_eq_false] at h
  obtain ⟨token, htoken, -, ht, he⟩ := h
  cases he
  refine ⟨?_, isToken68_iff.mp ht⟩
  rw [← trim_eq_trimOws hv]
  rw [stripPrefix] at htoken
  obtain ⟨rest, hr, rfl⟩ := Option.map_eq_some_iff.mp htoken
  rw [← String.toList_inj, eq_append_of_stripPrefixL hr]
  simp only [String.toList_append, String.toList_ofList]

/-- A value under the scheme that is no credential is an error. -/
theorem extract_refuses {headers : HeaderMap} {value : String}
    (hv : headers.getAll "authorization" = [value])
    (hs : startsWith value "AAuth" = true ∨
      startsWith (trim value) "AAuth" = true)
    (hno : ∀ t, ¬ Credential value t) :
    ∃ e, extractAauthAccess headers = .error e := by
  have hstart : startsWith (trim value) "AAuth" = true :=
    hs.elim startsWith_trim id
  rw [extractAauthAccess, hv]
  by_cases hvis : IsVisible value
  · have hnot : ¬ startsWith (trim value) "AAuth" = false := by
      rw [hstart]
      exact Bool.noConfusion
    simp only [toStr_of_isVisible hvis, Option.okOr, ok_bind, if_neg hnot]
    cases hp : parseAauthCredential value with
    | error e => exact ⟨e, rfl⟩
    | ok t => exact absurd (parseAauthCredential_eq_ok hvis hp) (hno t)
  · have hnone : toStr value = none := if_neg hvis
    simp only [hnone, Option.okOr, error_bind]
    exact ⟨_, rfl⟩

theorem extract_several {headers : HeaderMap}
    (h : 1 < (headers.getAll "authorization").length) :
    ∃ e, extractAauthAccess headers = .error e := by
  rw [extractAauthAccess]
  cases hv : headers.getAll "authorization" with
  | nil =>
      rw [hv] at h
      cases h
  | cons value values =>
      cases values with
      | nil =>
          rw [hv] at h
          exact absurd h (Nat.lt_irrefl 1)
      | cons value' values => exact ⟨_, rfl⟩

/-! ## The way as a whole -/

/-- A response other than a `401` leaves its token in the cache for the
origin, exactly if its only `AAuth-Access` header is one; every token kept
so is presented in a header that the signature covers and that is read back
as the token; and no other text under the scheme is read as one. -/
theorem opaque_transport (order : List AuthTokenCacheKey) (a : AgentAuth)
    (origin : String) (attempt : AgentAuthAttempt) {status : Nat}
    {headers : HeaderMap} (hs : status ≠ 401) :
    (∀ t, AccessValue headers t →
      (a.observeResponse order origin attempt status
        headers).2.opaqueCache.lookup origin = some t ∧
      (∀ other, other ≠ origin →
        (a.observeResponse order origin attempt status
          headers).2.opaqueCache.lookup other =
            a.opaqueCache.lookup other) ∧
      ∀ req, ∃ req', applyOpaqueToken req t = some req' ∧
        ("authorization", "AAuth " ++ t) ∈
          (aauthSignOptions req'.headers).extras ∧
        extractAauthAccess req'.headers = .ok (some t)) ∧
    ((∀ t, ¬ AccessValue headers t) →
      (a.observeResponse order origin attempt status
        headers).2.opaqueCache = a.opaqueCache) ∧
    (∀ (headers' : HeaderMap) value,
      headers'.getAll "authorization" = [value] →
      (startsWith value "AAuth" = true ∨
        startsWith (trim value) "AAuth" = true) →
      (∀ t, ¬ Credential value t) →
      ∃ e, extractAauthAccess headers' = .error e) ∧
    ∀ headers' : HeaderMap,
      1 < (headers'.getAll "authorization").length →
      ∃ e, extractAauthAccess headers' = .error e := by
  refine ⟨?_, ?_, fun _ _ => extract_refuses, fun _ => extract_several⟩
  · intro t ht
    obtain ⟨hkept, hothers⟩ := observe_keeps order a origin attempt hs ht
    obtain ⟨_, _, _, htoken⟩ := ht
    exact ⟨hkept, hothers, applyOpaqueToken_transports htoken⟩
  · intro hno
    rw [observe_unchanged order a origin attempt hs hno]

/-- A response that renews a token. -/
def renewal : HeaderMap := HeaderMap.empty.insert "aauth-access" " dGVzdA== "

theorem accessValue_renewal : AccessValue renewal "dGVzdA==" :=
  ⟨" dGVzdA== ", by decide, by decide, isToken68_iff.mp (by decide)⟩

theorem opaque_transport_renewal :
    ((AgentAuth.fresh none).observeResponse [] "https://r.example"
      .agentSigned 200 renewal).2.opaqueCache.lookup "https://r.example" =
        some "dGVzdA==" ∧
    ∃ req', applyOpaqueToken ⟨"GET", "https://r.example/", .empty, .none⟩
        "dGVzdA==" = some req' ∧
      ("authorization", "AAuth " ++ "dGVzdA==") ∈
        (aauthSignOptions req'.headers).extras ∧
      extractAauthAccess req'.headers = .ok (some "dGVzdA==") := by
  obtain ⟨hkept, -, hreq⟩ := (@opaque_transport [] (.fresh none)
    "https://r.example" .agentSigned 200 renewal (by decide)).1 "dGVzdA=="
      accessValue_renewal
  exact ⟨hkept, hreq _⟩

end Aauth
