import Aauth.Proofs.HttpSig
import Aauth.Sample.Parties

/-!
# A signature is for one request

Two requests that verify under the same three signature headers are the
same request, in every part the signature covers. The headers fix the
key, the covered components and the signature, so the two signature bases
are equal, and a base can be read back: its lines carry the same
identifiers in the same order, no value runs past its line, and the
names that have to be covered are the names the lines are looked up by.

It takes one reading of the headers, though: a `Signature-Input` may hold
several signatures, and which is read is the `label` option of the call.
-/

namespace Aauth

open Text Except

variable {cr : Crates}

/-! ## What a base determines -/

/-- The line of a covered component whose value `value` finds. -/
def CoveredLine (cr : Crates) (value : String → Except HttpsigKeyError String)
    (id line : String) : Prop :=
  ∃ v, value (trimMatches id '"') = .ok v ∧
    componentLine cr (trimMatches id '"') v = .ok line

/-- Two lists of lines for the same identifiers that are one text carry the
same values. -/
theorem values_of_lines (laws : SignatureBaseLaws cr)
    {value value' : String → Except HttpsigKeyError String}
    (hplain : ∀ name v, value name = .ok v → IsPlain v)
    (hplain' : ∀ name v, value' name = .ok v → IsPlain v)
    {ids lines lines' : List String} {s t : List Char}
    (h : List.Forall₂ (CoveredLine cr value) ids lines)
    (h' : List.Forall₂ (CoveredLine cr value') ids lines')
    (he : (unlines lines).toList ++ s = (unlines lines').toList ++ t) :
    ∀ id ∈ ids, ∃ v, value (trimMatches id '"') = .ok v ∧
      value' (trimMatches id '"') = .ok v := by
  obtain ⟨identifier, hline⟩ := laws.component_line
  induction ids generalizing lines lines' with
  | nil => exact fun id hid => nomatch hid
  | cons id ids ih =>
      cases h with
      | cons hl h =>
      cases h' with
      | cons hl' h' =>
          obtain ⟨v, hv, hl⟩ := hl
          obtain ⟨v', hv', hl'⟩ := hl'
          have hp := hplain _ _ hv
          have hp' := hplain' _ _ hv'
          have hl := hline hp (mapError_eq_ok.mp hl)
          have hl' := hline hp' (mapError_eq_ok.mp hl')
          simp only [toList_unlines_cons, hl, hl', List.append_assoc,
            List.cons_append] at he
          simp only [String.toList_append] at he
          -- the identifiers agree, so the first newline ends both values
          obtain ⟨hvv, hrest⟩ := line_inj hp.1 hp'.1 he
          have hvv := String.toList_inj.mp hvv
          intro id' hid
          rcases List.mem_cons.mp hid with rfl | hid
          · exact ⟨v, hv, hvv ▸ hv'⟩
          · exact ih h h' hrest id' hid

/-! ## What a call verified -/

/-- What the `http` types promise of the request of a call. -/
structure PlainRequest (method authority path : String)
    (headers : HeaderMap) : Prop where
  method : IsPlain method
  authority : IsPlain authority
  path : IsPlain path
  headers : ∀ name value, headerValue headers name = some value →
    IsPlain value

/-- The parts of two requests that a signature over `covered` is about. -/
structure SameCovered (cr : Crates) (covered : List String)
    (method authority path : String) (headers : HeaderMap)
    (method' authority' path' : String) (headers' : HeaderMap) : Prop where
  method : cr.toUppercase method = cr.toUppercase method'
  authority : authority = authority'
  path : path = path'
  headers : ∀ name ∈ covered, name ∉ requiredNames → ∃ header value,
    headerNameFromBytes name = some header ∧
      headerValue headers header = some value ∧
      headerValue headers' header = some value

/-- The names a verified signature covers. -/
def SignatureHeaders.covered (s : SignatureHeaders) : List String :=
  s.signatureParams.coveredComponents.map (trimMatches · '"')

section Component

variable {method authority path key : String} {headers : HeaderMap}

theorem componentValue_plain (laws : SignatureBaseLaws cr)
    (hr : PlainRequest method authority path headers) (hkey : IsPlain key)
    (name v : String)
    (h : componentValue cr method authority path headers key name = .ok v) :
    IsPlain v := by
  by_cases hn : name ∈ requiredNames
  · rw [requiredNames] at hn
    simp only [List.mem_cons, List.not_mem_nil, or_false] at hn
    rcases hn with rfl | rfl | rfl | rfl
    · cases h
      exact laws.uppercase hr.method
    · cases h
      exact hr.authority
    · cases h
      exact hr.path
    · cases h
      exact hkey
  · obtain ⟨header, -, hv⟩ := componentValue_of_header hn h
    exact hr.headers header v hv

end Component

section Verified

variable {now : Nat} {method authority path : String} {headers : HeaderMap}
  {options : VerifyOptions} {v : VerifiedHttpSignature}

/-- The window of the default options. -/
theorem Verified.window
    (s : Verified cr now method authority path headers options v)
    (hage : options.maxAgeSecs = 60) (hskew : options.clockSkewSecs = 60) :
    s.created ≤ now + 60 ∧ now ≤ s.created + 120 := by
  have h60 : i64AsU64 60 = 60 := by decide
  have hf := s.not_future
  have he := s.not_expired
  rw [hskew, h60] at hf he
  rw [hage] at he
  omega

/-- What is covered under one reading of one set of signature headers does
not depend on the request. -/
theorem Verified.sigHeaders_eq {now' : Nat} {method' authority' path' : String}
    {headers' : HeaderMap} {options' : VerifyOptions}
    {v' : VerifiedHttpSignature}
    (s : Verified cr now method authority path headers options v)
    (s' : Verified cr now' method' authority' path' headers' options' v')
    (hlabel : options.label.getD "sig" = options'.label.getD "sig")
    (hsig : headerValue headers "signature" =
      headerValue headers' "signature")
    (hinput : headerValue headers "signature-input" =
      headerValue headers' "signature-input") :
    s.sigHeaders = s'.sigHeaders := by
  have hsig := s.signature_read.symm.trans (hsig.trans s'.signature_read)
  have hinput := s.input_read.symm.trans (hinput.trans s'.input_read)
  have hfound := s'.parsed
  rw [← Option.some.inj hsig, ← Option.some.inj hinput, s.parsed] at hfound
  have hl : v.label = v'.label :=
    s.label_eq.trans (hlabel.trans s'.label_eq.symm)
  have h := s.found_eq
  rw [Except.ok.inj hfound, hl, s'.found_eq] at h
  exact (Option.some.inj h).symm

/-- Nor does the key that is presented. -/
theorem Verified.key_eq {now' : Nat} {method' authority' path' : String}
    {headers' : HeaderMap} {options' : VerifyOptions}
    {v' : VerifiedHttpSignature}
    (s : Verified cr now method authority path headers options v)
    (s' : Verified cr now' method' authority' path' headers' options' v')
    (hlabel : options.label.getD "sig" = options'.label.getD "sig")
    (hkey : headerValue headers "signature-key" =
      headerValue headers' "signature-key") : s.key = s'.key := by
  have hkey := s.key_read.symm.trans (hkey.trans s'.key_read)
  have hl : v.label = v'.label :=
    s.label_eq.trans (hlabel.trans s'.label_eq.symm)
  have hparsed := s.key_parsed
  rw [Option.some.inj hkey, hl, s'.key_parsed] at hparsed
  have hres := s.resolved
  rw [← Except.ok.inj hparsed, s'.resolved] at hres
  have hjwk : v'.publicJwk = v.publicJwk := congrArg Prod.fst
    (Except.ok.inj hres)
  have hdec := s'.decoded
  rw [hjwk, s.decoded] at hdec
  exact Except.ok.inj hdec

end Verified

/-! ## No substitution -/

section Substitution

variable {now now' : Nat} {method authority path : String}
  {method' authority' path' : String} {headers headers' : HeaderMap}
  {options options' : VerifyOptions} {v v' : VerifiedHttpSignature}

/-- Two calls that read one signature of the same headers verified the same
request, each within the window of its options. -/
theorem no_substitution (laws : SignatureBaseLaws cr)
    (hr : PlainRequest method authority path headers)
    (hr' : PlainRequest method' authority' path' headers')
    (hlabel : options.label.getD "sig" = options'.label.getD "sig")
    (hsig : headerValue headers "signature" =
      headerValue headers' "signature")
    (hinput : headerValue headers "signature-input" =
      headerValue headers' "signature-input")
    (hkey : headerValue headers "signature-key" =
      headerValue headers' "signature-key")
    (h : verify cr now method authority path headers options = .ok v)
    (h' : verify cr now' method' authority' path' headers' options' =
      .ok v') :
    ∃ (s : Verified cr now method authority path headers options v)
      (s' : Verified cr now' method' authority' path' headers' options' v'),
      s.sigHeaders = s'.sigHeaders ∧ s.created = s'.created ∧
      SameCovered cr s.sigHeaders.covered method authority path headers
        method' authority' path' headers' ∧
      (options.requireAuthorization = true ∨
        options'.requireAuthorization = true → ∃ value,
          headerValue headers "authorization" = some value ∧
          headerValue headers' "authorization" = some value) ∧
      (options.maxAgeSecs = 60 → options.clockSkewSecs = 60 →
        s.created ≤ now + 60 ∧ now ≤ s.created + 120) ∧
      (options'.maxAgeSecs = 60 → options'.clockSkewSecs = 60 →
        s'.created ≤ now' + 60 ∧ now' ≤ s'.created + 120) := by
  obtain ⟨s⟩ := verify_eq_ok.mp h
  obtain ⟨s'⟩ := verify_eq_ok.mp h'
  have hsh := s.sigHeaders_eq s' hlabel hsig hinput
  have hk := s.key_eq s' hlabel hkey
  have hhdr := s.key_read.symm.trans (hkey.trans s'.key_read)
  have hhdr := Option.some.inj hhdr
  have hcreated : s.created = s'.created := by
    have hc := s.created_eq
    rw [hsh, s'.created_eq] at hc
    exact (Option.some.inj hc).symm
  have hbase : s.base = s'.base := by
    refine laws.one_base s.verifies ?_
    rw [hk, hsh]
    exact s'.verifies
  obtain ⟨paramsLine, hlines⟩ := laws.base_lines
  have htext : (unlines s.lines).toList ++
      (paramsLine s.sigHeaders.signatureParams).toList =
        (unlines s'.lines).toList ++
          (paramsLine s'.sigHeaders.signatureParams).toList := by
    rw [← String.toList_append, ← String.toList_append, ← hlines s.base_eq,
      ← hlines s'.base_eq, hbase]
  have hl' := s'.lines_eq
  rw [← hsh, ← hhdr] at hl'
  have hplain := hr.headers _ _ s.key_read
  have hvalues := values_of_lines laws (componentValue_plain laws hr hplain)
    (componentValue_plain laws hr' hplain) s.lines_eq hl' htext
  have hcovered : ∀ name ∈ s.sigHeaders.covered, ∃ value,
      componentValue cr method authority path headers s.signatureKeyHdr
        name = .ok value ∧
      componentValue cr method' authority' path' headers' s.signatureKeyHdr
        name = .ok value := by
    intro name hn
    obtain ⟨id, hid, rfl⟩ := List.mem_map.mp hn
    exact hvalues id hid
  have hheaders : ∀ name ∈ s.sigHeaders.covered, name ∉ requiredNames →
      ∃ header value, headerNameFromBytes name = some header ∧
        headerValue headers header = some value ∧
        headerValue headers' header = some value := by
    intro name hn hne
    obtain ⟨value, hv, hv'⟩ := hcovered name hn
    obtain ⟨header, hh, hval⟩ := componentValue_of_header hne hv
    obtain ⟨header', hh', hval'⟩ := componentValue_of_header hne hv'
    rw [hh] at hh'
    cases hh'
    exact ⟨header, value, hh, hval, hval'⟩
  refine ⟨s, s', hsh, hcreated, ⟨?_, ?_, ?_, hheaders⟩, ?_, s.window,
    s'.window⟩
  · obtain ⟨value, hv, hv'⟩ := hcovered "@method"
      (s.required _ (by decide))
    have hv : Except.ok (cr.toUppercase method) = Except.ok value := hv
    have hv' : Except.ok (cr.toUppercase method') = Except.ok value := hv'
    exact Except.ok.inj (hv.trans hv'.symm)
  · obtain ⟨value, hv, hv'⟩ := hcovered "@authority"
      (s.required _ (by decide))
    cases hv
    cases hv'
    rfl
  · obtain ⟨value, hv, hv'⟩ := hcovered "@path" (s.required _ (by decide))
    cases hv
    cases hv'
    rfl
  · intro hauth
    have hn : "authorization" ∈ s.sigHeaders.covered := by
      rcases hauth with ha | ha
      · exact s.authorization ha
      · have hc := s'.authorization ha
        rw [← hsh] at hc
        exact hc
    obtain ⟨header, value, hh, hval, hval'⟩ := hheaders _ hn (by decide)
    have hname : headerNameFromBytes "authorization" =
        some "authorization" := by decide
    rw [hname] at hh
    cases hh
    exact ⟨value, hval, hval'⟩

end Substitution

/-! ## One request, read twice -/

namespace Sample

theorem noWhitespace_member (label : String) (bs : Bytes)
    (h : ∀ c ∈ label.toList, isWhitespace c = false) :
    ∀ c ∈ (label ++ "=" ++ Base64url.encode bs).toList,
      isWhitespace c = false := by
  intro c hc
  rw [String.toList_append, String.toList_append] at hc
  rcases List.mem_append.mp hc with hc | hc
  · rcases List.mem_append.mp hc with hc | hc
    · exact h c hc
    · rw [List.mem_singleton.mp hc]
      decide
  · exact isWhitespace_of_isJwtChar (isCompact_encode bs c hc)

theorem isPlain_keyHeader {jwt : String} (h : IsCompact jwt) :
    IsPlain ("sig=" ++ jwtMember jwt) := by
  refine isPlain_of_forall fun c hc => ?_
  simp only [String.toList_append, jwtMember_toList, jwtParam_toList,
    List.mem_append, List.mem_cons] at hc
  have hsig : ∀ c ∈ "sig=".toList, isWhitespace c = false := by decide
  have hjwt : ∀ c ∈ "jwt".toList, isWhitespace c = false := by decide
  have hparam : ∀ c ∈ "jwt=\"".toList, isWhitespace c = false := by decide
  rcases hc with hc | hc | rfl | hc | hc | rfl | hc
  · exact hsig c hc
  · exact hjwt c hc
  · decide
  · exact hparam c hc
  · exact isWhitespace_of_isJwtChar (h c hc)
  · decide
  · cases hc

/-- Every header that can be read is plain. -/
def PlainHeaders (headers : HeaderMap) : Prop :=
  ∀ name value, headerValue headers name = some value → IsPlain value

theorem PlainHeaders.insert {headers : HeaderMap} {name value : String}
    (h : PlainHeaders headers) (hv : IsPlain value) :
    PlainHeaders (headers.insert name value) := by
  intro name' value' hr
  by_cases hn : name' = name
  · rw [hn, headerValue, HeaderMap.get_insert_self, Option.bind_some] at hr
    rw [← (toStr_eq_some.mp hr).2]
    exact hv
  · rw [headerValue_insert_of_ne hn] at hr
    exact h name' value' hr

theorem plain_botHeaders :
    PlainRequest "GET" "resource.example" "/" botHeaders := by
  obtain ⟨s⟩ := signed_botHeaders
  obtain ⟨_, _, params, base, secret, input, signature, _, _, _, _, _, hb, _,
    _, _, he⟩ := s
  have hb : Except.ok _ = Except.ok (input, signature) := hb
  obtain ⟨hi, hs⟩ := Prod.mk.inj (Except.ok.inj hb)
  have hsig : ∀ c ∈ "sig".toList, isWhitespace c = false := by decide
  have hinput : IsPlain input := by
    rw [← hi]
    exact isPlain_of_forall (noWhitespace_member "sig" _ hsig)
  have hsignature : IsPlain signature := by
    rw [← hs]
    exact isPlain_of_forall (noWhitespace_member "sig" _ hsig)
  have hempty : PlainHeaders HeaderMap.empty :=
    fun name value hv => nomatch hv
  refine ⟨by decide, by decide, by decide, ?_⟩
  rw [he]
  exact ((hempty.insert (isPlain_keyHeader (isCompact_mint _ _ _))).insert
    hinput).insert hsignature

/-- The agent's request, read when it was signed and two minutes later. -/
theorem no_substitution_bot : ∃ v v',
    verify crates now "GET" "resource.example" "/" botHeaders .default =
      .ok v ∧
    verify crates (now + 120) "GET" "resource.example" "/" botHeaders
      .default = .ok v' ∧
    ∃ (s : Verified crates now "GET" "resource.example" "/" botHeaders
        .default v)
      (s' : Verified crates (now + 120) "GET" "resource.example" "/"
        botHeaders .default v'),
      s.created = s'.created ∧ now + 120 ≤ s'.created + 120 := by
  have hv := verify_botHeaders (t := now) (by omega) (by omega)
  have hv' := verify_botHeaders (t := now + 120) (by omega) (by omega)
  obtain ⟨s, s', -, hc, -, -, -, hw⟩ := no_substitution signatureBaseLaws
    plain_botHeaders plain_botHeaders rfl rfl rfl rfl hv hv'
  exact ⟨_, _, hv, hv', s, s', hc, (hw rfl rfl).2⟩

/-! ## Two signatures in one header -/

/-- The member of a dictionary of one or two. -/
def dictionaryMember (header label : String) : Option Bytes :=
  match splitOnce header ", " with
  | some (first, second) => (member first label).or (member second label)
  | none => member header label

/-- The sample crates with headers that hold two signatures. -/
def dictionaryCrates : Crates :=
  { crates with
    httpsig :=
      { httpsig with
        tryParse := fun signature signatureInput => .ok fun label => do
          let input ← dictionaryMember signatureInput label
          let (signatureParams, _) ← params.dec input
          let signature ← dictionaryMember signature label
          return { signatureParams, signature } } }

/-! What does not read signature headers is as before. -/

theorem dictionary_json : dictionaryCrates.json = crates.json := by
  rw [dictionaryCrates]

theorem dictionary_base64Decode :
    dictionaryCrates.base64Decode = crates.base64Decode := by
  rw [dictionaryCrates]

theorem dictionary_base64DecodePadded :
    dictionaryCrates.base64DecodePadded = crates.base64DecodePadded := by
  rw [dictionaryCrates]

theorem dictionary_base64Encode :
    dictionaryCrates.base64Encode = crates.base64Encode := by
  rw [dictionaryCrates]

theorem dictionary_sha256 : dictionaryCrates.sha256 = crates.sha256 := by
  rw [dictionaryCrates]

theorem dictionary_publicKeyFromBytes :
    dictionaryCrates.httpsig.publicKeyFromBytes =
      crates.httpsig.publicKeyFromBytes := by
  rw [dictionaryCrates, crates]

theorem cnfJwkFromJwt_dictionary (jwt : String) :
    cnfJwkFromJwt dictionaryCrates jwt = cnfJwkFromJwt crates jwt := by
  rw [cnfJwkFromJwt, cnfJwkFromJwt, dictionary_json, dictionary_base64Decode,
    dictionary_base64DecodePadded]

theorem httpsigJwkThumbprint_dictionary (jwk : PublicJwk) :
    httpsigJwkThumbprint dictionaryCrates jwk =
      httpsigJwkThumbprint crates jwk := by
  rw [httpsigJwkThumbprint, httpsigJwkThumbprint, dictionary_json,
    dictionary_base64Encode, dictionary_sha256]

theorem publicKeyFromJwk_dictionary (jwk : PublicJwk) :
    publicKeyFromJwk dictionaryCrates jwk = publicKeyFromJwk crates jwk := by
  rw [publicKeyFromJwk, publicKeyFromJwk, dictionary_base64Decode,
    dictionary_publicKeyFromBytes]

theorem verify_dictionary {base : String} {key : PublicKey}
    {headers : SignatureHeaders}
    (h : headers.signature = signature key.bytes base) :
    dictionaryCrates.httpsig.verify base key headers = .ok () :=
  failIf_of_not (fun hn => hn h) _

theorem dictionary_signatureBaseLaws : SignatureBaseLaws dictionaryCrates :=
  ⟨signatureBaseLaws.component_line, signatureBaseLaws.base_lines,
    signatureBaseLaws.uppercase, signatureBaseLaws.one_base⟩

/-- Two members under the labels `sig` and `b`. -/
def twoMembers (first second : Bytes) : String :=
  "sig=" ++ Base64url.encode first ++ ", " ++
    ("b=" ++ Base64url.encode second)

theorem splitOnce_twoMembers (first second : Bytes) :
    splitOnce (twoMembers first second) ", " =
      some ("sig=" ++ Base64url.encode first,
        "b=" ++ Base64url.encode second) := by
  have hs : ' ' ∉ ("sig=" ++ Base64url.encode first).toList := by
    intro hm
    have hw := noWhitespace_member "sig" first (by decide) ' ' hm
    revert hw
    decide
  have h := splitOnceL_delim (c := ' ') (q := [',']) (by decide) hs
    ("b=" ++ Base64url.encode second).toList
  rw [splitOnce, show ", ".toList = [','] ++ [' '] from rfl,
    show (twoMembers first second).toList =
      ("sig=" ++ Base64url.encode first).toList ++ [','] ++
        ' ' :: ("b=" ++ Base64url.encode second).toList by
      simp [twoMembers], h]
  simp only [Option.map_some, String.ofList_toList]

theorem dictionaryMember_sig (first second : Bytes) :
    dictionaryMember (twoMembers first second) "sig" = some first := by
  simp only [dictionaryMember, splitOnce_twoMembers]
  rw [show member ("sig=" ++ Base64url.encode first) "sig" = some first
    from member_eq "sig" first]
  rfl

theorem dictionaryMember_b (first second : Bytes) :
    dictionaryMember (twoMembers first second) "b" = some second := by
  have hnone : member ("sig=" ++ Base64url.encode first) "b" = none := by
    have hp : stripPrefix ("sig=" ++ Base64url.encode first) ("b" ++ "=") =
        none := by
      simp [stripPrefix, stripPrefixL]
    rw [member, hp]
    rfl
  simp only [dictionaryMember, splitOnce_twoMembers]
  rw [hnone, show member ("b=" ++ Base64url.encode second) "b" = some second
    from member_eq "b" second]
  rfl

/-- One JWT under both labels. -/
def twoKeys (jwt : String) : String :=
  "sig=" ++ jwtMember jwt ++ ", " ++ ("b=" ++ jwtMember jwt)

section TwoKeys

variable {jwt : String}

theorem not_mem_jwtMember {c : Char} (h : IsCompact jwt)
    (hc : isJwtChar c = false) (hp : c ∉ "jwt;jwt=\"\"".toList) :
    c ∉ (jwtMember jwt).toList := by
  intro hm
  have hs : "jwt;jwt=\"\"".toList =
      "jwt".toList ++ ';' :: ("jwt=\"".toList ++ ['"']) := by decide
  rw [jwtMember_toList, jwtParam_toList, List.mem_append, List.mem_cons,
    List.mem_append, List.mem_append] at hm
  rw [hs, List.mem_append, List.mem_cons, List.mem_append] at hp
  have hj := h.not_mem hc
  tauto

theorem fromHeader_twoKeys_sig (h : IsCompact jwt) :
    SignatureKey.fromHeader (twoKeys jwt) "sig" = .ok (.jwt jwt) := by
  have hs : splitOnce (twoKeys jwt) ("sig" ++ "=") =
      some ("", jwtMember jwt ++ ", " ++ ("b=" ++ jwtMember jwt)) := by
    have hl := splitOnceL_append (c := 's') (p := "ig=".toList)
      (jwtMember jwt ++ ", " ++ ("b=" ++ jwtMember jwt)).toList
    rw [splitOnce, show ("sig" ++ "=").toList = 's' :: "ig=".toList from rfl,
      show (twoKeys jwt).toList = 's' :: "ig=".toList ++
        (jwtMember jwt ++ ", " ++ ("b=" ++ jwtMember jwt)).toList by
        simp [twoKeys], hl]
    simp only [Option.map_some, String.ofList_toList]
  have hcomma := not_mem_jwtMember h (c := ',') (by decide) (by decide)
  have hsplit : (split (jwtMember jwt ++ ", " ++ ("b=" ++ jwtMember jwt))
      ',').headD (jwtMember jwt ++ ", " ++ ("b=" ++ jwtMember jwt)) =
        jwtMember jwt := by
    rw [split, show (jwtMember jwt ++ ", " ++ ("b=" ++ jwtMember jwt)).toList =
      (jwtMember jwt).toList ++ ',' :: (" b=" ++ jwtMember jwt).toList by
        simp, splitL_append hcomma]
    simp
  rw [SignatureKey.fromHeader, bind_eq_ok]
  refine ⟨_, Option.okOr_eq_ok.mpr hs, ?_⟩
  rw [hsplit, trim_jwtMember]
  exact h.parseMember

theorem fromHeader_twoKeys_b (h : IsCompact jwt) :
    SignatureKey.fromHeader (twoKeys jwt) "b" = .ok (.jwt jwt) := by
  have hq : '=' ∉ '"' :: (jwt.toList ++ "\", ".toList) := by
    have hj := h.not_mem (d := '=') (by decide)
    simp [hj]
  -- past `sig=` and `jwt=`, neither of which ends in the label
  have h₁ := splitOnceL_past (c := '=') (q := ['b']) (s := "sig".toList)
    (by decide) (by decide) (by decide)
    ("jwt;jwt".toList ++ '=' :: ('"' :: (jwt.toList ++ "\", ".toList) ++
      ['b'] ++ '=' :: (jwtMember jwt).toList))
  have h₂ := splitOnceL_past (c := '=') (q := ['b']) (s := "jwt;jwt".toList)
    (by decide) (by decide) (by decide)
    ('"' :: (jwt.toList ++ "\", ".toList) ++ ['b'] ++
      '=' :: (jwtMember jwt).toList)
  have h₃ := splitOnceL_delim (c := '=') (q := ['b']) (by decide) hq
    (jwtMember jwt).toList
  rw [h₂, h₃] at h₁
  have hs : ∃ before, splitOnce (twoKeys jwt) ("b" ++ "=") =
      some (before, jwtMember jwt) := by
    rw [splitOnce, show ("b" ++ "=").toList = ['b'] ++ ['='] from rfl,
      show (twoKeys jwt).toList = "sig".toList ++ '=' :: ("jwt;jwt".toList ++
        '=' :: ('"' :: (jwt.toList ++ "\", ".toList) ++ ['b'] ++
          '=' :: (jwtMember jwt).toList)) by
        simp [twoKeys, jwtMember, jwtParam], h₁]
    simp only [Option.map_some, String.ofList_toList]
    exact ⟨_, rfl⟩
  obtain ⟨before, hs⟩ := hs
  rw [SignatureKey.fromHeader, bind_eq_ok]
  refine ⟨_, Option.okOr_eq_ok.mpr hs, ?_⟩
  rw [split_comma_jwtMember h, List.headD_cons, trim_jwtMember]
  exact h.parseMember

end TwoKeys

/-- What both signatures say of themselves. -/
def twoParams : HttpSignatureParams where
  coveredComponents := requiredNames.map fun name => "\"" ++ name ++ "\""
  created := some now
  others := ""

/-- The lines of a request that covers no more than it has to. -/
def twoLines (method path : String) : List String :=
  ["\"@method\": " ++ asciiUpper method,
    "\"@authority\": " ++ "resource.example", "\"@path\": " ++ path,
    "\"signature-key\": " ++ twoKeys botJwt]

def twoBase (method path : String) : String :=
  unlines (twoLines method path) ++ Base64url.encode (params.enc twoParams)

def twoSignature (method path : String) : Bytes :=
  signature (ed25519Public agentKey.signingKey) (twoBase method path)

/-- Headers with a signature over `GET /` and one over `DELETE /admin`. -/
def twoHeaders : HeaderMap :=
  ((HeaderMap.empty.insert "signature-key" (twoKeys botJwt)).insert
    "signature-input" (twoMembers (params.enc twoParams)
      (params.enc twoParams))).insert
    "signature" (twoMembers (twoSignature "GET" "/")
      (twoSignature "DELETE" "/admin"))

theorem isVisible_twoMembers (first second : Bytes) :
    IsVisible (twoMembers first second) :=
  isVisible_append (isVisible_append (isVisible_append (by rfl)
    (isCompact_encode first).isVisible) (by rfl))
    (isVisible_append (by rfl) (isCompact_encode second).isVisible)

theorem isVisible_twoKeys : IsVisible (twoKeys botJwt) := by
  have hjwt : IsCompact botJwt := isCompact_mint _ _ _
  have hmember : IsVisible (jwtMember botJwt) :=
    isVisible_append (by rfl) (isVisible_append (by rfl)
      (isVisible_append hjwt.isVisible (by rfl)))
  exact isVisible_append (isVisible_append (isVisible_append (by rfl)
    hmember) (by rfl)) (isVisible_append (by rfl) hmember)

/-- Read under a label, the headers verify what was signed under it. -/
theorem verify_twoHeaders {method path label : String}
    (hkey : SignatureKey.fromHeader (twoKeys botJwt) label = .ok (.jwt botJwt))
    (hinput : dictionaryMember (twoMembers (params.enc twoParams)
      (params.enc twoParams)) label = some (params.enc twoParams))
    (hsig : dictionaryMember (twoMembers (twoSignature "GET" "/")
      (twoSignature "DELETE" "/admin")) label =
        some (twoSignature method path)) :
    ∃ v, verify dictionaryCrates now method "resource.example" path twoHeaders
      { VerifyOptions.default with label := some label } = .ok v := by
  have hcnf := cnfJwkFromJwt_agent cnfLaws (parse_agentToken bot providerKey)
  have hdecoded := (signingPair agentKey (by rfl)).public_eq
  have htp := jwkThumbprint_eq_ok.mp (thumbprint_eq agentKey)
  rw [← cnfJwkFromJwt_dictionary] at hcnf
  rw [← publicKeyFromJwk_dictionary] at hdecoded
  rw [← httpsigJwkThumbprint_dictionary] at htp
  have hbase : dictionaryCrates.httpsig.base (twoLines method path)
      twoParams = .ok (twoBase method path) := rfl
  have hverify : dictionaryCrates.httpsig.verify (twoBase method path)
      ⟨.ed25519, ed25519Public agentKey.signingKey⟩
        ⟨twoParams, twoSignature method path⟩ = .ok () :=
    verify_dictionary (by rw [twoSignature])
  have hrequired : ∀ name ∈ requiredNames, name ∈
      twoParams.coveredComponents.map (trimMatches · '"') := by decide
  have hparams := params.dec_enc twoParams []
  rw [List.append_nil] at hparams
  refine ⟨⟨label, .jwt botJwt, agentKey.publicJwk crates,
    thumbprint agentKey, some botJwt⟩, verify_eq_ok.mpr ⟨{
      signatureKeyHdr := twoKeys botJwt
      signatureInput := twoMembers (params.enc twoParams)
        (params.enc twoParams)
      signatureHdr := twoMembers (twoSignature "GET" "/")
        (twoSignature "DELETE" "/admin")
      found := _
      sigHeaders := ⟨twoParams, twoSignature method path⟩
      created := now
      key := ⟨.ed25519, ed25519Public agentKey.signingKey⟩
      lines := twoLines method path
      base := twoBase method path
      key_read := ?_
      input_read := ?_
      signature_read := ?_
      label_eq := rfl
      key_parsed := hkey
      parsed := rfl
      found_eq := ?_
      required := ?_
      authorization := fun h => nomatch h
      created_eq := rfl
      not_future := ?_
      not_expired := ?_
      resolved := ?_
      thumbprint_eq := htp
      decoded := hdecoded
      lines_eq := ?_
      base_eq := hbase
      verifies := hverify }⟩⟩
  · rw [twoHeaders, headerValue_insert_of_ne (by decide),
      headerValue_insert_of_ne (by decide)]
    exact headerValue_insert_self (toStr_of_isVisible isVisible_twoKeys)
  · rw [twoHeaders, headerValue_insert_of_ne (by decide)]
    exact headerValue_insert_self
      (toStr_of_isVisible (isVisible_twoMembers _ _))
  · exact headerValue_insert_self
      (toStr_of_isVisible (isVisible_twoMembers _ _))
  · show (do
      let input ← dictionaryMember _ label
      let (signatureParams, _) ← params.dec input
      let signature ← dictionaryMember _ label
      return ({ signatureParams, signature } : SignatureHeaders)) = _
    rw [hinput, hsig]
    simp only [Option.bind_eq_bind, Option.bind_some, hparams, Option.pure_def]
  · exact hrequired
  · exact Nat.le_add_right _ _
  · rw [Nat.sub_self]
    exact Nat.zero_le _
  · rw [resolvePublicJwk, botJwt, hcnf]
    rfl
  · exact .cons ⟨_, rfl, rfl⟩ (.cons ⟨_, rfl, rfl⟩ (.cons ⟨_, rfl, rfl⟩
      (.cons ⟨_, rfl, rfl⟩ .nil)))

/-- One call reads the signature under the default label, another the one
under `b`: both succeed, on different requests. -/
theorem label_substitutes :
    SignatureBaseLaws dictionaryCrates ∧
    (∃ v, verify dictionaryCrates now "GET" "resource.example" "/" twoHeaders
      { VerifyOptions.default with label := some "sig" } = .ok v) ∧
    (∃ v, verify dictionaryCrates now "DELETE" "resource.example" "/admin"
      twoHeaders { VerifyOptions.default with label := some "b" } = .ok v) ∧
    dictionaryCrates.toUppercase "GET" ≠
      dictionaryCrates.toUppercase "DELETE" := by
  have hjwt : IsCompact botJwt := isCompact_mint _ _ _
  exact ⟨dictionary_signatureBaseLaws,
    verify_twoHeaders (fromHeader_twoKeys_sig hjwt) (dictionaryMember_sig _ _)
      (dictionaryMember_sig _ _),
    verify_twoHeaders (fromHeader_twoKeys_b hjwt) (dictionaryMember_b _ _)
      (dictionaryMember_b _ _), by decide⟩

end Sample

end Aauth
