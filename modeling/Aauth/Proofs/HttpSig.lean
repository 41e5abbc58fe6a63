import Aauth.Proofs.Http
import Aauth.Ref.CrateLaws
import Aauth.Ref.HttpSig

/-!
# What is signed verifies

A request signed with a JWT in its `Signature-Key` verifies under the key
the JWT is bound to, with the JWT and that key in the result. The proof
follows the two sides through the same signature base: the header is read
back as it was written, each covered component is found again with the
value it was signed with, and the pair of keys does the rest.
-/

namespace Aauth

open Text Except

variable {cr : Crates}

/-! ## The `Signature-Key` header -/

section SignatureKey

variable {jwt : String}

theorem isJwtChar_ne {c d : Char} (h : isJwtChar c = true)
    (hd : isJwtChar d = false) : c ≠ d := by
  intro he
  rw [he, hd] at h
  cases h

theorem IsCompact.not_mem {d : Char} (h : IsCompact jwt)
    (hd : isJwtChar d = false) : d ∉ jwt.toList := fun hm =>
  isJwtChar_ne (h d hm) hd rfl

/-- The parameter of the `jwt` scheme. -/
def jwtParam (jwt : String) : String := "jwt=\"" ++ (jwt ++ "\"")

theorem jwtParam_toList (jwt : String) :
    (jwtParam jwt).toList = "jwt=\"".toList ++ (jwt.toList ++ ['"']) := by
  simp [jwtParam]

theorem not_mem_jwtParam {d : Char} (h : d ∉ jwt.toList)
    (hp : d ∉ "jwt=\"".toList) (hq : d ≠ '"') :
    d ∉ (jwtParam jwt).toList := by
  rw [jwtParam_toList]
  intro hm
  rcases List.mem_append.mp hm with hm | hm
  · exact hp hm
  · rcases List.mem_append.mp hm with hm | hm
    · exact h hm
    · exact hq (List.mem_singleton.mp hm)

theorem trim_jwtParam : trim (jwtParam jwt) = jwtParam jwt := by
  refine trim_of_ends ?_ ?_
  · rw [jwtParam_toList]
    intro c hc
    cases hc
    decide
  · rw [jwtParam_toList]
    intro c hc
    rw [← List.append_assoc, List.getLast?_concat] at hc
    cases hc
    decide

/-- Up to a quote that does not occur in the text before it. -/
theorem splitOnce_quote {s : String} (h : '"' ∉ s.toList) :
    splitOnce (s ++ "\"") "\"" = some (s, "") := by
  rw [splitOnce, show (s ++ "\"").toList = s.toList ++ '"' :: [] by simp,
    show "\"".toList = ['"'] from rfl, splitOnceL_char h]
  simp

theorem parseJwtParam_jwtParam (h : '"' ∉ jwt.toList) :
    parseJwtParam [jwtParam jwt] = .ok (some jwt) := by
  have hs : stripPrefix (jwtParam jwt) "jwt=\"" = some (jwt ++ "\"") :=
    stripPrefix_append _ _
  simp only [parseJwtParam, List.foldlM_cons, List.foldlM_nil, trim_jwtParam,
    hs, splitOnce_quote h]
  rfl

/-- The member written for a JWT. -/
def jwtMember (jwt : String) : String := "jwt;" ++ jwtParam jwt

theorem jwtMember_toList (jwt : String) :
    (jwtMember jwt).toList = "jwt".toList ++ ';' :: (jwtParam jwt).toList := by
  simp [jwtMember]

theorem split_jwtMember (h : ';' ∉ jwt.toList) :
    split (jwtMember jwt) ';' = ["jwt", jwtParam jwt] := by
  rw [split, jwtMember_toList, splitL_append (by decide), splitL_of_not_mem
    (not_mem_jwtParam h (by decide) (by decide))]
  simp

/-- A JWT of any characters but the two the reader stops at. -/
theorem parseMember_jwtMember (hs : ';' ∉ jwt.toList) (hq : '"' ∉ jwt.toList) :
    parseMember (jwtMember jwt) = .ok (.jwt jwt) := by
  have ht : SignatureKeyScheme.parse (trim "jwt") = .jwt := by decide
  simp only [parseMember, split_jwtMember hs, List.head?_cons,
    List.tail_cons, bind_eq_ok, Option.okOr_eq_ok]
  refine ⟨"jwt", rfl, ?_⟩
  rw [ht]
  simp only [bind_eq_ok, Option.okOr_eq_ok]
  exact ⟨some jwt, parseJwtParam_jwtParam hq, jwt, rfl, rfl⟩

theorem IsCompact.parseMember (h : IsCompact jwt) :
    parseMember (jwtMember jwt) = .ok (.jwt jwt) :=
  parseMember_jwtMember (h.not_mem rfl) (h.not_mem rfl)

theorem trim_jwtMember : trim (jwtMember jwt) = jwtMember jwt := by
  refine trim_of_ends ?_ ?_
  · rw [jwtMember_toList]
    intro c hc
    cases hc
    decide
  · rw [jwtMember_toList, jwtParam_toList]
    intro c hc
    rw [← List.append_assoc, ← List.cons_append, ← List.append_assoc,
      List.getLast?_concat] at hc
    cases hc
    decide

theorem split_comma_jwtMember (h : IsCompact jwt) :
    split (jwtMember jwt) ',' = [jwtMember jwt] := by
  have hm : ',' ∉ (jwtMember jwt).toList := by
    rw [jwtMember_toList]
    intro hm
    rcases List.mem_append.mp hm with hm | hm
    · revert hm
      decide
    · rcases List.mem_cons.mp hm with hm | hm
      · cases hm
      · exact not_mem_jwtParam (h.not_mem rfl) (by decide) (by decide) hm
  rw [split, splitL_of_not_mem hm]
  simp

theorem toHeader_jwt (jwt : String) :
    (SignatureKey.jwt jwt).toHeader "sig" = .ok ("sig=" ++ jwtMember jwt) := by
  simp only [SignatureKey.toHeader, SignatureKey.toMemberValue, Except.map,
    jwtMember, jwtParam]
  refine congrArg Except.ok (String.toList_inj.mp ?_)
  simp

/-- The header is read back as it was written. -/
theorem fromHeader_toHeader (h : IsCompact jwt) :
    SignatureKey.fromHeader ("sig=" ++ jwtMember jwt) "sig" =
      .ok (.jwt jwt) := by
  have hs : splitOnce ("sig=" ++ jwtMember jwt) ("sig" ++ "=") =
      some ("", jwtMember jwt) := by
    have hl := splitOnceL_append (c := 's') (p := "ig=".toList)
      (jwtMember jwt).toList
    rw [splitOnce, show ("sig" ++ "=").toList = 's' :: "ig=".toList from rfl,
      String.toList_append,
      show "sig=".toList = 's' :: "ig=".toList from rfl, hl]
    simp
  rw [SignatureKey.fromHeader, bind_eq_ok]
  refine ⟨_, Option.okOr_eq_ok.mpr hs, ?_⟩
  rw [split_comma_jwtMember h, List.headD_cons, trim_jwtMember]
  exact h.parseMember

end SignatureKey

/-! ## Covered components -/

/-- The components an AAuth signature covers, with their values. -/
def coveredEntries (cr : Crates) (headers : HeaderMap)
    (method authority path jwt : String) : List (String × String) :=
  [("@method", cr.toUppercase method), ("@authority", authority),
    ("@path", path), ("signature-key", "sig=" ++ jwtMember jwt)] ++
    (aauthSignOptions headers).extras

/-- The headers a signature adds to a request. -/
def withSignature (headers : HeaderMap) (jwt input signature : String) :
    HeaderMap :=
  ((headers.insert "signature-key" ("sig=" ++ jwtMember jwt)).insert
    "signature-input" input).insert "signature" signature

section Covered

variable {headers : HeaderMap} {method authority path jwt : String}

/-- The two headers that may be covered beyond the base components. -/
theorem mem_extras {e : String × String} :
    e ∈ (aauthSignOptions headers).extras ↔
      (e.1 = "authorization" ∧ headerValue headers e.1 = some e.2 ∧
        startsWith e.2 "AAuth " = true) ∨
      (e.1 = "aauth-mission" ∧ headerValue headers e.1 = some e.2) := by
  obtain ⟨name, value⟩ := e
  simp only [aauthSignOptions, List.mem_append, List.mem_map,
    Option.mem_toList, Option.filter_eq_some_iff, Prod.mk.injEq]
  constructor
  · intro h
    rcases h with ⟨a, ⟨ha, hs⟩, rfl, rfl⟩ | ⟨a, ha, rfl, rfl⟩
    · exact .inl ⟨rfl, ha, hs⟩
    · exact .inr ⟨rfl, ha⟩
  · intro h
    rcases h with ⟨rfl, ha, hs⟩ | ⟨rfl, ha⟩
    · exact .inl ⟨value, ⟨ha, hs⟩, rfl, rfl⟩
    · exact .inr ⟨value, ha, rfl, rfl⟩

theorem mem_coveredEntries {e : String × String}
    (h : e ∈ coveredEntries cr headers method authority path jwt) :
    e = ("@method", cr.toUppercase method) ∨ e = ("@authority", authority) ∨
      e = ("@path", path) ∨
      e = ("signature-key", "sig=" ++ jwtMember jwt) ∨
      e ∈ (aauthSignOptions headers).extras := by
  simpa [coveredEntries, or_assoc] using h

theorem coveredNames_of_mem {e : String × String}
    (h : e ∈ coveredEntries cr headers method authority path jwt) :
    e.1 ∈ coveredNames := by
  rcases mem_coveredEntries h with rfl | rfl | rfl | rfl | h
  · exact List.mem_cons_self
  · exact (by decide : "@authority" ∈ coveredNames)
  · exact (by decide : "@path" ∈ coveredNames)
  · exact (by decide : "signature-key" ∈ coveredNames)
  · rcases mem_extras.mp h with ⟨hn, -⟩ | ⟨hn, -⟩
    · rw [hn]
      decide
    · rw [hn]
      decide

/-- A header that the signature does not add is read as before. -/
theorem headerValue_withSignature {name input signature : String}
    (h₁ : name ≠ "signature-key") (h₂ : name ≠ "signature-input")
    (h₃ : name ≠ "signature") :
    headerValue (withSignature headers jwt input signature) name =
      headerValue headers name := by
  rw [withSignature, headerValue_insert_of_ne h₃,
    headerValue_insert_of_ne h₂, headerValue_insert_of_ne h₁]

theorem getAll_withSignature {name input signature : String}
    (h₁ : name ≠ "signature-key") (h₂ : name ≠ "signature-input")
    (h₃ : name ≠ "signature") :
    (withSignature headers jwt input signature).getAll name =
      headers.getAll name := by
  rw [withSignature, HeaderMap.getAll_insert_of_ne h₃,
    HeaderMap.getAll_insert_of_ne h₂, HeaderMap.getAll_insert_of_ne h₁]

/-- A component that is a header. -/
theorem componentValue_header {signatureKeyHdr name value : String}
    (hn : name ∉ ["@method", "@authority", "@path", "signature-key"])
    (hname : headerNameFromBytes name = some name)
    (hv : headerValue headers name = some value) :
    componentValue cr method authority path headers signatureKeyHdr name =
      .ok value := by
  simp only [List.mem_cons, List.not_mem_nil, or_false, not_or] at hn
  obtain ⟨h₁, h₂, h₃, h₄⟩ := hn
  rw [componentValue, if_neg h₁, if_neg h₂, if_neg h₃, if_neg h₄, bind_eq_ok]
  exact ⟨name, Option.okOr_eq_ok.mpr hname, Option.okOr_eq_ok.mpr hv⟩

/-- The verifier finds each covered component with the value it was signed
with. -/
theorem componentValue_covered {input signature : String}
    {e : String × String}
    (h : e ∈ coveredEntries cr headers method authority path jwt) :
    componentValue cr method authority path
      (withSignature headers jwt input signature) ("sig=" ++ jwtMember jwt)
      e.1 = .ok e.2 := by
  rcases mem_coveredEntries h with rfl | rfl | rfl | rfl | h
  · rfl
  · rfl
  · rfl
  · rfl
  · rcases mem_extras.mp h with ⟨hn, hv, -⟩ | ⟨hn, hv⟩
    · rw [hn] at hv ⊢
      refine componentValue_header (by decide) (by decide) ?_
      rw [headerValue_withSignature (by decide) (by decide) (by decide)]
      exact hv
    · rw [hn] at hv ⊢
      refine componentValue_header (by decide) (by decide) ?_
      rw [headerValue_withSignature (by decide) (by decide) (by decide)]
      exact hv

theorem trimMatches_quoted {name : String} (h : name ∈ coveredNames) :
    trimMatches ("\"" ++ name ++ "\"") '"' = name := by
  revert h name
  decide

/-- Signing and verifying build the same lines, component by component. -/
theorem lines_of_signed (laws : HttpsigLaws cr) {f : String →
    Except HttpsigKeyError String} {entries : List (String × String)}
    {ids lines : List String} (hn : ∀ e ∈ entries, e.1 ∈ coveredNames)
    (hv : ∀ e ∈ entries, f e.1 = .ok e.2)
    (hids : List.Forall₂ (fun a b => cr.httpsig.componentId a = .ok b)
      (entries.map (·.1)) ids)
    (hlines : List.Forall₂ (fun a b => componentLine cr a.1 a.2 = .ok b)
      entries lines) :
    ids.map (trimMatches · '"') = entries.map (·.1) ∧
      List.Forall₂ (fun id line => ∃ value, f (trimMatches id '"') = .ok value ∧
        componentLine cr (trimMatches id '"') value = .ok line) ids lines := by
  induction entries generalizing ids lines with
  | nil =>
      cases hids
      cases hlines
      exact ⟨rfl, .nil⟩
  | cons e entries ih =>
      cases hids with
      | cons hid hids =>
          cases hlines with
          | cons hline hlines =>
              have hne := hn e List.mem_cons_self
              rw [laws.componentId _ hne] at hid
              cases hid
              obtain ⟨hm, hl⟩ := ih
                (fun d hd => hn d (List.mem_cons_of_mem e hd))
                (fun d hd => hv d (List.mem_cons_of_mem e hd)) hids hlines
              have ht := trimMatches_quoted hne
              refine ⟨?_, .cons ⟨e.2, ?_, ?_⟩ hl⟩
              · rw [List.map_cons, List.map_cons, ht, hm]
              · rw [ht]
                exact hv e List.mem_cons_self
              · rw [ht]
                exact hline

end Covered

/-! ## What verifies -/

/-- The components every signature has to cover. -/
def requiredNames : List String :=
  ["@method", "@authority", "@path", "signature-key"]

/-- What a successful verification read, and the checks it passed. -/
structure Verified (cr : Crates) (now : Nat) (method authority path : String)
    (headers : HeaderMap) (options : VerifyOptions)
    (v : VerifiedHttpSignature) where
  signatureKeyHdr : String
  signatureInput : String
  signatureHdr : String
  found : String → Option SignatureHeaders
  sigHeaders : SignatureHeaders
  created : Nat
  key : PublicKey
  lines : List String
  base : String
  key_read : headerValue headers "signature-key" = some signatureKeyHdr
  input_read : headerValue headers "signature-input" = some signatureInput
  signature_read : headerValue headers "signature" = some signatureHdr
  label_eq : v.label = options.label.getD "sig"
  key_parsed : SignatureKey.fromHeader signatureKeyHdr v.label =
    .ok v.signatureKey
  parsed : cr.httpsig.tryParse signatureHdr signatureInput = .ok found
  found_eq : found v.label = some sigHeaders
  required : ∀ name ∈ requiredNames, name ∈
    sigHeaders.signatureParams.coveredComponents.map (trimMatches · '"')
  authorization : options.requireAuthorization = true → "authorization" ∈
    sigHeaders.signatureParams.coveredComponents.map (trimMatches · '"')
  created_eq : sigHeaders.signatureParams.created = some created
  not_future : created ≤ now + i64AsU64 options.clockSkewSecs
  not_expired : now - created ≤
    options.maxAgeSecs + i64AsU64 options.clockSkewSecs
  resolved : resolvePublicJwk cr v.signatureKey = .ok (v.publicJwk, v.jwt)
  thumbprint_eq : httpsigJwkThumbprint cr v.publicJwk = .ok v.thumbprint
  decoded : publicKeyFromJwk cr v.publicJwk = .ok key
  lines_eq : List.Forall₂ (fun id line => ∃ value,
    componentValue cr method authority path headers signatureKeyHdr
      (trimMatches id '"') = .ok value ∧
    componentLine cr (trimMatches id '"') value = .ok line)
    sigHeaders.signatureParams.coveredComponents lines
  base_eq : cr.httpsig.base lines sigHeaders.signatureParams = .ok base
  verifies : cr.httpsig.verify base key sigHeaders = .ok ()

section Component

variable {method authority path key : String} {headers : HeaderMap}

/-- A component that is not derived is a header. -/
theorem componentValue_of_header {name v : String}
    (hn : name ∉ requiredNames)
    (h : componentValue cr method authority path headers key name = .ok v) :
    ∃ header, headerNameFromBytes name = some header ∧
      headerValue headers header = some v := by
  simp only [requiredNames, List.mem_cons, List.not_mem_nil, or_false,
    not_or] at hn
  obtain ⟨h₁, h₂, h₃, h₄⟩ := hn
  rw [componentValue, if_neg h₁, if_neg h₂, if_neg h₃, if_neg h₄,
    bind_eq_ok] at h
  obtain ⟨header, hh, hv⟩ := h
  exact ⟨header, Option.okOr_eq_ok.mp hh, Option.okOr_eq_ok.mp hv⟩

end Component

/-- Verification succeeds exactly when there is something it verified. -/
theorem verify_eq_ok {now : Nat} {method authority path : String}
    {headers : HeaderMap} {options : VerifyOptions}
    {v : VerifiedHttpSignature} :
    verify cr now method authority path headers options = .ok v ↔
      Nonempty (Verified cr now method authority path headers options v) := by
  simp only [verify, bind_eq_ok, mapError_eq_ok, mapM_eq_ok, pure_eq_ok,
    Option.okOr_eq_ok, failIf_eq_ok, forM_eq_ok]
  constructor
  · rintro ⟨keyHdr, hk, input, hi, sig, hs, key, hkey, found, hf, sh, hsh,
      -, hreq, -, hauth, created, hc, -, hfut, -, hexp, ⟨jwk, jwt⟩, hres, tp,
      htp, pk, hpk, lines, hl, base, hb, ⟨⟩, hv, rfl⟩
    exact ⟨{
      signatureKeyHdr := keyHdr, signatureInput := input, signatureHdr := sig
      found, sigHeaders := sh, created, key := pk, lines, base
      key_read := hk
      input_read := hi
      signature_read := hs
      label_eq := rfl
      key_parsed := hkey
      parsed := hf
      found_eq := hsh
      required := fun name hn => Classical.not_not.mp (hreq name hn)
      authorization := fun h => Classical.not_not.mp fun hn => hauth ⟨h, hn⟩
      created_eq := hc
      not_future := Nat.le_of_not_lt hfut
      not_expired := Nat.le_of_not_lt hexp
      resolved := hres
      thumbprint_eq := htp
      decoded := hpk
      lines_eq := hl
      base_eq := hb
      verifies := hv }⟩
  · rintro ⟨s⟩
    obtain ⟨label, key, jwk, tp, jwt⟩ := v
    have hlabel : label = options.label.getD "sig" := s.label_eq
    subst hlabel
    exact ⟨_, s.key_read, _, s.input_read, _, s.signature_read, _,
      s.key_parsed, _, s.parsed, _, s.found_eq, (),
      fun name hn hc => hc (s.required name hn), (),
      fun h => h.2 (s.authorization h.1), _, s.created_eq, (),
      Nat.not_lt.mpr s.not_future, (), Nat.not_lt.mpr s.not_expired, _,
      s.resolved, _, s.thumbprint_eq, _, s.decoded, _, s.lines_eq, _,
      s.base_eq, (), s.verifies, rfl⟩

/-! ## Signing, then verifying -/

/-- What one key signs, the other verifies. -/
structure SigningPair (cr : Crates) (signing : SigningJwk)
    (jwk : PublicJwk) where
  secretKey : SecretKey
  publicKey : PublicKey
  secret_eq : secretKeyFromSigningJwk cr signing = .ok secretKey
  public_eq : publicKeyFromJwk cr jwk = .ok publicKey
  verifies : ∀ {base : String} {p : HttpSignatureParams}
    {label input signature : String},
    cr.httpsig.build base p secretKey label = .ok (input, signature) →
      ∃ found s, cr.httpsig.tryParse signature input = .ok found ∧
        found label = some ⟨p, s⟩ ∧
        cr.httpsig.verify base publicKey ⟨p, s⟩ = .ok ()

/-- What a successful signature put together. -/
structure Signed (cr : Crates) (created : Nat) (headers : HeaderMap)
    (method authority path jwt : String) (signing : SigningJwk)
    (headers' : HeaderMap) where
  ids : List String
  lines : List String
  params : HttpSignatureParams
  base : String
  secret : SecretKey
  input : String
  signature : String
  ids_eq : List.Forall₂ (fun a b => cr.httpsig.componentId a = .ok b)
    ((coveredEntries cr headers method authority path jwt).map (·.1)) ids
  lines_eq : List.Forall₂ (fun a b => componentLine cr a.1 a.2 = .ok b)
    (coveredEntries cr headers method authority path jwt) lines
  params_eq : cr.httpsig.params ids = .ok params
  base_eq : cr.httpsig.base lines { params with created := some created } =
    .ok base
  secret_eq : secretKeyFromSigningJwk cr signing = .ok secret
  build_eq : cr.httpsig.build base { params with created := some created }
    secret "sig" = .ok (input, signature)
  key_visible : toStr ("sig=" ++ jwtMember jwt) =
    some ("sig=" ++ jwtMember jwt)
  input_visible : toStr input = some input
  signature_visible : toStr signature = some signature
  headers_eq : headers' = withSignature headers jwt input signature

section SignVerify

variable {created now : Nat} {headers headers' : HeaderMap}
  {method authority path jwt : String} {signing : SigningJwk}

theorem signed_of_sign
    (hs : sign cr created headers method authority path ⟨signing, .jwt jwt⟩
      (aauthSignOptions headers) = .ok headers') :
    Nonempty (Signed cr created headers method authority path jwt signing
      headers') := by
  have hnone : (aauthSignOptions headers).label = none := rfl
  simp only [sign, toHeader_jwt, bind_eq_ok, mapError_eq_ok, mapM_eq_ok,
    headerValueFromStr_eq_ok, pure_eq_ok, hnone, Option.getD_none,
    SignatureKey.presentable] at hs
  obtain ⟨-, -, key, ⟨⟩, hdr, hkey, ids, hids, params, hp, lines, hlines,
    base, hbase, secret, hsecret, ⟨input, signature⟩, hbuild, input', hin,
    signature', hsig, rfl⟩ := hs
  obtain ⟨hkv, rfl⟩ := toStr_eq_some.mp hkey
  obtain ⟨hiv, rfl⟩ := toStr_eq_some.mp hin
  obtain ⟨hsv, rfl⟩ := toStr_eq_some.mp hsig
  exact ⟨⟨ids, lines, params, base, secret, input, signature,
    by rw [coveredEntries, List.map_append]; exact hids,
    hlines, hp, hbase, hsecret, hbuild, hkey, hin, hsig, rfl⟩⟩

/-- The default options, or those that ask for a covered
`Authorization`. -/
structure StandardOptions (options : VerifyOptions) : Prop where
  maxAge : options.maxAgeSecs = 60
  skew : options.clockSkewSecs = 60
  label : options.label = none

/-- A signed request verifies under the key its JWT is bound to, at any
time from a minute before to two minutes after it was signed. -/
theorem verify_of_sign (laws : HttpsigLaws cr) {jwk : PublicJwk}
    {thumbprint : String} {options : VerifyOptions}
    (ho : StandardOptions options) (hjwt : IsCompact jwt)
    (hcnf : cnfJwkFromJwt cr jwt = .ok jwk)
    (htp : httpsigJwkThumbprint cr jwk = .ok thumbprint)
    (pair : SigningPair cr signing jwk)
    (hs : sign cr created headers method authority path ⟨signing, .jwt jwt⟩
      (aauthSignOptions headers) = .ok headers')
    (hfuture : created ≤ now + 60) (hpast : now ≤ created + 120)
    (hauth : options.requireAuthorization = true → ∃ value,
      headerValue headers "authorization" = some value ∧
        startsWith value "AAuth " = true) :
    verify cr now method authority path headers' options = .ok
      { label := "sig", signatureKey := .jwt jwt, publicJwk := jwk,
        thumbprint, jwt := some jwt } := by
  obtain ⟨s⟩ := signed_of_sign hs
  obtain ⟨ids, lines, params, base, secret, input, signature, hids, hlines,
    hparams, hbase, hsecret, hbuild, hkey, hin, hsig, rfl⟩ := s
  rw [pair.secret_eq] at hsecret
  cases hsecret
  obtain ⟨found, bytes, hparse, hfound, hverify⟩ := pair.verifies hbuild
  have hcov := laws.params hparams
  obtain ⟨hnames, hlines'⟩ := lines_of_signed laws
    (f := componentValue cr method authority path
      (withSignature headers jwt input signature) ("sig=" ++ jwtMember jwt))
    (fun e he => coveredNames_of_mem he)
    (fun e he => componentValue_covered he) hids hlines
  have hskew : i64AsU64 60 = 60 := by decide
  have hcov' : params.coveredComponents.map (trimMatches · '"') =
      requiredNames ++ (aauthSignOptions headers).extras.map (·.1) := by
    rw [hcov, hnames, coveredEntries, List.map_append]
    rfl
  refine verify_eq_ok.mpr ⟨{
    signatureKeyHdr := "sig=" ++ jwtMember jwt
    signatureInput := input
    signatureHdr := signature
    found
    sigHeaders := ⟨{ params with created := some created }, bytes⟩
    created
    key := pair.publicKey
    lines
    base
    key_read := ?_
    input_read := ?_
    signature_read := headerValue_insert_self hsig
    label_eq := by rw [ho.label]; rfl
    key_parsed := fromHeader_toHeader hjwt
    parsed := hparse
    found_eq := hfound
    required := ?_
    authorization := ?_
    created_eq := rfl
    not_future := by rw [ho.skew, hskew]; exact hfuture
    not_expired := by rw [ho.maxAge, ho.skew, hskew]; omega
    resolved := by rw [resolvePublicJwk, hcnf]; rfl
    thumbprint_eq := htp
    decoded := pair.public_eq
    lines_eq := by rw [hcov]; exact hlines'
    base_eq := hbase
    verifies := hverify }⟩
  · rw [withSignature, headerValue_insert_of_ne (by decide),
      headerValue_insert_of_ne (by decide)]
    exact headerValue_insert_self hkey
  · rw [withSignature, headerValue_insert_of_ne (by decide)]
    exact headerValue_insert_self hin
  · intro name hn
    rw [hcov']
    exact List.mem_append_left _ hn
  · intro h
    obtain ⟨value, hv, hstart⟩ := hauth h
    rw [hcov']
    refine List.mem_append_right _ (List.mem_map.mpr
      ⟨("authorization", value), ?_, rfl⟩)
    exact mem_extras.mpr (.inl ⟨rfl, hv, hstart⟩)

/-! ## Signing succeeds -/

theorem toNat_of_isVisibleAscii {c : Char} (h : isVisibleAscii c = true) :
    c.toNat < 128 := by
  simp only [isVisibleAscii, Bool.or_eq_true, Bool.and_eq_true,
    decide_eq_true_eq, beq_iff_eq] at h
  rcases h with ⟨-, h⟩ | rfl
  · omega
  · decide

theorem isVisible_append {s t : String} (hs : IsVisible s)
    (ht : IsVisible t) : IsVisible (s ++ t) := by
  rw [IsVisible, String.toList_append, List.all_append, hs, ht]
  rfl

theorem isVisible_of_isJwtChar {c : Char} (h : isJwtChar c = true) :
    isVisibleAscii c = true := by
  simp only [isJwtChar, Bool.or_eq_true, beq_iff_eq] at h
  rcases h with ((h | rfl) | rfl) | rfl
  · obtain ⟨hlow, hhigh⟩ := isAlphanum_bounds h
    simp only [isVisibleAscii, Bool.or_eq_true, Bool.and_eq_true,
      decide_eq_true_eq]
    refine .inl ?_
    omega
  · rfl
  · rfl
  · rfl

theorem isWhitespace_of_isJwtChar {c : Char} (h : isJwtChar c = true) :
    isWhitespace c = false := by
  have hall : ∀ n < 128, isJwtChar (Char.ofNat n) = true →
      isWhitespace (Char.ofNat n) = false := by decide
  exact @forall_ascii (fun c => isJwtChar c = true → isWhitespace c = false)
    hall c (toNat_of_isVisibleAscii (isVisible_of_isJwtChar h)) h

theorem IsCompact.isVisible (h : IsCompact jwt) : IsVisible jwt :=
  List.all_eq_true.mpr fun c hc => isVisible_of_isJwtChar (h c hc)

theorem isVisible_signatureKey (h : IsCompact jwt) :
    IsVisible ("sig=" ++ jwtMember jwt) := by
  refine isVisible_append (by rfl) (isVisible_append (by rfl) ?_)
  exact isVisible_append (by rfl) (isVisible_append h.isVisible (by rfl))

theorem toStr_of_isVisible {s : String} (h : IsVisible s) :
    toStr s = some s := if_pos h

/-- The covered components of a request made of visible ASCII are visible
ASCII. -/
theorem isVisible_covered (total : HttpsigTotal cr) (hjwt : IsCompact jwt)
    (hm : IsVisible method) (ha : IsVisible authority) (hp : IsVisible path)
    {e : String × String}
    (h : e ∈ coveredEntries cr headers method authority path jwt) :
    IsVisible e.2 := by
  rcases mem_coveredEntries h with rfl | rfl | rfl | rfl | h
  · exact total.uppercase hm
  · exact ha
  · exact hp
  · exact isVisible_signatureKey hjwt
  · rcases mem_extras.mp h with ⟨-, hv, -⟩ | ⟨-, hv⟩
    · exact headerValue_visible hv
    · exact headerValue_visible hv

/-- A request made of visible ASCII can be signed. -/
theorem sign_ok (laws : HttpsigLaws cr) (total : HttpsigTotal cr)
    {jwk : PublicJwk} (pair : SigningPair cr signing jwk)
    (hjwt : IsCompact jwt) (hm : IsVisible method) (ha : IsVisible authority)
    (hp : IsVisible path) :
    ∃ headers', sign cr created headers method authority path
      ⟨signing, .jwt jwt⟩ (aauthSignOptions headers) = .ok headers' := by
  obtain ⟨entries, hentries⟩ : ∃ entries,
      entries = coveredEntries cr headers method authority path jwt :=
    ⟨_, rfl⟩
  have hnames : ∀ e ∈ entries, e.1 ∈ coveredNames := by
    intro e he
    rw [hentries] at he
    exact coveredNames_of_mem he
  have hids : List.Forall₂ (fun a b => cr.httpsig.componentId a = .ok b)
      (entries.map (·.1)) (entries.map fun e => "\"" ++ e.1 ++ "\"") := by
    rw [List.forall₂_map_left_iff, List.forall₂_map_right_iff,
      List.forall₂_same]
    exact fun e he => laws.componentId e.1 (hnames e he)
  obtain ⟨lines, hlines⟩ : ∃ lines, List.Forall₂ (fun e line =>
      cr.httpsig.component ("\"" ++ e.1 ++ "\": " ++ e.2) = .ok line)
      entries lines := by
    refine List.forall₂_of_forall fun e he => total.component e.1 (hnames e he) _ ?_
    rw [hentries] at he
    exact isVisible_covered total hjwt hm ha hp he
  obtain ⟨params, hparams⟩ := total.params
    (entries.map fun e => "\"" ++ e.1 ++ "\"")
  have hcov := laws.params hparams
  obtain ⟨base, hbase⟩ := total.base
    (p := { params with created := some created }) hlines hcov
  obtain ⟨input, signature, hbuild, hin, hsig⟩ := total.build base
    { params with created := some created } pair.secretKey "sig" (by rfl)
  have hline : ∀ (e : String × String) line,
      componentLine cr e.1 e.2 = .ok line ↔
        cr.httpsig.component ("\"" ++ e.1 ++ "\": " ++ e.2) = .ok line :=
    fun e line => mapError_eq_ok
  have hkey := toStr_of_isVisible (isVisible_signatureKey hjwt)
  have hnone : (aauthSignOptions headers).label = none := rfl
  subst hentries
  simp only [sign, toHeader_jwt, bind_eq_ok, mapError_eq_ok, mapM_eq_ok,
    headerValueFromStr_eq_ok, pure_eq_ok, hnone, Option.getD_none,
    SignatureKey.presentable, hline]
  exact ⟨_, (), trivial, _, rfl, _, hkey, _, hids, params, hparams, lines,
    hlines, base, hbase, pair.secretKey, pair.secret_eq, _, hbuild, input,
    toStr_of_isVisible hin, signature, toStr_of_isVisible hsig, rfl⟩

end SignVerify

end Aauth
