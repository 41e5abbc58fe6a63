import Aauth.Proofs.HttpSig
import Aauth.Sample.Crates

/-!
# The sample keeps the promises

Each law of `Aauth.Ref.CrateLaws`, of the sample crates. A token of the
sample is three base64url segments, so splitting it at its dots gives back
the parts it was made of; everything else is the round trip of a codec.
-/

namespace Aauth.Sample

open Text Except

/-! ## Segments -/

theorem dot_not_mem (bs : Bytes) : '.' ∉ Base64url.encodeL bs := by
  intro h
  have := Base64url.mem_encodeL h
  revert this
  decide

/-- The token made of three segments. -/
def compact (h p s : Bytes) : String :=
  Base64url.encode h ++ "." ++ Base64url.encode p ++ "." ++
    Base64url.encode s

theorem split_compact (h p s : Bytes) :
    split (compact h p s) '.' =
      [Base64url.encode h, Base64url.encode p, Base64url.encode s] := by
  have hl : (compact h p s).toList = Base64url.encodeL h ++ '.' ::
      (Base64url.encodeL p ++ '.' :: Base64url.encodeL s) := by
    simp [compact, Base64url.encode]
  rw [split, hl, splitL_append (dot_not_mem h), splitL_append (dot_not_mem p),
    splitL_of_not_mem (dot_not_mem s)]
  rfl

theorem segments_compact (h p s : Bytes) :
    segments (compact h p s) = .ok (Base64url.encode h, Base64url.encode p,
      Base64url.encode s) := by
  rw [segments, split_compact]

theorem base64Decode_encode (bs : Bytes) :
    base64Decode (Base64url.encode bs) = .ok bs := by
  rw [base64Decode, Base64url.decode_encode]
  rfl

/-! ## Encoded tokens -/

/-- The signing input of a token. -/
def message (h : Header) (p : Bytes) : String :=
  Base64url.encode (header.enc h) ++ "." ++ Base64url.encode p

theorem encode_eq (h : Header) (p : Bytes) (k : EncodingKey) :
    encode h p k = .ok (compact (header.enc h) p
      (signature (ed25519Public k.der) (message h p))) := rfl

theorem eq_compact {h : Header} {p : Bytes} {k : EncodingKey} {jwt : String}
    (he : encode h p k = .ok jwt) :
    jwt = compact (header.enc h) p
      (signature (ed25519Public k.der) (message h p)) := by
  rw [encode_eq] at he
  exact (Except.ok.inj he).symm

theorem decodeHeader_encode {h : Header} {p : Bytes} {k : EncodingKey}
    {jwt : String} (he : encode h p k = .ok jwt) :
    decodeHeader jwt = .ok h := by
  rw [eq_compact he]
  simp only [decodeHeader, segments_compact, bind_eq_ok]
  exact ⟨_, rfl, _, base64Decode_encode _, serde_fromSlice header h⟩

theorem insecurePayload_encode {h : Header} {p : Bytes} {k : EncodingKey}
    {jwt : String} (he : encode h p k = .ok jwt) :
    insecurePayload jwt = .ok p := by
  rw [eq_compact he]
  simp only [insecurePayload, segments_compact, bind_eq_ok]
  exact ⟨_, rfl, base64Decode_encode p⟩

theorem headerJson_enc (h : Header) :
    headerJson.fromSlice (header.enc h) =
      .ok (.obj [("alg", .str h.alg.name)]) := by
  have hd := header.dec_enc h []
  rw [List.append_nil] at hd
  simp only [headerJson, hd]

theorem verifySignature_encode {h : Header} {p : Bytes} {k : EncodingKey}
    {jwt : String} (he : encode h p k = .ok jwt) :
    verifySignature jwt ⟨ed25519Public k.der⟩ h.alg = .ok p := by
  have hh := decodeHeader_encode he
  have hp := insecurePayload_encode he
  rw [eq_compact he] at hh hp ⊢
  simp only [verifySignature, segments_compact, bind_eq_ok, failIf_eq_ok]
  exact ⟨_, rfl, h, hh, _, base64Decode_encode _, (), fun hn => hn rfl, (),
    fun hn => hn rfl, hp⟩

theorem signature_inj {der der' : Bytes} {m : String}
    (h : signature der m = signature der' m) : der = der' :=
  List.append_cancel_right h

/-- A verified token carries the signature of its first two segments. -/
theorem signature_of_verified {jwt : String} {dk : DecodingKey}
    {alg : Algorithm} {bs : Bytes}
    (h : verifySignature jwt dk alg = .ok bs) :
    ∃ head payload s, segments jwt = .ok (head, payload, s) ∧
      base64Decode s = .ok (signature dk.der (head ++ "." ++ payload)) := by
  simp only [verifySignature, bind_eq_ok, failIf_eq_ok] at h
  obtain ⟨⟨head, payload, s⟩, hseg, _, -, sig, hsig, -, -, -, hs, -⟩ := h
  rw [not_ne_iff.mp hs] at hsig
  exact ⟨head, payload, s, hseg, hsig⟩

theorem jwtLaws : JwtLaws crates where
  payload_of_verified := by
    intro jwt key alg p h
    rw [crates_jsonwebtoken] at h ⊢
    have h : verifySignature jwt key alg = .ok p := h
    simp only [verifySignature, bind_eq_ok] at h
    obtain ⟨-, -, -, -, -, -, -, -, -, -, hp⟩ := h
    exact hp

theorem mintLaws : MintLaws crates where
  header_of_encode := by
    intro h p k jwt he
    rw [crates_jsonwebtoken] at he ⊢
    exact decodeHeader_encode he
  alg_of_encode := by
    intro h p k jwt he
    rw [crates_jsonwebtoken] at he
    have he : encode h p k = .ok jwt := he
    rw [eq_compact he, split_compact, crates_value, crates_base64Decode]
    refine ⟨Base64url.encode (header.enc h), header.enc h,
      .obj [("alg", .str h.alg.name)], List.head?_cons,
      base64Decode_encode _, headerJson_enc h, ?_⟩
    simp [Json.get, Json.asStr]
  payload_of_encode := by
    intro h p k jwt he
    rw [crates_jsonwebtoken] at he ⊢
    exact insecurePayload_encode he
  agentClaims := by
    intro c
    rw [crates_agentClaims, serde_toVec, serde_fromSlice]
  authClaims := by
    intro c
    rw [crates_authClaims, serde_toVec, serde_fromSlice]
  resourceClaims := by
    intro c
    rw [crates_resourceClaims, serde_toVec, serde_fromSlice]

/-! ## Validation of the registered claims -/

/-- The registered claims stand in front of any payload. -/
theorem registered_dec {α : Type} {c : Codec α} {bs : Bytes}
    {jwk : Option PublicJwk} {exp : Int} {a : α} {rest : Bytes}
    (h : (payload c).dec bs = some ((jwk, exp, a), rest)) :
    ∃ rest, registered.dec bs = some ((jwk, exp), rest) := by
  simp only [payload, registered, Codec.pair, Option.bind_eq_some_iff,
    Option.map_eq_some_iff] at h ⊢
  obtain ⟨q, hq, r, ⟨e, he, f, hf, rfl⟩, heq⟩ := h
  cases heq
  exact ⟨_, q, hq, e, he, rfl⟩

theorem validate_ok {bs rest : Bytes} {jwk : Option PublicJwk} {exp : Int}
    {v : Validation} {now : Nat}
    (h : registered.dec bs = some ((jwk, exp), rest))
    (hexp : (now : Int) ≤ exp + v.leeway) : validate bs v now = .ok () := by
  simp only [validate, h]
  exact failIf_of_not (by omega) _

/-- A payload the codec of a token accepts. -/
theorem payload_of_fromSlice {α β : Type} {c : Codec α}
    {pack : Option PublicJwk × Int × α → Option β}
    {unpack : β → Option PublicJwk × Int × α}
    {hp : ∀ b, pack (unpack b) = some b} {bs : Bytes} {b : β}
    (h : (serde ((payload c).refine pack unpack hp)).fromSlice bs = .ok b) :
    ∃ jwk exp a rest, (payload c).dec bs = some ((jwk, exp, a), rest) ∧
      pack (jwk, exp, a) = some b := by
  simp only [serde, Codec.refine] at h
  split at h
  · next heq =>
      cases h
      simp only [Option.bind_eq_some_iff, Option.map_eq_some_iff] at heq
      obtain ⟨⟨⟨jwk, exp, a⟩, rest⟩, hq, b', hb, hr⟩ := heq
      cases hr
      exact ⟨jwk, exp, a, _, hq, hb⟩
  · cases h

/-- Where the key and the expiry of each kind of claims come from. -/
theorem registered_agent {bs : Bytes} {c : AgentClaims}
    (h : (serde agentClaims).fromSlice bs = .ok c) :
    ∃ rest, registered.dec bs = some ((some c.cnf.jwk, c.exp), rest) := by
  obtain ⟨jwk, exp, a, rest, hd, hp⟩ := payload_of_fromSlice h
  cases jwk with
  | none => cases hp
  | some jwk =>
      cases hp
      exact registered_dec hd

theorem registered_auth {bs : Bytes} {c : AuthClaims}
    (h : (serde authClaims).fromSlice bs = .ok c) :
    ∃ rest, registered.dec bs = some ((some c.cnf.jwk, c.exp), rest) := by
  obtain ⟨jwk, exp, a, rest, hd, hp⟩ := payload_of_fromSlice h
  cases jwk with
  | none => cases hp
  | some jwk =>
      cases hp
      exact registered_dec hd

theorem registered_resource {bs : Bytes} {c : ResourceClaims}
    (h : (serde resourceClaims).fromSlice bs = .ok c) :
    ∃ rest, registered.dec bs = some ((none, (c.exp : Int)), rest) := by
  obtain ⟨jwk, exp, a, rest, hd, hp⟩ := payload_of_fromSlice h
  cases jwk with
  | some jwk => cases hp
  | none =>
      have hp : (if exp < 0 then none else some _) = some c := hp
      split at hp
      · cases hp
      · next hexp =>
          cases hp
          rw [Int.toNat_of_nonneg (by omega)]
          exact registered_dec hd

/-! ## Keys -/

theorem jwkFromPublic_eq (k : Ed25519KeyPair) :
    crates.json.jwkFromPublic (k.publicJwk crates) = .ok
      { keyId := k.kid, kty := "OKP", crv := some "Ed25519",
        x := some (Base64url.encode (ed25519Public k.signingKey)),
        y := none } := rfl

theorem fromJwk_eq {jwk : Jwk} {bs : Bytes}
    (h : jwk.x = some (Base64url.encode bs)) :
    crates.jsonwebtoken.fromJwk jwk = .ok ⟨bs⟩ := by
  show fromJwk jwk = _
  simp only [fromJwk, bind_eq_ok, Option.okOr_eq_ok]
  exact ⟨_, h, bs, base64Decode_encode bs, rfl⟩

theorem signLaws : SignLaws crates where
  jwk_of_public key := ⟨_, _, jwkFromPublic_eq key, rfl, fromJwk_eq rfl⟩
  encode_ok h p key _ := ⟨_, encode_eq h p _⟩
  verify_of_encode := by
    intro h p key jwt jwk dk ha he hj hd
    rw [jwkFromPublic_eq] at hj
    cases hj
    rw [fromJwk_eq rfl] at hd
    cases hd
    rw [crates_jsonwebtoken] at he ⊢
    rw [← ha]
    exact verifySignature_encode (k := ⟨key.signingKey⟩) he
  validate_agent := by
    intro p c v now hc _ hexp _
    rw [crates_agentClaims] at hc
    obtain ⟨rest, hr⟩ := registered_agent hc
    exact validate_ok hr hexp
  validate_auth := by
    intro p c v now hc _ hexp _
    rw [crates_authClaims] at hc
    obtain ⟨rest, hr⟩ := registered_auth hc
    exact validate_ok hr hexp
  validate_resource := by
    intro p c v now hc _ hexp
    rw [crates_resourceClaims] at hc
    obtain ⟨rest, hr⟩ := registered_resource hc
    exact validate_ok hr (by omega)

/-! ## The bound key -/

theorem jwtPayload_of_registered {bs rest : Bytes} {jwk : PublicJwk}
    {exp : Int} (h : registered.dec bs = some ((some jwk, exp), rest)) :
    jwtPayload.fromSlice bs = .ok ⟨some (some jwk)⟩ := by
  simp only [jwtPayload, h, Option.map_some]

theorem segments_eq_ok {jwt h p s : String} :
    segments jwt = .ok (h, p, s) ↔ split jwt '.' = [h, p, s] := by
  simp only [segments]
  split
  · next heq => rw [heq]; simp
  · next hne =>
      constructor
      · intro he
        cases he
      · intro he
        exact absurd he (hne h p s)

theorem cnfLaws : CnfLaws crates where
  payload_segment := by
    intro jwt p h
    rw [crates_jsonwebtoken] at h
    have h : insecurePayload jwt = .ok p := h
    simp only [insecurePayload, bind_eq_ok] at h
    obtain ⟨⟨_, segment, _⟩, hs, hd⟩ := h
    refine ⟨segment, ?_, ?_⟩
    · rw [segments_eq_ok.mp hs]
      rfl
    · rw [crates_base64Decode]
      exact hd
  cnf_of_agent := by
    intro p c h
    rw [crates_agentClaims] at h
    obtain ⟨rest, hr⟩ := registered_agent h
    exact jwtPayload_of_registered hr
  cnf_of_auth := by
    intro p c h
    rw [crates_authClaims] at h
    obtain ⟨rest, hr⟩ := registered_auth h
    exact jwtPayload_of_registered hr

/-! ## Thumbprints -/

theorem encode_inj {a b : Bytes} (h : Base64url.encode a = Base64url.encode b) :
    a = b := by
  have hd := congrArg Base64url.decode h
  rw [Base64url.decode_encode, Base64url.decode_encode] at hd
  exact Option.some.inj hd

theorem enc_inj {α : Type} {c : Codec α} {a b : α} (h : c.enc a = c.enc b) :
    a = b := by
  have ha := c.dec_enc a []
  rw [h, c.dec_enc b []] at ha
  cases ha
  rfl

theorem thumbprintLaws : ThumbprintLaws crates where
  mapToString_inj := by
    rintro members members' text ⟨-, -, ht⟩ ⟨-, -, ht'⟩
    exact enc_inj (encode_inj (Except.ok.inj (ht.trans ht'.symm)))
  sha256_inj := by
    intro _ _ text text' _ _ h
    refine String.toByteArray_inj.mp (ByteArray.ext (Array.toList_inj.mp ?_))
    exact h
  base64Encode_inj := encode_inj

theorem thumbprintTotal : ThumbprintTotal crates where
  mapToString _ := ⟨_, rfl⟩

/-! ## HTTP signatures -/

theorem httpsigLaws : HttpsigLaws crates where
  componentId _ _ := rfl
  params := by
    intro ids p h
    cases h
    rfl

theorem isJwtChar_alphabet : ∀ c ∈ Base64url.alphabet, isJwtChar c = true := by
  decide

theorem isCompact_encode (bs : Bytes) : IsCompact (Base64url.encode bs) := by
  intro c hc
  rw [Base64url.encode, String.toList_ofList] at hc
  exact isJwtChar_alphabet c (Base64url.mem_encodeL hc)

theorem isCompact_append {s t : String} (hs : IsCompact s)
    (ht : IsCompact t) : IsCompact (s ++ t) := by
  intro c hc
  rw [String.toList_append] at hc
  rcases List.mem_append.mp hc with hc | hc
  · exact hs c hc
  · exact ht c hc

theorem isCompact_segments {h p s : String} (hh : IsCompact h)
    (hp : IsCompact p) (hs : IsCompact s) :
    IsCompact (h ++ "." ++ p ++ "." ++ s) := by
  have hdot : IsCompact "." := by
    rw [IsCompact]
    decide
  exact isCompact_append (isCompact_append (isCompact_append
    (isCompact_append hh hdot) hp) hdot) hs

theorem isCompact_compact (h p s : Bytes) : IsCompact (compact h p s) :=
  isCompact_segments (isCompact_encode h) (isCompact_encode p)
    (isCompact_encode s)

theorem isCompact_of_decoded {s : String} {bs : Bytes}
    (h : base64Decode s = .ok bs) : IsCompact s := by
  intro c hc
  exact isJwtChar_alphabet c
    (Base64url.mem_of_decodeL (Option.okOr_eq_ok.mp h) c hc)

theorem eq_of_segments {jwt h p s : String}
    (hs : segments jwt = .ok (h, p, s)) :
    jwt = h ++ "." ++ p ++ "." ++ s := by
  rw [← intercalate_split jwt '.', segments_eq_ok.mp hs]
  rfl

theorem compactLaws : CompactLaws crates where
  of_encode := by
    intro h p k jwt he
    rw [crates_jsonwebtoken] at he
    rw [eq_compact he]
    exact isCompact_compact _ _ _
  of_verified := by
    intro jwt key alg p hv
    rw [crates_jsonwebtoken] at hv
    have hv : verifySignature jwt key alg = .ok p := hv
    simp only [verifySignature, decodeHeader, insecurePayload,
      bind_eq_ok] at hv
    obtain ⟨⟨h, p, s⟩, hs, _, ⟨_, hs', _, hh, -⟩, _, hsig, -, -, -, -, _,
      hs'', hp⟩ := hv
    cases hs.symm.trans hs'
    cases hs.symm.trans hs''
    rw [eq_of_segments hs]
    exact isCompact_segments (isCompact_of_decoded hh)
      (isCompact_of_decoded hp) (isCompact_of_decoded hsig)

/-- A dictionary member is read back as it was written. -/
theorem member_eq (label : String) (bs : Bytes) :
    member (label ++ "=" ++ Base64url.encode bs) label = some bs := by
  rw [member, stripPrefix_append, Option.bind_some, Base64url.decode_encode]

/-- The two halves of an Ed25519 key. -/
def signingPair (key : Ed25519KeyPair) (h : key.signingKey.length = 32) :
    SigningPair crates (key.signingJwk crates) (key.publicJwk crates) where
  secretKey := ⟨.ed25519, key.signingKey⟩
  publicKey := ⟨.ed25519, ed25519Public key.signingKey⟩
  secret_eq := by
    have hd : crates.base64Decode (key.signingJwk crates).d =
        .ok key.signingKey := base64Decode_encode _
    have hk : (key.signingJwk crates).kty = "OKP" ∧
        (key.signingJwk crates).crv = "Ed25519" := ⟨rfl, rfl⟩
    simp only [secretKeyFromSigningJwk, hd, bind_eq_ok, mapError_eq_ok]
    refine ⟨key.signingKey, rfl, ?_⟩
    rw [if_pos hk, bind_eq_ok]
    exact ⟨(), failIf_eq_ok.mpr (fun hn => hn h), rfl⟩
  public_eq := by
    have hd : crates.base64Decode (key.publicJwk crates).x =
        .ok (ed25519Public key.signingKey) := base64Decode_encode _
    have hk : (key.publicJwk crates).kty = "OKP" ∧
        (key.publicJwk crates).crv = "Ed25519" := ⟨rfl, rfl⟩
    have hl : (ed25519Public key.signingKey).length = 32 := by
      rw [ed25519Public, List.length_map, h]
    rw [publicKeyFromJwk, if_pos hk, hd, bind_eq_ok]
    refine ⟨_, rfl, ?_⟩
    rw [bind_eq_ok]
    exact ⟨(), failIf_eq_ok.mpr (fun hn => hn hl), rfl⟩
  verifies := by
    intro base p label input signature' hb
    cases hb
    refine ⟨_, signature (ed25519Public key.signingKey) base, rfl, ?_,
      failIf_of_not (fun hn => hn rfl) _⟩
    have hp := params.dec_enc p []
    rw [List.append_nil] at hp
    simp only [member_eq, hp, Option.bind_eq_bind, Option.bind_some,
      Option.pure_def]

/-- A text with no whitespace at all. -/
theorem isPlain_of_forall {s : String}
    (h : ∀ c ∈ s.toList, isWhitespace c = false) : IsPlain s := by
  refine ⟨fun hm => ?_, trim_of_ends ?_ ?_⟩
  · have hn := h _ hm
    revert hn
    decide
  · exact fun c hc => h c (List.mem_of_mem_head? hc)
  · exact fun c hc => h c (List.mem_of_getLast? hc)

theorem toUpper_of_not_ascii {c : Char} (h : ¬ c.toNat < 128) :
    c.toUpper = c := by
  refine dif_neg ?_
  intro hc
  have hz : c.toNat ≤ 'z'.toNat := UInt32.le_iff_toNat_le.mp hc.2
  have hlt : 'z'.toNat < 128 := by decide
  omega

/-- What holds of the ASCII characters and of a character that is its own
upper case. -/
theorem toUpper_cases {P : Char → Char → Prop}
    (hascii : ∀ n < 128, P (Char.ofNat n) (Char.ofNat n).toUpper)
    (hself : ∀ c, P c c) (c : Char) : P c c.toUpper := by
  by_cases hc : c.toNat < 128
  · have h := hascii c.toNat hc
    rw [Char.ofNat_toNat] at h
    exact h
  · rw [toUpper_of_not_ascii hc]
    exact hself c

theorem isWhitespace_toUpper (c : Char) :
    isWhitespace c.toUpper = isWhitespace c :=
  toUpper_cases (P := fun c d => isWhitespace d = isWhitespace c)
    (by decide) (fun _ => rfl) c

theorem eq_newline_of_toUpper (c : Char) (h : c.toUpper = '\n') : c = '\n' :=
  toUpper_cases (P := fun c d => d = '\n' → c = '\n') (by decide)
    (fun _ h => h) c h

theorem trim_asciiUpper (s : String) :
    trim (asciiUpper s) = asciiUpper (trim s) := by
  have hw : isWhitespace ∘ Char.toUpper = isWhitespace :=
    funext isWhitespace_toUpper
  simp only [trim, asciiUpper, String.toList_ofList, trimStartL, trimEndL,
    List.dropWhile_map, hw, ← List.map_reverse]

theorem isPlain_asciiUpper {s : String} (h : IsPlain s) :
    IsPlain (asciiUpper s) := by
  refine ⟨?_, ?_⟩
  · rw [asciiUpper, String.toList_ofList, List.mem_map]
    rintro ⟨c, hc, he⟩
    exact h.1 (eq_newline_of_toUpper c he ▸ hc)
  · rw [trim_asciiUpper, h.2]

/-- The sample base is read back as the documented one. -/
theorem signatureBaseLaws : SignatureBaseLaws crates where
  component_line := by
    refine ⟨fun name => "\"" ++ name ++ "\"", ?_⟩
    intro name value line _ h
    cases h
    rw [← String.toList_inj]
    simp
  base_lines := ⟨fun p => Base64url.encode (params.enc p), by
    intro lines p base h
    cases h
    rfl⟩
  uppercase := isPlain_asciiUpper
  one_base := by
    intro base base' key headers h h'
    have hs := Classical.not_not.mp (failIf_eq_ok.mp h)
    have hs' := Classical.not_not.mp (failIf_eq_ok.mp h')
    exact enc_inj (List.append_cancel_left (hs.symm.trans hs'))

theorem isVisibleAscii_toUpper : ∀ n < 128,
    isVisibleAscii (Char.ofNat n) = true →
      isVisibleAscii (Char.ofNat n).toUpper = true := by decide

theorem httpsigTotal : HttpsigTotal crates where
  params _ := ⟨_, rfl⟩
  component _ _ _ _ := ⟨_, rfl⟩
  base _ _ := ⟨_, rfl⟩
  build base p key label hl := by
    have hv : ∀ bs, IsVisible (label ++ "=" ++ Base64url.encode bs) :=
      fun bs => isVisible_append (isVisible_append hl (by rfl))
        (isCompact_encode bs).isVisible
    exact ⟨_, _, rfl, hv _, hv _⟩
  uppercase := by
    intro s hs
    show (asciiUpper s).toList.all isVisibleAscii = true
    rw [asciiUpper, String.toList_ofList, List.all_eq_true]
    intro c hc
    obtain ⟨d, hd, rfl⟩ := List.mem_map.mp hc
    have hv := List.all_eq_true.mp hs d hd
    have h := isVisibleAscii_toUpper d.toNat (toNat_of_isVisibleAscii hv)
    rw [Char.ofNat_toNat] at h
    exact h hv

end Aauth.Sample
