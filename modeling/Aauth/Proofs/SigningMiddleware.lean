import Aauth.Proofs.OpaqueTransport
import Aauth.Proofs.ResourceGate
import Aauth.Proofs.SignedRequests
import Aauth.Ref.Signing

/-!
# What the agent presents is what the server sees

The middleware signs a request for the authority of its URL, hands it to the
transport, and that adds headers of its own, `Host` among them. The server
computes the parts of the signature from what arrives. A signature that is
made so verifies wherever it may be looked at, under the key of the JWT that
the attempt presents, and the layer of a resource decides on just that
credential: on no other, and on none that the request does not carry.
-/

namespace Aauth

open Text Except

variable {cr : Crates}

/-! ## On the way -/

/-- The headers that are looked at where a request arrives. -/
def keptNames : List String :=
  ["signature-key", "signature-input", "signature", "authorization",
    "aauth-mission", "content-type"]

/-- The headers of a request for the URL, as they are received: what the
transport adds to them is about the transport. -/
structure Received (u : Url) (sent received : HeaderMap) : Prop where
  username : u.username = ""
  password : u.password = none
  host : headerValue received "host" = some u.hostPort
  kept : ∀ name ∈ keptNames, received.getAll name = sent.getAll name

theorem HeaderMap.get_eq_head (h : HeaderMap) (name : String) :
    h.get name = (h.getAll name).head? := by
  rw [get, getAll, List.head?_map, List.head?_filter]

section Received

variable {u : Url} {sent received : HeaderMap}

theorem Received.headerValue_eq (h : Received u sent received)
    {name : String} (hn : name ∈ keptNames) :
    headerValue received name = headerValue sent name := by
  rw [headerValue, headerValue, HeaderMap.get_eq_head, HeaderMap.get_eq_head,
    h.kept name hn]

/-- The agent signs for the host it talks to. -/
theorem Received.authority_eq (h : Received u sent received) :
    u.authority = u.hostPort := by
  rw [Url.authority, h.password, h.username]
  rfl

end Received

/-! ## Verifying what was received -/

section Verified

variable {now created : Nat} {method authority path jwt : String}
  {headers headers' received : HeaderMap} {options : VerifyOptions}
  {v : VerifiedHttpSignature} {signing : SigningJwk} {u : Url}

/-- The headers a signature is in, and those it may cover. -/
def signatureNames : List String :=
  ["signature-key", "signature-input", "signature", "authorization",
    "aauth-mission"]

theorem signatureNames_kept {name : String} (h : name ∈ signatureNames) :
    name ∈ keptNames := List.mem_append_left ["content-type"] h

theorem signatureNames_of_covered {name : String} (h : name ∈ coveredNames)
    (hn : name ∉ requiredNames) : name ∈ signatureNames := by
  revert h hn
  revert name
  decide

/-- A covered component is a derived one, or one of these headers. -/
theorem componentValue_of_kept
    (h : ∀ name ∈ signatureNames,
      headerValue received name = headerValue headers name)
    {key name : String} (hn : name ∈ coveredNames) :
    componentValue cr method authority path received key name =
      componentValue cr method authority path headers key name := by
  by_cases hr : name ∈ requiredNames
  · simp only [requiredNames, List.mem_cons, List.not_mem_nil,
      or_false] at hr
    rcases hr with rfl | rfl | rfl | rfl
    · rfl
    · rfl
    · rfl
    · rfl
  · have hname : headerNameFromBytes name = some name := by
      revert hn hr
      revert name
      decide
    rw [componentValue, componentValue, hname]
    show (ite _ _ _) = (ite _ _ _)
    simp only [Option.okOr, ok_bind,
      h _ (signatureNames_of_covered hn hr)]

/-- A verification that looked at nothing but AAuth's components can be
repeated on the headers as they were received. -/
theorem Verified.onArrival
    (s : Verified cr now method authority path headers options v)
    (hcov : ∀ id ∈ s.sigHeaders.signatureParams.coveredComponents,
      trimMatches id '"' ∈ coveredNames)
    (h : ∀ name ∈ signatureNames,
      headerValue received name = headerValue headers name) :
    Nonempty (Verified cr now method authority path received options v) := by
  have hlines := (List.forall₂_and_left _ _).mpr ⟨hcov, s.lines_eq⟩
  exact ⟨{ s with
    key_read := (h _ (by decide)).trans s.key_read
    input_read := (h _ (by decide)).trans s.input_read
    signature_read := (h _ (by decide)).trans s.signature_read
    lines_eq := hlines.imp fun id line hl => by
      rw [componentValue_of_kept h hl.1]
      exact hl.2 }⟩

/-- What an AAuth signature covers. -/
theorem Verified.covered_of_sign (laws : HttpsigLaws cr) {jwk : PublicJwk}
    (pair : SigningPair cr signing jwk) (ho : StandardOptions options)
    (hs : sign cr created headers method authority path ⟨signing, .jwt jwt⟩
      (aauthSignOptions headers) = .ok headers')
    (s : Verified cr now method authority path headers' options v) :
    ∀ id ∈ s.sigHeaders.signatureParams.coveredComponents,
      trimMatches id '"' ∈ coveredNames := by
  obtain ⟨signed⟩ := signed_of_sign hs
  obtain ⟨ids, lines, params, base, secret, input, signature, hids, hlines,
    hparams, -, hsecret, hbuild, -, hin, hsig, rfl⟩ := signed
  rw [pair.secret_eq] at hsecret
  cases hsecret
  obtain ⟨found, bytes, hparse, hfound, -⟩ := pair.verifies hbuild
  -- the verification found the parameters that were signed
  have hsignature : s.signatureHdr = signature := by
    have h : headerValue (withSignature headers jwt input signature)
        "signature" = some signature := headerValue_insert_self hsig
    exact Option.some.inj (s.signature_read.symm.trans h)
  have hinput : s.signatureInput = input := by
    have h : headerValue (withSignature headers jwt input signature)
        "signature-input" = some input := by
      rw [withSignature, headerValue_insert_of_ne (by decide)]
      exact headerValue_insert_self hin
    exact Option.some.inj (s.input_read.symm.trans h)
  have hparsed := s.parsed
  rw [hsignature, hinput, hparse] at hparsed
  cases hparsed
  have hlabel : v.label = "sig" := by
    rw [s.label_eq, ho.label]
    rfl
  have hsh := s.found_eq
  rw [hlabel, hfound] at hsh
  have hcov : s.sigHeaders.signatureParams.coveredComponents = ids := by
    rw [← Option.some.inj hsh]
    show params.coveredComponents = ids
    exact laws.params hparams
  obtain ⟨hnames, -⟩ := lines_of_signed laws
    (f := componentValue cr method authority path
      (withSignature headers jwt input signature) ("sig=" ++ jwtMember jwt))
    (fun e he => coveredNames_of_mem he)
    (fun e he => componentValue_covered he) hids hlines
  intro id hid
  rw [hcov] at hid
  have hmem : trimMatches id '"' ∈ ids.map (trimMatches · '"') :=
    List.mem_map_of_mem hid
  rw [hnames] at hmem
  obtain ⟨e, he, heq⟩ := List.mem_map.mp hmem
  rw [← heq]
  exact coveredNames_of_mem he

/-- A signed request verifies wherever its signature is seen, for as long
as it is fresh. -/
theorem verify_of_kept (laws : HttpsigLaws cr) {jwk : PublicJwk}
    {thumbprint : String} (ho : StandardOptions options)
    (hjwt : IsCompact jwt) (hcnf : cnfJwkFromJwt cr jwt = .ok jwk)
    (htp : httpsigJwkThumbprint cr jwk = .ok thumbprint)
    (pair : SigningPair cr signing jwk)
    (hs : sign cr created headers method authority path ⟨signing, .jwt jwt⟩
      (aauthSignOptions headers) = .ok headers')
    (h : ∀ name ∈ signatureNames,
      headerValue received name = headerValue headers' name)
    (hfuture : created ≤ now + 60) (hpast : now ≤ created + 120)
    (hauth : options.requireAuthorization = true → ∃ value,
      headerValue headers "authorization" = some value ∧
        startsWith value "AAuth " = true) :
    verify cr now method authority path received options = .ok
      { label := "sig", signatureKey := .jwt jwt, publicJwk := jwk,
        thumbprint, jwt := some jwt } := by
  obtain ⟨s⟩ := verify_eq_ok.mp
    (verify_of_sign laws ho hjwt hcnf htp pair hs hfuture hpast hauth)
  exact verify_eq_ok.mpr
    (s.onArrival (s.covered_of_sign laws pair ho hs) h)

theorem verify_of_received (laws : HttpsigLaws cr) {jwk : PublicJwk}
    {thumbprint : String} (ho : StandardOptions options)
    (hjwt : IsCompact jwt) (hcnf : cnfJwkFromJwt cr jwt = .ok jwk)
    (htp : httpsigJwkThumbprint cr jwk = .ok thumbprint)
    (pair : SigningPair cr signing jwk)
    (hs : sign cr created headers method authority path ⟨signing, .jwt jwt⟩
      (aauthSignOptions headers) = .ok headers')
    (h : Received u headers' received)
    (hfuture : created ≤ now + 60) (hpast : now ≤ created + 120)
    (hauth : options.requireAuthorization = true → ∃ value,
      headerValue headers "authorization" = some value ∧
        startsWith value "AAuth " = true) :
    verify cr now method authority path received options = .ok
      { label := "sig", signatureKey := .jwt jwt, publicJwk := jwk,
        thumbprint, jwt := some jwt } :=
  verify_of_kept laws ho hjwt hcnf htp pair hs
    (fun _ hn => h.headerValue_eq (signatureNames_kept hn)) hfuture hpast
    hauth

end Verified

/-! ## What the middleware does to a request -/

/-- The JWT a request is signed for. -/
def AgentAuthAttempt.jwt (agentJwt : String) : AgentAuthAttempt → String
  | authToken token => token
  | opaqueToken _ => agentJwt
  | agentSigned => agentJwt

/-- The values of `Authorization` an attempt leaves. -/
def AgentAuthAttempt.authorization (own : List String) :
    AgentAuthAttempt → List String
  | authToken _ => own
  | opaqueToken token => ["AAuth " ++ token]
  | agentSigned => own

/-- The names the middleware sets before it signs. -/
def preparedNames : List String :=
  ["aauth-capabilities", "aauth-mission", "authorization"]

/-- A request that the attempt is presented in, to be signed. -/
structure ToBeSigned (attempt : AgentAuthAttempt)
    (req prepared : AgentRequest) : Prop where
  method : prepared.method = req.method
  url : prepared.url = req.url
  body : prepared.body = req.body
  authorization : prepared.headers.getAll "authorization" =
    attempt.authorization (req.headers.getAll "authorization")
  kept : ∀ name ∉ preparedNames,
    prepared.headers.getAll name = req.headers.getAll name

theorem insertExpected_eq_ok {req req' : AgentRequest} {name message : String}
    {value : Option String}
    (h : req.insertExpected name value message = .ok req') :
    req' = req ∨
      ∃ v, req' = { req with headers := req.headers.insert name v } := by
  rw [AgentRequest.insertExpected] at h
  cases value with
  | none =>
      cases h
      exact .inl rfl
  | some value =>
      rw [Option.map_some] at h
      cases hv : headerValueFromStr value with
      | error e =>
          rw [hv] at h
          cases h
      | ok v =>
          rw [hv] at h
          cases h
          exact .inr ⟨v, rfl⟩

section Middleware

variable {options : SigningOptions} {created : Nat} {u : Url}
  {req out prepared : AgentRequest} {material : SigningMaterial}
  {attempt : AgentAuthAttempt} {agentJwt : String}

/-- The options set no credential. -/
theorem applyTo_prepared (h : options.applyTo req = .ok prepared) :
    ToBeSigned .agentSigned req prepared := by
  obtain ⟨named, hcap, hmission⟩ := bind_eq_ok.mp h
  have hstep : ∀ {a b : AgentRequest} {name message : String}
      {value : Option String}, name ∈ preparedNames →
      name ≠ "authorization" → a.insertExpected name value message = .ok b →
      ToBeSigned .agentSigned a b := by
    intro a b name message value hn hne hb
    rcases insertExpected_eq_ok hb with rfl | ⟨v, rfl⟩
    · exact ⟨rfl, rfl, rfl, rfl, fun _ _ => rfl⟩
    · refine ⟨rfl, rfl, rfl, HeaderMap.getAll_insert_of_ne hne.symm, ?_⟩
      intro other hother
      refine HeaderMap.getAll_insert_of_ne fun he => ?_
      rw [he] at hother
      exact hother hn
  have hfirst := hstep (by decide) (by decide) hcap
  have hsecond := hstep (by decide) (by decide) hmission
  exact ⟨hsecond.method.trans hfirst.method, hsecond.url.trans hfirst.url,
    hsecond.body.trans hfirst.body,
    hsecond.authorization.trans hfirst.authorization,
    fun name hn => (hsecond.kept name hn).trans (hfirst.kept name hn)⟩

theorem applyOpaqueToken_prepared {token : String} {named : AgentRequest}
    (h : ToBeSigned .agentSigned req named)
    (ht : applyOpaqueToken named token = some prepared) :
    ToBeSigned (.opaqueToken token) req prepared := by
  rw [applyOpaqueToken] at ht
  obtain ⟨value, hv, rfl⟩ := Option.map_eq_some_iff.mp ht
  have hvalue := headerValueFromStr_eq_ok.mp (Except.toOption_eq_some.mp hv)
  obtain ⟨-, rfl⟩ := toStr_eq_some.mp hvalue
  refine ⟨h.method, h.url, h.body, HeaderMap.getAll_insert_self, ?_⟩
  intro name hn
  rw [HeaderMap.getAll_insert_of_ne fun he => hn (by rw [he]; decide)]
  exact h.kept name hn

/-- A signed request is the prepared one, with the headers of a signature
for the JWT of the attempt. -/
structure SignedAs (cr : Crates) (created : Nat) (u : Url)
    (signing : SigningJwk) (jwt : String) (prepared out : AgentRequest) :
    Prop where
  method : out.method = prepared.method
  url : out.url = prepared.url
  body : out.body = prepared.body
  sign : Aauth.sign cr created prepared.headers prepared.method u.authority
    u.path ⟨signing, .jwt jwt⟩ (aauthSignOptions prepared.headers) =
      .ok out.headers

theorem sign_signedAs {jwt : String} (hkey : material.signatureKey = .jwt jwt)
    {e : SignatureError → String} :
    ofMiddleware e (prepared.sign cr created u material) = .ok out ↔
      SignedAs cr created u material.signingJwk jwt prepared out := by
  have hm : material = ⟨material.signingJwk, .jwt jwt⟩ := by
    rw [← hkey]
  rw [ofMiddleware, mapError_eq_ok, AgentRequest.sign, hkey,
    SignatureKey.asJwt, ok_bind, bind_eq_ok]
  constructor
  · rintro ⟨headers, hs, h⟩
    cases h
    rw [mapError_eq_ok, hm] at hs
    exact ⟨rfl, rfl, rfl, hs⟩
  · rintro ⟨hmethod, hurl, hbody, hs⟩
    rw [← hm] at hs
    refine ⟨out.headers, mapError_eq_ok.mpr hs, ?_⟩
    obtain ⟨method, url, headers, body⟩ := out
    cases hmethod
    cases hurl
    cases hbody
    rfl

/-- What the middleware hands on, is signed for the attempt. -/
theorem signAndRun_signed (hkey : material.signatureKey = .jwt agentJwt)
    (h : signAndRun cr options created (.ok material) u req attempt =
      .ok out) :
    ∃ prepared, ToBeSigned attempt req prepared ∧
      SignedAs cr created u material.signingJwk (attempt.jwt agentJwt) prepared
        out := by
  cases attempt with
  | authToken token =>
      obtain ⟨m, hm, h⟩ := bind_eq_ok.mp h
      cases hm
      obtain ⟨prepared, hp, h⟩ := bind_eq_ok.mp h
      obtain ⟨hmethod, hurl, hbody, hown, hkept⟩ := applyTo_prepared hp
      have hsigned : SignedAs cr created u
          { material with signatureKey := .jwt token }.signingJwk token
          prepared out := (sign_signedAs rfl).mp h
      exact ⟨prepared, ⟨hmethod, hurl, hbody, hown, hkept⟩, hsigned⟩
  | opaqueToken token =>
      obtain ⟨m, hm, h⟩ := bind_eq_ok.mp h
      cases hm
      obtain ⟨named, hp, h⟩ := bind_eq_ok.mp h
      obtain ⟨prepared, ht, h⟩ := bind_eq_ok.mp h
      exact ⟨prepared, applyOpaqueToken_prepared (applyTo_prepared hp)
        (Option.okOr_eq_ok.mp ht), (sign_signedAs hkey).mp h⟩
  | agentSigned =>
      obtain ⟨m, hm, h⟩ := bind_eq_ok.mp h
      cases hm
      obtain ⟨prepared, hp, h⟩ := bind_eq_ok.mp h
      exact ⟨prepared, applyTo_prepared hp, (sign_signedAs hkey).mp h⟩

/-! ## Whatever can be written is sent -/

theorem isVisible_joinHeader (cs : List Capability) :
    IsVisible (Capability.joinHeader cs) := by
  have hall : ∀ c : Capability, IsVisible c.asStr := by
    intro c
    cases c with
    | interaction => rfl
    | clarification => rfl
    | payment => rfl
  rw [Capability.joinHeader]
  induction cs with
  | nil => rfl
  | cons c cs ih =>
      cases cs with
      | nil =>
          rw [List.map_singleton, String.intercalate_singleton]
          exact hall c
      | cons d cs =>
          rw [List.map_cons, List.map_cons, String.intercalate_cons_cons]
          exact isVisible_append (isVisible_append (hall c) (by rfl)) ih

theorem insertExpected_ok {name message : String} {value : Option String}
    (h : ∀ v ∈ value, IsVisible v) :
    ∃ req', req.insertExpected name value message = .ok req' := by
  rw [AgentRequest.insertExpected]
  cases value with
  | none => exact ⟨_, rfl⟩
  | some v =>
      have hv := headerValueFromStr_eq_ok.mpr (toStr_of_isVisible (h v rfl))
      rw [Option.map_some, hv]
      exact ⟨_, rfl⟩

variable (req) in
/-- The options can be applied when the mission can be written. -/
theorem applyTo_ok (h : ∀ m ∈ options.mission, IsVisible m.toHeader) :
    ∃ prepared, options.applyTo req = .ok prepared := by
  have hcap : ∀ v ∈ (options.capabilities.filter (!·.isEmpty)).map
      Capability.joinHeader, IsVisible v := by
    intro v hv
    obtain ⟨cs, -, rfl⟩ := Option.map_eq_some_iff.mp hv
    exact isVisible_joinHeader cs
  have hmission : ∀ v ∈ options.mission.map Mission.toHeader,
      IsVisible v := by
    intro v hv
    obtain ⟨m, hm, rfl⟩ := Option.map_eq_some_iff.mp hv
    exact h m hm
  obtain ⟨named, hnamed⟩ := insertExpected_ok hcap
  obtain ⟨prepared, hprepared⟩ := insertExpected_ok hmission
  exact ⟨prepared, bind_eq_ok.mpr ⟨named, hnamed, hprepared⟩⟩

variable (material) in
theorem sign_out_ok (laws : HttpsigLaws cr) (total : HttpsigTotal cr)
    {jwk : PublicJwk} (pair : SigningPair cr material.signingJwk jwk)
    {jwt : String} (hkey : material.signatureKey = .jwt jwt)
    (hjwt : IsCompact jwt) (hmethod : IsVisible prepared.method)
    (hauthority : IsVisible u.authority) (hpath : IsVisible u.path)
    {e : SignatureError → String} :
    ∃ out, ofMiddleware e (prepared.sign cr created u material) =
      .ok out := by
  obtain ⟨headers, hs⟩ : ∃ headers, Aauth.sign cr created prepared.headers
      prepared.method u.authority u.path ⟨material.signingJwk, .jwt jwt⟩
      (aauthSignOptions prepared.headers) = .ok headers :=
    sign_ok laws total pair hjwt hmethod hauthority hpath
  exact ⟨{ prepared with headers },
    (sign_signedAs hkey).mpr ⟨rfl, rfl, rfl, hs⟩⟩

theorem signAndRun_ok (laws : HttpsigLaws cr) (total : HttpsigTotal cr)
    {jwk : PublicJwk} (pair : SigningPair cr material.signingJwk jwk)
    (hkey : material.signatureKey = .jwt agentJwt)
    (hjwt : IsCompact (attempt.jwt agentJwt))
    (hcred : ∀ t, attempt = .opaqueToken t → Token68 t)
    (hmission : ∀ m ∈ options.mission, IsVisible m.toHeader)
    (hmethod : IsVisible req.method) (hauthority : IsVisible u.authority)
    (hpath : IsVisible u.path) :
    ∃ out, signAndRun cr options created (.ok material) u req attempt =
      .ok out := by
  obtain ⟨named, hnamed⟩ := applyTo_ok req hmission
  have hp := applyTo_prepared hnamed
  have hvisible : IsVisible named.method := by
    rw [hp.method]
    exact hmethod
  cases attempt with
  | authToken token =>
      obtain ⟨out, hout⟩ := sign_out_ok
        { material with signatureKey := .jwt token } laws total pair rfl hjwt
        hvisible hauthority hpath
      exact ⟨out, bind_eq_ok.mpr ⟨material, rfl,
        bind_eq_ok.mpr ⟨named, hnamed, hout⟩⟩⟩
  | opaqueToken token =>
      obtain ⟨prepared, hprepared, -⟩ :=
        applyOpaqueToken_transports (hcred token rfl) named
      have hm := (applyOpaqueToken_prepared hp hprepared).method
      obtain ⟨out, hout⟩ := sign_out_ok material laws total pair hkey hjwt
        (hm ▸ hmethod) hauthority hpath
      exact ⟨out, bind_eq_ok.mpr ⟨material, rfl, bind_eq_ok.mpr ⟨named,
        hnamed, bind_eq_ok.mpr ⟨prepared,
          Option.okOr_eq_ok.mpr hprepared, hout⟩⟩⟩⟩
  | agentSigned =>
      obtain ⟨out, hout⟩ := sign_out_ok material laws total pair hkey hjwt
        hvisible hauthority hpath
      exact ⟨out, bind_eq_ok.mpr ⟨material, rfl,
        bind_eq_ok.mpr ⟨named, hnamed, hout⟩⟩⟩

end Middleware

/-! ## At a resource -/

/-- The request arrives at a server. -/
structure ArrivesAt (u : Url) (out : AgentRequest) (wire : Request) :
    Prop where
  method : wire.method = out.method
  path : wire.uri.path = u.path
  headers : Received u out.headers wire.headers

/-- What the layer does with an attempt that it sees. -/
def ResourceAuthLayer.decides (cr : Crates) (layer : ResourceAuthLayer)
    (env : LayerEnv) (agentJwt thumbprint : String) :
    AgentAuthAttempt → LayerOutcome
  | .authToken token => layer.verifyAndAdmit cr env token thumbprint
  | .agentSigned => layer.verifyAndAdmit cr env agentJwt thumbprint
  | .opaqueToken token =>
      match layer.mode with
      | .resourceManaged validateOpaque =>
          ResourceAuthLayer.admitOpaque cr validateOpaque token agentJwt
      | _ => layer.verifyAndAdmit cr env agentJwt thumbprint

section Resource

variable {options : SigningOptions} {created : Nat} {u : Url}
  {req out prepared : AgentRequest} {material : SigningMaterial}
  {attempt : AgentAuthAttempt} {agentJwt : String} {wire : Request}
  {layer : ResourceAuthLayer} {env : LayerEnv}

theorem ArrivesAt.signatureParts_eq (h : ArrivesAt u out wire) :
    signatureParts wire = (out.method, u.authority, u.path) := by
  rw [signatureParts, h.headers.host, h.headers.authority_eq, h.method,
    h.path]

theorem extractAauthAccess_congr {headers headers' : HeaderMap}
    (h : headers.getAll "authorization" = headers'.getAll "authorization") :
    extractAauthAccess headers = extractAauthAccess headers' := by
  rw [extractAauthAccess, extractAauthAccess, h]

/-- A credential is read as it was presented. -/
theorem extractAauthAccess_credential {headers : HeaderMap} {t : String}
    (ht : Token68 t)
    (h : headers.getAll "authorization" = ["AAuth " ++ t]) :
    extractAauthAccess headers = .ok (some t) := by
  obtain ⟨req', hreq, -, hextract⟩ :=
    applyOpaqueToken_transports ht ⟨"GET", "", .empty, .none⟩
  rw [applyOpaqueToken] at hreq
  obtain ⟨value, hv, rfl⟩ := Option.map_eq_some_iff.mp hreq
  obtain ⟨-, rfl⟩ := toStr_eq_some.mp
    (headerValueFromStr_eq_ok.mp (Except.toOption_eq_some.mp hv))
  rw [← hextract]
  refine extractAauthAccess_congr (h.trans ?_)
  exact HeaderMap.getAll_insert_self.symm

theorem headerValue_of_getAll {headers : HeaderMap} {name value : String}
    (h : headers.getAll name = [value]) (hv : IsVisible value) :
    headerValue headers name = some value := by
  rw [headerValue, HeaderMap.get_eq_head, h]
  exact toStr_of_isVisible hv

/-- A request without a credential asks for no covered one. -/
theorem opaqueAuth_none {headers : HeaderMap}
    (h : headers.getAll "authorization" = []) :
    layer.opaqueAuth headers = .ok none := by
  rw [ResourceAuthLayer.opaqueAuth]
  split
  · rw [extractAauthAccess, h]
  · rfl

/-- What is signed is the same at both ends, and the credential of an
attempt is all there is in `Authorization`. -/
theorem SignedAs.authorization_eq {jwt : String} {signing : SigningJwk}
    (hp : ToBeSigned attempt req prepared)
    (hs : SignedAs cr created u signing jwt prepared out)
    (hr : Received u out.headers wire.headers)
    (hown : req.headers.getAll "authorization" = []) :
    wire.headers.getAll "authorization" = attempt.authorization [] := by
  obtain ⟨signed⟩ := signed_of_sign hs.sign
  rw [hr.kept _ (by decide), signed.headers_eq,
    getAll_withSignature (by decide) (by decide) (by decide),
    hp.authorization, hown]

/-- A request that arrives in time presents the JWT it is signed for. -/
theorem SignedAs.presents (laws : HttpsigLaws cr) {jwk : PublicJwk}
    {signing : SigningJwk} {jwt thumbprint : String}
    (pair : SigningPair cr signing jwk) (hjwt : IsCompact jwt)
    (hcnf : cnfJwkFromJwt cr jwt = .ok jwk)
    (htp : httpsigJwkThumbprint cr jwk = .ok thumbprint)
    (h : SignedAs cr created u signing jwt prepared out)
    (harrives : ArrivesAt u out wire)
    (hfuture : created ≤ env.signatureNow + 60)
    (hpast : env.signatureNow ≤ created + 120)
    (hauth : layer.opaqueRetry wire.headers = true → ∃ value,
      headerValue prepared.headers "authorization" = some value ∧
        startsWith value "AAuth " = true) :
    layer.Presents cr env wire jwt thumbprint := by
  have ho : StandardOptions (layer.sigOptions wire.headers) := ⟨rfl, rfl, rfl⟩
  have hv := verify_of_received laws ho hjwt hcnf htp pair h.sign
    harrives.headers hfuture hpast hauth
  rw [ResourceAuthLayer.Presents, harrives.signatureParts_eq, h.method]
  exact ⟨_, hv, rfl, rfl⟩

/-- Without a credential there is nothing to retry with. -/
theorem admitJwt_of_none {jwt thumbprint : String}
    (h : wire.headers.getAll "authorization" = []) :
    layer.admitJwt cr env wire.headers jwt thumbprint =
      layer.verifyAndAdmit cr env jwt thumbprint := by
  rw [ResourceAuthLayer.admitJwt, opaqueAuth_none h]
  cases layer.mode with
  | identityBased => rfl
  | psAsserted require as fallback => rfl
  | resourceManaged validateOpaque => rfl

/-- An attempt without a credential is decided by the JWT it is signed
for. -/
theorem SignedAs.decided (laws : HttpsigLaws cr) {jwk : PublicJwk}
    {signing : SigningJwk} {jwt thumbprint : String}
    (pair : SigningPair cr signing jwk) (hjwt : IsCompact jwt)
    (hcnf : cnfJwkFromJwt cr jwt = .ok jwk)
    (htp : httpsigJwkThumbprint cr jwk = .ok thumbprint)
    (h : SignedAs cr created u signing jwt prepared out)
    (harrives : ArrivesAt u out wire)
    (hfuture : created ≤ env.signatureNow + 60)
    (hpast : env.signatureNow ≤ created + 120)
    (hauth : wire.headers.getAll "authorization" = []) :
    layer.call cr env wire = layer.verifyAndAdmit cr env jwt thumbprint := by
  have hnone : layer.opaqueRetry wire.headers = false := by
    rw [ResourceAuthLayer.opaqueRetry, opaqueAuth_none hauth]
    rfl
  have hpresents : layer.Presents cr env wire jwt thumbprint := by
    refine h.presents laws pair hjwt hcnf htp harrives hfuture hpast ?_
    intro hretry
    rw [hnone] at hretry
    cases hretry
  rw [ResourceAuthLayer.call_of_presents hpresents]
  exact admitJwt_of_none hauth

/-- With a credential, a resource that manages access looks at it. -/
theorem admitJwt_of_credential {t thumbprint : String} (ht : Token68 t)
    (h : wire.headers.getAll "authorization" = ["AAuth " ++ t]) :
    layer.admitJwt cr env wire.headers agentJwt thumbprint =
      layer.decides cr env agentJwt thumbprint (.opaqueToken t) := by
  have hc := extractAauthAccess_credential ht h
  rw [ResourceAuthLayer.admitJwt, ResourceAuthLayer.opaqueAuth,
    ResourceAuthLayer.decides]
  cases layer.mode with
  | identityBased => rfl
  | psAsserted require as fallback => rfl
  | resourceManaged validateOpaque =>
      simp only [hc]

/-- The holder of an opaque token gets in. -/
theorem decides_managed {validateOpaque : (token agentId : String) → Bool}
    {t thumbprint : String} {c : AgentClaims}
    (hm : layer.mode = .resourceManaged validateOpaque)
    (hp : ParsedToken.parse cr agentJwt = .ok (.agent c))
    (hv : validateOpaque t c.sub = true) :
    layer.decides cr env agentJwt thumbprint (.opaqueToken t) =
      .inner (.agent c) := by
  rw [ResourceAuthLayer.decides]
  simp only [hm, ResourceAuthLayer.admitOpaque, agentSubFromJwt_eq hp, hp, hv]

/-- Every attempt can be sent, and the layer of a resource that receives it
in time decides on the credential of that attempt. -/
theorem attempt_decided (laws : HttpsigLaws cr) (total : HttpsigTotal cr)
    {jwk : PublicJwk} {thumbprint : String}
    (hkey : material.signatureKey = .jwt agentJwt)
    (pair : Nonempty (SigningPair cr material.signingJwk jwk))
    (hjwt : IsCompact (attempt.jwt agentJwt))
    (hcnf : cnfJwkFromJwt cr (attempt.jwt agentJwt) = .ok jwk)
    (htp : httpsigJwkThumbprint cr jwk = .ok thumbprint)
    (hcred : ∀ t, attempt = .opaqueToken t → Token68 t)
    (hown : req.headers.getAll "authorization" = []) :
    ((∀ m ∈ options.mission, IsVisible m.toHeader) → IsVisible req.method →
      IsVisible u.authority → IsVisible u.path →
        ∃ out, signAndRun cr options created (.ok material) u req attempt =
          .ok out) ∧
    ∀ out, signAndRun cr options created (.ok material) u req attempt =
        .ok out →
      ∀ (layer : ResourceAuthLayer) env wire, ArrivesAt u out wire →
        created ≤ env.signatureNow + 60 → env.signatureNow ≤ created + 120 →
          layer.call cr env wire =
            layer.decides cr env agentJwt thumbprint attempt := by
  obtain ⟨pair⟩ := pair
  refine ⟨fun hmission hmethod hauthority hpath => signAndRun_ok laws total
    pair hkey hjwt hcred hmission hmethod hauthority hpath, ?_⟩
  intro out hs layer env wire harrives hfuture hpast
  obtain ⟨prepared, hp, hsigned⟩ := signAndRun_signed hkey hs
  have hauth := hsigned.authorization_eq hp harrives.headers hown
  have hprepared := hp.authorization
  rw [hown] at hprepared
  cases attempt with
  | authToken token =>
      exact hsigned.decided laws pair hjwt hcnf htp harrives hfuture hpast hauth
  | opaqueToken token =>
      have hvisible := credential_visible (hcred token rfl)
      have hpresents : layer.Presents cr env wire agentJwt thumbprint :=
        hsigned.presents laws pair hjwt hcnf htp harrives hfuture hpast
        (fun _ => ⟨_, headerValue_of_getAll hprepared hvisible,
          startsWith_iff.mpr ⟨token, rfl⟩⟩)
      rw [ResourceAuthLayer.call_of_presents hpresents]
      exact admitJwt_of_credential (hcred token rfl) hauth
  | agentSigned =>
      exact hsigned.decided laws pair hjwt hcnf htp harrives hfuture hpast hauth

end Resource

/-! ## At the sample parties -/

namespace Sample

/-- The URL of the data at the resource. -/
def dataUrl : Url where
  scheme := "https"
  username := ""
  password := none
  hostStr := some "resource.example"
  port := none
  path := "/data"
  query := none
  fragment := none
  origin := "https://resource.example"

def dataRequest : AgentRequest where
  method := "GET"
  url := resource ++ "/data"
  headers := .empty
  body := .none

def dataOptions : SigningOptions where
  capabilities := some [.interaction, .clarification]
  mission := none

/-- The transport adds the host. -/
def withHost (u : Url) (sent : HeaderMap) : HeaderMap :=
  ⟨("host", u.hostPort) :: sent.entries⟩

theorem received_withHost {u : Url} (sent : HeaderMap)
    (hname : u.username = "") (hword : u.password = none)
    (hvisible : IsVisible u.hostPort) : Received u sent (withHost u sent) := by
  refine ⟨hname, hword, ?_, ?_⟩
  · rw [withHost, headerValue, HeaderMap.get, List.find?_cons_of_pos (by rfl)]
    exact toStr_of_isVisible hvisible
  · intro name hn
    have hne : ("host" == name) = false := by
      revert hn
      revert name
      decide
    rw [withHost, HeaderMap.getAll, HeaderMap.getAll,
      List.filter_cons_of_neg (by simp [hne])]

def arrived (u : Url) (out : AgentRequest) : Request where
  method := out.method
  uri := { host := none, port := none, path := u.path }
  headers := withHost u out.headers

theorem arrivesAt_arrived (out : AgentRequest) :
    ArrivesAt dataUrl out (arrived dataUrl out) :=
  ⟨rfl, rfl, received_withHost out.headers rfl rfl (by rfl)⟩

/-- A resource that manages access lets the agent in with its opaque
token. -/
theorem attempt_decided_opaque :
    ∃ out, signAndRun crates dataOptions now
        (.ok ⟨agentKey.signingJwk crates, .jwt botJwt⟩) dataUrl dataRequest
        (.opaqueToken "opaque-1") = .ok out ∧
      managedLayer.call crates layerEnv (arrived dataUrl out) =
        .inner (.agent bot) := by
  have htoken : Token68 "opaque-1" := isToken68_iff.mp (by decide)
  obtain ⟨hsend, hdecided⟩ := @attempt_decided crates dataOptions now dataUrl
    dataRequest ⟨agentKey.signingJwk crates, .jwt botJwt⟩
    (.opaqueToken "opaque-1") botJwt httpsigLaws httpsigTotal
    (agentKey.publicJwk crates) (thumbprint agentKey) rfl
    ⟨signingPair agentKey (by rfl)⟩ (isCompact_mint _ _ _) bot_cnf
    (jwkThumbprint_eq_ok.mp (thumbprint_eq agentKey))
    (by
      intro t ht
      cases ht
      exact htoken) (by rfl)
  obtain ⟨out, hout⟩ := hsend (fun m hm => absurd hm (Option.not_mem_none m))
    (by rfl) (by rfl) (by rfl)
  refine ⟨out, hout, ?_⟩
  rw [hdecided out hout managedLayer layerEnv _ (arrivesAt_arrived out)
    (by decide) (by decide)]
  exact decides_managed (by rfl) (parse_agentToken bot providerKey)
    (by decide)

end Sample

end Aauth
