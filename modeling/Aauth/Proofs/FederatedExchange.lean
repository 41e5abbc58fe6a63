import Aauth.Proofs.SignedExchange
import Aauth.Ref.AccessRequests
import Aauth.Sample.Exchange

/-!
# An Access Server hears a Person Server

A Person Server that federates signs what it posts with a key of its own,
and the token it presents names that key. An Access Server that receives
the request in time finds the signature in order. It asks for nothing else:
whose key it was does not enter the exchange, only the two tokens of the
body do, and those the signature does not cover.
-/

namespace Aauth

open Text Except ReqwestAccessServerClient

section Federation

variable {cr : Crates} {ax : AxumCrate} {env : HandlerEnv}
  {state : AccessServerState} {u : Url} {out : AgentRequest}
  {req : ServerRequest} {material : SigningMaterial}
  {request : AccessTokenExchangeRequest} {minted created : Nat}
  {base endpoint jti personServerUrl : String} {key : Ed25519KeyPair}

/-! ## At the Person Server -/

/-- The Person Server presents a token that is bound to the key it signs
with. -/
theorem signingMaterial_bound (cnf : CnfLaws cr) (compact : CompactLaws cr)
    (mint : MintLaws cr)
    (h : signingMaterial cr minted jti (.new cr key personServerUrl) =
      some material) :
    ∃ jwt, material = ⟨key.signingJwk cr, .jwt jwt⟩ ∧ IsCompact jwt ∧
      cnfJwkFromJwt cr jwt = .ok (key.publicJwk cr) := by
  obtain ⟨jwt, hjwt, rfl⟩ := Option.map_eq_some_iff.mp h
  have hencode := Except.toOption_eq_some.mp hjwt
  refine ⟨jwt, rfl, compact.of_encode hencode, ?_⟩
  exact cnfJwkFromJwt_of_payload cnf (mint.payload_of_encode hencode)
    (cnf.cnf_of_agent (mint.agentClaims _))

theorem urlAuthorityPath_eq {authority path : String}
    (hu : cr.urlParse endpoint = .ok u)
    (h : urlAuthorityPath cr endpoint = .ok (authority, path)) :
    authority = u.hostPort ∧ path = u.path := by
  obtain ⟨parsed, hparsed, h⟩ := bind_eq_ok.mp h
  rw [hu] at hparsed
  cases hparsed
  obtain ⟨host, hhost, h⟩ := bind_eq_ok.mp h
  have hstr := Option.okOr_eq_ok.mp hhost
  cases h
  refine ⟨?_, rfl⟩
  rw [Url.hostPort, hstr]
  cases u.port with
  | none => rfl
  | some port => rfl

/-- A request that is posted to the endpoint, signed for its host and
path. -/
structure PostedTo (cr : Crates) (created : Nat) (u : Url)
    (material : SigningMaterial) (request : AccessTokenExchangeRequest)
    (out : AgentRequest) : Prop where
  method : out.method = "POST"
  body : out.body = .bytes (jsonBytes cr request.toJson)
  headers : ∃ headers, sign cr created .empty "POST" u.hostPort u.path
    material defaultSignOptions = .ok headers ∧
      out.headers = headers.insert "content-type" "application/json"

theorem postedTo_of_exchangeTokenPost (hu : cr.urlParse endpoint = .ok u)
    (h : exchangeTokenPost cr created material endpoint request = .ok out) :
    PostedTo cr created u material request out := by
  obtain ⟨headers, hs, h⟩ := bind_eq_ok.mp h
  cases h
  obtain ⟨⟨authority, path⟩, hparts, hs⟩ := bind_eq_ok.mp hs
  obtain ⟨rfl, rfl⟩ := urlAuthorityPath_eq hu hparts
  exact ⟨rfl, rfl, headers, mapError_eq_ok.mp hs, rfl⟩

/-! ## At the Access Server -/

/-- The Access Server finds the signature in order. -/
theorem PostedTo.verifies (laws : HttpsigLaws cr) {thumbprint : String}
    {jwk : PublicJwk} {signing : SigningJwk} {jwt : String} {now : Nat}
    (pair : SigningPair cr signing jwk) (hjwt : IsCompact jwt)
    (hcnf : cnfJwkFromJwt cr jwt = .ok jwk)
    (htp : httpsigJwkThumbprint cr jwk = .ok thumbprint)
    (hp : PostedTo cr created u ⟨signing, .jwt jwt⟩ request out)
    (h : PostArrives u out req) (hfuture : created ≤ now + 60)
    (hpast : now ≤ created + 120) :
    verify cr now "POST" u.hostPort u.path req.headers .default =
      .ok { label := "sig", signatureKey := .jwt jwt, publicJwk := jwk,
            thumbprint, jwt := some jwt } := by
  obtain ⟨headers, hs, hheaders⟩ := hp.headers
  have ho : StandardOptions .default := ⟨rfl, rfl, rfl⟩
  refine verify_of_kept laws ho hjwt hcnf htp pair hs ?_ hfuture hpast ?_
  · -- the type of the body is set beside the signature
    intro name hn
    have hne : name ≠ "content-type" := by
      rintro rfl
      exact absurd hn (by decide)
    rw [h.headers.headerValue_eq (signatureNames_kept hn), hheaders,
      headerValue_insert_of_ne hne]
  · intro hrequired
    cases hrequired

/-- The token endpoint of an Access Server takes exchanges. -/
theorem accessAsks_endpoint (laws : LinkLaws cr ax) (hb : IsBase cr base)
    (h : Fetches cr (base ++ "/access/aauth/token") req)
    (hmethod : req.method = "POST") :
    accessAsks cr ax env state req =
      (optionJson cr ax AccessTokenExchangeRequest.fromJson req >>= fun body =>
        ((accessTokenExchangeRequest cr env.now state.config req.path
          req.headers body).mapError fun status =>
            .response (Respond.statusOnly status)).map .exchangeToken) := by
  have hurl : base ++ "/access/aauth/token" =
      base ++ pathText ["access", "aauth", "token"] ++ queryText none := by
    rw [queryText, String.append_empty]
    rfl
  rw [hurl] at h
  obtain ⟨hpath, -⟩ := h.of_parts laws hb (List.cons_ne_nil _ _)
    (by decide) no_pair
  rw [accessAsks, hpath, if_neg (by decide), if_neg (by decide),
    if_pos (by decide), asking, if_pos hmethod]
  rfl

end Federation

/-! ## At the sample parties -/

namespace Sample

theorem fullCrates_json : JsonLaws fullCrates := by
  have hall : ∀ v, IsJson fullCrates v := fun v => ⟨_, anyJson_written v⟩
  have hblank : ∀ {text : Bytes}, text.all isAsciiWhitespace = true →
      startsHeader text = false := by
    intro text hb
    cases text with
    | nil => rfl
    | cons b bs =>
        rw [List.all_cons, Bool.and_eq_true] at hb
        have h := hb.1
        simp only [isAsciiWhitespace, Bool.or_eq_true, beq_iff_eq] at h
        rcases h with (((rfl | rfl) | rfl) | rfl) | rfl <;> rfl
  exact
    { written := fun _ => anyJson_written _
      blank := by
        intro text v hb hv
        have hv : (if startsHeader text = true then headerJson.fromSlice text
          else jsonText.fromSlice text) = .ok v := hv
        rw [hblank hb, if_neg Bool.false_ne_true] at hv
        exact wireCrates_json.blank hb hv
      emptyObject := rfl
      str := fun s => hall _
      int := fun n _ _ => hall _
      arr := fun _ => hall _
      obj := fun _ => hall _ }

theorem signingJwk_withJson {cr : Crates} {V : Serde Json}
    {key : Ed25519KeyPair} :
    key.signingJwk (withJson cr V) = key.signingJwk cr := rfl

theorem publicJwk_withJson {cr : Crates} {V : Serde Json}
    {key : Ed25519KeyPair} :
    key.publicJwk (withJson cr V) = key.publicJwk cr := rfl

theorem fullCrates_cnfLaws : CnfLaws fullCrates :=
  ⟨cnfLaws.payload_segment, cnfLaws.cnf_of_agent, cnfLaws.cnf_of_auth⟩

theorem fullCrates_compactLaws : CompactLaws fullCrates :=
  ⟨compactLaws.of_encode, compactLaws.of_verified⟩

/-- The token endpoint of the Access Server. -/
def accessEndpointUrl : Url where
  scheme := "https"
  username := ""
  password := none
  hostStr := some "access.example"
  port := none
  path := "/access/aauth/token"
  query := none
  fragment := none
  origin := "https://access.example"

/-- The tokens of the agent and of a resource with an Access Server. -/
def federatedRequest : AccessTokenExchangeRequest where
  resourceToken :=
    resourceToken (challenge resource accessServer agentKey) resourceKey
  agentToken := botJwt
  upstreamToken := none
  subagentToken := none

end Sample

end Aauth
