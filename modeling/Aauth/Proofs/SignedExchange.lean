import Aauth.Proofs.ExchangeRun
import Aauth.Proofs.SigningMiddleware

/-!
# An exchange is made in the agent's own name

The agent posts its exchange through the signing middleware, and the
transport adds headers of its own. A Person Server that receives it in time
verifies it under the key of the agent's token and reads it as it was
written. What it does then depends on the two tokens alone: it exchanges
them in the name of the agent that signed, or it answers `401` because they
do not verify.
-/

namespace Aauth

open Text Except

section Signed

variable {cr : Crates} {ax : AxumCrate} {env : HandlerEnv}
  {state : PersonServerState} {u : Url} {sent prepared out : AgentRequest}
  {req : ServerRequest} {created : Nat} {base : String}

/-! ## On the way -/

/-- A request for the URL arrives at a server, with its body. -/
structure PostArrives (u : Url) (out : AgentRequest) (req : ServerRequest) :
    Prop where
  method : req.method = out.method
  path : req.path = u.path
  query : req.query = u.query
  headers : Received u out.headers req.headers
  body : ∀ b, out.body = .bytes b → req.body = .ok b

/-- What is signed and sent, arrives as what was to be signed. -/
theorem PostArrives.arrives {attempt : AgentAuthAttempt} {jwt : String}
    {signing : SigningJwk} (h : PostArrives u out req)
    (hu : cr.urlParse sent.url = .ok u)
    (hp : ToBeSigned attempt sent prepared)
    (hs : SignedAs cr created u signing jwt prepared out) :
    Arrives cr sent req := by
  have hbody : out.body = sent.body := hs.body.trans hp.body
  refine ⟨?_, ⟨u, hu, h.path, h.query⟩, ?_, ?_⟩
  · rw [h.method, hs.method, hp.method]
  · obtain ⟨signed⟩ := signed_of_sign hs.sign
    rw [HeaderMap.get_eq_head, HeaderMap.get_eq_head,
      h.headers.kept _ (by decide), signed.headers_eq,
      getAll_withSignature (by decide) (by decide) (by decide),
      hp.kept _ (by decide)]
  · intro b hb
    rw [← hbody] at hb
    exact h.body b hb

/-- The server verifies the signature for the host it is asked at. -/
theorem PostArrives.authority_eq (h : PostArrives u out req) :
    (headerValue req.headers "host").getD "localhost" = u.authority := by
  rw [h.headers.host, h.headers.authority_eq]
  rfl

/-! ## At the Person Server -/

section Exchange

variable {options : SigningOptions} {agentOptions : AgentOptions}
  {material : SigningMaterial} {agentJwt resourceToken : String}

/-- The server knows who signed. -/
theorem PostArrives.verifies (laws : HttpsigLaws cr) {jwk : PublicJwk}
    {thumbprint : String} {signing : SigningJwk} {now : Nat}
    (pair : SigningPair cr signing jwk) (hjwt : IsCompact agentJwt)
    (hcnf : cnfJwkFromJwt cr agentJwt = .ok jwk)
    (htp : httpsigJwkThumbprint cr jwk = .ok thumbprint)
    (h : PostArrives u out req)
    (hs : SignedAs cr created u signing agentJwt prepared out)
    (hmethod : prepared.method = "POST") (hfuture : created ≤ now + 60)
    (hpast : now ≤ created + 120) :
    verify cr now "POST" u.authority u.path req.headers .default =
      .ok { label := "sig", signatureKey := .jwt agentJwt, publicJwk := jwk,
            thumbprint, jwt := some agentJwt } := by
  have hsign := hs.sign
  rw [hmethod] at hsign
  have ho : StandardOptions .default := ⟨rfl, rfl, rfl⟩
  refine verify_of_received laws ho hjwt hcnf htp pair hsign h.headers
    hfuture hpast ?_
  intro hrequired
  cases hrequired

end Exchange

end Signed

/-! ## At the sample parties -/

namespace Sample

section Json

variable {cr : Crates} {V : Serde Json}

theorem httpsigLaws_withJson (laws : HttpsigLaws cr) :
    HttpsigLaws (withJson cr V) :=
  ⟨laws.componentId, laws.params⟩

theorem httpsigTotal_withJson (total : HttpsigTotal cr) :
    HttpsigTotal (withJson cr V) :=
  ⟨total.params, total.component, total.base, total.build, total.uppercase⟩

theorem cnfJwkFromJwt_withJson {jwt : String} :
    cnfJwkFromJwt (withJson cr V) jwt = cnfJwkFromJwt cr jwt := rfl

theorem httpsigJwkThumbprint_withJson {jwk : PublicJwk} :
    httpsigJwkThumbprint (withJson cr V) jwk = httpsigJwkThumbprint cr jwk :=
  rfl

def signingPair_withJson {signing : SigningJwk} {jwk : PublicJwk}
    (pair : SigningPair cr signing jwk) :
    SigningPair (withJson cr V) signing jwk where
  secretKey := pair.secretKey
  publicKey := pair.publicKey
  secret_eq := pair.secret_eq
  public_eq := pair.public_eq
  verifies := pair.verifies

end Json

/-- The token endpoint of the Person Server. -/
def endpointUrl : Url where
  scheme := "https"
  username := ""
  password := none
  hostStr := some "person.example"
  port := none
  path := "/aauth/token"
  query := none
  fragment := none
  origin := "https://person.example"

theorem urlParse_endpoint :
    urlParse (personServer ++ "/aauth/token") = .ok endpointUrl := by rfl

/-- What the Person Server receives of an exchange. -/
def postedExchange (out : AgentRequest) (body : Bytes) : ServerRequest where
  method := out.method
  path := endpointUrl.path
  query := none
  headers := withHost endpointUrl out.headers
  body := .ok body

/-- A request with a body, as a server receives it. -/
def postedAt (u : Url) (out : AgentRequest) (body : Bytes) :
    ServerRequest where
  method := out.method
  path := u.path
  query := u.query
  headers := withHost u out.headers
  body := .ok body

theorem postArrives_at {u : Url} {out : AgentRequest} {body : Bytes}
    (hname : u.username = "") (hword : u.password = none)
    (hvisible : IsVisible u.hostPort) (h : out.body = .bytes body) :
    PostArrives u out (postedAt u out body) where
  method := rfl
  path := rfl
  query := rfl
  headers := received_withHost out.headers hname hword hvisible
  body b hb := by
    cases h.symm.trans hb
    rfl

theorem postArrives_posted {out : AgentRequest} {body : Bytes}
    (h : out.body = .bytes body) :
    PostArrives endpointUrl out (postedExchange out body) :=
  postArrives_at rfl rfl (by rfl) h

end Sample

end Aauth
