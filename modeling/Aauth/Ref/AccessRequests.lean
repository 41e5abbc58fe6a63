import Aauth.Ref.AccessClient
import Aauth.Ref.Claims
import Aauth.Ref.Signing

/-!
# What the Person Server asks of an Access Server

`ReqwestAccessServerClient::exchange_token` up to the request it sends, and
the signer the request is signed by (`person_server/keys.rs`). The Person
Server presents a token of its own making, of the type an agent has and
bound to its own key. It signs the method, the host and the path: the body
goes along unsigned.
-/

namespace Aauth

open Text Except

/-! ## The signer (`person_server/keys.rs`) -/

/-- The claims of `mint_person_server_signature_jwt`, at a time and with a
fresh `jti`. -/
def personServerSignatureClaims (cr : Crates) (now : Nat) (jti : String)
    (key : Ed25519KeyPair) (personServerUrl : String) : AgentClaims where
  iss := personServerUrl
  dwk := "aauth-person.json"
  sub := personServerUrl
  jti := jti
  cnf := { jwk := key.publicJwk cr }
  iat := now
  exp := now + 3600
  ps := none
  parentAgent := none

/-- `none` is the panic of a token that is not signed. -/
def mintPersonServerSignatureJwt (cr : Crates) (now : Nat) (jti : String)
    (key : Ed25519KeyPair) (personServerUrl : String) : Option String :=
  let claims := personServerSignatureClaims cr now jti key personServerUrl
  let header : Header :=
    { typ := some JwtTyp.agent.asStr, alg := .edDSA, kid := key.kid }
  (cr.jsonwebtoken.encode header (cr.json.agentClaims.toVec claims)
    (key.encodingKey cr)).toOption

/-- Of the `TestKeys` the signer holds, it uses the Person Server's. -/
structure PersonServerOutboundSigner where
  personServerUrl : String
  signingJwk : SigningJwk
  key : Ed25519KeyPair

def PersonServerOutboundSigner.new (cr : Crates) (key : Ed25519KeyPair)
    (personServerUrl : String) : PersonServerOutboundSigner where
  personServerUrl := personServerUrl
  signingJwk := key.signingJwk cr
  key := key

def PersonServerOutboundSigner.signatureJwt (cr : Crates) (now : Nat)
    (jti : String) (signer : PersonServerOutboundSigner) : Option String :=
  mintPersonServerSignatureJwt cr now jti signer.key signer.personServerUrl

/-! ## The request (`access_client.rs`) -/

namespace ReqwestAccessServerClient

variable (cr : Crates)

def signingMaterial (now : Nat) (jti : String)
    (signer : PersonServerOutboundSigner) : Option SigningMaterial :=
  (signer.signatureJwt cr now jti).map fun jwt =>
    { signingJwk := signer.signingJwk, signatureKey := .jwt jwt }

def urlAuthorityPath (url : String) : AAuthResult (String × String) := do
  let parsed ← (cr.urlParse url).mapError fun e => .deferred (.invalidUrl e)
  let host ← parsed.hostStr.okOr (.deferred .missingHost)
  let authority := match parsed.port with
    | some port => host ++ ":" ++ port.repr
    | none => host
  return (authority, parsed.path)

/-- `SignOptions::default` -/
def defaultSignOptions : SignOptions where
  extras := []
  label := none

/-- The headers of a signature made at `now`. -/
def signHeaders (now : Nat) (material : SigningMaterial)
    (method url : String) : AAuthResult HeaderMap := do
  let (authority, path) ← urlAuthorityPath cr url
  (sign cr now .empty method authority path material
    defaultSignOptions).mapError fun e => .signature (.fromHttpsigKey e)

/-- The request `exchange_token` sends. -/
def exchangeTokenPost (now : Nat) (material : SigningMaterial)
    (tokenEndpoint : String) (request : AccessTokenExchangeRequest) :
    AAuthResult AgentRequest := do
  let headers ← signHeaders cr now material "POST" tokenEndpoint
  return { method := "POST", url := tokenEndpoint,
           headers := headers.insert "content-type" "application/json",
           body := .bytes (jsonBytes cr request.toJson) }

end ReqwestAccessServerClient

end Aauth
