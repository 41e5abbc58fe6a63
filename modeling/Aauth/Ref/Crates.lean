import Aauth.Ref.Error

/-!
# Third-party crates

What the repository calls and does not contain, as one record of
functions: URL parsing, base64, SHA-256, JSON, JWTs, HTTP message
signatures and Unicode case mapping. A definition that needs one of them
takes the record as a parameter; nothing is assumed of it except where a
theorem says so, in terms of the law structures of
`Aauth.Ref.CrateLaws`. A crate's error is its display text.
-/

namespace Aauth

abbrev Bytes := List UInt8

/-! ## `url` -/

/-- The parts of a parsed URL that the code reads. -/
structure Url where
  scheme : String
  username : String
  password : Option String
  hostStr : Option String
  port : Option Nat
  path : String
  query : Option String
  fragment : Option String
  /-- `Url::origin().ascii_serialization()` -/
  origin : String
deriving DecidableEq, Repr

/-! ## `jsonwebtoken` -/

inductive Algorithm where
  | hs256 | hs384 | hs512 | es256 | es384 | rs256 | rs384 | rs512
  | ps256 | ps384 | ps512 | edDSA
deriving DecidableEq, Repr

structure Header where
  typ : Option String
  alg : Algorithm
  kid : Option String
deriving DecidableEq, Repr

/-- Key material of a signer, as the crate keeps it. -/
structure EncodingKey where
  der : Bytes
deriving DecidableEq, Repr

/-- Key material of a verifier, as the crate keeps it. -/
structure DecodingKey where
  der : Bytes
deriving DecidableEq, Repr

/-- A key of a JWKS document: its `kid` and the public key members. -/
structure Jwk where
  keyId : Option String
  kty : String
  crv : Option String
  x : Option String
  y : Option String
deriving DecidableEq, Repr

structure JwkSet where
  keys : List Jwk
deriving DecidableEq, Repr

/-- `JwkSet::find`: the first key whose `kid` is the given one. -/
def JwkSet.find (set : JwkSet) (kid : String) : Option Jwk :=
  set.keys.find? fun jwk => jwk.keyId == some kid

/-- The settings of `Validation` that the code changes or relies on. -/
structure Validation where
  algorithm : Algorithm
  validateAud : Bool
  leeway : Nat
deriving DecidableEq, Repr

/-- `jsonwebtoken`. `decode` is split into its three steps: the signature,
which yields the payload, the payload's own type, and the validation of
`exp`. -/
structure Jsonwebtoken where
  decodeHeader : String → Except String Header
  /-- The payload segment, nothing verified (`insecure_decode`). -/
  insecurePayload : String → Except String Bytes
  /-- The payload of a JWT whose signature verifies under the key. -/
  verifySignature : String → DecodingKey → Algorithm → Except String Bytes
  /-- The registered claims checked against the clock. -/
  validate : Bytes → Validation → (now : Nat) → Except String Unit
  encode : Header → Bytes → EncodingKey → Except String String
  fromJwk : Jwk → Except String DecodingKey

/-! ## `serde_json` -/

/-- The derived deserializer and serializer of one type. -/
structure Serde (α : Type) where
  fromSlice : Bytes → Except String α
  toVec : α → Bytes

/-- The payload as `httpsig-key` reads it: `cnf`, if any, and its `jwk`. -/
structure JwtPayload where
  cnf : Option (Option PublicJwk)
deriving DecidableEq, Repr

structure SerdeJson where
  value : Serde Json
  agentClaims : Serde AgentClaims
  authClaims : Serde AuthClaims
  resourceClaims : Serde ResourceClaims
  jwtPayload : Serde JwtPayload
  /-- `to_string` of a map from member names to strings. -/
  mapToString : List (String × String) → Except String String
  /-- `from_value(to_value(key))` at `jsonwebtoken`'s key type. -/
  jwkFromPublic : PublicJwk → Except String Jwk

/-! ## `httpsig` -/

inductive AlgorithmName where
  | ed25519
  | ecdsaP256Sha256
deriving DecidableEq, Repr

structure PublicKey where
  alg : AlgorithmName
  bytes : Bytes
deriving DecidableEq, Repr

structure SecretKey where
  alg : AlgorithmName
  bytes : Bytes
deriving DecidableEq, Repr

/-- Signature parameters: the covered component identifiers, each in its
serialised form, the creation time, and the other parameters as text. -/
structure HttpSignatureParams where
  coveredComponents : List String
  created : Option Nat
  others : String
deriving DecidableEq, Repr

/-- One entry of a parsed `Signature` / `Signature-Input` pair. -/
structure SignatureHeaders where
  signatureParams : HttpSignatureParams
  signature : Bytes
deriving DecidableEq, Repr

structure HttpsigCrate where
  /-- `HttpSignatureHeaders::try_parse`, then `get(label)`. -/
  tryParse : (signature signatureInput : String) →
    Except String (String → Option SignatureHeaders)
  /-- `HttpMessageComponentId::try_from`, then `to_string`. -/
  componentId : String → Except String String
  /-- `HttpMessageComponent::try_from` of one line. -/
  component : String → Except String String
  /-- `HttpSignatureBase::try_new`: the signature base. -/
  base : List String → HttpSignatureParams → Except String String
  /-- `HttpSignatureParams::try_new` over component identifiers. -/
  params : List String → Except String HttpSignatureParams
  /-- `build_signature_headers`: the `Signature-Input` and `Signature`
  header values. -/
  build : (base : String) → HttpSignatureParams → SecretKey →
    (label : String) → Except String (String × String)
  /-- `verify_signature_headers`. -/
  verify : (base : String) → PublicKey → SignatureHeaders →
    Except String Unit
  secretKeyFromBytes : AlgorithmName → Bytes → Except String SecretKey
  publicKeyFromBytes : AlgorithmName → Bytes → Except String PublicKey

/-! ## All of them -/

structure Crates where
  urlParse : String → Except String Url
  /-- `Url::parse(base)`, `join(reference)`, then the URL as text. -/
  urlJoin : (base reference : String) → Except String String
  /-- `http::Uri`, as its display text. -/
  httpUri : String → Except String String
  /-- `query_pairs_mut().clear()`, `append_pair` for each pair, then the
  URL as text. -/
  urlWithQueryPairs : Url → List (String × String) → String
  base64Encode : Bytes → String
  /-- `URL_SAFE_NO_PAD` -/
  base64Decode : String → Except String Bytes
  /-- `URL_SAFE` -/
  base64DecodePadded : String → Except String Bytes
  sha256 : Bytes → Bytes
  json : SerdeJson
  jsonwebtoken : Jsonwebtoken
  httpsig : HttpsigCrate
  /-- The public key of an Ed25519 secret key. -/
  ed25519Public : Bytes → Bytes
  /-- The PKCS#8 encoding of an Ed25519 secret key. -/
  pkcs8Der : Bytes → Bytes
  /-- `str::to_lowercase`, by the Unicode tables. -/
  toLowercase : String → String
  /-- `str::to_uppercase`, by the Unicode tables. -/
  toUppercase : String → String

end Aauth
