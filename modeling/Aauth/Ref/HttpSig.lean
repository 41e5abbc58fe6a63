import Mathlib.Algebra.Group.Int.Defs
import Aauth.Ref.Http
import Aauth.Ref.Jwt

/-!
# HTTP message signatures (`httpsig-key`, `aauth/src/http_util.rs`)

The `Signature-Key` header, signing, and verifying. A verified signature
says that the request was signed by the key the `Signature-Key` header
presents; whether an issuer vouches for that key is left to the token
verifiers.
-/

namespace Aauth

open Text Except

/-! ## `Signature-Key` -/

inductive SignatureKeyScheme where
  | hwk
  | jktJwt
  | jwksUri
  | jwt
  | x509
  | other (token : String)
deriving DecidableEq, Repr

namespace SignatureKeyScheme

def asStr : SignatureKeyScheme → String
  | hwk => "hwk"
  | jktJwt => "jkt-jwt"
  | jwksUri => "jwks_uri"
  | jwt => "jwt"
  | x509 => "x509"
  | other token => token

def parse (token : String) : SignatureKeyScheme :=
  if token = "hwk" then hwk
  else if token = "jkt-jwt" then jktJwt
  else if token = "jwks_uri" then jwksUri
  else if token = "jwt" then jwt
  else if token = "x509" then x509
  else other token

end SignatureKeyScheme

inductive SignatureKey where
  | jwt (jwt : String)
  | hwk (jwk : PublicJwk)
  | unsupported (scheme : SignatureKeyScheme)
deriving DecidableEq, Repr

structure SigningMaterial where
  signingJwk : SigningJwk
  signatureKey : SignatureKey
deriving DecidableEq, Repr

/-- The last `jwt="..."` parameter of a member. -/
def parseJwtParam (parts : List String) :
    Except HttpsigKeyError (Option String) :=
  parts.foldlM (fun jwt part =>
    match stripPrefix (trim part) "jwt=\"" with
    | none => .ok jwt
    | some v => ((splitOnce v "\"").okOr .missingJwtParam).map
        fun q => some q.1) none

/-- The last `name=value` parameter of a member, quotes trimmed. -/
def parseHwkParam (parts : List String) (name : String) : Option String :=
  parts.foldl (fun found part =>
    match splitOnce (trim part) "=" with
    | none => found
    | some (k, v) =>
        if trim k = name then some (trimMatches (trim v) '"') else found) none

def parseMember (member : String) : Except HttpsigKeyError SignatureKey := do
  let parts := split member ';'
  let schemeToken ← parts.head?.okOr (.invalidSignatureKey "empty member")
  match SignatureKeyScheme.parse (trim schemeToken) with
  | .jwt => do
      let found ← parseJwtParam parts.tail
      let jwt ← found.okOr .missingJwtParam
      return .jwt jwt
  | .hwk => do
      let kty ← (parseHwkParam parts.tail "kty").okOr
        (.invalidSignatureKey "hwk missing kty")
      let crv ← (parseHwkParam parts.tail "crv").okOr
        (.invalidSignatureKey "hwk missing crv")
      let x ← (parseHwkParam parts.tail "x").okOr
        (.invalidSignatureKey "hwk missing x")
      return .hwk { kty, crv, x, y := parseHwkParam parts.tail "y",
                    kid := parseHwkParam parts.tail "kid" }
  | other => return .unsupported other

namespace SignatureKey

def toMemberValue : SignatureKey → Except HttpsigKeyError String
  | jwt j => .ok ("jwt;jwt=\"" ++ j ++ "\"")
  | hwk k => .ok (";".intercalate (
      ["hwk", "kty=\"" ++ k.kty ++ "\"", "crv=\"" ++ k.crv ++ "\"",
        "x=\"" ++ k.x ++ "\""] ++
      (k.y.toList.map fun y => "y=\"" ++ y ++ "\"") ++
      (k.kid.toList.map fun kid => "kid=\"" ++ kid ++ "\"")))
  | unsupported scheme => .error (.unsupportedScheme scheme.asStr)

def toHeader (k : SignatureKey) (label : String) :
    Except HttpsigKeyError String :=
  k.toMemberValue.map fun member => label ++ "=" ++ member

/-- The member for `label`, cut at the next comma. -/
def fromHeader (header label : String) :
    Except HttpsigKeyError SignatureKey := do
  let found ← (splitOnce header (label ++ "=")).okOr
    (.invalidSignatureKey ("label `" ++ label ++ "` not found"))
  let member := trim ((split found.2 ',').headD found.2)
  parseMember member

end SignatureKey

/-! ## Keys (`crypto.rs`) -/

def secretKeyFromSigningJwk (cr : Crates) (jwk : SigningJwk) :
    Except HttpsigKeyError SecretKey := do
  let d ← (cr.base64Decode jwk.d).mapError .invalidEncoding
  if jwk.kty = "OKP" ∧ jwk.crv = "Ed25519" then do
    failIf (d.length ≠ 32) .invalidKeyLength
    (cr.httpsig.secretKeyFromBytes .ed25519 d).mapError .httpsig
  else if jwk.kty = "EC" ∧ jwk.crv = "P-256" then do
    failIf (d.length ≠ 32) .invalidKeyLength
    (cr.httpsig.secretKeyFromBytes .ecdsaP256Sha256 d).mapError .httpsig
  else throw (.unsupportedSigningJwk jwk.kty jwk.crv)

def publicKeyFromJwk (cr : Crates) (jwk : PublicJwk) :
    Except HttpsigKeyError PublicKey :=
  if jwk.kty = "OKP" ∧ jwk.crv = "Ed25519" then do
    let x ← (cr.base64Decode jwk.x).mapError .invalidEncoding
    failIf (x.length ≠ 32) .invalidKeyLength
    (cr.httpsig.publicKeyFromBytes .ed25519 x).mapError .httpsig
  else if jwk.kty = "EC" ∧ jwk.crv = "P-256" then do
    let y ← jwk.y.okOr .missingEcY
    let x ← (cr.base64Decode jwk.x).mapError .invalidEncoding
    let y ← (cr.base64Decode y).mapError .invalidEncoding
    failIf (x.length ≠ 32 ∨ y.length ≠ 32) .invalidKeyLength
    (cr.httpsig.publicKeyFromBytes .ecdsaP256Sha256
      (4 :: x ++ y)).mapError .httpsig
  else .error (.unsupportedSigningJwk jwk.kty jwk.crv)

/-! ## Signing (`sign.rs`) -/

structure SignOptions where
  extras : List (String × String)
  label : Option String
deriving DecidableEq, Repr

/-- One line of the signature base. -/
def componentLine (cr : Crates) (name value : String) :
    Except HttpsigKeyError String :=
  (cr.httpsig.component ("\"" ++ name ++ "\": " ++ value)).mapError .httpsig

/-- Whether a key can be presented: the unsupported schemes cannot. -/
def SignatureKey.presentable : SignatureKey → Except HttpsigKeyError Unit
  | .jwt _ | .hwk _ => .ok ()
  | .unsupported scheme => .error (.unsupportedScheme scheme.asStr)

/-- Signs the headers for the given request parts at the time `now`. -/
def sign (cr : Crates) (now : Nat) (headers : HeaderMap)
    (method authority path : String) (material : SigningMaterial)
    (options : SignOptions) : Except HttpsigKeyError HeaderMap := do
  material.signatureKey.presentable
  let label := options.label.getD "sig"
  let signatureKeyHeader ← material.signatureKey.toHeader label
  let keyValue ← (headerValueFromStr signatureKeyHeader).mapError
    .invalidHeaderValue
  let headers := headers.insert "signature-key" keyValue
  let componentIds ← (["@method", "@authority", "@path", "signature-key"] ++
    options.extras.map (·.1)).mapM fun name =>
      (cr.httpsig.componentId name).mapError HttpsigKeyError.httpsig
  let params ← (cr.httpsig.params componentIds).mapError .httpsig
  let params := { params with created := some now }
  let componentLines ← ([("@method", cr.toUppercase method),
    ("@authority", authority), ("@path", path),
    ("signature-key", signatureKeyHeader)] ++ options.extras).mapM
      fun (name, value) => componentLine cr name value
  let base ← (cr.httpsig.base componentLines params).mapError .httpsig
  let secret ← secretKeyFromSigningJwk cr material.signingJwk
  let (signatureInput, signature) ← (cr.httpsig.build base params secret
    label).mapError .httpsig
  let inputValue ← (headerValueFromStr signatureInput).mapError
    .invalidHeaderValue
  let signatureValue ← (headerValueFromStr signature).mapError
    .invalidHeaderValue
  return (headers.insert "signature-input" inputValue).insert "signature"
    signatureValue

/-! ## Verifying (`verify.rs`) -/

structure VerifyOptions where
  maxAgeSecs : Nat
  clockSkewSecs : Int
  requireAuthorization : Bool
  label : Option String
deriving DecidableEq, Repr

def VerifyOptions.default : VerifyOptions where
  maxAgeSecs := 60
  clockSkewSecs := 60
  requireAuthorization := false
  label := none

/-- `i64 as u64` -/
def i64AsU64 (n : Int) : Nat := (n % 2 ^ 64).toNat

structure VerifiedHttpSignature where
  label : String
  signatureKey : SignatureKey
  publicJwk : PublicJwk
  thumbprint : String
  jwt : Option String
deriving DecidableEq, Repr

/-- The key a JWT is bound to, read from its payload segment. -/
def cnfJwkFromJwt (cr : Crates) (jwt : String) :
    Except HttpsigKeyError PublicJwk := do
  let parts := split jwt '.'
  let payloadB64 ← parts[1]?.okOr (.invalidJwt "missing payload")
  let payloadBytes ← (match cr.base64Decode payloadB64 with
    | .ok bytes => .ok bytes
    | .error _ => cr.base64DecodePadded payloadB64 :
      Except String Bytes).mapError .invalidJwt
  let payload ← (cr.json.jwtPayload.fromSlice payloadBytes).mapError .json
  (payload.cnf.bind id).okOr .missingCnfJwk

def resolvePublicJwk (cr : Crates) :
    SignatureKey → Except HttpsigKeyError (PublicJwk × Option String)
  | .jwt j => (cnfJwkFromJwt cr j).map fun jwk => (jwk, some j)
  | .hwk jwk => .ok (jwk, none)
  | .unsupported scheme => .error (.unsupportedScheme scheme.asStr)

/-- The value a covered component has in the request. -/
def componentValue (cr : Crates) (method authority path : String)
    (headers : HeaderMap) (signatureKeyHdr name : String) :
    Except HttpsigKeyError String :=
  if name = "@method" then .ok (cr.toUppercase method)
  else if name = "@authority" then .ok authority
  else if name = "@path" then .ok path
  else if name = "signature-key" then .ok signatureKeyHdr
  else do
    let headerName ← (headerNameFromBytes name).okOr
      (.missingComponent "header")
    (headerValue headers headerName).okOr
      (if name = "authorization" then .authorizationHeaderMissing
       else .missingComponent "header")

/-- Verifies an HTTP message signature at the time `now`. -/
def verify (cr : Crates) (now : Nat) (method authority path : String)
    (headers : HeaderMap) (options : VerifyOptions) :
    Except HttpsigKeyError VerifiedHttpSignature := do
  let label := options.label.getD "sig"
  let signatureKeyHdr ← (headerValue headers "signature-key").okOr
    .missingSignatureKey
  let signatureInput ← (headerValue headers "signature-input").okOr
    .missingSignatureInput
  let signatureHdr ← (headerValue headers "signature").okOr .missingSignature
  let signatureKey ← SignatureKey.fromHeader signatureKeyHdr label
  let headerMap ← (cr.httpsig.tryParse signatureHdr signatureInput).mapError
    .httpsig
  let sigHeaders ← (headerMap label).okOr .invalidSignatureFormat
  let params := sigHeaders.signatureParams
  let covered := params.coveredComponents.map (trimMatches · '"')
  ["@method", "@authority", "@path", "signature-key"].forM fun required =>
    failIf (required ∉ covered) (HttpsigKeyError.missingComponent required)
  failIf (options.requireAuthorization = true ∧ "authorization" ∉ covered)
    (.missingComponent "authorization")
  let created ← params.created.okOr .missingCreated
  failIf (created > now + i64AsU64 options.clockSkewSecs) .createdInFuture
  failIf (now - created > options.maxAgeSecs + i64AsU64 options.clockSkewSecs)
    .expired
  let (publicJwk, jwt) ← resolvePublicJwk cr signatureKey
  let thumbprint ← httpsigJwkThumbprint cr publicJwk
  let verifyingKey ← publicKeyFromJwk cr publicJwk
  let componentLines ← params.coveredComponents.mapM fun id => do
    let name := trimMatches id '"'
    let value ← componentValue cr method authority path headers
      signatureKeyHdr name
    componentLine cr name value
  let base ← (cr.httpsig.base componentLines params).mapError .httpsig
  (cr.httpsig.verify base verifyingKey sigHeaders).mapError
    fun _ => .verificationFailed
  return { label, signatureKey, publicJwk, thumbprint, jwt }

/-! ## Signing a request (`http_util.rs`) -/

/-- What an AAuth signature covers beyond the base components. -/
def aauthSignOptions (headers : HeaderMap) : SignOptions where
  extras :=
    (((headerValue headers "authorization").filter
      (startsWith · "AAuth ")).toList.map fun auth => ("authorization", auth))
    ++ ((headerValue headers "aauth-mission").toList.map fun mission =>
      ("aauth-mission", mission))
  label := none

/-- Only a key presented as a JWT can sign an AAuth request. -/
def SignatureKey.requireJwt : SignatureKey → AAuthResult Unit
  | .jwt _ => .ok ()
  | .hwk _ | .unsupported _ => .error (.signature .hwkUnsupported)

def Request.sign (cr : Crates) (now : Nat) (req : Request)
    (keyMaterial : SigningMaterial) : AAuthResult Request := do
  keyMaterial.signatureKey.requireJwt
  let (method, authority, path) := signatureParts req
  failIf (authority.isEmpty = true) (.signature .missingAuthority)
  let headers ← (Aauth.sign cr now req.headers method authority path
    keyMaterial (aauthSignOptions req.headers)).mapError
      fun e => .signature (.fromHttpsigKey e)
  return { req with headers }

def Request.signWithAuthToken (cr : Crates) (now : Nat) (req : Request)
    (keyMaterial : SigningMaterial) (authToken : String) :
    AAuthResult Request :=
  req.sign cr now { keyMaterial with signatureKey := .jwt authToken }

/-! ## The `Signature-Error` header (`signature_error.rs`) -/

structure SignatureErrorHeader where
  error : String
  description : Option String
deriving DecidableEq, Repr

namespace SignatureErrorHeader

def new (error : String) : SignatureErrorHeader where
  error := error
  description := none

def toHeader (h : SignatureErrorHeader) : String :=
  match h.description with
  | some d => "error=" ++ h.error ++ "; description=\"" ++ d ++ "\""
  | none => "error=" ++ h.error

/-- A value without the quotes around it, or as it is when it lacks one. -/
def unquoted (v : String) : String :=
  ((stripPrefix v "\"").bind (stripSuffix · "\"")).getD v

/-- What one part of the header says; a later part overrides. -/
def readPart (found : Option String × Option String) (part : String) :
    Option String × Option String :=
  let part := trim part
  match stripPrefix part "error=" with
  | some v => (some (unquoted (trim v)), found.2)
  | none =>
      match stripPrefix part "description=" with
      | some v => (found.1, some (unquoted (trim v)))
      | none => found

def fromHeader (header : String) : Option SignatureErrorHeader :=
  let (error, description) :=
    (split header ';').foldl readPart (none, none)
  error.map fun error => { error, description }

end SignatureErrorHeader

end Aauth
