import Mathlib.Algebra.Group.Nat.Defs
import Mathlib.Algebra.Group.Int.Defs
import Aauth.Lib.Result
import Aauth.Ref.Crates

/-!
# Tokens (`aauth/src/jwt`, `aauth/src/keys.rs`)

Reading a compact JWT with and without verifying it, the RFC 7638
thumbprint, and minting. The clock is an argument: `jsonwebtoken` reads it
when it validates `exp`.
-/

namespace Aauth

open Text Except

def CLOCK_SKEW : Int := 60

/-! ## Thumbprints (`httpsig-key/src/thumbprint.rs`, `jwt/mod.rs`) -/

/-- The members that enter the thumbprint, in the order of their names. -/
def thumbprintMembers (jwk : PublicJwk) :
    Except HttpsigKeyError (List (String × String)) :=
  if jwk.kty = "OKP" then
    .ok [("crv", jwk.crv), ("kty", jwk.kty), ("x", jwk.x)]
  else if jwk.kty = "EC" then
    .ok ([("crv", jwk.crv), ("kty", jwk.kty), ("x", jwk.x)] ++
      jwk.y.toList.map fun y => ("y", y))
  else .error (.unsupportedSigningJwk jwk.kty jwk.crv)

/-- `httpsig_key::jwk_thumbprint` -/
def httpsigJwkThumbprint (cr : Crates) (jwk : PublicJwk) :
    Except HttpsigKeyError String := do
  let members ← thumbprintMembers jwk
  let canonical ← (cr.json.mapToString members).mapError .json
  return cr.base64Encode (cr.sha256 canonical.toUTF8.data.toList)

/-- `aauth::jwt::jwk_thumbprint` -/
def jwkThumbprint (cr : Crates) (jwk : PublicJwk) : AAuthResult String :=
  (httpsigJwkThumbprint cr jwk).mapError fun
    | .unsupportedSigningJwk kty _ => .jwt (.unsupportedKty kty)
    | other => .jwt (.thumbprint other.toString)

/-! ## Headers (`jwt/decode.rs`) -/

structure JwtHeaderParts where
  typ : JwtTyp
  alg : Algorithm
  kid : Option String
deriving DecidableEq, Repr

def rejectAlgNone (cr : Crates) (jwt : String) : AAuthResult Unit :=
  match (split jwt '.').head? with
  | none => .error (.jwt .algNone)
  | some headerB64 =>
      match cr.base64Decode headerB64 with
      | .error _ => .error (.jwt .algNone)
      | .ok bytes =>
          match cr.json.value.fromSlice bytes with
          | .error _ => .error (.jwt .algNone)
          | .ok value =>
              let alg := ((value.get "alg").bind Json.asStr).getD ""
              if asciiLower alg = "none" then .error (.jwt .algNone)
              else .ok ()

def jwtHeader (cr : Crates) (jwt : String) : AAuthResult JwtHeaderParts := do
  rejectAlgNone cr jwt
  let header ← (cr.jsonwebtoken.decodeHeader jwt).mapError
    fun e => .jwt (.decode e)
  let typStr ← header.typ.okOr (.jwt .missingTyp)
  let typ ← (JwtTyp.fromStr typStr).okOr (.jwt (.unknownTyp typStr))
  return { typ, alg := header.alg, kid := header.kid }

def decodeUnverified (cr : Crates) {α : Type} (claims : Serde α)
    (jwt : String) : AAuthResult α := do
  let payload ← (cr.jsonwebtoken.insecurePayload jwt).mapError
    fun e => .jwt (.decode e)
  (claims.fromSlice payload).mapError fun e => .jwt (.decode e)

/-- The settings every verified decode uses. -/
def verifiedValidation (alg : Algorithm) : Validation where
  algorithm := alg
  validateAud := false
  leeway := 60

def decodeVerified (cr : Crates) (now : Nat) {α : Type} (claims : Serde α)
    (jwt : String) (key : DecodingKey) (validation : Validation) :
    AAuthResult α := do
  let payload ← (cr.jsonwebtoken.verifySignature jwt key
    validation.algorithm).mapError fun e => .jwt (.decode e)
  let c ← (claims.fromSlice payload).mapError fun e => .jwt (.decode e)
  (cr.jsonwebtoken.validate payload validation now).mapError
    fun e => .jwt (.decode e)
  return c

/-! ## Parsed tokens (`jwt/claims.rs`) -/

def AuthClaims.validate (c : AuthClaims) : AAuthResult Unit :=
  failIf (c.sub = none ∧ c.scope = none)
    (.verify (.token JwtTyp.auth.verifyErrorCode
      "at least one of sub or scope must be present"))

/-- The claims of a token, tagged by its `typ`. -/
inductive ParsedToken where
  | agent (c : AgentClaims)
  | auth (c : AuthClaims)
  | resource (c : ResourceClaims)
deriving DecidableEq, Repr

def decodeErr (code : String) (err : AAuthError) : AAuthError :=
  .verify (.token code ("JWT decode failed: " ++ err.toString))

/-- `u64 as i64` -/
def u64AsI64 (n : Nat) : Int :=
  if n % 2 ^ 64 < 2 ^ 63 then (n % 2 ^ 64 : Nat)
  else (n % 2 ^ 64 : Nat) - 2 ^ 64

namespace ParsedToken

/-- The claims by `typ`, from whichever decoder is given; auth claims are
validated once they are decoded. -/
def decodeWith (cr : Crates) (typ : JwtTyp)
    (decode : {α : Type} → Serde α → AAuthResult α) :
    AAuthResult ParsedToken :=
  match typ with
  | .agent => ((decode cr.json.agentClaims).mapError
      (decodeErr typ.verifyErrorCode)).map agent
  | .auth => do
      let claims ← (decode cr.json.authClaims).mapError
        (decodeErr typ.verifyErrorCode)
      claims.validate
      return auth claims
  | .resource => ((decode cr.json.resourceClaims).mapError
      (decodeErr typ.verifyErrorCode)).map resource

/-- Decodes the claims without verifying the signature. -/
def parse (cr : Crates) (jwt : String) : AAuthResult ParsedToken := do
  let header ← jwtHeader cr jwt
  decodeWith cr header.typ fun s => decodeUnverified cr s jwt

/-- Verifies the signature with `key` and decodes the claims. -/
def verifyWithKey (cr : Crates) (now : Nat) (jwt : String)
    (key : DecodingKey) : AAuthResult ParsedToken := do
  let header ← jwtHeader cr jwt
  let validation := verifiedValidation header.alg
  decodeWith cr header.typ fun s => decodeVerified cr now s jwt key validation

def iss : ParsedToken → String
  | agent c => c.iss
  | auth c => c.iss
  | resource c => c.iss

def dwk : ParsedToken → String
  | agent c => c.dwk
  | auth c => c.dwk
  | resource c => c.dwk

def exp : ParsedToken → Int
  | agent c => c.exp
  | auth c => c.exp
  | resource c => u64AsI64 c.exp

def cnfJwk : ParsedToken → Option PublicJwk
  | agent c => some c.cnf.jwk
  | auth c => some c.cnf.jwk
  | resource _ => none

def agentIdentifier : ParsedToken → Option String
  | agent c => some c.identifier
  | auth _ | resource _ => none

end ParsedToken

/-! ## Key pairs (`keys.rs`) -/

/-- `jwk_set_from_public` -/
def jwkSetFromPublic (cr : Crates) (keys : List PublicJwk) :
    AAuthResult JwkSet := do
  let jwks ← keys.mapM fun key =>
    (cr.json.jwkFromPublic key).mapError fun e => AAuthError.jwt (.jwkSet e)
  return { keys := jwks }

structure Ed25519KeyPair where
  signingKey : Bytes
  kid : Option String
deriving DecidableEq, Repr

namespace Ed25519KeyPair

def publicJwk (cr : Crates) (k : Ed25519KeyPair) : PublicJwk where
  kty := "OKP"
  crv := "Ed25519"
  x := cr.base64Encode (cr.ed25519Public k.signingKey)
  y := none
  kid := k.kid

def signingJwk (cr : Crates) (k : Ed25519KeyPair) : SigningJwk where
  kty := "OKP"
  crv := "Ed25519"
  x := cr.base64Encode (cr.ed25519Public k.signingKey)
  y := none
  d := cr.base64Encode k.signingKey
  kid := k.kid

def encodingKey (cr : Crates) (k : Ed25519KeyPair) : EncodingKey where
  der := cr.pkcs8Der k.signingKey

def jwkSet (cr : Crates) (k : Ed25519KeyPair) : AAuthResult JwkSet :=
  jwkSetFromPublic cr [k.publicJwk cr]

end Ed25519KeyPair

/-! ## Minting (`jwt/mint.rs`) -/

structure AuthJwtMintParams where
  encodingKey : EncodingKey
  kid : Option String
  dwk : String
  iss : String
  aud : String
  agent : String
  agentJwk : PublicJwk
  sub : Option String
  scope : Option String

/-- The claims `encode_auth_jwt` writes, at a time and with a fresh
`jti`. -/
def AuthJwtMintParams.claims (p : AuthJwtMintParams) (now : Nat)
    (jti : String) : AuthClaims where
  iss := p.iss
  dwk := p.dwk
  aud := p.aud
  jti := jti
  agent := p.agent
  act := none
  cnf := { jwk := p.agentJwk }
  iat := now
  exp := now + 3600
  sub := p.sub
  scope := p.scope
  tenant := none
  mission := none

def encodeAuthJwt (cr : Crates) (now : Nat) (jti : String)
    (p : AuthJwtMintParams) : AAuthResult String :=
  let header : Header :=
    { typ := some JwtTyp.auth.asStr, alg := .edDSA, kid := p.kid }
  (cr.jsonwebtoken.encode header
    (cr.json.authClaims.toVec (p.claims now jti)) p.encodingKey).mapError
      fun e => .jwt (.decode e)

end Aauth
