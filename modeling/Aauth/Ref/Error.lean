import Aauth.Lib.Text
import Aauth.Ref.Protocol

/-!
# Errors (`aauth/src/error.rs`, `httpsig-key/src/error.rs`)

The error umbrella of the library and its `Display` texts. An error of a
third-party crate is carried as its own display text.
-/

namespace Aauth

/-! ## HTTP signatures (`httpsig-key/src/error.rs`) -/

inductive HttpsigKeyError where
  | missingSignatureKey
  | missingSignatureInput
  | missingSignature
  | missingJwtParam
  | missingComponent (name : String)
  | authorizationHeaderMissing
  | createdInFuture
  | expired
  | missingCreated
  | invalidSignatureFormat
  | invalidEncoding (source : String)
  | invalidKeyLength
  | unsupportedSigningJwk (kty crv : String)
  | missingEcY
  | verificationFailed
  | unsupportedScheme (scheme : String)
  | invalidHeaderValue (source : String)
  | invalidSignatureKey (why : String)
  | invalidJwt (why : String)
  | missingCnfJwk
  | httpsig (source : String)
  | json (source : String)
deriving DecidableEq, Repr

def HttpsigKeyError.toString : HttpsigKeyError → String
  | missingSignatureKey => "missing Signature-Key header"
  | missingSignatureInput => "missing Signature-Input header"
  | missingSignature => "missing Signature header"
  | missingJwtParam => "Signature-Key missing jwt parameter"
  | missingComponent c =>
      "Signature-Input missing required component: " ++ c
  | authorizationHeaderMissing =>
      "authorization covered but Authorization header missing"
  | createdInFuture => "signature created in the future"
  | expired => "signature expired"
  | missingCreated => "Signature-Input missing created"
  | invalidSignatureFormat => "invalid Signature header format"
  | invalidEncoding _ => "invalid encoding"
  | invalidKeyLength => "invalid key length"
  | unsupportedSigningJwk kty crv =>
      "unsupported signing JWK: kty=" ++ kty ++ " crv=" ++ crv
  | missingEcY => "EC JWK missing y coordinate"
  | verificationFailed => "HTTP signature verification failed"
  | unsupportedScheme s => "unsupported Signature-Key scheme: " ++ s
  | invalidHeaderValue _ => "invalid header value"
  | invalidSignatureKey _ => "invalid Signature-Key header"
  | invalidJwt _ => "invalid JWT in Signature-Key"
  | missingCnfJwk => "JWT missing cnf.jwk"
  | httpsig s => "httpsig error: " ++ s
  | json _ => "JSON error"

/-! ## The library's own errors -/

inductive JwtError where
  | decode (source : String)
  | missingTyp
  | unknownTyp (typ : String)
  | algNone
  | unsupportedKty (kty : String)
  | thumbprint (why : String)
  | jwkSet (source : String)
deriving DecidableEq, Repr

def JwtError.toString : JwtError → String
  | decode e => "JWT decode failed: " ++ e
  | missingTyp => "missing typ header"
  | unknownTyp t => "unknown typ: " ++ t
  | algNone => "JWT alg none is not accepted"
  | unsupportedKty k => "unsupported JWK kty: " ++ k
  | thumbprint w => "JWK thumbprint failed: " ++ w
  | jwkSet _ => "JWK set decode failed"

inductive SignatureError where
  | missingSignatureKey
  | missingJwtParam
  | missingSignatureInput
  | missingSignature
  | missingComponent (name : String)
  | missingAuthorizationComponent
  | authorizationHeaderMissing
  | createdInFuture
  | expired
  | missingCreated
  | invalidSignatureFormat
  | invalidEncoding (source : String)
  | invalidKeyLength
  | unsupportedSigningJwk (kty crv : String)
  | missingEcY
  | verificationFailed
  | hwkUnsupported
  | missingAuthority
  | invalidHeaderValue (source : String)
  | httpsigKey (why : String)
deriving DecidableEq, Repr

namespace SignatureError

def toString : SignatureError → String
  | missingSignatureKey => "missing signature-key header"
  | missingJwtParam => "signature-key missing jwt parameter"
  | missingSignatureInput => "missing signature-input header"
  | missingSignature => "missing signature header"
  | missingComponent c =>
      "signature-input missing required component: " ++ c
  | missingAuthorizationComponent =>
      "signature-input missing authorization component"
  | authorizationHeaderMissing =>
      "authorization covered but Authorization header missing"
  | createdInFuture => "signature created in the future"
  | expired => "signature expired"
  | missingCreated => "signature-input missing created"
  | invalidSignatureFormat => "invalid signature header format"
  | invalidEncoding _ => "invalid signature encoding"
  | invalidKeyLength => "invalid key length"
  | unsupportedSigningJwk kty crv =>
      "unsupported signing JWK: kty=" ++ kty ++ " crv=" ++ crv
  | missingEcY => "EC signing JWK missing y coordinate"
  | verificationFailed => "HTTP signature verification failed"
  | hwkUnsupported => "hwk signature key not supported"
  | missingAuthority => "request missing Host / URI authority for signing"
  | invalidHeaderValue _ => "invalid header value"
  | httpsigKey w => "httpsig-key error: " ++ w

/-- Whether the failure means that no agent token was presented. -/
def isMissingAgentCredential : SignatureError → Bool
  | missingSignatureKey | missingJwtParam | missingSignature
  | missingSignatureInput | hwkUnsupported => true
  | _ => false

/-- The code of the `Signature-Error` header. -/
def signatureErrorCode : SignatureError → String
  | missingComponent _ | missingAuthorizationComponent
  | authorizationHeaderMissing => "invalid_input"
  | missingJwtParam => "invalid_jwt"
  | unsupportedSigningJwk _ _ => "unsupported_algorithm"
  | invalidKeyLength | missingEcY | hwkUnsupported => "invalid_key"
  | missingSignatureKey | missingSignatureInput | missingSignature
  | createdInFuture | expired | missingCreated | invalidSignatureFormat
  | invalidEncoding _ | verificationFailed | invalidHeaderValue _
  | missingAuthority | httpsigKey _ => "invalid_signature"

def fromHttpsigKey : HttpsigKeyError → SignatureError
  | .missingSignatureKey => missingSignatureKey
  | .missingJwtParam => missingJwtParam
  | .missingSignatureInput => missingSignatureInput
  | .missingSignature => missingSignature
  | .missingComponent c =>
      if c = "authorization" then missingAuthorizationComponent
      else missingComponent c
  | .authorizationHeaderMissing => authorizationHeaderMissing
  | .createdInFuture => createdInFuture
  | .expired => expired
  | .missingCreated => missingCreated
  | .invalidSignatureFormat => invalidSignatureFormat
  | .invalidEncoding e => invalidEncoding e
  | .invalidKeyLength => invalidKeyLength
  | .unsupportedSigningJwk kty crv => unsupportedSigningJwk kty crv
  | .missingEcY => missingEcY
  | .verificationFailed => verificationFailed
  | .unsupportedScheme s =>
      if s = "hwk" then hwkUnsupported
      else httpsigKey (HttpsigKeyError.unsupportedScheme s).toString
  | .invalidHeaderValue e => invalidHeaderValue e
  | .invalidSignatureKey w =>
      httpsigKey (HttpsigKeyError.invalidSignatureKey w).toString
  | .invalidJwt w => httpsigKey (HttpsigKeyError.invalidJwt w).toString
  | .missingCnfJwk => httpsigKey HttpsigKeyError.missingCnfJwk.toString
  | .httpsig s => httpsigKey (HttpsigKeyError.httpsig s).toString
  | .json s => httpsigKey (HttpsigKeyError.json s).toString

end SignatureError

inductive MetadataError where
  | httpStatus (url : String) (status : Nat)
  | request (url : String)
  | decode (url : String)
  | missingJwksUri (url : String)
  | missingTokenEndpoint
  | rateLimited (jwksUri : String)
  | unknownJwksUri (jwksUri : String)
deriving DecidableEq, Repr

def MetadataError.toString : MetadataError → String
  | httpStatus url status =>
      "HTTP " ++ ToString.toString status ++ " fetching " ++ url
  | request url => "request failed for " ++ url
  | decode url => "invalid metadata/JWKS JSON from " ++ url
  | missingJwksUri url => "missing jwks_uri in metadata from " ++ url
  | missingTokenEndpoint => "missing token_endpoint in metadata"
  | rateLimited uri => "JWKS fetch rate limited for " ++ uri
  | unknownJwksUri uri => "unknown JWKS URI: " ++ uri

inductive VerifyReason where
  | wrongTyp
  | invalidDwk
  | signatureFailed
  | expectedAuth
  | unsupportedTyp
  | futureIat
  | invalidIss
  | invalidPs
  | invalidParentAgent
deriving DecidableEq, Repr

inductive VerifyError where
  | expired (typ : JwtTyp)
  | invalid (typ : JwtTyp) (reason : VerifyReason)
  | keyBindingFailed
  | audMismatch
  | issMismatch
  | agentMismatch
  | agentJktMismatch
  | missingKid
  | unknownKid (kid : String)
  | token (code message : String)
  | metadata (e : MetadataError)
  | jwt (e : JwtError)
  | noAudience
deriving DecidableEq, Repr

namespace VerifyError

def toString : VerifyError → String
  | expired _ => "token expired"
  | invalid typ _ => "invalid token (" ++ typ.debug ++ ")"
  | keyBindingFailed =>
      "cnf.jwk thumbprint does not match HTTP signature key"
  | audMismatch => "auth token aud mismatch"
  | issMismatch => "resource token iss mismatch"
  | agentMismatch => "agent mismatch"
  | agentJktMismatch => "agent_jkt mismatch"
  | missingKid => "missing kid"
  | unknownKid kid => "unknown kid: " ++ kid
  | token code message => code ++ ": " ++ message
  | metadata e => e.toString
  | jwt e => e.toString
  | noAudience => "cannot determine resource token audience"

def signatureErrorCode : VerifyError → String
  | expired _ => "expired_jwt"
  | keyBindingFailed => "invalid_key"
  | missingKid | unknownKid _ => "unknown_key"
  | token code _ =>
      if Text.contains code "expired" then "expired_jwt" else "invalid_jwt"
  | invalid _ _ | audMismatch | issMismatch | agentMismatch
  | agentJktMismatch | metadata _ | jwt _ | noAudience => "invalid_jwt"

/-- The wire error an unverifiable token is answered with. -/
def intoAauthProtocol : VerifyError → Nat × AAuthProtocolError
  | expired .agent =>
      (401, .withDescription .expiredAgentToken (expired .agent).toString)
  | expired .resource =>
      (401, .withDescription .expiredResourceToken
        (expired .resource).toString)
  | expired .auth =>
      (401, .withDescription .expiredJwt (expired .auth).toString)
  | invalid .agent r =>
      (401, .withDescription .invalidAgentToken (invalid .agent r).toString)
  | invalid .resource r =>
      (401, .withDescription .invalidResourceToken
        (invalid .resource r).toString)
  | invalid .auth r =>
      (401, .withDescription .invalidJwt (invalid .auth r).toString)
  | keyBindingFailed =>
      (401, .withDescription .invalidKey keyBindingFailed.toString)
  | missingKid => (401, .withDescription .unknownKey missingKid.toString)
  | unknownKid kid =>
      (401, .withDescription .unknownKey (unknownKid kid).toString)
  | token code message =>
      let mapped : AAuthErrorCode :=
        if code = "invalid_agent_token" then .invalidAgentToken
        else if code = "expired_agent_token" then .expiredAgentToken
        else if code = "invalid_resource_token" then .invalidResourceToken
        else if code = "expired_resource_token" then .expiredResourceToken
        else if code = "invalid_jwt" then .invalidJwt
        else .custom code
      (401, .withDescription mapped message)
  | e => (401, .withDescription .invalidJwt e.toString)

end VerifyError

inductive HeaderError where
  | emptyRequirement
  | missingRequirementMember
  | unknownRequirement (level : String)
  | missingResourceToken
  | missingInteractionUrl
  | missingInteractionCode
  | missingApprover
  | missingS256
  | invalid (why : String)
deriving DecidableEq, Repr

def HeaderError.toString : HeaderError → String
  | emptyRequirement => "empty AAuth-Requirement header"
  | missingRequirementMember => "missing requirement= in AAuth-Requirement"
  | unknownRequirement l => "unknown requirement level: " ++ l
  | missingResourceToken => "auth-token requires resource-token"
  | missingInteractionUrl => "interaction requires url"
  | missingInteractionCode => "interaction requires code"
  | missingApprover => "mission missing approver"
  | missingS256 => "mission missing s256"
  | invalid w => "invalid header: " ++ w

/-- The deferred-response errors that reach a modelled function. -/
inductive DeferredError where
  | unexpectedStatus (expected got : Nat)
  | missingLocation
  | missingRequirement
  | body
  | timedOut (secs : Nat)
  | postFailed (status : Nat)
  | missingAuthTokenBody
  | paymentNotPendingBody
  | paymentNotRequirement
  | invalidUrl (source : String)
  | missingHost
deriving DecidableEq, Repr

def DeferredError.toString : DeferredError → String
  | unexpectedStatus expected got =>
      "expected status " ++ expected.repr ++ ", got " ++ got.repr
  | missingLocation => "202 missing Location"
  | missingRequirement => "202 missing AAuth-Requirement"
  | body => "invalid pending JSON body"
  | timedOut secs => "polling timed out after " ++ secs.repr ++ "s"
  | postFailed status => "pending POST failed with status " ++ status.repr
  | missingAuthTokenBody => "pending poll returned 200 without auth token"
  | paymentNotPendingBody => "payment defer is not a pending JSON body"
  | paymentNotRequirement =>
      "payment defer uses 402, not AAuth-Requirement"
  | invalidUrl _ => "invalid pending URL"
  | missingHost => "pending URL missing host"

inductive ResourceTokenError where
  | systemTime (source : String)
  | encode (source : String)
deriving DecidableEq, Repr

def ResourceTokenError.toString : ResourceTokenError → String
  | systemTime _ => "clock error"
  | encode _ => "JWT encode failed"

/-- A URL parse error is its display text. -/
inductive AgentAuthError where
  | invalidOrigin (source : String)
  | personServerUnresolved
  | expectedAgentJwt
  | hwkUnsupported
deriving DecidableEq, Repr

def AgentAuthError.toString : AgentAuthError → String
  | invalidOrigin _ => "invalid resource URL"
  | personServerUnresolved =>
      "person server unresolved: no config and no agent ps claim"
  | expectedAgentJwt => "expected agent JWT for person server resolution"
  | hwkUnsupported => "hwk signature key cannot supply agent JWT"

inductive AAuthError where
  | jwt (e : JwtError)
  | signature (e : SignatureError)
  | metadata (e : MetadataError)
  | verify (e : VerifyError)
  | deferred (e : DeferredError)
  | header (e : HeaderError)
  | agent (e : AgentAuthError)
  | resourceToken (e : ResourceTokenError)
deriving DecidableEq, Repr

namespace AAuthError

def toString : AAuthError → String
  | jwt e => e.toString
  | signature e => e.toString
  | metadata e => e.toString
  | verify e => e.toString
  | deferred e => e.toString
  | header e => e.toString
  | agent e => e.toString
  | resourceToken e => e.toString

def isMissingAgentCredential : AAuthError → Bool
  | signature e => e.isMissingAgentCredential
  | _ => false

/-- The code of the `Signature-Error` header, when there is one. -/
def signatureErrorHeader : AAuthError → Option String
  | signature e => some e.signatureErrorCode
  | verify e => some e.signatureErrorCode
  | jwt _ => some "invalid_jwt"
  | _ => none

def intoAauthProtocol : AAuthError → Option (Nat × AAuthProtocolError)
  | signature e =>
      some (401, .withDescription .invalidSignature e.toString)
  | verify e => some e.intoAauthProtocol
  | jwt e => some (401, .withDescription .invalidJwt e.toString)
  | header e => some (400, .withDescription .invalidRequest e.toString)
  | _ => none

end AAuthError

/-- `aauth::error::Result`. -/
abbrev AAuthResult (α : Type) := Except AAuthError α

end Aauth
