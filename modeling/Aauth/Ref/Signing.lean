import Aauth.Ref.AgentClient
import Aauth.Ref.HttpSig

/-!
# Signing the agent's requests (`signed.rs`, `middleware/signing.rs`)

Every request of the agent passes a middleware: it says what the agent can
do and which mission it is on, presents the credential of the attempt, and
signs what the next middleware is handed. A `reqwest` request is signed for
the authority of its URL, with no regard to its `Host` header.
-/

namespace Aauth

open Text Except

/-! ## The URL of a request -/

/-- The host and the port, when it is not the default of the scheme. -/
def Url.hostPort (u : Url) : String :=
  match u.port with
  | none => u.hostStr.getD ""
  | some port => u.hostStr.getD "" ++ ":" ++ toString port

/-- `Url::authority` -/
def Url.authority (u : Url) : String :=
  match u.password with
  | some password => u.username ++ ":" ++ password ++ "@" ++ u.hostPort
  | none =>
      if u.username.isEmpty then u.hostPort else u.username ++ "@" ++ u.hostPort

/-! ## Signing (`signed.rs`) -/

structure SigningOptions where
  capabilities : Option (List Capability)
  mission : Option Mission
deriving DecidableEq, Repr

/-- A header, if there is one to set; its value is expected to be one. -/
def AgentRequest.insertExpected (req : AgentRequest) (name : String)
    (value : Option String) (message : String) : Except Halt AgentRequest :=
  match value.map headerValueFromStr with
  | none => .ok req
  | some (.ok value) =>
      .ok { req with headers := req.headers.insert name value }
  | some (.error _) => .error (.panicked message)

def SigningOptions.applyTo (options : SigningOptions) (req : AgentRequest) :
    Except Halt AgentRequest := do
  let req ← req.insertExpected "aauth-capabilities"
    ((options.capabilities.filter (!·.isEmpty)).map Capability.joinHeader)
    "valid capabilities header"
  req.insertExpected "aauth-mission" (options.mission.map Mission.toHeader)
    "valid mission header"

/-- Only a key presented as a JWT can sign. -/
def SignatureKey.asJwt : SignatureKey → Except SignatureError Unit
  | .jwt _ => .ok ()
  | .hwk _ | .unsupported _ => .error .hwkUnsupported

/-- `Request::sign`; `u` are the parts of the request's URL. -/
def AgentRequest.sign (cr : Crates) (now : Nat) (u : Url)
    (req : AgentRequest) (keyMaterial : SigningMaterial) :
    Except SignatureError AgentRequest := do
  keyMaterial.signatureKey.asJwt
  let headers ← (Aauth.sign cr now req.headers req.method u.authority u.path
    keyMaterial (aauthSignOptions req.headers)).mapError .fromHttpsigKey
  return { req with headers }

def AgentRequest.signWithAuthToken (cr : Crates) (now : Nat) (u : Url)
    (req : AgentRequest) (keyMaterial : SigningMaterial)
    (authToken : String) : Except SignatureError AgentRequest :=
  req.sign cr now u { keyMaterial with signatureKey := .jwt authToken }

/-! ## The middleware (`middleware/signing.rs`) -/

/-- An error of the middleware, as the client reports it. -/
def ofMiddleware {ε α : Type} (toString : ε → String) (r : Except ε α) :
    Except Halt α :=
  r.mapError fun e => .error (.middleware (toString e))

/-- What `sign_and_run` hands to the next middleware, with the provider's
answer and the time of signing. -/
def signAndRun (cr : Crates) (options : SigningOptions) (now : Nat)
    (keyMaterial : AAuthResult SigningMaterial) (u : Url)
    (req : AgentRequest) : AgentAuthAttempt → Except Halt AgentRequest
  | .authToken token => do
      let material ← ofMiddleware AAuthError.toString keyMaterial
      let req ← options.applyTo req
      ofMiddleware SignatureError.toString
        (req.signWithAuthToken cr now u material token)
  | .opaqueToken token => do
      let material ← ofMiddleware AAuthError.toString keyMaterial
      let req ← options.applyTo req
      let req ← (applyOpaqueToken req token).okOr
        (.panicked "valid authorization header")
      ofMiddleware SignatureError.toString (req.sign cr now u material)
  | .agentSigned => do
      let material ← ofMiddleware AAuthError.toString keyMaterial
      let req ← options.applyTo req
      ofMiddleware SignatureError.toString (req.sign cr now u material)

end Aauth
