import Aauth.Ref.Http
import Aauth.Ref.Wire

/-!
# Responses (`aauth-axum/src/respond.rs`)

What the servers answer with: the outcome of a flow or of a poll as status,
headers and body. A header value that cannot be one makes the handler
panic, which is `none` here.
-/

namespace Aauth

/-- A response on the wire. -/
structure HttpResponse where
  status : Nat
  headers : HeaderMap
  body : Bytes
deriving DecidableEq, Repr

/-- `header_challenge` (`deferred/types.rs`) -/
def DeferRequirement.headerChallenge :
    DeferRequirement → AAuthResult AAuthChallenge
  | interaction url code => .ok (.interaction url code)
  | clarification _ _ => .ok .clarification
  | claims _ => .ok .claims
  | approval => .ok .approval
  | payment _ => .error (.deferred .paymentNotRequirement)

namespace Respond

variable (cr : Crates)

/-! ## Parts -/

/-- A bare status. -/
def statusOnly (status : Nat) : HttpResponse :=
  { status, headers := .empty, body := [] }

/-- `(status, Json(body))` -/
def json (status : Nat) (tree : Json) : HttpResponse where
  status := status
  headers := HeaderMap.empty.insert "content-type" "application/json"
  body := jsonBytes cr tree

/-- `(status, headers, Json(body))`: a header given replaces the body's. -/
def jsonWith (status : Nat) (headers : HeaderMap) (tree : Json) :
    HttpResponse where
  status := status
  headers := (json cr status tree).headers.extend headers
  body := jsonBytes cr tree

/-- `InternalServiceError` -/
def internalServiceError : HttpResponse :=
  json cr 500 (AAuthProtocolError.toJson
    { error := .serverError, errorDescription := none, errorUri := none })

/-- `polling_status` -/
def pollingStatus (err : AAuthProtocolError) : Nat :=
  match err.error with
  | .denied | .abandoned | .accessDenied => 403
  | .expired | .interactionExpired => 408
  | .invalidCode => 410
  | .slowDown => 429
  | .serverError | .temporarilyUnavailable => 500
  | .custom code =>
      if code = "denied" ∨ code = "abandoned" ∨ code = "access_denied" then
        403
      else if code = "expired" ∨ code = "interaction_expired" then 408
      else if code = "invalid_code" then 410
      else if code = "slow_down" then 429
      else if code = "server_error" ∨ code = "temporarily_unavailable" then
        500
      else 403
  | _ => 403

def insertPollHeaders (headers : HeaderMap)
    (requirement : DeferRequirement) : Option HeaderMap :=
  let headers := (headers.insert "retry-after" "0").insert "cache-control"
    "no-store"
  match requirement.headerChallenge with
  | .error _ => some headers
  | .ok challenge => (headerValueFromStr challenge.toHeader).toOption.map
      fun value => headers.insert "aauth-requirement" value

def insertDeferCreatedHeaders (headers : HeaderMap) (location : String)
    (requirement : DeferRequirement) : Option HeaderMap := do
  let value ← (headerValueFromStr location).toOption
  let headers ← insertPollHeaders (headers.insert "location" value)
    requirement
  return headers.insert "content-type" "application/json"

/-! ## Outcomes -/

def deferCreated (d : DeferCreated) : Option HttpResponse :=
  match PendingBody.forWaiting d.requirement .pending with
  | .error _ => some (internalServiceError cr)
  | .ok body => do
      let headers ← insertDeferCreatedHeaders .empty d.location d.requirement
      return jsonWith cr 202 headers body.toJson

/-- No `Location` here. -/
def deferWaiting (w : DeferWaiting) : Option HttpResponse :=
  match PendingBody.forWaiting w.requirement w.status with
  | .error _ => some (internalServiceError cr)
  | .ok body => do
      let headers ← insertPollHeaders .empty w.requirement
      return jsonWith cr 202
        (headers.insert "content-type" "application/json") body.toJson

def opaqueAccess (token : String) : Option HttpResponse :=
  (headerValueFromStr token).toOption.map fun value =>
    { status := 200, headers := HeaderMap.empty.insert "aauth-access" value,
      body := [] }

def pendingOutcome : PendingOutcome → Option HttpResponse
  | .authToken body => some (json cr 200 body.toJson)
  | .opaqueAccess token => opaqueAccess token
  | .error err => some (json cr (pollingStatus err) err.toJson)

def flowOutcome : AuthTokenFlowOutcome → Option HttpResponse
  | .granted body => some (json cr 200 body.toJson)
  | .deferred d => deferCreated cr d
  | .denied err => some (json cr 403 err.toJson)
  | .gone => some (statusOnly 410)

def pollOutcome : AuthTokenPollOutcome → Option HttpResponse
  | .pending waiting => deferWaiting cr waiting
  | .complete outcome => pendingOutcome cr outcome
  | .gone => some (statusOnly 410)

end Respond

end Aauth
