import Aauth.Ref.PersonServer
import Aauth.Ref.Respond

/-!
# The Person Server's Access Server client (`aauth-reqwest`)

`ReqwestAccessServerClient` without its transport: the body it posts and
what it makes of the response it gets, with the parsing of deferred
responses it shares with the agent (`aauth/src/deferred/parse.rs`).
-/

namespace Aauth

open Text

/-! ## Deferred responses (`deferred/parse.rs`) -/

structure ParsedDeferred where
  location : String
  requirement : DeferRequirement
deriving DecidableEq, Repr

def resolveDeferredLocation (cr : Crates) (baseUrl location : String) :
    String :=
  if startsWith location "http://" || startsWith location "https://" then
    location
  else ((cr.urlJoin baseUrl (trimStartMatches location '/')).toOption).getD
    location

def deferRequirementFrom (cr : Crates) (challenge : AAuthChallenge)
    (body : Bytes) : AAuthResult DeferRequirement :=
  match challenge with
  | .clarification =>
      if body.isEmpty then
        .ok (.clarification "Please clarify your request" none)
      else do
        let c ← (fromSlice cr ClarificationChallenge.fromJson body).okOr
          (.deferred .body)
        return .clarification c.clarification c.timeout
  | .claims =>
      if body.isEmpty then .ok (.claims [])
      else do
        let c ← (fromSlice cr ClaimsChallenge.fromJson body).okOr
          (.deferred .body)
        return .claims c.requiredClaims
  | .interaction url code => .ok (.interaction url code)
  | .approval => .ok .approval
  | .agentToken | .authToken _ => .error (.header (.invalid
      "agent-token/auth-token requirements are not defer requirements"))

def parseDeferredResponse (cr : Crates) (status : Nat) (headers : HeaderMap)
    (body : Bytes) (baseUrl : String) : AAuthResult ParsedDeferred := do
  Except.failIf (status ≠ 202) (.deferred (.unexpectedStatus 202 status))
  let location ← (headerValue headers "location").okOr
    (.deferred .missingLocation)
  let requirementHeader ← (headerValue headers "aauth-requirement").okOr
    (.deferred .missingRequirement)
  let challenge ← AAuthChallenge.fromHeader requirementHeader
  let requirement ← deferRequirementFrom cr challenge body
  return { location := resolveDeferredLocation cr baseUrl location,
           requirement }

def parseAuthTokenResponse (cr : Crates) (status : Nat) (body : Bytes) :
    AAuthResult TokenResponseBody := do
  Except.failIf (status ≠ 200) (.deferred (.unexpectedStatus 200 status))
  (fromSlice cr TokenResponseBody.fromJson body).okOr (.deferred .body)

/-! ## The client (`access_client.rs`) -/

namespace ReqwestAccessServerClient

variable (cr : Crates)

/-- The body `resume_pending` posts. -/
def resumeBody : PendingInput → Bytes
  | .clarificationResponse answer => jsonBytes cr
      (ClarificationResponse.toJson { clarificationResponse := answer })
  | .claimsSubmission claims => jsonBytes cr claims.toJson
  | .interactionCompleted | .cancelled => "{}".toUTF8.data.toList
  | .updatedToken updated => jsonBytes cr updated.toJson

/-- What `resume_pending` makes of the response. -/
def resumeReply (r : HttpResponse) : AAuthResult (Option TokenResponseBody) :=
  if r.status = 200 then
    (parseAuthTokenResponse cr r.status r.body).map some
  else if r.status = 202 ∨ r.status = 403 ∨ r.status = 410 then .ok none
  else .error (.deferred (.postFailed r.status))

/-- `response_headers_to_http`: the last value of each name. -/
def responseHeadersToHttp (headers : HeaderMap) : HeaderMap :=
  HeaderMap.empty.extend headers

def originOf (url : String) : AAuthResult String := do
  let parsed ← (cr.urlParse url).mapError fun e => .deferred (.invalidUrl e)
  let host ← parsed.hostStr.okOr (.deferred .missingHost)
  return match parsed.port with
    | some port => parsed.scheme ++ "://" ++ host ++ ":" ++ port.repr
    | none => parsed.scheme ++ "://" ++ host

/-- What `exchange_token` makes of the response; `origin` is that of the
token endpoint. -/
def exchangeReply (tokenEndpoint origin : String) (r : HttpResponse) :
    AAuthResult AccessServerExchangeOutcome :=
  if r.status = 402 then .error (.deferred .paymentNotRequirement)
  else if r.status = 202 then do
    let parsed ← parseDeferredResponse cr r.status
      (responseHeadersToHttp r.headers) r.body origin
    return .deferred parsed.requirement parsed.location
  else if ¬ (200 ≤ r.status ∧ r.status < 300) then
    .error (.metadata (.httpStatus tokenEndpoint r.status))
  else do
    let body ← (fromSlice cr TokenResponseBody.fromJson r.body).okOr
      (.metadata (.request tokenEndpoint))
    return .complete body

/-- One response of the polling loop; `none` is a wait before the next. -/
def pollReply (accessServerUrl : String) (r : HttpResponse) :
    AAuthResult (Option ServerPollOutcome) :=
  if r.status = 200 then
    match parseAuthTokenResponse cr r.status r.body with
    | .ok token => .ok (some (.authToken token))
    | .error _ => .error (.deferred .missingAuthTokenBody)
  else if r.status = 410 then .ok (some .gone)
  else if r.status = 403 then
    .ok (some (.error
      ((fromSlice cr AAuthProtocolError.fromJson r.body).getD
        (.withDescription .accessDenied "Access denied"))))
  else if r.status = 202 then do
    let parsed ← parseDeferredResponse cr r.status
      (responseHeadersToHttp r.headers) r.body accessServerUrl
    return some (.deferred parsed.requirement parsed.location)
  else if r.status = 503 then .ok none
  else .error (.deferred (.unexpectedStatus 200 r.status))

/-- `poll_pending`, over the responses that arrive before the deadline. -/
def pollPending (accessServerUrl : String) (maxDuration : Nat) :
    List HttpResponse → AAuthResult ServerPollOutcome
  | [] => .error (.deferred (.timedOut maxDuration))
  | r :: rs =>
      match pollReply cr accessServerUrl r with
      | .error e => .error e
      | .ok (some outcome) => .ok outcome
      | .ok none => pollPending accessServerUrl maxDuration rs

end ReqwestAccessServerClient

end Aauth
