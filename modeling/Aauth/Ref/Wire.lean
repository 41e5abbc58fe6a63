import Aauth.Lib.Fields
import Aauth.Lib.Result
import Aauth.Ref.Deferred

/-!
# JSON bodies (`aauth/src/protocol`, `aauth/src/deferred/types.rs`)

The serializers and deserializers of the bodies that servers exchange, over
JSON trees: what `serde` derives from the types and their attributes, and
the two the source writes by hand, error codes and pending posts. Text is
read and written by the crate. A deserializer's own error is not kept: no
code reads more of it than that there is one.
-/

namespace Aauth

open Json

/-! ## Text -/

/-- `serde_json::to_vec` of a value whose tree is given. -/
def jsonBytes (cr : Crates) (tree : Json) : Bytes := cr.json.value.toVec tree

/-- `serde_json::from_slice` at the type that `read` deserializes. -/
def fromSlice {α : Type} (cr : Crates) (read : Json → Option α)
    (body : Bytes) : Option α :=
  (cr.json.value.fromSlice body).toOption.bind read

/-! ## Token responses (`protocol/token_exchange.rs`) -/

def TokenResponseBody.toJson (b : TokenResponseBody) : Json :=
  .obj [("auth_token", .str b.authToken), ("expires_in", .int b.expiresIn)]

def TokenResponseBody.fromJson (j : Json) : Option TokenResponseBody := do
  let field ← j.fields ["auth_token", "expires_in"]
  let authToken ← required asStr (field "auth_token")
  let expiresIn ← required asU64 (field "expires_in")
  return { authToken, expiresIn }

/-! ## Pending bodies (`protocol/common.rs`, `protocol/pending.rs`) -/

namespace PendingStatus

def asStr : PendingStatus → String
  | pending => "pending"
  | interacting => "interacting"

def fromStr (s : String) : Option PendingStatus :=
  if s = "pending" then some pending
  else if s = "interacting" then some interacting
  else none

def toJson (s : PendingStatus) : Json := .str s.asStr

/-- A unit variant is its name, or an object with its name alone. -/
def fromJson : Json → Option PendingStatus
  | .str s => fromStr s
  | .obj [(s, .null)] => fromStr s
  | _ => none

end PendingStatus

def ClarificationChallenge.toJson (c : ClarificationChallenge) : Json :=
  .obj ([("status", c.status.toJson), ("clarification", .str c.clarification)]
    ++ written "timeout" (fun n : Nat => .int n) c.timeout
    ++ written "options" (fun o => .arr (o.map .str)) c.options)

def ClarificationChallenge.fromJson (j : Json) :
    Option ClarificationChallenge := do
  let field ← j.fields ["status", "clarification", "timeout", "options"]
  let status ← match field "status" with
    | none => some .pending
    | some v => PendingStatus.fromJson v
  let clarification ← required asStr (field "clarification")
  let timeout ← optional asU64 (field "timeout")
  let options ← optional (asList asStr) (field "options")
  return { status, clarification, timeout, options }

def ClaimsChallenge.toJson (c : ClaimsChallenge) : Json :=
  .obj [("status", c.status.toJson),
    ("required_claims", .arr (c.requiredClaims.map .str))]

def ClaimsChallenge.fromJson (j : Json) : Option ClaimsChallenge := do
  let field ← j.fields ["status", "required_claims"]
  let status ← required PendingStatus.fromJson (field "status")
  let requiredClaims ← required (asList asStr) (field "required_claims")
  return { status, requiredClaims }

/-- `PendingStatusBody`, the status alone. -/
def pendingStatusBodyFromJson (j : Json) : Option PendingStatus := do
  let field ← j.fields ["status"]
  required PendingStatus.fromJson (field "status")

/-- An untagged enum is written as the variant's own value. -/
def PendingBody.toJson : PendingBody → Json
  | status s => .obj [("status", s.toJson)]
  | clarification c => c.toJson
  | claims c => c.toJson

/-- It is read as the first variant that accepts the value. -/
def PendingBody.fromJson (j : Json) : Option PendingBody :=
  ((pendingStatusBodyFromJson j).map status).or <|
    ((ClarificationChallenge.fromJson j).map clarification).or <|
      (ClaimsChallenge.fromJson j).map claims

/-! ## Agent input (`protocol/pending.rs`) -/

structure ClarificationResponse where
  clarificationResponse : String
deriving DecidableEq, Repr

def ClarificationResponse.toJson (r : ClarificationResponse) : Json :=
  .obj [("clarification_response", .str r.clarificationResponse)]

def ClarificationResponse.fromJson (j : Json) :
    Option ClarificationResponse := do
  let field ← j.fields ["clarification_response"]
  let clarificationResponse ← required asStr (field "clarification_response")
  return { clarificationResponse }

/-- The flattened map comes last, its members among the fields. -/
def ClaimsSubmission.toJson (c : ClaimsSubmission) : Json :=
  .obj ([("sub", .str c.sub)] ++ written "email" .str c.email
    ++ written "tenant" .str c.tenant ++ c.extra)

/-- A map keeps the last value of a name. -/
def mapFromMembers : List (String × Json) → List (String × Json)
  | [] => []
  | m :: ms =>
      if (ms.map (·.1)).contains m.1 then mapFromMembers ms
      else m :: mapFromMembers ms

/-- A record with a flattened map is read from an object only, and the map
takes the members that are no fields. -/
def ClaimsSubmission.fromJson : Json → Option ClaimsSubmission
  | .obj members => do
      let names := ["sub", "email", "tenant"]
      let field ← fields names (.obj members)
      let sub ← required asStr (field "sub")
      let email ← optional asStr (field "email")
      let tenant ← optional asStr (field "tenant")
      return { sub, email, tenant,
               extra := mapFromMembers (others names members) }
  | _ => none

def UpdatedTokenRequest.toJson (r : UpdatedTokenRequest) : Json :=
  .obj ([("resource_token", .str r.resourceToken)]
    ++ written "justification" .str r.justification)

def UpdatedTokenRequest.fromJson (j : Json) :
    Option UpdatedTokenRequest := do
  let field ← j.fields ["resource_token", "justification"]
  let resourceToken ← required asStr (field "resource_token")
  let justification ← optional asStr (field "justification")
  return { resourceToken, justification }

/-- `InteractionCompletedBody {}` -/
def interactionCompletedFromJson (j : Json) : Option Unit :=
  (j.fields []).map fun _ => ()

inductive PendingPostBody where
  | clarification (r : ClarificationResponse)
  | claims (c : ClaimsSubmission)
  | updatedToken (r : UpdatedTokenRequest)
  | interactionCompleted

/-- An untagged enum is read as the first variant that accepts it. -/
def PendingPostBody.fromJson (j : Json) : Option PendingPostBody :=
  ((ClarificationResponse.fromJson j).map clarification).or <|
    ((ClaimsSubmission.fromJson j).map claims).or <|
      ((UpdatedTokenRequest.fromJson j).map updatedToken).or <|
        (interactionCompletedFromJson j).map fun _ => interactionCompleted

/-- `From<PendingPostBody> for PendingInput` -/
def PendingInput.ofBody : PendingPostBody → PendingInput
  | .clarification r => .clarificationResponse r.clarificationResponse
  | .claims c => .claimsSubmission c
  | .updatedToken r => .updatedToken r
  | .interactionCompleted => .interactionCompleted

/-- `u8::is_ascii_whitespace` -/
def isAsciiWhitespace (b : UInt8) : Bool :=
  b == 32 || b == 9 || b == 10 || b == 12 || b == 13

def parsePendingPostBody (cr : Crates) (body : Bytes) :
    AAuthResult PendingInput :=
  if body.isEmpty || body.all isAsciiWhitespace then
    .ok .interactionCompleted
  else do
    let wire ← (fromSlice cr PendingPostBody.fromJson body).okOr
      (.deferred .body)
    return .ofBody wire

/-! ## Protocol errors (`protocol/error.rs`) -/

namespace AAuthErrorCode

def asStr : AAuthErrorCode → String
  | invalidRequest => "invalid_request"
  | invalidAgentToken => "invalid_agent_token"
  | expiredAgentToken => "expired_agent_token"
  | invalidResourceToken => "invalid_resource_token"
  | expiredResourceToken => "expired_resource_token"
  | userUnreachable => "user_unreachable"
  | serverError => "server_error"
  | invalidSignature => "invalid_signature"
  | invalidScope => "invalid_scope"
  | denied => "denied"
  | abandoned => "abandoned"
  | expired => "expired"
  | invalidCode => "invalid_code"
  | slowDown => "slow_down"
  | invalidInput => "invalid_input"
  | invalidKey => "invalid_key"
  | unknownKey => "unknown_key"
  | invalidJwt => "invalid_jwt"
  | expiredJwt => "expired_jwt"
  | accessDenied => "access_denied"
  | userAbandoned => "user_abandoned"
  | interactionExpired => "interaction_expired"
  | temporarilyUnavailable => "temporarily_unavailable"
  | interactionUnavailable => "interaction_unavailable"
  | missionTerminated => "mission_terminated"
  | custom code => code

/-- The codes with a name of their own, as `from_wire` lists them. -/
def named : List AAuthErrorCode :=
  [invalidRequest, invalidAgentToken, expiredAgentToken,
    invalidResourceToken, expiredResourceToken, userUnreachable,
    serverError, invalidSignature, invalidScope, denied, abandoned, expired,
    invalidCode, slowDown, invalidInput, invalidKey, unknownKey, invalidJwt,
    expiredJwt, accessDenied, userAbandoned, interactionExpired,
    temporarilyUnavailable, interactionUnavailable, missionTerminated]

def fromWire (s : String) : AAuthErrorCode :=
  (named.find? (·.asStr == s)).getD (custom s)

end AAuthErrorCode

def AAuthProtocolError.toJson (e : AAuthProtocolError) : Json :=
  .obj ([("error", .str e.error.asStr)]
    ++ written "error_description" .str e.errorDescription
    ++ written "error_uri" .str e.errorUri)

def AAuthProtocolError.fromJson (j : Json) : Option AAuthProtocolError := do
  let field ← j.fields ["error", "error_description", "error_uri"]
  let code ← required asStr (field "error")
  let errorDescription ← optional asStr (field "error_description")
  let errorUri ← optional asStr (field "error_uri")
  return { error := .fromWire code, errorDescription, errorUri }

end Aauth
