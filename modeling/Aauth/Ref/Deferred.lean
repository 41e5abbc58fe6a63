import Aauth.Ref.Crates

/-!
# Deferred responses (`aauth/src/deferred`, `interaction_code.rs`)

Requirements, snapshots and outcomes of pending requests, the interaction
codes users type, and the identifiers of pending records. Random bytes are
arguments: drawing them is an effect of the services.
-/

namespace Aauth

open Text

/-! ## Requirements and snapshots (`deferred/types.rs`) -/

inductive DeferRequirement where
  | interaction (url code : String)
  | clarification (question : String) (timeout : Option Nat)
  | claims (requiredClaims : List String)
  | approval
  | payment (location : String)
deriving DecidableEq, Repr

structure DeferCreated where
  location : String
  requirement : DeferRequirement
deriving DecidableEq, Repr

structure DeferWaiting where
  status : PendingStatus
  requirement : DeferRequirement
deriving DecidableEq, Repr

inductive PendingOutcome where
  | authToken (body : TokenResponseBody)
  | opaqueAccess (token : String)
  | error (e : AAuthProtocolError)
deriving DecidableEq, Repr

inductive PendingSnapshot where
  | waiting (status : PendingStatus) (requirement : DeferRequirement)
  | complete (outcome : PendingOutcome)
deriving DecidableEq, Repr

/-- `PendingSnapshot::waiting`: not yet interacting. -/
def PendingSnapshot.ofRequirement (r : DeferRequirement) : PendingSnapshot :=
  .waiting .pending r

/-- What the agent posts to a pending URL. -/
inductive PendingInput where
  | clarificationResponse (response : String)
  | claimsSubmission (claims : ClaimsSubmission)
  | updatedToken (request : UpdatedTokenRequest)
  | interactionCompleted
  | cancelled

def PendingBody.forWaiting (requirement : DeferRequirement)
    (status : PendingStatus) : AAuthResult PendingBody :=
  match requirement with
  | .clarification question timeout => .ok (.clarification
      { status, clarification := question, timeout, options := none })
  | .claims requiredClaims => .ok (.claims { status, requiredClaims })
  | .interaction _ _ | .approval => .ok (.status status)
  | .payment _ => .error (.deferred .paymentNotPendingBody)

/-! ## Outcomes (`deferred/outcome.rs`, `deferred/poll.rs`) -/

inductive AuthTokenFlowOutcome where
  | granted (body : TokenResponseBody)
  | deferred (defer : DeferCreated)
  | denied (e : AAuthProtocolError)
  | gone
deriving DecidableEq, Repr

inductive AuthTokenPollOutcome where
  | pending (waiting : DeferWaiting)
  | complete (outcome : PendingOutcome)
  | gone
deriving DecidableEq, Repr

def pollOutcomeFromSnapshot : PendingSnapshot → AuthTokenPollOutcome
  | .complete outcome => .complete outcome
  | .waiting status requirement => .pending { status, requirement }

structure ServerPollOptions where
  locationUrl : String
  maxPollDurationSecs : Option Nat
  preferWait : Option Nat
deriving DecidableEq, Repr

inductive ServerPollOutcome where
  | authToken (body : TokenResponseBody)
  | deferred (requirement : DeferRequirement) (locationUrl : String)
  | error (e : AAuthProtocolError)
  | gone
deriving DecidableEq, Repr

/-! ## Pending identifiers -/

def hexDigit (n : Nat) : Char := "0123456789abcdef".toList.getD n '0'

/-- `generate_pending_id`, from its sixteen random bytes. -/
def generatePendingId (bytes : Bytes) : String :=
  String.ofList (bytes.flatMap fun b =>
    [hexDigit (b.toNat / 16), hexDigit (b.toNat % 16)])

def pendingLocation (baseUrl pendingPath id : String) : String :=
  trimEndMatches baseUrl '/' ++ "/" ++ trimStartMatches pendingPath '/' ++
    "/" ++ id

/-! ## Interaction codes (`interaction_code.rs`) -/

def CROCKFORD32 : List Char := "0123456789ABCDEFGHJKMNPQRSTVWXYZ".toList

/-- `generate_code`, from its five random bytes. -/
def generateCode (buf : Bytes) : String :=
  let n := buf.foldl (fun n b => n * 256 + b.toNat) 0
  let raw := (List.range 8).map fun i =>
    CROCKFORD32.getD ((n >>> ((7 - i) * 5)) % 32) '0'
  String.ofList (raw.take 4 ++ '-' :: raw.drop 4)

/-- Splits a text at a byte offset; `none` when the offset lies past the
end or inside a character, where slicing panics. -/
def splitAtByte : List Char → Nat → Option (List Char × List Char)
  | s, 0 => some ([], s)
  | [], _ + 1 => none
  | c :: s, n + 1 =>
      if c.utf8Size ≤ n + 1 then
        (splitAtByte s (n + 1 - c.utf8Size)).map fun q => (c :: q.1, q.2)
      else none

/-- The code without hyphens, upper-cased, with look-alikes folded. -/
def bareCode (cr : Crates) (code : String) : List Char :=
  let upper := cr.toUppercase
    (String.ofList (code.toList.filter (· != '-')))
  upper.toList.map fun c =>
    if c == 'I' || c == 'L' then '1' else if c == 'O' then '0' else c

/-- `canonicalize_code`; `none` is a panic of one of its two slices. -/
def canonicalizeCode (cr : Crates) (code : String) : Option String :=
  let bare := bareCode cr code
  let len := (String.ofList bare).utf8ByteSize
  (splitAtByte bare (min 4 len)).bind fun front =>
    (splitAtByte front.2 (min 8 len - min 4 len)).map fun back =>
      String.ofList (front.1 ++ '-' :: back.1)

-- the services only compare canonical forms and never compute one
attribute [irreducible] canonicalizeCode

end Aauth
