import Aauth.Ref.AccessServer
import Aauth.Ref.PersonService

/-!
# The policies that ship (`aauth-policy/src/policies.rs`)

Each policy decides an exchange (`evaluate`) and an input to a pending
request (`resume`). A policy that wraps another one defers the exchange
and leaves the inputs to the wrapped policy. Where a policy draws a code,
the random bytes are an argument.
-/

namespace Aauth

def PolicyError.ofMessage (message : String) : PolicyError := ⟨message⟩

/-! ## The Person Server's -/

structure AlwaysGrantPersonPolicy where
  sub : String

structure ClarificationThenGrantPersonPolicy where
  sub : String
  question : String

/-- The decision of the policies on a request they are done with: grant
what the Person Server may grant itself, federate the rest. -/
def grantOrFederate (cr : Crates) (sub : String) (ctx : PersonTokenContext) :
    PersonTokenDecision :=
  if ctx.audienceIsPersonServer cr then
    .grant { sub, scope := ctx.resourceClaims.scope }
  else .federate

namespace AlwaysGrantPersonPolicy

def evaluate (cr : Crates) (policy : AlwaysGrantPersonPolicy)
    (ctx : PersonTokenContext) : Except PolicyError PersonTokenDecision :=
  .ok (grantOrFederate cr policy.sub ctx)

def resume (cr : Crates) (policy : AlwaysGrantPersonPolicy)
    (ctx : PersonTokenContext) :
    PendingInput → Except PolicyError PersonTokenDecision
  | .interactionCompleted | .clarificationResponse _ => policy.evaluate cr ctx
  | .cancelled => .ok (.deny requestCancelled)
  | .claimsSubmission _ => .error (.ofMessage "claims submission not expected")
  | .updatedToken _ => policy.evaluate cr ctx

end AlwaysGrantPersonPolicy

namespace ClarificationThenGrantPersonPolicy

def evaluate (policy : ClarificationThenGrantPersonPolicy)
    (_ctx : PersonTokenContext) : Except PolicyError PersonTokenDecision :=
  .ok (.defer (.clarification policy.question none))

def resume (cr : Crates) (policy : ClarificationThenGrantPersonPolicy)
    (ctx : PersonTokenContext) :
    PendingInput → Except PolicyError PersonTokenDecision
  | .clarificationResponse _ | .interactionCompleted =>
      .ok (grantOrFederate cr policy.sub ctx)
  | .cancelled => .ok (.deny requestCancelled)
  | .claimsSubmission _ => .error (.ofMessage "claims submission not expected")
  | .updatedToken _ => .ok (grantOrFederate cr policy.sub ctx)

end ClarificationThenGrantPersonPolicy

/-- The shipped policies of the Person Server, wrapped to any depth.
`deferInteraction` is `DeferInteractionPersonPolicy`. -/
inductive PersonTokenPolicy where
  | alwaysGrant (policy : AlwaysGrantPersonPolicy)
  | clarificationThenGrant (policy : ClarificationThenGrantPersonPolicy)
  | deferInteraction (inner : PersonTokenPolicy) (interactionUrl : String)

namespace PersonTokenPolicy

def evaluate (cr : Crates) (ctx : PersonTokenContext) (buf : Bytes) :
    PersonTokenPolicy → Except PolicyError PersonTokenDecision
  | alwaysGrant policy => policy.evaluate cr ctx
  | clarificationThenGrant policy => policy.evaluate ctx
  | deferInteraction _ interactionUrl =>
      .ok (.defer (.interaction interactionUrl (generateCode buf)))

def resume (cr : Crates) (ctx : PersonTokenContext) (input : PendingInput) :
    PersonTokenPolicy → Except PolicyError PersonTokenDecision
  | alwaysGrant policy => policy.resume cr ctx input
  | clarificationThenGrant policy => policy.resume cr ctx input
  | deferInteraction inner _ => inner.resume cr ctx input

/-- The policy's answers are this policy's. -/
structure Governs (cr : Crates) (policy : PersonTokenPolicy)
    (env : (o : PersonOp) → personExt.Ans o → Prop) : Prop where
  evaluate : ∀ ctx a, env (.evaluate ctx) a →
    ∃ buf, a = policy.evaluate cr ctx buf
  resume : ∀ ctx input a, env (.resume ctx input) a →
    a = policy.resume cr ctx input

end PersonTokenPolicy

/-! ## The Access Server's -/

structure AlwaysGrantAccessPolicy where
  sub : String

structure ClarificationThenGrantAccessPolicy where
  sub : String
  question : String

structure DeferClaimsAccessPolicy where
  sub : String
  requiredClaims : List String

structure DeferApprovalAccessPolicy where
  sub : String

/-- The grant of a policy that is done with a request. -/
def scopeGrant (sub : String) (ctx : AccessTokenContext) :
    AccessTokenDecision :=
  .grant { sub, scope := ctx.resourceClaims.scope }

namespace AlwaysGrantAccessPolicy

def evaluate (policy : AlwaysGrantAccessPolicy) (ctx : AccessTokenContext) :
    Except PolicyError AccessTokenDecision :=
  .ok (scopeGrant policy.sub ctx)

def resume (policy : AlwaysGrantAccessPolicy) (ctx : AccessTokenContext) :
    PendingInput → Except PolicyError AccessTokenDecision
  | .interactionCompleted | .clarificationResponse _ => policy.evaluate ctx
  | .cancelled => .ok (.deny requestCancelled)
  | .claimsSubmission _ => policy.evaluate ctx
  | .updatedToken _ => policy.evaluate ctx

end AlwaysGrantAccessPolicy

namespace ClarificationThenGrantAccessPolicy

def evaluate (policy : ClarificationThenGrantAccessPolicy)
    (_ctx : AccessTokenContext) : Except PolicyError AccessTokenDecision :=
  .ok (.defer (.clarification policy.question none))

def resume (policy : ClarificationThenGrantAccessPolicy)
    (ctx : AccessTokenContext) :
    PendingInput → Except PolicyError AccessTokenDecision
  | .clarificationResponse _ | .interactionCompleted =>
      .ok (scopeGrant policy.sub ctx)
  | .cancelled => .ok (.deny requestCancelled)
  | .claimsSubmission _ => .error (.ofMessage "claims submission not expected")
  | .updatedToken _ => .ok (scopeGrant policy.sub ctx)

end ClarificationThenGrantAccessPolicy

namespace DeferClaimsAccessPolicy

def evaluate (policy : DeferClaimsAccessPolicy) (_ctx : AccessTokenContext) :
    Except PolicyError AccessTokenDecision :=
  .ok (.defer (.claims policy.requiredClaims))

def resume (policy : DeferClaimsAccessPolicy) (ctx : AccessTokenContext) :
    PendingInput → Except PolicyError AccessTokenDecision
  | .claimsSubmission _ | .interactionCompleted | .updatedToken _ =>
      .ok (scopeGrant policy.sub ctx)
  | .cancelled => .ok (.deny requestCancelled)
  | .clarificationResponse _ =>
      .error (.ofMessage "clarification not expected")

end DeferClaimsAccessPolicy

namespace DeferApprovalAccessPolicy

def evaluate (_policy : DeferApprovalAccessPolicy)
    (_ctx : AccessTokenContext) : Except PolicyError AccessTokenDecision :=
  .ok (.defer .approval)

def resume (policy : DeferApprovalAccessPolicy) (ctx : AccessTokenContext) :
    PendingInput → Except PolicyError AccessTokenDecision
  | .interactionCompleted => .ok (scopeGrant policy.sub ctx)
  | .cancelled => .ok (.deny requestCancelled)
  | _ => .ok (scopeGrant policy.sub ctx)

end DeferApprovalAccessPolicy

/-- The shipped policies of the Access Server, wrapped to any depth.
`deferInteraction` is `DeferInteractionAccessPolicy`. -/
inductive AccessTokenPolicy where
  | alwaysGrant (policy : AlwaysGrantAccessPolicy)
  | clarificationThenGrant (policy : ClarificationThenGrantAccessPolicy)
  | deferClaims (policy : DeferClaimsAccessPolicy)
  | deferApproval (policy : DeferApprovalAccessPolicy)
  | deferInteraction (inner : AccessTokenPolicy) (interactionUrl : String)

namespace AccessTokenPolicy

def evaluate (ctx : AccessTokenContext) (buf : Bytes) :
    AccessTokenPolicy → Except PolicyError AccessTokenDecision
  | alwaysGrant policy => policy.evaluate ctx
  | clarificationThenGrant policy => policy.evaluate ctx
  | deferClaims policy => policy.evaluate ctx
  | deferApproval policy => policy.evaluate ctx
  | deferInteraction _ interactionUrl =>
      .ok (.defer (.interaction interactionUrl (generateCode buf)))

def resume (ctx : AccessTokenContext) (input : PendingInput) :
    AccessTokenPolicy → Except PolicyError AccessTokenDecision
  | alwaysGrant policy => policy.resume ctx input
  | clarificationThenGrant policy => policy.resume ctx input
  | deferClaims policy => policy.resume ctx input
  | deferApproval policy => policy.resume ctx input
  | deferInteraction inner _ => inner.resume ctx input

/-- The policy's answers are this policy's. -/
structure Governs (policy : AccessTokenPolicy)
    (env : (o : AccessOp) → accessExt.Ans o → Prop) : Prop where
  evaluate : ∀ ctx a, env (.evaluate ctx) a →
    ∃ buf, a = policy.evaluate ctx buf
  resume : ∀ ctx input a, env (.resume ctx input) a →
    a = policy.resume ctx input

end AccessTokenPolicy

end Aauth
