import Aauth.Lib.Service
import Aauth.Ref.PersonServer
import Aauth.Ref.ResourceLayer

/-!
# The resource's consent service (`aauth-policy/src/resource`)

`PolicyResourceAccessService`: a resource that manages access itself asks
its policy, hands out opaque tokens and keeps what it put off in a pending
store. The opaque store is an effect.
-/

namespace Aauth

open Effect

structure ResourceAccessConfig where
  interactionUrl : String
  pendingBaseUrl : String
  pendingPath : String
  pendingTtlSecs : Nat
deriving DecidableEq, Repr

structure ResourcePendingContext where
  resourceUrl : String
  agentClaims : AgentClaims
  scope : Option String
deriving DecidableEq, Repr

abbrev ResourcePendingRecord := PendingRecord ResourcePendingContext

inductive ResourceConsentDecision where
  | grantOpaque
  | deny (e : AAuthProtocolError)
  | defer (requirement : DeferRequirement)
deriving DecidableEq, Repr

inductive ResourceConsentFlowOutcome where
  | grantOpaque (token : String)
  | deferred (defer : DeferCreated)
  | denied (e : AAuthProtocolError)
deriving DecidableEq, Repr

/-! ## Effects -/

inductive ResourceOp where
  | evaluate (ctx : ResourceAccessContext)
  | issue (agentId : String)
  | codeBytes

abbrev resourceExt : Sig where
  Op := ResourceOp
  Ans
    | .evaluate _ => Except PolicyError ResourceConsentDecision
    | .issue _ => String
    | .codeBytes => Bytes

abbrev resourceSig (E : Type) : Sig :=
  serviceSig E ResourcePendingContext resourceExt

inductive ResourceAccessServiceError (E : Type) where
  | pendingStore (e : E)
  | policy (e : PolicyError)

abbrev ResourceTask (E α : Type) :=
  ExceptT (ResourceAccessServiceError E) (Prog (resourceSig E)) α

namespace Resource

section Service

variable {E : Type}

def resourceOp (o : ResourceOp) : Prog (resourceSig E) (resourceExt.Ans o) :=
  .call (.ext o) .ret

/-! ## The service (`service.rs`) -/

/-- An interaction with nothing filled in gets the configured URL and a
code. -/
def fillInteraction (config : ResourceAccessConfig) :
    DeferRequirement → ResourceTask E DeferRequirement
  | .interaction url code => do
      let url := if url.isEmpty then config.interactionUrl else url
      if code.isEmpty then
        return .interaction url
          (generateCode (← liftProg (resourceOp .codeBytes)))
      else return .interaction url code
  | requirement => return requirement

def createDeferredResourceResponse (config : ResourceAccessConfig)
    (ctx : ResourceAccessContext) (requirement : DeferRequirement) :
    ResourceTask E ResourceConsentFlowOutcome := do
  let requirement ← fillInteraction config requirement
  let id := generatePendingId (← liftProg pendingIdBytes)
  let record := PendingRecord.new (← liftProg systemNow) id
    { resourceUrl := ctx.resourceUrl, agentClaims := ctx.agentClaims,
      scope := ctx.scope : ResourcePendingContext }
    (.ofRequirement requirement) config.pendingTtlSecs
  let _ ← mapErr .pendingStore (PendingStore.create record)
  return .deferred { location := pendingLocation config.pendingBaseUrl
                       config.pendingPath id,
                     requirement }

def consentForAgent (config : ResourceAccessConfig)
    (ctx : ResourceAccessContext) :
    ResourceTask E ResourceConsentFlowOutcome := do
  match ← mapErr .policy (resourceOp (.evaluate ctx)) with
  | .grantOpaque => do
      let token ← liftProg (resourceOp (.issue ctx.agentClaims.identifier))
      return .grantOpaque token
  | .deny err => return .denied err
  | .defer requirement =>
      createDeferredResourceResponse config ctx requirement

/-- A token is handed out by a poll once; the record is removed with it. -/
def handedOut : AuthTokenPollOutcome → Bool
  | .complete (.opaqueAccess _) | .complete (.authToken _) => true
  | .complete (.error _) | .pending _ | .gone => false

def pollPending (pendingId : String) :
    ResourceTask E AuthTokenPollOutcome := do
  let outcome ← mapErr .pendingStore (pollAuthPending pendingId).run
  if handedOut outcome then
    let _ ← liftProg (PendingStore.remove pendingId)
    return outcome
  else return outcome

end Service

inductive Call where
  | consentForAgent (ctx : ResourceAccessContext)
  | pollPending (pendingId : String)

/-- `PolicyResourceAccessService` -/
def service (E : Type) (config : ResourceAccessConfig) :
    Service (resourceSig E) where
  Call := Call
  Reply
    | .consentForAgent _ =>
        Except (ResourceAccessServiceError E) ResourceConsentFlowOutcome
    | .pollPending _ =>
        Except (ResourceAccessServiceError E) AuthTokenPollOutcome
  prog
    | .consentForAgent ctx => (consentForAgent config ctx).run
    | .pollPending id => (pollPending id).run

end Resource

end Aauth
