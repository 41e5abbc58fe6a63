import Aauth.Proofs.AccessDecisions

/-!
# What each operation of the Access Server can do

The counterpart of the Person Server's relations. The Access Server keeps
its records under the context they were created with, and every token it
grants it minted itself.
-/

namespace Aauth.Access

open Effect

section Steps

variable {E : Type} {config : AccessServerConfig}
  {env : (o : AccessOp) → accessExt.Ans o → Prop} {t : Nat}
  {s : ServiceState AccessPendingContext} {id : String}

/-- A token the Access Server minted for an agent. -/
inductive Issued (config : AccessServerConfig)
    (env : (o : AccessOp) → accessExt.Ans o → Prop) (agent : AgentClaims) :
    TokenResponseBody → Prop where
  | minted {sub jwt : String} {scope : Option String} {expiresIn : Nat} :
      env (.mintAccessAuthJwt config.accessServerUrl config.resourceUrl
        agent.identifier agent.cnf.jwk (some sub) scope) (.ok jwt) →
      Issued config env agent { authToken := jwt, expiresIn := expiresIn }

theorem Ruled.issued {ctx : AccessTokenContext} {d : AccessTokenDecision}
    {body : TokenResponseBody} (h : Ruled config env ctx d (.token body)) :
    Issued config env ctx.agentClaims body := by
  cases h with
  | minted hm => exact .minted hm

/-! ## Deciding a live record -/

/-- How a call that found the live record `r` under `id` may end. -/
inductive Settled (config : AccessServerConfig)
    (env : (o : AccessOp) → accessExt.Ans o → Prop) (id : String)
    (m : PendingMap AccessPendingContext) (r : AccessPendingRecord) :
    FlowReply E → PendingMap AccessPendingContext → Prop where
  | failed {e : AccessTokenServiceError E} :
      Settled config env id m r (.error e) m
  | granted {body : TokenResponseBody} :
      Issued config env r.context.agentClaims body →
      Settled config env id m r (.ok (.granted body))
        (m.insert id { r with snapshot := .complete (.authToken body) })
  | denied {e : AAuthProtocolError} :
      Settled config env id m r (.ok (.denied e))
        (m.insert id { r with snapshot := .complete (.error e) })
  | deferred {requirement : DeferRequirement} :
      Settled config env id m r (.ok (deferredAt config id requirement))
        (m.insert id { r with snapshot := .ofRequirement requirement })

theorem Resumed.settled {m : AccessMap} {r : AccessPendingRecord}
    {reply : FlowReply E} {ch : AccessChange} {input : PendingInput}
    (h : Resumed config env id input r reply ch) :
    Settled config env id m r reply (ch.apply id m) := by
  cases h with
  | failed => exact .failed
  | decided _ h =>
      obtain ⟨ruling, hr, rfl, rfl⟩ := h
      cases ruling with
      | failure e => exact .failed
      | token body => exact .granted hr.issued
      | denial e => exact .denied
      | deferral requirement => exact .deferred

theorem Settled.touched {m m' : PendingMap AccessPendingContext}
    {r : AccessPendingRecord} {reply : FlowReply E}
    (hl : m.lookup id = some r)
    (h : Settled config env id m r reply m') : Touched id m m' := by
  cases h with
  | failed => exact .same
  | granted _ => exact .written hl
  | denied => exact .written hl
  | deferred => exact .written hl

/-! ## Exchanging a token -/

/-- How an exchange may end. -/
inductive Exchanged (config : AccessServerConfig)
    (env : (o : AccessOp) → accessExt.Ans o → Prop) (t : Nat)
    (ctx : AccessTokenContext) (s : ServiceState AccessPendingContext) :
    FlowReply E → ServiceState AccessPendingContext → Prop where
  | failed {e : AccessTokenServiceError E} :
      Exchanged config env t ctx s (.error e) s
  | denied {e : AAuthProtocolError} :
      Exchanged config env t ctx s (.ok (.denied e)) s
  | granted {body : TokenResponseBody} :
      Issued config env ctx.agentClaims body →
      Exchanged config env t ctx s (.ok (.granted body)) s
  | created {id : String} {requirement : DeferRequirement} :
      id ∉ s.issued →
      Exchanged config env t ctx s
        (.ok (deferredAt config id requirement))
        { records := s.records.insert id (.new t id (toPending ctx)
            (.ofRequirement requirement) config.pendingTtlSecs),
          issued := id :: s.issued }

theorem ExchangeEnds.exchanged {ctx : AccessTokenContext}
    {reply : FlowReply E} {s' : ServiceState AccessPendingContext}
    (h : ExchangeEnds config env t ctx s reply s') :
    Exchanged config env t ctx s reply s' := by
  cases h with
  | failed => exact .failed
  | decided _ hr hc =>
      cases hc with
      | failure => exact .failed
      | token => exact .granted hr.issued
      | denial => exact .denied
      | deferral hid => exact .created hid

/-! ## All three -/

/-- What serving a call at time `t` may answer and leave. -/
def AccessStep (config : AccessServerConfig)
    (env : (o : AccessOp) → accessExt.Ans o → Prop) (t : Nat)
    (s : ServiceState AccessPendingContext) :
    (c : Call) → (service E config).Reply c →
      ServiceState AccessPendingContext → Prop
  | .exchangeToken ctx => Exchanged config env t ctx s
  | .pollPending id => Keeps (Polled _ t id s.records) s
  | .resumePending id _ => Keeps (OnLive (.ok .gone) t id s.records
      (Settled config env id s.records)) s

theorem accessStep_of_exec {c : Call} {reply : (service E config).Reply c}
    {s' : ServiceState AccessPendingContext}
    (hx : Exec (momentWorld env t) s ((service E config).prog c) reply s') :
    AccessStep config env t s c reply s' := by
  have h := accessServes_of_exec hx
  cases c with
  | exchangeToken ctx => exact h.exchanged
  | pollPending id =>
      refine Settling.keeps (fun h => ?_) h
      obtain ⟨hreply, rfl⟩ := h
      exact ⟨hreply, rfl⟩
  | resumePending id input => exact Settling.keeps (fun h => h.settled) h

end Steps

end Aauth.Access
