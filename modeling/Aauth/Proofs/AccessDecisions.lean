import Aauth.Ref.AccessServer
import Aauth.Proofs.Store

/-!
# What the Access Server does with a decision

The counterpart of the Person Server's walk: three operations, no
federation, and a ruling that settles the reply and the record.
-/

namespace Aauth.Access

open Effect

section Decisions

variable {E : Type} {config : AccessServerConfig}
  {env : (o : AccessOp) → accessExt.Ans o → Prop} {t : Nat}
  {s : ServiceState AccessPendingContext} {id : String} {c : Call}

abbrev AccessMap := PendingMap AccessPendingContext

abbrev AccessChange := Change AccessPendingContext

abbrev FlowReply (E : Type) :=
  Except (AccessTokenServiceError E) AuthTokenFlowOutcome

@[simp] theorem wp_accessOp {o : AccessOp}
    {pre : ServiceState AccessPendingContext → (accessSig E).Op → Prop}
    {post : accessExt.Ans o → ServiceState AccessPendingContext → Prop} :
    wp (α := no_index (accessExt.Ans o)) (momentWorld (E := E) env t)
        pre (accessOp o) post s ↔
      pre s (.ext o) ∧ ∀ a, env o a → post a s := by
  rw [accessOp, wp_ext]

/-- Serving the call on these records at time `t`, the policy is asked
about a context and decides. -/
inductive Decided (env : (o : AccessOp) → accessExt.Ans o → Prop) (t : Nat)
    (m : AccessMap) : Call → AccessTokenContext → AccessTokenDecision →
      Prop where
  | exchanged {ctx : AccessTokenContext} {d : AccessTokenDecision} :
      env (.evaluate ctx) (.ok d) → Decided env t m (.exchangeToken ctx) ctx d
  | resumed {id : String} {input : PendingInput} {r : AccessPendingRecord}
      {d : AccessTokenDecision} : m.lookup id = some r →
      r.isExpired t = false →
      env (.resume (toTokenContext r.context) input) (.ok d) →
      Decided env t m (.resumePending id input) (toTokenContext r.context) d

/-- The effects a call may invoke: it asks the policy about the context
exchanged or a live record's, and mints only on a grant. -/
def Invokes (config : AccessServerConfig)
    (env : (o : AccessOp) → accessExt.Ans o → Prop) (t : Nat)
    (m : AccessMap) (c : Call) : AccessOp → Prop
  | .mintAccessAuthJwt iss aud agent agentJwk sub scope =>
      ∃ ctx grant, Decided env t m c ctx (.grant grant) ∧
        iss = config.accessServerUrl ∧ aud = config.resourceUrl ∧
        agent = ctx.agentClaims.identifier ∧
        agentJwk = ctx.agentClaims.cnf.jwk ∧ sub = some grant.sub ∧
        scope = (grant.scope <|> ctx.resourceClaims.scope)
  | .evaluate ctx => c = .exchangeToken ctx
  | .resume ctx input => ∃ id r, c = .resumePending id input ∧
      m.lookup id = some r ∧ r.isExpired t = false ∧
      ctx = toTokenContext r.context

/-! ## Rulings -/

/-- What a decision amounts to. -/
inductive Ruling where
  | failure (e : AAuthError)
  | token (body : TokenResponseBody)
  | denial (e : AAuthProtocolError)
  | deferral (requirement : DeferRequirement)

/-- The decision on `ctx` amounts to the ruling. -/
inductive Ruled (config : AccessServerConfig)
    (env : (o : AccessOp) → accessExt.Ans o → Prop)
    (ctx : AccessTokenContext) : AccessTokenDecision → Ruling → Prop where
  | failed {grant : AuthGrant} {e : AAuthError} :
      Ruled config env ctx (.grant grant) (.failure e)
  | minted {grant : AuthGrant} {jwt : String} :
      env (.mintAccessAuthJwt config.accessServerUrl config.resourceUrl
        ctx.agentClaims.identifier ctx.agentClaims.cnf.jwk (some grant.sub)
        (grant.scope <|> ctx.resourceClaims.scope)) (.ok jwt) →
      Ruled config env ctx (.grant grant)
        (.token { authToken := jwt, expiresIn := 3600 })
  | denied {e : AAuthProtocolError} : Ruled config env ctx (.deny e) (.denial e)
  | deferred {requirement : DeferRequirement} :
      Ruled config env ctx (.defer requirement) (.deferral requirement)

variable {ctx : AccessTokenContext} {d : AccessTokenDecision}

theorem mintAccessAuth_ruled {grant : AuthGrant}
    (hd : Decided env t s.records c ctx (.grant grant)) :
    wp (momentWorld env t) (OnExt (Invokes config env t s.records c))
      (mintAccessAuth (E := E) config grant ctx).run
      (fun r s' => s' = s ∧ match r with
        | .ok body => Ruled config env ctx (.grant grant) (.token body)
        | .error e => ∃ e', e = .aauth e' ∧
            Ruled config env ctx (.grant grant) (.failure e')) s := by
  simp only [mintAccessAuth, wp_mapErr, wp_bind_except, wp_accessOp,
    onExt_ext]
  refine ⟨⟨ctx, grant, hd, rfl, rfl, rfl, rfl, rfl, rfl⟩,
    fun answer ha => ?_⟩
  cases answer with
  | error e => exact ⟨trivial, e, rfl, .failed⟩
  | ok jwt => exact ⟨rfl, .minted ha⟩

/-- What the ruling on a record is answered with. -/
def Ruling.reply (config : AccessServerConfig) (id : String) :
    Ruling → FlowReply E
  | failure e => .error (.aauth e)
  | token body => .ok (.granted body)
  | denial e => .ok (.denied e)
  | deferral requirement => .ok (deferredAt config id requirement)

/-- What the ruling makes of the record it is about. -/
def Ruling.change (r : AccessPendingRecord) : Ruling → AccessChange
  | failure _ => .keep
  | token body => .write { r with snapshot := .complete (.authToken body) }
  | denial e => .write { r with snapshot := .complete (.error e) }
  | deferral requirement =>
      .write { r with snapshot := .ofRequirement requirement }

/-- A ruling on the record `r`, as a reply and a change. -/
def RuledOn (config : AccessServerConfig)
    (env : (o : AccessOp) → accessExt.Ans o → Prop) (id : String)
    (r : AccessPendingRecord) (ctx : AccessTokenContext)
    (d : AccessTokenDecision) (reply : FlowReply E)
    (ch : AccessChange) : Prop :=
  ∃ ruling, Ruled config env ctx d ruling ∧
    reply = ruling.reply config id ∧ ch = ruling.change r

variable {r : AccessPendingRecord} {P : AccessOp → Prop}

theorem complete_settles {R : FlowReply E → AccessChange → Prop}
    {o : PendingOutcome} {reply : AuthTokenFlowOutcome}
    (hr : s.records.lookup id = some r)
    (h : R (.ok reply) (.write { r with snapshot := .complete o })) :
    wp (momentWorld env t) (OnExt P)
      (do storeOp (PendingStore.complete id o)
          return reply : AccessTask E AuthTokenFlowOutcome).run
      (Settling R id s) s := by
  simp only [storeOp, wp_bind_except, wp_mapErr, wp_complete, onExt_store,
    true_and, Except.mapError, completed_of_lookup hr]
  exact ⟨_, h, rfl⟩

theorem applyAccessPendingDecision_ruled
    (hd : Decided env t s.records c ctx d)
    (hr : s.records.lookup id = some r) :
    wp (momentWorld env t) (OnExt (Invokes config env t s.records c))
      (applyAccessPendingDecision (E := E) config ctx id d).run
      (Settling (RuledOn config env id r ctx d) id s) s := by
  cases d with
  | grant grant =>
      refine wp_bind_except.mpr (wp_mono (fun answer s' h => ?_)
        (mintAccessAuth_ruled hd))
      obtain ⟨rfl, hb⟩ := h
      cases answer with
      | error e =>
          obtain ⟨e, rfl, hb⟩ := hb
          exact ⟨_, ⟨_, hb, rfl, rfl⟩, rfl⟩
      | ok body => exact complete_settles hr ⟨_, hb, rfl, rfl⟩
  | deny e => exact complete_settles hr ⟨_, .denied, rfl, rfl⟩
  | defer requirement =>
      simp only [applyAccessPendingDecision, updateAccessPendingDefer,
        storeOp, wp_bind_except, wp_mapErr, wp_load, hr, Except.mapError,
        wp_save, onExt_store, true_and]
      exact ⟨_, ⟨_, .deferred, rfl, rfl⟩, rfl⟩

/-! ## The calls -/

/-- `resume_pending` on a live record. -/
inductive Resumed (config : AccessServerConfig)
    (env : (o : AccessOp) → accessExt.Ans o → Prop) (id : String)
    (input : PendingInput) (r : AccessPendingRecord) :
    FlowReply E → AccessChange → Prop where
  | failed {e : PolicyError} :
      Resumed config env id input r (.error (.policy e)) .keep
  | decided {d : AccessTokenDecision} {reply : FlowReply E}
      {ch : AccessChange} :
      env (.resume (toTokenContext r.context) input) (.ok d) →
      RuledOn config env id r (toTokenContext r.context) d reply ch →
      Resumed config env id input r reply ch

theorem resumePending_resumed {input : PendingInput} :
    wp (momentWorld env t) (OnExt (Invokes config env t s.records
        (.resumePending id input)))
      (resumePending (E := E) config id input).run
      (Settling (OnRecord (.ok .gone) t id s.records
        (Resumed config env id input)) id s) s := by
  simp only [resumePending, storeOp, wp_bind_except, wp_mapErr, wp_load,
    Except.mapError, onExt_store, true_and]
  cases hl : s.records.lookup id with
  | none => exact ⟨.keep, .absent hl, rfl⟩
  | some r =>
      simp only [wp_bind_except, wp_liftProg, wp_systemNow, onExt_now,
        true_and]
      intro now hnow
      subst hnow
      cases hx : r.isExpired now with
      | true =>
          simp only [if_true, wp_bind_except, wp_liftProg, wp_remove,
            onExt_store, true_and]
          exact ⟨.erase, .expired hl hx, rfl⟩
      | false =>
          simp only [Bool.false_eq_true, if_false, wp_bind_except,
            wp_mapErr, wp_accessOp, onExt_ext]
          refine ⟨⟨id, r, rfl, hl, hx, rfl⟩, fun answer ha => ?_⟩
          cases answer with
          | error e => exact ⟨_, .live hl hx .failed, rfl⟩
          | ok d =>
              refine wp_mono (fun reply s' h => ?_)
                (applyAccessPendingDecision_ruled (.resumed hl hx ha) hl)
              obtain ⟨ch, h, hs⟩ := h
              exact ⟨ch, .live hl hx (.decided ha h), hs⟩

/-- What the ruling on an exchange leaves: a deferral opens a record. -/
inductive Concluded (config : AccessServerConfig) (t : Nat)
    (ctx : AccessTokenContext) (s : ServiceState AccessPendingContext) :
    Ruling → FlowReply E → ServiceState AccessPendingContext → Prop where
  | failure {e : AAuthError} :
      Concluded config t ctx s (.failure e) (.error (.aauth e)) s
  | token {body : TokenResponseBody} :
      Concluded config t ctx s (.token body) (.ok (.granted body)) s
  | denial {e : AAuthProtocolError} :
      Concluded config t ctx s (.denial e) (.ok (.denied e)) s
  | deferral {requirement : DeferRequirement} {id : String} :
      id ∉ s.issued →
      Concluded config t ctx s (.deferral requirement)
        (.ok (deferredAt config id requirement))
        { records := s.records.insert id (.new t id (toPending ctx)
            (.ofRequirement requirement) config.pendingTtlSecs),
          issued := id :: s.issued }

/-- How an exchange may end. -/
inductive ExchangeEnds (config : AccessServerConfig)
    (env : (o : AccessOp) → accessExt.Ans o → Prop) (t : Nat)
    (ctx : AccessTokenContext) (s : ServiceState AccessPendingContext) :
    FlowReply E → ServiceState AccessPendingContext → Prop where
  | failed {e : PolicyError} :
      ExchangeEnds config env t ctx s (.error (.policy e)) s
  | decided {d : AccessTokenDecision} {ruling : Ruling}
      {reply : FlowReply E} {s' : ServiceState AccessPendingContext} :
      env (.evaluate ctx) (.ok d) → Ruled config env ctx d ruling →
      Concluded config t ctx s ruling reply s' →
      ExchangeEnds config env t ctx s reply s'

theorem exchangeToken_ends :
    wp (momentWorld env t) (OnExt (Invokes config env t s.records
        (.exchangeToken ctx)))
      (exchangeToken (E := E) config ctx).run
      (ExchangeEnds config env t ctx s) s := by
  simp only [exchangeToken, wp_bind_except, wp_mapErr, wp_accessOp,
    onExt_ext]
  refine ⟨rfl, fun answer ha => ?_⟩
  cases answer with
  | error e => exact .failed
  | ok d =>
      cases d with
      | grant grant =>
          refine wp_bind_except.mpr (wp_mono (fun answer s' h => ?_)
            (mintAccessAuth_ruled (.exchanged ha)))
          obtain ⟨rfl, hb⟩ := h
          cases answer with
          | error e =>
              obtain ⟨e, rfl, hb⟩ := hb
              exact .decided ha hb .failure
          | ok body => exact .decided ha hb .token
      | deny e => exact .decided ha .denied .denial
      | defer requirement =>
          simp only [Except.mapError, applyAccessDecision,
            createDeferredAccessResponse, storeOp, wp_bind_except,
            wp_liftProg, wp_pendingIdBytes, wp_systemNow, wp_mapErr,
            wp_create, onExt_store, onExt_now, onExt_pendingIdBytes,
            true_and]
          intro bytes hfresh now hnow
          subst hnow
          exact .decided ha .deferred (.deferral hfresh)

/-- What serving a call at time `t` may answer and leave, decision by
decision. -/
def AccessServes (config : AccessServerConfig)
    (env : (o : AccessOp) → accessExt.Ans o → Prop) (t : Nat)
    (s : ServiceState AccessPendingContext) :
    (c : Call) → (service E config).Reply c →
      ServiceState AccessPendingContext → Prop
  | .exchangeToken ctx => ExchangeEnds config env t ctx s
  | .pollPending id => Settling (OnRecord (.ok .gone) t id s.records
      fun r reply ch =>
        reply = .ok (pollOutcomeFromSnapshot r.snapshot) ∧ ch = .keep) id s
  | .resumePending id input => Settling (OnRecord (.ok .gone) t id s.records
      (Resumed config env id input)) id s

theorem accessServes (c : Call) :
    wp (momentWorld env t) (OnExt (Invokes config env t s.records c))
      ((service E config).prog c) (AccessServes config env t s c) s := by
  cases c with
  | exchangeToken ctx => exact exchangeToken_ends
  | pollPending id =>
      refine wp_mapErr.mpr (wp_mono (fun reply s' h => ?_)
        pollAuthPending_reads)
      obtain ⟨ch, h, hs⟩ := h
      refine ⟨ch, ?_, hs⟩
      cases h with
      | absent hl => exact .absent hl
      | expired hl hx => exact .expired hl hx
      | live hl hx h =>
          obtain ⟨rfl, hch⟩ := h
          exact .live hl hx ⟨rfl, hch⟩
  | resumePending id input => exact resumePending_resumed

theorem accessServes_of_exec {c : Call} {reply : (service E config).Reply c}
    {s' : ServiceState AccessPendingContext}
    (hx : Exec (momentWorld env t) s ((service E config).prog c) reply s') :
    AccessServes config env t s c reply s' := hx.post (accessServes c)

end Decisions

end Aauth.Access
