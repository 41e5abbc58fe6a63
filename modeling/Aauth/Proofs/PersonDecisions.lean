import Aauth.Ref.PersonService
import Aauth.Proofs.Store

/-!
# What the Person Server does with a decision

Each of the five operations, walked through once. A call that gets as far
as the policy is decided; what a decision amounts to before anything is
stored is a *ruling*, and the ruling settles both the reply and the
record. The walk also says which effects an operation may invoke, so that
what never happens can be read off as well as what does.
-/

namespace Aauth

open Text Effect

section Decisions

variable {E : Type} {cr : Crates} {config : PersonServerConfig}
  {env : (o : PersonOp) → personExt.Ans o → Prop} {t : Nat}
  {s : ServiceState PersonPendingContext} {id agentJwt : String}
  {c : PersonCall}

abbrev PersonMap := PendingMap PersonPendingContext

abbrev PersonChange := Change PersonPendingContext

abbrev FlowReply (E : Type) :=
  Except (PersonTokenServiceError E) PersonTokenFlowOutcome

/-! ## Steps -/

@[simp] theorem wp_personOp {o : PersonOp}
    {pre : ServiceState PersonPendingContext → (personSig E).Op → Prop}
    {post : personExt.Ans o → ServiceState PersonPendingContext → Prop} :
    wp (α := no_index (personExt.Ans o)) (momentWorld (E := E) env t)
        pre (personOp o) post s ↔
      pre s (.ext o) ∧ ∀ a, env o a → post a s := by
  rw [personOp, wp_ext]

@[simp] theorem wp_liftExcept {S : Sig} {σ ε α : Type} {W : World S σ}
    {pre : σ → S.Op → Prop} {x : Except ε α}
    {post : Except ε α → σ → Prop} {s : σ} :
    wp W pre (liftExcept x).run post s ↔ post x s := Iff.rfl

/-- A pure step either ends the call or hands its value on. -/
theorem wp_liftExcept_bind {S : Sig} {σ ε α β : Type} {W : World S σ}
    {pre : σ → S.Op → Prop} {x : Except ε α}
    {f : α → ExceptT ε (Prog S) β} {post : Except ε β → σ → Prop} {s : σ} :
    wp W pre (liftExcept x >>= f).run post s ↔
      (∀ e, x = .error e → post (.error e) s) ∧
        ∀ a, x = .ok a → wp W pre (f a).run post s := by
  rw [wp_bind_except, wp_liftExcept]
  cases x with
  | error e => exact ⟨fun h => ⟨fun _ h' => by cases h'; exact h, nofun⟩,
      fun h => h.1 e rfl⟩
  | ok a => exact ⟨fun h => ⟨nofun, fun _ h' => by cases h'; exact h⟩,
      fun h => h.2 a rfl⟩

/-! ## What a call is decided on -/

/-- Serving the call on these records at time `t`, the policy is asked
about a context and decides. The string is the agent token that came with
the context. -/
inductive Decided (env : (o : PersonOp) → personExt.Ans o → Prop) (t : Nat)
    (m : PersonMap) : PersonCall → PersonTokenContext → String →
      PersonTokenDecision → Prop where
  | exchanged {ctx : PersonTokenContext} {agentJwt : String}
      {d : PersonTokenDecision} :
      ctx.resourceClaims.interaction = none → env (.evaluate ctx) (.ok d) →
      Decided env t m (.exchangeToken ctx agentJwt) ctx agentJwt d
  | resumed {id : String} {input : PendingInput} {r : PersonPendingRecord}
      {d : PersonTokenDecision} : m.lookup id = some r →
      r.isExpired t = false → r.context.federation = none →
      env (.resume r.context.toTokenContext input) (.ok d) →
      Decided env t m (.resumePending id input) r.context.toTokenContext
        r.context.agentToken d
  | calledBack {id : String} {r : PersonPendingRecord}
      {d : PersonTokenDecision} : m.lookup id = some r →
      r.isExpired t = false → r.context.federation = none →
      env (.evaluate { r.context.toTokenContext with
        resourceClaims.interaction := none }) (.ok d) →
      Decided env t m (.resolveInteractionCallback id none)
        { r.context.toTokenContext with resourceClaims.interaction := none }
        r.context.agentToken d

/-- The request a federation sends to an Access Server. -/
def federationRequest (resourceToken agentJwt : String) :
    AccessTokenExchangeRequest where
  resourceToken := resourceToken
  agentToken := agentJwt
  upstreamToken := none
  subagentToken := none

/-- The effects a call may invoke: it asks the policy about the context
exchanged or a live record's, mints only on a grant, turns to an Access
Server only on a decision to federate, and posts to one only for a live
record that is federated. -/
def Invokes (config : PersonServerConfig)
    (env : (o : PersonOp) → personExt.Ans o → Prop) (t : Nat)
    (m : PersonMap) (c : PersonCall) : PersonOp → Prop
  | .mintPersonAuthJwt iss aud agent agentJwk sub scope =>
      ∃ ctx agentJwt grant,
        Decided env t m c ctx agentJwt (.grant grant) ∧
        iss = config.personServerUrl ∧ aud = config.resourceUrl ∧
        agent = ctx.agentClaims.identifier ∧
        agentJwk = ctx.agentClaims.cnf.jwk ∧ sub = some grant.sub ∧
        scope = grant.scope
  | .fetchMetadata _ =>
      ∃ ctx agentJwt, Decided env t m c ctx agentJwt .federate
  | .exchangeToken _ request => ∃ ctx agentJwt,
      Decided env t m c ctx agentJwt .federate ∧
        request = federationRequest ctx.exchangeRequest.resourceToken agentJwt
  | .resumePending url input => ∃ id r fed, c = .resumePending id input ∧
      m.lookup id = some r ∧ r.isExpired t = false ∧
      r.context.federation = some fed ∧ url = fed.asPendingUrl
  | .pollPending _ _ => ∃ id input r fed, c = .resumePending id input ∧
      m.lookup id = some r ∧ r.isExpired t = false ∧
      r.context.federation = some fed
  | .resume ctx input => ∃ id r, c = .resumePending id input ∧
      m.lookup id = some r ∧ r.isExpired t = false ∧
      r.context.federation = none ∧ ctx = r.context.toTokenContext
  | .evaluate ctx => (∃ agentJwt, c = .exchangeToken ctx agentJwt) ∨
      ∃ id r, c = .resolveInteractionCallback id none ∧
        m.lookup id = some r ∧ r.isExpired t = false ∧
        r.context.federation = none ∧
        ctx = { r.context.toTokenContext with
          resourceClaims.interaction := none }
  | .codeBytes | .verifyEnv | .panic => True

/-! ## Rulings -/

/-- The token of an Access Server was checked: it is by the expected
issuer, for the configured resource and for the agent of `agentJwt`. -/
def Accepted (cr : Crates) (config : PersonServerConfig)
    (env : (o : PersonOp) → personExt.Ans o → Prop) (agentJwt iss : String)
    (body : TokenResponseBody) : Prop :=
  ∃ venv, env .verifyEnv venv ∧
    verifyFederatedAuthToken cr venv body.authToken iss config.resourceUrl
      agentJwt = .ok ()

/-- What a decision amounts to. -/
inductive Ruling where
  | failure (e : AAuthError)
  | unauthorized
  | token (body : TokenResponseBody)
  | denial (e : AAuthProtocolError)
  | deferral (requirement : DeferRequirement)
      (federation : Option FederationPendingState)

/-- The Access Server a resource token is for. -/
def ForServer (cr : Crates) (resourceToken url : String) : Prop :=
  ∃ rc, ParsedToken.parse cr resourceToken = .ok (.resource rc) ∧
    url = trimEndMatches rc.aud '/'

/-- The decision on `ctx` amounts to the ruling. -/
inductive Ruled (cr : Crates) (config : PersonServerConfig)
    (env : (o : PersonOp) → personExt.Ans o → Prop)
    (ctx : PersonTokenContext) (agentJwt : String) :
    PersonTokenDecision → Ruling → Prop where
  | failed {grant : AuthGrant} {e : AAuthError} :
      Ruled cr config env ctx agentJwt (.grant grant) (.failure e)
  | minted {grant : AuthGrant} {jwt : String} :
      env (.mintPersonAuthJwt config.personServerUrl config.resourceUrl
        ctx.agentClaims.identifier ctx.agentClaims.cnf.jwk (some grant.sub)
        grant.scope) (.ok jwt) →
      Ruled cr config env ctx agentJwt (.grant grant)
        (.token { authToken := jwt, expiresIn := 3600 })
  | unauthorized :
      Ruled cr config env ctx agentJwt .federate .unauthorized
  | accepted {url endpoint : String} {body : TokenResponseBody} :
      ForServer cr ctx.exchangeRequest.resourceToken url →
      env (.exchangeToken endpoint (federationRequest
        ctx.exchangeRequest.resourceToken agentJwt)) (.ok (.complete body)) →
      Accepted cr config env agentJwt url body →
      Ruled cr config env ctx agentJwt .federate (.token body)
  | federated {url endpoint asPendingUrl : String}
      {requirement : DeferRequirement} :
      ForServer cr ctx.exchangeRequest.resourceToken url →
      env (.exchangeToken endpoint (federationRequest
        ctx.exchangeRequest.resourceToken agentJwt))
        (.ok (.deferred requirement asPendingUrl)) →
      Ruled cr config env ctx agentJwt .federate
        (.deferral requirement (some ⟨url, asPendingUrl⟩))
  | denied {e : AAuthProtocolError} :
      Ruled cr config env ctx agentJwt (.deny e) (.denial e)
  | deferred {requirement : DeferRequirement} :
      Ruled cr config env ctx agentJwt (.defer requirement)
        (.deferral requirement none)

variable {ctx : PersonTokenContext} {d : PersonTokenDecision}

variable (cr) in
theorem mintGrant_ruled {grant : AuthGrant}
    (hd : Decided env t s.records c ctx agentJwt (.grant grant)) :
    wp (momentWorld env t) (OnExt (Invokes config env t s.records c))
      (mintGrant (E := E) config ctx grant).run
      (fun r s' => s' = s ∧ match r with
        | .ok body => Ruled cr config env ctx agentJwt (.grant grant)
            (.token body)
        | .error e => ∃ e', e = .aauth e' ∧
            Ruled cr config env ctx agentJwt (.grant grant) (.failure e'))
      s := by
  simp only [mintGrant, mintPersonAuth, wp_mapErr, wp_bind_except,
    wp_personOp, onExt_ext]
  refine ⟨⟨ctx, agentJwt, grant, hd, rfl, rfl, rfl, rfl, rfl, rfl⟩,
    fun answer ha => ?_⟩
  cases answer with
  | error e => exact ⟨trivial, e, rfl, .failed⟩
  | ok jwt => exact ⟨rfl, .minted ha⟩

variable (config) in
theorem verifyFederated_accepted {P : PersonOp → Prop}
    {body : TokenResponseBody} {iss : String} (hP : P .verifyEnv) :
    wp (momentWorld (E := E) env t) (OnExt P)
      (verifyFederated cr body.authToken iss config.resourceUrl agentJwt).run
      (fun r s' => s' = s ∧
        (r = .ok () → Accepted cr config env agentJwt iss body)) s := by
  simp only [verifyFederated, wp_bind_except, wp_liftProg, wp_personOp,
    wp_liftExcept, onExt_ext]
  exact ⟨hP, fun venv hv => ⟨trivial, fun h => ⟨venv, hv, h⟩⟩⟩

/-- How a federation may end. -/
def FederationRuled (cr : Crates) (config : PersonServerConfig)
    (env : (o : PersonOp) → personExt.Ans o → Prop)
    (ctx : PersonTokenContext) (agentJwt : String) :
    AAuthResult FederationOutcome → Prop
  | .error _ => True
  | .ok (.complete body) =>
      Ruled cr config env ctx agentJwt .federate (.token body)
  | .ok (.deferred requirement asPendingUrl url) =>
      Ruled cr config env ctx agentJwt .federate
        (.deferral requirement (some ⟨url, asPendingUrl⟩))

theorem federateToAccessServer_ruled
    (hd : Decided env t s.records c ctx agentJwt .federate) :
    wp (momentWorld env t) (OnExt (Invokes config env t s.records c))
      (federateToAccessServer (E := E) cr config
        ctx.exchangeRequest.resourceToken agentJwt).run
      (fun r s' => s' = s ∧ FederationRuled cr config env ctx agentJwt r)
      s := by
  refine wp_liftExcept_bind.mpr ⟨fun e _ => ⟨rfl, trivial⟩,
    fun parsed hp => ?_⟩
  refine wp_liftExcept_bind.mpr ⟨fun e _ => ⟨rfl, trivial⟩,
    fun claims hc => ?_⟩
  have hurl : ForServer cr ctx.exchangeRequest.resourceToken
      (trimEndMatches claims.aud '/') := by
    refine ⟨claims, ?_, rfl⟩
    cases parsed with
    | agent _ | auth _ => cases hc
    | resource rc =>
        cases hc
        exact hp
  rw [wp_bind_except, wp_mapErr, wp_personOp]
  refine ⟨⟨ctx, agentJwt, hd⟩, fun metadata _ => ?_⟩
  cases metadata with
  | error e => exact ⟨rfl, trivial⟩
  | ok metadata =>
      refine wp_liftExcept_bind.mpr ⟨fun e _ => ⟨rfl, trivial⟩,
        fun _ _ => ?_⟩
      rw [wp_bind_except, wp_mapErr, wp_personOp]
      refine ⟨⟨ctx, agentJwt, hd, rfl⟩, fun answer ha => ?_⟩
      cases answer with
      | error e => exact ⟨rfl, trivial⟩
      | ok outcome =>
          cases outcome with
          | deferred requirement url => exact ⟨rfl, .federated hurl ha⟩
          | complete body =>
              refine wp_bind_except.mpr (wp_mono (fun r s' h => ?_)
                (verifyFederated_accepted config trivial))
              obtain ⟨rfl, hv⟩ := h
              cases r with
              | error e => exact ⟨rfl, trivial⟩
              | ok _ => exact ⟨rfl, .accepted hurl ha (hv rfl)⟩

/-! ## Ruling on a record -/

/-- What the ruling on a record is answered with. -/
def Ruling.reply (config : PersonServerConfig) (id : String) :
    Ruling → FlowReply E
  | failure e => .error (.aauth e)
  | unauthorized => .ok .unauthorized
  | token body => .ok (.granted body)
  | denial e => .ok (.denied e)
  | deferral requirement _ => .ok (.deferredAt config id requirement)

/-- What the ruling makes of the record it is about. -/
def Ruling.change (r : PersonPendingRecord) (ctx : PersonTokenContext)
    (agentJwt : String) : Ruling → PersonChange
  | failure _ | unauthorized => .keep
  | token body => .write { r with snapshot := .complete (.authToken body) }
  | denial e => .write { r with snapshot := .complete (.error e) }
  | deferral requirement none =>
      .write { r with snapshot := .ofRequirement requirement }
  | deferral requirement (some fed) => .write
      { r with context := ctx.toPending agentJwt (some fed) none none,
               snapshot := .ofRequirement requirement }

/-- A ruling on the record `r`, as a reply and a change. -/
def RuledOn (cr : Crates) (config : PersonServerConfig)
    (env : (o : PersonOp) → personExt.Ans o → Prop) (id : String)
    (r : PersonPendingRecord) (ctx : PersonTokenContext) (agentJwt : String)
    (d : PersonTokenDecision) (reply : FlowReply E)
    (ch : PersonChange) : Prop :=
  ∃ ruling, Ruled cr config env ctx agentJwt d ruling ∧
    reply = ruling.reply config id ∧ ch = ruling.change r ctx agentJwt

variable {P : PersonOp → Prop} {r : PersonPendingRecord}

/-- The store operation a settled call ends with. -/
theorem complete_settles {R : FlowReply E → PersonChange → Prop}
    {o : PendingOutcome} {reply : PersonTokenFlowOutcome}
    (hr : s.records.lookup id = some r)
    (h : R (.ok reply) (.write { r with snapshot := .complete o })) :
    wp (momentWorld env t) (OnExt P)
      (do storeOp (PendingStore.complete id o)
          return reply : PersonTask E PersonTokenFlowOutcome).run
      (Settling R id s) s := by
  simp only [storeOp, wp_bind_except, wp_mapErr, wp_complete, onExt_store,
    true_and, Except.mapError, completed_of_lookup hr]
  exact ⟨_, h, rfl⟩

theorem rewriteRecord_settles {R : FlowReply E → PersonChange → Prop}
    {requirement : DeferRequirement}
    {rewrite : PersonPendingRecord → PersonPendingRecord}
    (hr : s.records.lookup id = some r)
    (h : R (.ok (.deferredAt config id requirement))
      (.write { rewrite r with snapshot := .ofRequirement requirement })) :
    wp (momentWorld env t) (OnExt P)
      (rewriteRecord (E := E) config id requirement rewrite).run
      (Settling R id s) s := by
  simp only [rewriteRecord, storeOp, wp_bind_except, wp_mapErr, wp_load, hr,
    Except.mapError, wp_save, onExt_store, true_and]
  exact ⟨_, h, rfl⟩

theorem applyPersonPendingDecision_ruled
    (hd : Decided env t s.records c ctx agentJwt d)
    (hr : s.records.lookup id = some r) :
    wp (momentWorld env t) (OnExt (Invokes config env t s.records c))
      (applyPersonPendingDecision (E := E) cr config ctx id d agentJwt).run
      (Settling (RuledOn cr config env id r ctx agentJwt d) id s) s := by
  cases d with
  | grant grant =>
      refine wp_bind_except.mpr (wp_mono (fun answer s' h => ?_)
        (mintGrant_ruled cr hd))
      obtain ⟨rfl, hb⟩ := h
      cases answer with
      | error e =>
          obtain ⟨e, rfl, hb⟩ := hb
          exact ⟨_, ⟨_, hb, rfl, rfl⟩, rfl⟩
      | ok body => exact complete_settles hr ⟨_, hb, rfl, rfl⟩
  | federate =>
      refine wp_bind_except.mpr (wp_liftProg.mpr
        (wp_mono (fun answer s' h => ?_) (federateToAccessServer_ruled hd)))
      obtain ⟨rfl, hb⟩ := h
      cases answer with
      | error e => exact ⟨_, ⟨_, .unauthorized, rfl, rfl⟩, rfl⟩
      | ok outcome =>
          cases outcome with
          | complete body => exact complete_settles hr ⟨_, hb, rfl, rfl⟩
          | deferred requirement asPendingUrl url =>
              exact rewriteRecord_settles hr ⟨_, hb, rfl, rfl⟩
  | deny e => exact complete_settles hr ⟨_, .denied, rfl, rfl⟩
  | defer requirement =>
      exact rewriteRecord_settles hr ⟨_, .deferred, rfl, rfl⟩

/-! ## Posting to an Access Server -/

/-- What the Access Server answers an input with: at once, or when it is
polled. -/
inductive Answered (config : PersonServerConfig)
    (env : (o : PersonOp) → personExt.Ans o → Prop)
    (fed : FederationPendingState) (input : PendingInput) :
    ServerPollOutcome → Prop where
  | posted {body : TokenResponseBody} :
      env (.resumePending fed.asPendingUrl input) (.ok (some body)) →
      Answered config env fed input (.authToken body)
  | polled {outcome : ServerPollOutcome} :
      env (.resumePending fed.asPendingUrl input) (.ok none) →
      env (.pollPending fed.accessServerUrl
        { locationUrl := fed.asPendingUrl,
          maxPollDurationSecs := config.federationPollMaxSecs,
          preferWait := none }) (.ok outcome) →
      Answered config env fed input outcome

/-- An input to the federated record `r`. -/
inductive Posted (cr : Crates) (config : PersonServerConfig)
    (env : (o : PersonOp) → personExt.Ans o → Prop) (id : String)
    (r : PersonPendingRecord) (fed : FederationPendingState)
    (input : PendingInput) : FlowReply E → PersonChange → Prop where
  | cancelled : input.isCancelled = true →
      Posted cr config env id r fed input (.ok (.denied requestCancelled))
        (.write { r with snapshot := .complete (.error requestCancelled) })
  | badGateway : Posted cr config env id r fed input (.ok .badGateway) .keep
  | unauthorized :
      Posted cr config env id r fed input (.ok .unauthorized) .keep
  | accepted {body : TokenResponseBody} :
      Answered config env fed input (.authToken body) →
      Accepted cr config env r.context.agentToken fed.accessServerUrl body →
      Posted cr config env id r fed input (.ok (.granted body))
        (.write { r with snapshot := .complete (.authToken body) })
  | moved {requirement : DeferRequirement} {url : String} :
      Answered config env fed input (.deferred requirement url) →
      Posted cr config env id r fed input
        (.ok (.deferredAt config id requirement))
        (.write { r with
          context.federation := some { fed with asPendingUrl := url },
          snapshot := .ofRequirement requirement })
  | denied {e : AAuthProtocolError} :
      Answered config env fed input (.error e) →
      Posted cr config env id r fed input (.ok (.denied e))
        (.write { r with snapshot := .complete (.error e) })
  | dropped : Answered config env fed input .gone →
      Posted cr config env id r fed input (.ok .gone) .erase

theorem resumeAtAccessServer_answered {fed : FederationPendingState}
    {input : PendingInput} (hP : P (.resumePending fed.asPendingUrl input))
    (hP' : ∀ url options, P (.pollPending url options)) :
    wp (momentWorld (E := E) env t) (OnExt P)
      (resumeAtAccessServer config fed input)
      (fun r s' => s' = s ∧ ∀ outcome, r = .ok outcome →
        Answered config env fed input outcome) s := by
  rw [resumeAtAccessServer, wp_bind, wp_personOp]
  refine ⟨hP, fun answer ha => ?_⟩
  cases answer with
  | error e => exact ⟨rfl, nofun⟩
  | ok body =>
      cases body with
      | some body =>
          refine ⟨rfl, fun outcome h => ?_⟩
          cases h
          exact .posted ha
      | none =>
          rw [wp_personOp]
          refine ⟨hP' _ _, fun outcome ho => ⟨rfl, fun o h => ?_⟩⟩
          subst h
          exact .polled ha ho

theorem handleFederatedPendingPost_posted (fed : FederationPendingState)
    {input : PendingInput} (hP : P .verifyEnv)
    (hP₁ : P (.resumePending fed.asPendingUrl input))
    (hP₂ : ∀ url options, P (.pollPending url options))
    (hr : s.records.lookup id = some r) :
    wp (momentWorld env t) (OnExt P)
      (handleFederatedPendingPost (E := E) cr config id fed
        r.context.agentToken config.resourceUrl input).run
      (Settling (Posted cr config env id r fed input) id s) s := by
  rw [handleFederatedPendingPost]
  split
  · next hc => exact complete_settles hr (.cancelled hc)
  · rw [wp_bind_except, wp_liftProg]
    refine wp_mono (fun answer s' h => ?_)
      (resumeAtAccessServer_answered hP₁ hP₂)
    obtain ⟨rfl, ha⟩ := h
    cases answer with
    | error e => exact ⟨_, .badGateway, rfl⟩
    | ok outcome =>
        have ha := ha outcome rfl
        cases outcome with
        | authToken body =>
            refine wp_bind_except.mpr (wp_liftProg.mpr (wp_mono
              (fun checked s' h => ?_)
              (verifyFederated_accepted config hP)))
            obtain ⟨rfl, hv⟩ := h
            cases checked with
            | error e => exact ⟨_, .unauthorized, rfl⟩
            | ok _ => exact complete_settles hr (.accepted ha (hv rfl))
        | deferred requirement url =>
            exact rewriteRecord_settles hr (.moved ha)
        | error e => exact complete_settles hr (.denied ha)
        | gone =>
            refine wp_bind_except.mpr (wp_liftProg.mpr (wp_remove.mpr ?_))
            exact ⟨trivial, _, .dropped ha, rfl⟩

/-! ## The calls on a record -/

theorem withLiveRecord_settles
    {k : PersonPendingRecord → PersonTask E PersonTokenFlowOutcome}
    {K : PersonPendingRecord → FlowReply E → PersonChange → Prop}
    (hk : ∀ r, s.records.lookup id = some r → r.isExpired t = false →
      wp (momentWorld env t) (OnExt P) (k r).run (Settling (K r) id s) s) :
    wp (momentWorld env t) (OnExt P) (withLiveRecord id k).run
      (Settling (OnRecord (.ok .gone) t id s.records K) id s) s := by
  simp only [withLiveRecord, storeOp, wp_bind_except, wp_mapErr, wp_load,
    Except.mapError, onExt_store, true_and]
  cases hl : s.records.lookup id with
  | none => exact ⟨.keep, .absent hl, rfl⟩
  | some r =>
      simp only [wp_bind_except, wp_liftProg, wp_systemNow, onExt_now,
        true_and]
      intro now hnow
      subst hnow
      cases hx : r.isExpired now with
      | true =>
          simp only [if_true, wp_bind_except, wp_liftProg, wp_remove,
            onExt_store, true_and]
          exact ⟨.erase, .expired hl hx, rfl⟩
      | false =>
          refine wp_mono (fun reply s' h => ?_) (hk r hl hx)
          obtain ⟨ch, h, rfl⟩ := h
          exact ⟨ch, .live hl hx h, rfl⟩

/-- `resume_pending` on a live record. -/
inductive Resumed (cr : Crates) (config : PersonServerConfig)
    (env : (o : PersonOp) → personExt.Ans o → Prop) (id : String)
    (input : PendingInput) (r : PersonPendingRecord) :
    FlowReply E → PersonChange → Prop where
  | posted {fed : FederationPendingState} {reply : FlowReply E}
      {ch : PersonChange} : r.context.federation = some fed →
      Posted cr config env id r fed input reply ch →
      Resumed cr config env id input r reply ch
  | failed {e : PolicyError} : r.context.federation = none →
      Resumed cr config env id input r (.error (.policy e)) .keep
  | decided {d : PersonTokenDecision} {reply : FlowReply E}
      {ch : PersonChange} : r.context.federation = none →
      env (.resume r.context.toTokenContext input) (.ok d) →
      RuledOn cr config env id r r.context.toTokenContext
        r.context.agentToken d reply ch →
      Resumed cr config env id input r reply ch

theorem resumePending_resumed {input : PendingInput} :
    wp (momentWorld env t) (OnExt (Invokes config env t s.records
        (.resumePending id input)))
      (resumePending (E := E) cr config id input).run
      (Settling (OnRecord (.ok .gone) t id s.records
        (Resumed cr config env id input)) id s) s := by
  refine withLiveRecord_settles fun r hr hx => ?_
  cases hf : r.context.federation with
  | some fed =>
      refine wp_mono (fun reply s' h => ?_)
        (handleFederatedPendingPost_posted fed trivial
          ⟨id, r, fed, rfl, hr, hx, hf, rfl⟩
          (fun _ _ => ⟨id, input, r, fed, rfl, hr, hx, hf⟩) hr)
      obtain ⟨ch, h, hs⟩ := h
      exact ⟨ch, .posted hf h, hs⟩
  | none =>
      simp only [wp_bind_except, wp_mapErr, wp_personOp, onExt_ext]
      refine ⟨⟨id, r, rfl, hr, hx, hf, rfl⟩, fun answer ha => ?_⟩
      cases answer with
      | error e => exact ⟨_, .failed hf, rfl⟩
      | ok d =>
          refine wp_mono (fun reply s' h => ?_)
            (applyPersonPendingDecision_ruled (.resumed hr hx hf ha) hr)
          obtain ⟨ch, h, hs⟩ := h
          exact ⟨ch, .decided hf ha h, hs⟩

/-- `resolve_interaction_callback` on a live record. -/
inductive Returned (cr : Crates) (config : PersonServerConfig)
    (env : (o : PersonOp) → personExt.Ans o → Prop) (id : String)
    (r : PersonPendingRecord) :
    Option String → FlowReply E → PersonChange → Prop where
  | error {err : String} : Returned cr config env id r (some err)
      (.ok (.denied (mapInteractionCallbackError err)))
      (.write { r with
        snapshot := .complete (.error (mapInteractionCallbackError err)) })
  | federated {fed : FederationPendingState} :
      r.context.federation = some fed →
      Returned cr config env id r none (.ok .badGateway) .keep
  | failed {e : PolicyError} : r.context.federation = none →
      Returned cr config env id r none (.error (.policy e)) .keep
  | decided {d : PersonTokenDecision} {reply : FlowReply E}
      {ch : PersonChange} : r.context.federation = none →
      env (.evaluate { r.context.toTokenContext with
        resourceClaims.interaction := none }) (.ok d) →
      RuledOn cr config env id r { r.context.toTokenContext with
        resourceClaims.interaction := none } r.context.agentToken d reply
        ch →
      Returned cr config env id r none reply ch

theorem resolveInteractionCallback_returned {err : Option String} :
    wp (momentWorld env t) (OnExt (Invokes config env t s.records
        (.resolveInteractionCallback id err)))
      (resolveInteractionCallback (E := E) cr config id err).run
      (Settling (OnRecord (.ok .gone) t id s.records
        fun r => Returned cr config env id r err) id s) s := by
  refine withLiveRecord_settles fun r hr hx => ?_
  cases err with
  | some err => exact complete_settles hr .error
  | none =>
      cases hf : r.context.federation with
      | some fed => exact ⟨_, .federated hf, rfl⟩
      | none =>
          simp only [Option.isSome_none, Bool.false_eq_true, if_false,
            wp_bind_except, wp_mapErr, wp_personOp, onExt_ext]
          refine ⟨.inr ⟨id, r, rfl, hr, hx, hf, rfl⟩, fun answer ha => ?_⟩
          cases answer with
          | error e => exact ⟨_, .failed hf, rfl⟩
          | ok d =>
              refine wp_mono (fun reply s' h => ?_)
                (applyPersonPendingDecision_ruled
                  (.calledBack hr hx hf ha) hr)
              obtain ⟨ch, h, hs⟩ := h
              exact ⟨ch, .decided hf ha h, hs⟩

/-! ## Interaction codes -/

/-- `begin_interaction` with a code of the given canonical form, and the
record it is about. -/
inductive Visited (cr : Crates) (config : PersonServerConfig) (t : Nat)
    (canonical : String) (m : PersonMap) (id : String) :
    Except (PersonTokenServiceError E) PersonInteractionOutcome →
      PersonChange → Prop where
  | unknown : (∀ id r, m.lookup id = some r →
        matchesCode canonical r = false) →
      Visited cr config t canonical m id (.ok .invalidCode) .keep
  | expired {r : PersonPendingRecord} :
      m.lookup id = some r → matchesCode canonical r = true →
      r.isExpired t = true →
      Visited cr config t canonical m id (.ok .expired) .erase
  | begun {r : PersonPendingRecord} :
      m.lookup id = some r → matchesCode canonical r = true →
      r.isExpired t = false →
      Visited cr config t canonical m id
        ((interactionReply cr config id r.consumed).mapError .orchestration)
        (.write r.consumed)

theorem beginInteraction_visited {code : String} :
    wp (momentWorld env t) (OnExt (Invokes config env t s.records
        (.beginInteraction code)))
      (beginInteraction (E := E) cr config code).run
      (fun reply s' => ∃ canonical,
        canonicalizeCode cr code = some canonical ∧ ∃ id,
          Settling (Visited cr config t canonical s.records id) id s reply
            s') s := by
  rw [beginInteraction]
  cases hc : canonicalizeCode cr code with
  | none =>
      simp only [wp_bind_except, wp_liftProg, wp_personOp, onExt_ext]
      exact ⟨trivial, fun a => a.elim⟩
  | some canonical =>
      simp only [storeOp, wp_bind_except, wp_mapErr, wp_findIf, onExt_store,
        true_and, Except.mapError]
      refine ⟨fun id r hl hm => ?_, fun hn => ?_⟩
      · simp only [wp_liftProg, wp_systemNow, onExt_now, true_and]
        intro now hnow
        subst hnow
        cases hx : r.isExpired now with
        | true =>
            simp only [if_true, wp_bind_except, wp_liftProg, wp_remove,
              onExt_store, true_and]
            exact ⟨canonical, rfl, id, .erase, .expired hl hm hx, rfl⟩
        | false =>
            simp only [Bool.false_eq_true, if_false, wp_bind_except,
              wp_mapErr, wp_save, Except.mapError, onExt_store, true_and,
              wp_liftExcept]
            exact ⟨canonical, rfl, id, _, .begun hl hm hx, rfl⟩
      · exact ⟨canonical, rfl, canonical, .keep, .unknown hn, rfl⟩

/-! ## Exchanging a token -/

/-- The state after a record was opened at time `t`. -/
def openedState (config : PersonServerConfig) (t : Nat)
    (s : ServiceState PersonPendingContext) (id : String)
    (c : PersonPendingContext) (requirement : DeferRequirement) :
    ServiceState PersonPendingContext where
  records := s.records.insert id
    (.new t id c (.ofRequirement requirement) config.pendingTtlSecs)
  issued := id :: s.issued

/-- What the ruling on an exchange leaves: a deferral opens a record. -/
inductive Concluded (config : PersonServerConfig) (t : Nat)
    (ctx : PersonTokenContext) (agentJwt : String)
    (s : ServiceState PersonPendingContext) :
    Ruling → FlowReply E → ServiceState PersonPendingContext → Prop where
  | failure {e : AAuthError} :
      Concluded config t ctx agentJwt s (.failure e) (.error (.aauth e)) s
  | unauthorized :
      Concluded config t ctx agentJwt s .unauthorized (.ok .unauthorized) s
  | token {body : TokenResponseBody} :
      Concluded config t ctx agentJwt s (.token body) (.ok (.granted body)) s
  | denial {e : AAuthProtocolError} :
      Concluded config t ctx agentJwt s (.denial e) (.ok (.denied e)) s
  | deferral {requirement : DeferRequirement}
      {fed : Option FederationPendingState} {id : String} :
      id ∉ s.issued →
      Concluded config t ctx agentJwt s (.deferral requirement fed)
        (.ok (.deferredAt config id requirement))
        (openedState config t s id (ctx.toPending agentJwt fed none none)
          requirement)

/-- How an exchange may end. -/
inductive ExchangeEnds (cr : Crates) (config : PersonServerConfig)
    (env : (o : PersonOp) → personExt.Ans o → Prop) (t : Nat)
    (ctx : PersonTokenContext) (agentJwt : String)
    (s : ServiceState PersonPendingContext) :
    FlowReply E → ServiceState PersonPendingContext → Prop where
  | gated {ix : ResourceInteractionClaim} {bytes : Bytes}
      {canonical id : String} : ctx.resourceClaims.interaction = some ix →
      env .codeBytes bytes →
      canonicalizeCode cr (generateCode bytes) = some canonical →
      id ∉ s.issued →
      ExchangeEnds cr config env t ctx agentJwt s
        (.ok (.deferredAt config id
          (.interaction config.interactionUrl (generateCode bytes))))
        (openedState config t s id
          (ctx.toPending agentJwt none (some ix) (some canonical))
          (.interaction config.interactionUrl (generateCode bytes)))
  | failed {e : PolicyError} : ctx.resourceClaims.interaction = none →
      ExchangeEnds cr config env t ctx agentJwt s (.error (.policy e)) s
  | decided {d : PersonTokenDecision} {ruling : Ruling}
      {reply : FlowReply E} {s' : ServiceState PersonPendingContext} :
      ctx.resourceClaims.interaction = none → env (.evaluate ctx) (.ok d) →
      Ruled cr config env ctx agentJwt d ruling →
      Concluded config t ctx agentJwt s ruling reply s' →
      ExchangeEnds cr config env t ctx agentJwt s reply s'

theorem createRecord_opens {c : PersonPendingContext}
    {requirement : DeferRequirement}
    {R : FlowReply E → ServiceState PersonPendingContext → Prop}
    (h : ∀ id, id ∉ s.issued → R (.ok (.deferredAt config id requirement))
      (openedState config t s id c requirement)) :
    wp (momentWorld env t) (OnExt P)
      (createRecord (E := E) config c requirement).run R s := by
  simp only [createRecord, storeOp, wp_bind_except, wp_liftProg,
    wp_pendingIdBytes, wp_systemNow, wp_mapErr, wp_create, onExt_store,
    onExt_now, onExt_pendingIdBytes, true_and, Except.mapError]
  intro bytes hfresh now hnow
  subst hnow
  exact h _ hfresh

/-- What the decision on an exchange amounts to, and leaves. -/
theorem applyPersonDecision_concluded
    (hd : Decided env t s.records c ctx agentJwt d) :
    wp (momentWorld env t) (OnExt (Invokes config env t s.records c))
      (applyPersonDecision (E := E) cr config ctx d agentJwt).run
      (fun reply s' => ∃ ruling, Ruled cr config env ctx agentJwt d ruling ∧
        Concluded config t ctx agentJwt s ruling reply s') s := by
  cases d with
  | grant grant =>
      refine wp_bind_except.mpr (wp_mono (fun answer s' h => ?_)
        (mintGrant_ruled cr hd))
      obtain ⟨rfl, hb⟩ := h
      cases answer with
      | error e =>
          obtain ⟨e, rfl, hb⟩ := hb
          exact ⟨_, hb, .failure⟩
      | ok body => exact ⟨_, hb, .token⟩
  | federate =>
      refine wp_bind_except.mpr (wp_liftProg.mpr
        (wp_mono (fun answer s' h => ?_) (federateToAccessServer_ruled hd)))
      obtain ⟨rfl, hb⟩ := h
      cases answer with
      | error e => exact ⟨_, .unauthorized, .unauthorized⟩
      | ok outcome =>
          cases outcome with
          | complete body => exact ⟨_, hb, .token⟩
          | deferred requirement asPendingUrl url =>
              exact createRecord_opens fun id hid => ⟨_, hb, .deferral hid⟩
  | deny e => exact ⟨_, .denied, .denial⟩
  | defer requirement =>
      exact createRecord_opens fun id hid => ⟨_, .deferred, .deferral hid⟩

theorem exchangeToken_ends :
    wp (momentWorld env t) (OnExt (Invokes config env t s.records
        (.exchangeToken ctx agentJwt)))
      (exchangeToken (E := E) cr config ctx agentJwt).run
      (ExchangeEnds cr config env t ctx agentJwt s) s := by
  rw [exchangeToken]
  cases hi : ctx.resourceClaims.interaction with
  | some ix =>
      simp only [Option.isSome_some, if_true,
        createResourceInitiatedDeferredResponse, hi, Option.okOr]
      refine wp_liftExcept_bind.mpr ⟨?_, fun resourceIx h => ?_⟩
      · intro e he
        cases he
      cases h
      simp only [wp_bind_except, wp_liftProg, wp_personOp, onExt_ext]
      refine ⟨trivial, fun bytes hb => ?_⟩
      cases hc : canonicalizeCode cr (generateCode bytes) with
      | none =>
          simp only [wp_bind_except, wp_liftProg, wp_personOp, onExt_ext]
          exact ⟨trivial, fun a => a.elim⟩
      | some canonical =>
          exact createRecord_opens fun id hid => .gated hi hb hc hid
  | none =>
      simp only [Option.isSome_none, Bool.false_eq_true, if_false,
        wp_bind_except, wp_mapErr, wp_personOp, onExt_ext]
      refine ⟨.inl ⟨agentJwt, rfl⟩, fun answer ha => ?_⟩
      cases answer with
      | error e => exact .failed hi
      | ok d =>
          refine wp_mono (fun reply s' h => ?_)
            (applyPersonDecision_concluded (.exchanged hi ha))
          obtain ⟨ruling, hr, hc⟩ := h
          exact .decided hi ha hr hc

/-! ## All five -/

/-- What serving a call at time `t` may answer and leave, decision by
decision. -/
def PersonServes (cr : Crates) (config : PersonServerConfig)
    (env : (o : PersonOp) → personExt.Ans o → Prop) (t : Nat)
    (s : ServiceState PersonPendingContext) :
    (c : PersonCall) → (personService E cr config).Reply c →
      ServiceState PersonPendingContext → Prop
  | .exchangeToken ctx agentJwt => ExchangeEnds cr config env t ctx agentJwt s
  | .pollPending id => Settling (OnRecord (.ok .gone) t id s.records
      fun r reply ch =>
        reply = .ok (pollOutcomeFromSnapshot r.snapshot) ∧ ch = .keep) id s
  | .resumePending id input => Settling (OnRecord (.ok .gone) t id s.records
      (Resumed cr config env id input)) id s
  | .beginInteraction code => fun reply s' => ∃ canonical,
      canonicalizeCode cr code = some canonical ∧ ∃ id,
        Settling (Visited cr config t canonical s.records id) id s reply s'
  | .resolveInteractionCallback id err =>
      Settling (OnRecord (.ok .gone) t id s.records
        fun r => Returned cr config env id r err) id s

/-- The walk through every operation: what it invokes, answers and
leaves. -/
theorem personServes (c : PersonCall) :
    wp (momentWorld env t) (OnExt (Invokes config env t s.records c))
      ((personService E cr config).prog c)
      (PersonServes cr config env t s c) s := by
  cases c with
  | exchangeToken ctx agentJwt => exact exchangeToken_ends
  | pollPending id =>
      refine wp_mapErr.mpr (wp_mono (fun reply s' h => ?_)
        pollAuthPending_reads)
      obtain ⟨ch, h, hs⟩ := h
      refine ⟨ch, ?_, hs⟩
      cases h with
      | absent hl => exact .absent hl
      | expired hl hx => exact .expired hl hx
      | live hl hx h =>
          obtain ⟨rfl, hch⟩ := h
          exact .live hl hx ⟨rfl, hch⟩
  | resumePending id input => exact resumePending_resumed
  | beginInteraction code => exact beginInteraction_visited
  | resolveInteractionCallback id err =>
      exact resolveInteractionCallback_returned

theorem personServes_of_exec {c : PersonCall}
    {reply : (personService E cr config).Reply c}
    {s' : ServiceState PersonPendingContext}
    (hx : Exec (momentWorld env t) s ((personService E cr config).prog c)
      reply s') :
    PersonServes cr config env t s c reply s' := hx.post (personServes c)

end Decisions

end Aauth
