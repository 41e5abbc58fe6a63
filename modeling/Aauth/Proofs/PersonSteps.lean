import Aauth.Proofs.PersonDecisions

/-!
# What each operation of the Person Server can do

One relation for each of the five operations, listing what it may answer
and what it leaves of the records when it runs alone. They forget which
decision led there, so that what does not depend on the policy is a short
case analysis.
-/

namespace Aauth

open Text Effect

section Steps

variable {E : Type} {cr : Crates} {config : PersonServerConfig}
  {env : (o : PersonOp) → personExt.Ans o → Prop} {t : Nat}
  {s : ServiceState PersonPendingContext} {id agentJwt : String}

/-! ## Where tokens come from -/

/-- How the Person Server comes by a token that it grants: it minted the
token itself, or checked one that an Access Server minted. -/
inductive Issued (cr : Crates) (config : PersonServerConfig)
    (env : (o : PersonOp) → personExt.Ans o → Prop) (agent : AgentClaims)
    (agentJwt : String) : TokenResponseBody → Prop where
  | minted {sub jwt : String} {scope : Option String} {expiresIn : Nat} :
      env (.mintPersonAuthJwt config.personServerUrl config.resourceUrl
        agent.identifier agent.cnf.jwk (some sub) scope) (.ok jwt) →
      Issued cr config env agent agentJwt
        { authToken := jwt, expiresIn := expiresIn }
  | federated {body : TokenResponseBody} {venv : VerifyEnv} {iss : String} :
      env .verifyEnv venv →
      verifyFederatedAuthToken cr venv body.authToken iss
        config.resourceUrl agentJwt = .ok () →
      Issued cr config env agent agentJwt body

theorem Ruled.issued {ctx : PersonTokenContext} {d : PersonTokenDecision}
    {body : TokenResponseBody}
    (h : Ruled cr config env ctx agentJwt d (.token body)) :
    Issued cr config env ctx.agentClaims agentJwt body := by
  cases h with
  | minted hm => exact .minted hm
  | accepted _ _ ha =>
      obtain ⟨venv, hv, hok⟩ := ha
      exact .federated hv hok

/-! ## Deciding a live record -/

/-- The contexts a record may be deferred with again: its own, that of a
federation started for it, or its own with the federation moved on. -/
inductive Redeferred (c : PersonPendingContext) :
    PersonPendingContext → Prop where
  | same : Redeferred c c
  | federated {interaction : Option ResourceInteractionClaim}
      {fed : FederationPendingState} :
      Redeferred c (PersonTokenContext.toPending
        { c.toTokenContext with resourceClaims.interaction := interaction }
        c.agentToken (some fed) none none)
  | moved {fed fed' : FederationPendingState} : c.federation = some fed →
      Redeferred c { c with federation := some fed' }

/-- How a call that found the live record `r` under `id` may end. -/
inductive Settled (cr : Crates) (config : PersonServerConfig)
    (env : (o : PersonOp) → personExt.Ans o → Prop) (id : String)
    (m : PersonMap) (r : PersonPendingRecord) :
    FlowReply E → PersonMap → Prop where
  | failed {e : PersonTokenServiceError E} :
      Settled cr config env id m r (.error e) m
  | unauthorized : Settled cr config env id m r (.ok .unauthorized) m
  | badGateway : Settled cr config env id m r (.ok .badGateway) m
  | granted {body : TokenResponseBody} :
      Issued cr config env r.context.agentClaims r.context.agentToken body →
      Settled cr config env id m r (.ok (.granted body))
        (m.insert id { r with snapshot := .complete (.authToken body) })
  | denied {e : AAuthProtocolError} :
      Settled cr config env id m r (.ok (.denied e))
        (m.insert id { r with snapshot := .complete (.error e) })
  | deferred {c : PersonPendingContext} {requirement : DeferRequirement} :
      Redeferred r.context c →
      Settled cr config env id m r (.ok (.deferredAt config id requirement))
        (m.insert id
          { r with context := c, snapshot := .ofRequirement requirement })
  | dropped : Settled cr config env id m r (.ok .gone) (m.erase id)

variable {m : PersonMap} {r : PersonPendingRecord} {reply : FlowReply E}
  {ch : PersonChange}

theorem RuledOn.settled {interaction : Option ResourceInteractionClaim}
    {d : PersonTokenDecision}
    (h : RuledOn cr config env id r { r.context.toTokenContext with
      resourceClaims.interaction := interaction } r.context.agentToken d
      reply ch) :
    Settled cr config env id m r reply (ch.apply id m) := by
  obtain ⟨ruling, hr, rfl, rfl⟩ := h
  cases ruling with
  | failure e => exact .failed
  | unauthorized => exact .unauthorized
  | token body => exact .granted hr.issued
  | denial e => exact .denied
  | deferral requirement fed =>
      cases fed with
      | none => exact .deferred .same
      | some fed => exact .deferred .federated

theorem Posted.settled {fed : FederationPendingState}
    {input : PendingInput} (hf : r.context.federation = some fed)
    (h : Posted cr config env id r fed input reply ch) :
    Settled cr config env id m r reply (ch.apply id m) := by
  cases h with
  | cancelled _ => exact .denied
  | badGateway => exact .badGateway
  | unauthorized => exact .unauthorized
  | accepted _ ha =>
      obtain ⟨venv, hv, hok⟩ := ha
      exact .granted (.federated hv hok)
  | moved _ => exact .deferred (.moved hf)
  | denied _ => exact .denied
  | dropped _ => exact .dropped

/-- `resume_pending` asks nothing of a record but that it is live. -/
theorem Resumed.settled {input : PendingInput}
    (h : Resumed cr config env id input r reply ch) :
    Settled cr config env id m r reply (ch.apply id m) := by
  cases h with
  | posted hf h => exact h.settled hf
  | failed _ => exact .failed
  | decided _ _ h => exact h.settled

/-- `resolve_interaction_callback` on a live record. -/
inductive CalledBack (cr : Crates) (config : PersonServerConfig)
    (env : (o : PersonOp) → personExt.Ans o → Prop) (id : String)
    (m : PersonMap) (r : PersonPendingRecord) :
    Option String → FlowReply E → PersonMap → Prop where
  | error {err : String} :
      CalledBack cr config env id m r (some err)
        (.ok (.denied (mapInteractionCallbackError err)))
        (m.insert id { r with
          snapshot := .complete (.error (mapInteractionCallbackError err)) })
  | federated {fed : FederationPendingState} :
      r.context.federation = some fed →
      CalledBack cr config env id m r none (.ok .badGateway) m
  | settled {reply : FlowReply E} {m' : PersonMap} :
      r.context.federation = none →
      Settled cr config env id m r reply m' →
      CalledBack cr config env id m r none reply m'

theorem Returned.calledBack {err : Option String}
    (h : Returned cr config env id r err reply ch) :
    CalledBack cr config env id m r err reply (ch.apply id m) := by
  cases h with
  | error => exact .error
  | federated hf => exact .federated hf
  | failed hf => exact .settled hf .failed
  | decided hf _ h => exact .settled hf h.settled

/-! ## Interaction codes -/

/-- `begin_interaction` with a code of the given canonical form. -/
inductive Begun (cr : Crates) (config : PersonServerConfig) (t : Nat)
    (canonical : String) (m : PersonMap) :
    Except (PersonTokenServiceError E) PersonInteractionOutcome →
      PersonMap → Prop where
  | unknown : (∀ id r, m.lookup id = some r →
        matchesCode canonical r = false) →
      Begun cr config t canonical m (.ok .invalidCode) m
  | expired {id : String} {r : PersonPendingRecord} :
      m.lookup id = some r → matchesCode canonical r = true →
      r.isExpired t = true →
      Begun cr config t canonical m (.ok .expired) (m.erase id)
  | begun {id : String} {r : PersonPendingRecord} :
      m.lookup id = some r → matchesCode canonical r = true →
      r.isExpired t = false →
      Begun cr config t canonical m
        ((interactionReply cr config id r.consumed).mapError .orchestration)
        (m.insert id r.consumed)

theorem Visited.leaves {canonical : String}
    {reply : Except (PersonTokenServiceError E) PersonInteractionOutcome}
    (h : Visited cr config t canonical m id reply ch) :
    Begun cr config t canonical m reply (ch.apply id m) := by
  cases h with
  | unknown hn => exact .unknown hn
  | expired hl hm hx => exact .expired hl hm hx
  | begun hl hm hx => exact .begun hl hm hx

/-! ## Exchanging a token -/

/-- The context a record is created with: a gated one when the resource
asked for an interaction of its own, else a plain or federated one. -/
inductive Opened (ctx : PersonTokenContext) (agentJwt : String) :
    PersonPendingContext → Prop where
  | gated {ix : ResourceInteractionClaim} {code : String} :
      ctx.resourceClaims.interaction = some ix →
      Opened ctx agentJwt (ctx.toPending agentJwt none (some ix) (some code))
  | plain {fed : Option FederationPendingState} :
      ctx.resourceClaims.interaction = none →
      Opened ctx agentJwt (ctx.toPending agentJwt fed none none)

/-- How an exchange may end. -/
inductive Exchanged (cr : Crates) (config : PersonServerConfig)
    (env : (o : PersonOp) → personExt.Ans o → Prop) (t : Nat)
    (ctx : PersonTokenContext) (agentJwt : String)
    (s : ServiceState PersonPendingContext) :
    FlowReply E → ServiceState PersonPendingContext → Prop where
  | failed {e : PersonTokenServiceError E} :
      Exchanged cr config env t ctx agentJwt s (.error e) s
  | unauthorized :
      Exchanged cr config env t ctx agentJwt s (.ok .unauthorized) s
  | denied {e : AAuthProtocolError} :
      Exchanged cr config env t ctx agentJwt s (.ok (.denied e)) s
  | granted {body : TokenResponseBody} :
      ctx.resourceClaims.interaction = none →
      Issued cr config env ctx.agentClaims agentJwt body →
      Exchanged cr config env t ctx agentJwt s (.ok (.granted body)) s
  | created {id : String} {c : PersonPendingContext}
      {requirement : DeferRequirement} : id ∉ s.issued →
      Opened ctx agentJwt c →
      Exchanged cr config env t ctx agentJwt s
        (.ok (.deferredAt config id requirement))
        { records := s.records.insert id (.new t id c
            (.ofRequirement requirement) config.pendingTtlSecs),
          issued := id :: s.issued }

variable {ctx : PersonTokenContext}

theorem ExchangeEnds.exchanged
    {s' : ServiceState PersonPendingContext}
    (h : ExchangeEnds cr config env t ctx agentJwt s reply s') :
    Exchanged cr config env t ctx agentJwt s reply s' := by
  cases h with
  | gated hi _ _ hid => exact .created hid (.gated hi)
  | failed _ => exact .failed
  | decided hi _ hr hc =>
      cases hc with
      | failure => exact .failed
      | unauthorized => exact .unauthorized
      | token => exact .granted hi hr.issued
      | denial => exact .denied
      | deferral hid => exact .created hid (.plain hi)

/-! ## What a call touches -/

theorem Settled.touched {m m' : PersonMap} {r : PersonPendingRecord}
    {reply : FlowReply E} (hl : m.lookup id = some r)
    (h : Settled cr config env id m r reply m') : Touched id m m' := by
  cases h with
  | failed | unauthorized | badGateway => exact .same
  | granted _ => exact .written hl
  | denied => exact .written hl
  | deferred _ => exact .written hl
  | dropped => exact .erased

theorem CalledBack.touched {m m' : PersonMap} {r : PersonPendingRecord}
    {err : Option String} {reply : FlowReply E}
    (hl : m.lookup id = some r)
    (h : CalledBack cr config env id m r err reply m') :
    Touched id m m' := by
  cases h with
  | error => exact .written hl
  | federated _ => exact .same
  | settled _ h => exact h.touched hl

theorem Begun.touched {canonical : String} {m m' : PersonMap}
    {reply : Except (PersonTokenServiceError E) PersonInteractionOutcome}
    (h : Begun cr config t canonical m reply m') : ∃ id, Touched id m m' := by
  cases h with
  | unknown _ => exact ⟨canonical, .same⟩
  | expired _ _ _ => exact ⟨_, .erased⟩
  | begun hl _ _ => exact ⟨_, .written hl⟩

/-! ## All five -/

/-- What serving a call at time `t` may answer and leave. -/
def PersonStep (cr : Crates) (config : PersonServerConfig)
    (env : (o : PersonOp) → personExt.Ans o → Prop) (t : Nat)
    (s : ServiceState PersonPendingContext) :
    (c : PersonCall) → (personService E cr config).Reply c →
      ServiceState PersonPendingContext → Prop
  | .exchangeToken ctx agentJwt => Exchanged cr config env t ctx agentJwt s
  | .pollPending id => Keeps (Polled _ t id s.records) s
  | .resumePending id _ => Keeps (OnLive (.ok .gone) t id s.records
      (Settled cr config env id s.records)) s
  | .beginInteraction code => Keeps (fun reply m' => ∃ canonical,
      canonicalizeCode cr code = some canonical ∧
        Begun cr config t canonical s.records reply m') s
  | .resolveInteractionCallback id err =>
      Keeps (OnLive (.ok .gone) t id s.records
        fun r => CalledBack cr config env id s.records r err) s

theorem personStep_of_exec {c : PersonCall}
    {reply : (personService E cr config).Reply c}
    {s' : ServiceState PersonPendingContext}
    (hx : Exec (momentWorld env t) s ((personService E cr config).prog c)
      reply s') :
    PersonStep cr config env t s c reply s' := by
  have h := personServes_of_exec hx
  cases c with
  | exchangeToken ctx agentJwt => exact h.exchanged
  | pollPending id =>
      refine Settling.keeps (fun h => ?_) h
      obtain ⟨hreply, rfl⟩ := h
      exact ⟨hreply, rfl⟩
  | resumePending id input => exact Settling.keeps (fun h => h.settled) h
  | beginInteraction code =>
      obtain ⟨canonical, hc, id, ch, h, rfl⟩ := h
      exact ⟨⟨canonical, hc, h.leaves⟩, rfl⟩
  | resolveInteractionCallback id err =>
      exact Settling.keeps (fun h => h.calledBack) h

/-! ## Runs that exist -/

section Runs

variable {W : World (personSig E) (ServiceState PersonPendingContext)}
  {s' : ServiceState PersonPendingContext}

/-- An exchange of a token that asks for an interaction defers, with the
code it draws. -/
theorem exchangeToken_gated {ctx : PersonTokenContext}
    {ix : ResourceInteractionClaim} {bytes : Bytes} {canonical : String}
    {reply : FlowReply E} (hi : ctx.resourceClaims.interaction = some ix)
    (hb : W s (.ext .codeBytes) bytes s)
    (hc : canonicalizeCode cr (generateCode bytes) = some canonical)
    (hx : Exec W s (createRecord config
      (ctx.toPending agentJwt none (some ix) (some canonical))
      (.interaction config.interactionUrl (generateCode bytes))).run
      reply s') :
    Exec W s (exchangeToken cr config ctx agentJwt).run reply s' := by
  rw [exchangeToken, hi, createResourceInitiatedDeferredResponse, hi]
  refine .call hb ?_
  simp only [Prog.bind, ExceptT.bindCont, hc]
  exact hx

theorem matchesCode_iff {canonical : String} {r : PersonPendingRecord} :
    matchesCode canonical r = true ↔
      r.context.psInteractionCode = some canonical ∧
        r.context.interactionCodeConsumed = false := by
  simp [matchesCode]

/-- A visit with the code of a live record consumes it. -/
theorem beginInteraction_begun {code canonical : String}
    {r : PersonPendingRecord} (hc : canonicalizeCode cr code = some canonical)
    (hl : s.records.lookup id = some r) (hm : matchesCode canonical r = true)
    (hx : r.isExpired t = false) :
    Exec (momentWorld env t) s (beginInteraction (E := E) cr config code).run
      ((interactionReply cr config id r.consumed).mapError .orchestration)
      { s with records := s.records.insert id r.consumed } := by
  rw [beginInteraction, hc]
  let W : World (personSig E) (ServiceState PersonPendingContext) :=
    momentWorld env t
  have hf : W s (.store (.findIf (matchesCode canonical)))
      (.ok (some (id, r))) s := ⟨⟨rfl, _, rfl, hl, hm⟩, rfl⟩
  have hnow : W s .now t s := ⟨rfl, rfl⟩
  have hsave : W s (.store (.save id r.consumed)) (.ok ())
      { s with records := s.records.insert id r.consumed } :=
    ⟨⟨rfl, rfl⟩, rfl⟩
  refine .call hf (.call hnow ?_)
  show Exec (momentWorld env t) s (ExceptT.run (if r.isExpired t then _
    else (do
      storeOp (PendingStore.save id r.consumed)
      liftExcept ((interactionReply cr config id r.consumed).mapError
        .orchestration) : PersonTask E PersonInteractionOutcome))) _ _
  rw [hx]
  exact .call hsave .ret

/-- A pure step that succeeds. -/
theorem liftExcept_ok {ε α : Type} {a : α} :
    Exec W s (liftExcept (S := personSig E) (Except.ok a : Except ε α)).run
      (.ok a) s := .ret

/-- The Access Server answers at once, with a token that checks out. -/
theorem federateToAccessServer_complete {resourceToken : String}
    {rc : ResourceClaims} {metadata : AccessServerMetadata}
    {body : TokenResponseBody} {venv : VerifyEnv}
    (hp : ParsedToken.parse cr resourceToken = .ok (.resource rc))
    (hm : W s (.ext (.fetchMetadata (trimEndMatches rc.aud '/')))
      (.ok metadata) s)
    (hv : metadata.validate = .ok ())
    (ha : W s (.ext (.exchangeToken metadata.tokenEndpoint
      (federationRequest resourceToken agentJwt))) (.ok (.complete body)) s)
    (he : W s (.ext .verifyEnv) venv s)
    (hok : verifyFederatedAuthToken cr venv body.authToken
      (trimEndMatches rc.aud '/') config.resourceUrl agentJwt = .ok ()) :
    Exec W s
      (federateToAccessServer cr config resourceToken agentJwt).run
      (.ok (.complete body)) s := by
  have hchecked : Exec W s (liftExcept (S := personSig E)
      (verifyFederatedAuthToken cr venv body.authToken
        (trimEndMatches rc.aud '/') config.resourceUrl agentJwt)).run
      (.ok ()) s := by
    rw [hok]
    exact .ret
  rw [federateToAccessServer, hp]
  refine Exec.bind_ok liftExcept_ok (Exec.bind_ok liftExcept_ok ?_)
  refine Exec.bind_ok (.call hm .ret) ?_
  rw [hv]
  refine Exec.bind_ok liftExcept_ok (Exec.bind_ok (.call ha .ret) ?_)
  exact Exec.bind_ok (.call he hchecked) .ret

/-- The Access Server defers. -/
theorem federateToAccessServer_deferred {resourceToken url : String}
    {rc : ResourceClaims} {metadata : AccessServerMetadata}
    {requirement : DeferRequirement}
    (hp : ParsedToken.parse cr resourceToken = .ok (.resource rc))
    (hm : W s (.ext (.fetchMetadata (trimEndMatches rc.aud '/')))
      (.ok metadata) s)
    (hv : metadata.validate = .ok ())
    (ha : W s (.ext (.exchangeToken metadata.tokenEndpoint
      (federationRequest resourceToken agentJwt)))
      (.ok (.deferred requirement url)) s) :
    Exec W s
      (federateToAccessServer cr config resourceToken agentJwt).run
      (.ok (.deferred requirement url (trimEndMatches rc.aud '/'))) s := by
  rw [federateToAccessServer, hp]
  refine Exec.bind_ok liftExcept_ok (Exec.bind_ok liftExcept_ok ?_)
  refine Exec.bind_ok (.call hm .ret) ?_
  rw [hv]
  exact Exec.bind_ok liftExcept_ok (Exec.bind_ok (.call ha .ret) .ret)

/-- A record is opened under an identifier that was not drawn before. -/
theorem createRecord_opened {c : PersonPendingContext}
    {requirement : DeferRequirement} {bytes : Bytes}
    (hid : generatePendingId bytes ∉ s.issued) :
    Exec (momentWorld env t) s
      (createRecord (E := E) config c requirement).run
      (.ok (.deferredAt config (generatePendingId bytes) requirement))
      (openedState config t s (generatePendingId bytes) c requirement) := by
  let W : World (personSig E) (ServiceState PersonPendingContext) :=
    momentWorld env t
  have hdrawn : W s .pendingIdBytes bytes
      { s with issued := generatePendingId bytes :: s.issued } :=
    ⟨hid, rfl, rfl⟩
  have hnow (s : ServiceState PersonPendingContext) : W s .now t s :=
    ⟨rfl, rfl⟩
  have hcreate (s : ServiceState PersonPendingContext)
      (r : PersonPendingRecord) : W s (.store (.create r)) (.ok r.id)
        { s with records := s.records.insert r.id r } := ⟨⟨rfl, rfl⟩, rfl⟩
  exact .call hdrawn (.call (hnow _) (.call (hcreate _ _) .ret))

/-- An exchange whose federation is deferred. -/
theorem exchangeToken_deferred {ctx : PersonTokenContext}
    {requirement : DeferRequirement} {url server : String} {reply : FlowReply E}
    (hi : ctx.resourceClaims.interaction = none)
    (hd : W s (.ext (.evaluate ctx)) (.ok .federate) s)
    (hx : Exec W s (federateToAccessServer cr config
      ctx.exchangeRequest.resourceToken agentJwt).run
      (.ok (.deferred requirement url server)) s)
    (hc : Exec W s (createRecord config
      (ctx.toPending agentJwt (some ⟨server, url⟩) none none)
      requirement).run reply s') :
    Exec W s (exchangeToken (E := E) cr config ctx agentJwt).run reply
      s' := by
  rw [exchangeToken, hi]
  refine Exec.bind_ok (.call hd .ret) ?_
  exact Exec.bind_ok (Exec.bind hx .ret) hc

/-- An exchange whose federation ends with a token. -/
theorem exchangeToken_complete {ctx : PersonTokenContext}
    {body : TokenResponseBody} (hi : ctx.resourceClaims.interaction = none)
    (hd : W s (.ext (.evaluate ctx)) (.ok .federate) s)
    (hx : Exec W s (federateToAccessServer cr config
      ctx.exchangeRequest.resourceToken agentJwt).run
      (.ok (.complete body)) s) :
    Exec W s (exchangeToken (E := E) cr config ctx agentJwt).run
      (.ok (.granted body)) s := by
  rw [exchangeToken, hi]
  refine Exec.bind_ok (.call hd .ret) ?_
  exact Exec.bind_ok (Exec.bind hx .ret) .ret

end Runs

end Steps

end Aauth
