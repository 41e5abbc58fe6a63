import Aauth.Proofs.Origin
import Aauth.Proofs.PersonRuns
import Aauth.Sample.Federation

/-!
# Where federated tokens come from

Once a request is federated, the Access Server it goes to is fixed: the
one the resource token names, and with it the issuer every later token is
checked against. The server may move its pending URL and change what it
asks for, as often as it likes. The invariant ties the server's URL and
the agent token of a record to the exchange that opened it.
-/

namespace Aauth

open Text Except Effect

section Provenance

variable {E : Type} {cr : Crates} {config : PersonServerConfig}
  {hist later earlier : List (PersonTurn E cr config)}
  {e : PersonTurn E cr config} {ctx : PersonTokenContext}
  {agentJwt id : String} {body : TokenResponseBody}
  {s : ServiceState PersonPendingContext}

/-! ## Provenance -/

/-- In the run, the token was accepted as one by the Access Server that the
exchanged resource token names, for the configured resource, and for the
agent token presented with the exchange. -/
def FederatedToken (hist : List (PersonTurn E cr config))
    (ctx : PersonTokenContext) (agentJwt : String)
    (body : TokenResponseBody) : Prop :=
  ∃ url, ForServer cr ctx.exchangeRequest.resourceToken url ∧
    ∃ e ∈ hist, Accepted cr config e.moment.env agentJwt url body

/-- The call ended with a token, and did not just read a stored one. -/
def Granted (body : TokenResponseBody) :
    (c : PersonCall) → (personService E cr config).Reply c → Prop
  | .exchangeToken _ _, reply | .resumePending _ _, reply
  | .resolveInteractionCallback _ _, reply => reply = .ok (.granted body)
  | .pollPending _, _ | .beginInteraction _, _ => False

/-- Whatever the policy decides on this occasion is to federate. -/
structure Federates (e : PersonTurn E cr config) : Prop where
  evaluate : ∀ ctx d, e.moment.env (.evaluate ctx) (.ok d) → d = .federate
  resume : ∀ ctx input d, e.moment.env (.resume ctx input) (.ok d) →
    d = .federate

/-- The exchange a call goes back to: itself, or the one that opened the
request it is about. -/
def GoesBackTo (earlier : List (PersonTurn E cr config)) (c : PersonCall)
    (ctx : PersonTokenContext) (agentJwt : String) : Prop :=
  c = .exchangeToken ctx agentJwt ∨
    ∃ id, (personExchanges E cr config).target c = some id ∧
      OpenedBy earlier ctx agentJwt id

/-- Where the federated tokens of a run come from, and what of a
federation stays. -/
structure FederationProvenance (hist : List (PersonTurn E cr config)) :
    Prop where
  /-- A token handed out for a federated record. -/
  granted : ∀ later e earlier, hist = later ++ e :: earlier →
    ∀ id r body, (personExchanges E cr config).target e.call = some id →
      e.pre.records.lookup id = some r → r.context.federation.isSome →
      (personExchanges E cr config).Grants body e.call e.reply →
      ∃ ctx agentJwt, OpenedBy earlier ctx agentJwt id ∧
        FederatedToken (e :: earlier) ctx agentJwt body
  /-- A token kept in a federated record. -/
  stored : ∀ later e earlier, hist = later ++ e :: earlier →
    ∀ id r body, e.post.records.lookup id = some r →
      r.context.federation.isSome →
      r.snapshot = .complete (.authToken body) →
      ∃ ctx agentJwt, OpenedBy (e :: earlier) ctx agentJwt id ∧
        FederatedToken (e :: earlier) ctx agentJwt body
  /-- A token that a decision to federate ends with. -/
  decided : ∀ later e earlier, hist = later ++ e :: earlier →
    Federates e → ∀ body, Granted body e.call e.reply →
      ∃ ctx agentJwt, GoesBackTo earlier e.call ctx agentJwt ∧
        FederatedToken (e :: earlier) ctx agentJwt body
  /-- A federated record stays with its Access Server and agent token. -/
  kept : ∀ e ∈ hist, ∀ id r r' fed, e.pre.records.lookup id = some r →
    r.context.federation = some fed → e.post.records.lookup id = some r' →
    r'.context.agentToken = r.context.agentToken ∧
      ∃ fed', r'.context.federation = some fed' ∧
        fed'.accessServerUrl = fed.accessServerUrl

/-! ## The invariant -/

/-- What ties a record to the exchange that opened it. -/
structure Pursued (hist : List (PersonTurn E cr config))
    (ctx : PersonTokenContext) (agentJwt : String)
    (r : PersonPendingRecord) : Prop where
  carries : Carries ctx agentJwt r
  server : ∀ fed, r.context.federation = some fed →
    ForServer cr ctx.exchangeRequest.resourceToken fed.accessServerUrl
  stored : ∀ body, r.context.federation.isSome →
    r.snapshot = .complete (.authToken body) →
    FederatedToken hist ctx agentJwt body

theorem FederatedToken.cons (h : FederatedToken hist ctx agentJwt body)
    (e : PersonTurn E cr config) :
    FederatedToken (e :: hist) ctx agentJwt body := by
  obtain ⟨url, hurl, d, hd, ha⟩ := h
  exact ⟨url, hurl, d, List.mem_cons_of_mem _ hd, ha⟩

theorem Pursued.cons {r : PersonPendingRecord}
    (h : Pursued hist ctx agentJwt r) (e : PersonTurn E cr config) :
    Pursued (e :: hist) ctx agentJwt r :=
  ⟨h.carries, h.server, fun body hf hs => (h.stored body hf hs).cons e⟩

/-- A token accepted while the front call was served. -/
theorem Accepted.federated {url : String}
    (hurl : ForServer cr ctx.exchangeRequest.resourceToken url)
    (h : Accepted cr config e.moment.env agentJwt url body) :
    FederatedToken (e :: hist) ctx agentJwt body :=
  ⟨url, hurl, e, List.mem_cons_self, h⟩

/-- A ruling on a record that was not federated. -/
theorem RuledOn.pursued {r r' : PersonPendingRecord}
    {interaction : Option ResourceInteractionClaim}
    {d : PersonTokenDecision} {reply : FlowReply E}
    (hp : Pursued hist ctx agentJwt r) (hf : r.context.federation = none)
    (h : RuledOn cr config e.moment.env id r { r.context.toTokenContext with
        resourceClaims.interaction := interaction } r.context.agentToken d
      reply (.write r')) :
    Pursued (e :: hist) ctx agentJwt r' := by
  have hc := h.carries hp.carries
  have unfederated : r'.context = r.context →
      Pursued (e :: hist) ctx agentJwt r' := by
    intro hr'
    refine ⟨hc, fun fed h => ?_, fun body h => ?_⟩
    · rw [hr', hf] at h
      cases h
    · rw [hr', hf] at h
      cases h
  obtain ⟨ruling, hr, -, hch⟩ := h
  cases ruling with
  | failure e | unauthorized => cases hch
  | token body =>
      cases hch
      exact unfederated rfl
  | denial e =>
      cases hch
      exact unfederated rfl
  | deferral requirement fed =>
      cases fed with
      | none =>
          cases hch
          exact unfederated rfl
      | some fed =>
          cases hch
          refine ⟨hc, fun fed' h => ?_, nofun⟩
          cases h
          cases hr with
          | federated hurl _ =>
              rw [← hp.carries.request]
              exact hurl

/-- An input to a federated record. -/
theorem Posted.pursued {r r' : PersonPendingRecord}
    {fed : FederationPendingState} {input : PendingInput}
    {reply : FlowReply E} (hp : Pursued hist ctx agentJwt r)
    (hf : r.context.federation = some fed)
    (h : Posted cr config e.moment.env id r fed input reply (.write r')) :
    Pursued (e :: hist) ctx agentJwt r' := by
  have hc := h.carries hp.carries
  have hurl := hp.server fed hf
  cases h with
  | cancelled _ => exact ⟨hc, hp.server, nofun⟩
  | denied _ => exact ⟨hc, hp.server, nofun⟩
  | accepted _ ha =>
      refine ⟨hc, hp.server, fun body _ hs => ?_⟩
      cases hs
      rw [hp.carries.agentToken] at ha
      exact ha.federated hurl
  | moved _ =>
      refine ⟨hc, fun fed' h => ?_, nofun⟩
      cases h
      exact hurl

theorem Pursued.consumed {r : PersonPendingRecord}
    (h : Pursued hist ctx agentJwt r) :
    Pursued hist ctx agentJwt r.consumed := by
  refine ⟨h.carries.update rfl rfl fun h => h, h.server,
    fun body hf hs => h.stored body hf ?_⟩
  cases hr : r.snapshot with
  | waiting _ _ => simp [PersonPendingRecord.consumed, hr] at hs
  | complete _ => simpa [PersonPendingRecord.consumed, hr] using hs

theorem Wrote.pursued {r r' : PersonPendingRecord}
    (hp : Pursued hist ctx agentJwt r)
    (h : Wrote cr config e.moment.env id r e.call e.reply r') :
    Pursued (e :: hist) ctx agentJwt r' := by
  obtain ⟨pre, m, c, reply, post⟩ := e
  cases c with
  | exchangeToken _ _ | pollPending _ => exact h.elim
  | resumePending id' input =>
      obtain ⟨-, h⟩ := h
      cases h with
      | posted hf h => exact h.pursued hp hf
      | decided hf _ h => exact h.pursued hp hf
  | beginInteraction code =>
      obtain ⟨rfl, -⟩ := h
      exact hp.consumed.cons _
  | resolveInteractionCallback id' err =>
      obtain ⟨-, h⟩ := h
      cases h with
      | error =>
          exact ⟨hp.carries.update rfl rfl fun h => h, hp.server,
            nofun⟩
      | decided hf _ h => exact h.pursued hp hf

theorem Opens.pursued {c : PersonPendingContext}
    {requirement : DeferRequirement} {t ttl : Nat}
    (h : Opens cr config e.moment.env ctx agentJwt c requirement) :
    Pursued (e :: hist) ctx agentJwt
      (.new t id c (.ofRequirement requirement) ttl) := by
  have hc : Carries ctx agentJwt
      (.new t id c (.ofRequirement requirement) ttl) := h.carries
  cases h with
  | gated _ _ _ => exact ⟨hc, nofun, nofun⟩
  | deferred _ _ hr =>
      refine ⟨hc, fun fed h => ?_, nofun⟩
      cases h
      cases hr with
      | federated hurl _ => exact hurl

variable {G : List (PersonTurn E cr config) →
    ServiceState PersonPendingContext → Occasion personExt → PersonCall →
    Prop}

theorem PersonHistory.pursued (run : PersonHistory G hist s) :
    Tracked (fun hist ctx agentJwt _ => Pursued hist ctx agentJwt) hist s :=
  run.tracked (fun e h => h.cons e) (fun _ _ h => h.pursued)
    (fun _ _ hp _ _ h => h.pursued hp)

/-! ## What a call hands out -/

/-- A ruling that ends with a token after a decision to federate. -/
theorem Ruled.federatedToken (hist : List (PersonTurn E cr config))
    {d : PersonTokenDecision}
    (h : Ruled cr config e.moment.env ctx agentJwt d (.token body))
    (hd : d = .federate) : FederatedToken (e :: hist) ctx agentJwt body := by
  subst hd
  cases h with
  | accepted hurl _ ha => exact ha.federated hurl

/-- The same on a record, for the exchange that opened it. -/
theorem RuledOn.federatedToken {r : PersonPendingRecord}
    {interaction : Option ResourceInteractionClaim}
    {d : PersonTokenDecision} {ch : PersonChange}
    (hp : Pursued hist ctx agentJwt r)
    (h : RuledOn (E := E) cr config e.moment.env id r
      { r.context.toTokenContext with
        resourceClaims.interaction := interaction } r.context.agentToken d
      (.ok (.granted body)) ch) (hd : d = .federate) :
    FederatedToken (e :: hist) ctx agentJwt body := by
  obtain ⟨ruling, hr, hreply, -⟩ := h
  cases ruling with
  | failure _ | unauthorized | denial _ | deferral _ _ => cases hreply
  | token body =>
      cases hreply
      obtain ⟨url, hurl, ht⟩ := hr.federatedToken hist hd
      refine ⟨url, ?_, hp.carries.agentToken ▸ ht⟩
      rw [← hp.carries.request]
      exact hurl

theorem Posted.federatedToken {r : PersonPendingRecord}
    {fed : FederationPendingState} {input : PendingInput}
    {ch : PersonChange} (hp : Pursued hist ctx agentJwt r)
    (hf : r.context.federation = some fed)
    (h : Posted (E := E) cr config e.moment.env id r fed input
      (.ok (.granted body)) ch) :
    FederatedToken (e :: hist) ctx agentJwt body := by
  cases h with
  | accepted _ ha =>
      rw [hp.carries.agentToken] at ha
      exact ha.federated (hp.server fed hf)

/-- A token handed out for a federated record was accepted. -/
theorem PersonServes.granted {r : PersonPendingRecord}
    (h : PersonServes cr config e.moment.env e.moment.time e.pre e.call
      e.reply e.post)
    (hid : (personExchanges E cr config).target e.call = some id)
    (hl : e.pre.records.lookup id = some r)
    (hf : r.context.federation.isSome)
    (hg : (personExchanges E cr config).Grants body e.call e.reply)
    (hp : Pursued hist ctx agentJwt r) :
    FederatedToken (e :: hist) ctx agentJwt body := by
  obtain ⟨pre, m, c, reply, post⟩ := e
  obtain ⟨fed, hf⟩ := Option.isSome_iff_exists.mp hf
  cases c with
  | exchangeToken _ _ | beginInteraction _ => cases hid
  | pollPending id' =>
      cases hid
      obtain ⟨ch, h, -⟩ := h
      cases (hg : reply = _)
      obtain ⟨r', hl', -, hr, -⟩ := h.granted nofun
      cases hl.symm.trans hl'
      have hs := pollOutcomeFromSnapshot_eq_complete.mp (Except.ok.inj hr).symm
      exact (hp.stored body (by rw [hf]; rfl) hs).cons _
  | resumePending id' input =>
      cases hid
      obtain ⟨ch, h, -⟩ := h
      cases (hg : reply = _)
      obtain ⟨r', hl', -, h⟩ := h.granted nofun
      cases hl.symm.trans hl'
      cases h with
      | posted hf' h => exact h.federatedToken hp hf'
      | decided hn _ _ => cases hf.symm.trans hn
  | resolveInteractionCallback id' err =>
      cases hid
      obtain ⟨ch, h, -⟩ := h
      cases (hg : reply = _)
      obtain ⟨r', hl', -, h⟩ := h.granted nofun
      cases hl.symm.trans hl'
      cases h with
      | decided hn _ _ => cases hf.symm.trans hn

/-- A token that a decision to federate ended with was accepted. -/
theorem PersonServes.decided
    (h : PersonServes cr config e.moment.env e.moment.time e.pre e.call
      e.reply e.post) (hfed : Federates e) (hg : Granted body e.call e.reply)
    (hs : Tracked (fun hist ctx agentJwt _ => Pursued hist ctx agentJwt)
      hist e.pre) :
    ∃ ctx agentJwt, GoesBackTo hist e.call ctx agentJwt ∧
      FederatedToken (e :: hist) ctx agentJwt body := by
  obtain ⟨pre, m, c, reply, post⟩ := e
  cases c with
  | exchangeToken ctx agentJwt =>
      refine ⟨ctx, agentJwt, .inl rfl, ?_⟩
      cases (hg : reply = _)
      cases h with
      | decided _ hd hr hc =>
          cases hc with
          | token => exact hr.federatedToken _ (hfed.evaluate _ _ hd)
  | pollPending _ | beginInteraction _ => exact hg.elim
  | resumePending id input =>
      obtain ⟨ch, h, -⟩ := h
      cases (hg : reply = _)
      obtain ⟨r, hl, -, h⟩ := h.granted nofun
      obtain ⟨ctx, agentJwt, ho, hp⟩ := hs.opened id r hl
      refine ⟨ctx, agentJwt, .inr ⟨id, rfl, ho⟩, ?_⟩
      cases h with
      | posted hf h => exact h.federatedToken hp hf
      | decided _ hd h => exact h.federatedToken hp (hfed.resume _ _ _ hd)
  | resolveInteractionCallback id err =>
      obtain ⟨ch, h, -⟩ := h
      cases (hg : reply = _)
      obtain ⟨r, hl, -, h⟩ := h.granted nofun
      obtain ⟨ctx, agentJwt, ho, hp⟩ := hs.opened id r hl
      refine ⟨ctx, agentJwt, .inr ⟨id, rfl, ho⟩, ?_⟩
      cases h with
      | decided _ hd h => exact h.federatedToken hp (hfed.evaluate _ _ hd)

/-! ## What stays -/

/-- A write leaves a federated record with its server and agent token. -/
theorem Wrote.kept {r r' : PersonPendingRecord}
    {fed : FederationPendingState} (hf : r.context.federation = some fed)
    (h : Wrote cr config e.moment.env id r e.call e.reply r') :
    r'.context.agentToken = r.context.agentToken ∧
      ∃ fed', r'.context.federation = some fed' ∧
        fed'.accessServerUrl = fed.accessServerUrl := by
  obtain ⟨pre, m, c, reply, post⟩ := e
  cases c with
  | exchangeToken _ _ | pollPending _ => exact h.elim
  | resumePending id' input =>
      obtain ⟨-, h⟩ := h
      cases h with
      | decided hn _ _ => cases hf.symm.trans hn
      | posted hf' h =>
          cases hf.symm.trans hf'
          cases h with
          | cancelled _ | denied _ | accepted _ _ => exact ⟨rfl, fed, hf, rfl⟩
          | moved _ => exact ⟨rfl, _, rfl, rfl⟩
  | beginInteraction code =>
      obtain ⟨rfl, -⟩ := h
      exact ⟨rfl, fed, hf, rfl⟩
  | resolveInteractionCallback id' err =>
      obtain ⟨-, h⟩ := h
      cases h with
      | error => exact ⟨rfl, fed, hf, rfl⟩
      | decided hn _ _ => cases hf.symm.trans hn

/-- A record that was there before the call was not opened by it. -/
theorem Found.of_lookup {r r' : PersonPendingRecord}
    (hdrawn : ∀ id r, e.pre.records.lookup id = some r → id ∈ e.pre.issued)
    (hl : e.pre.records.lookup id = some r) (h : Found e id r') :
    r' = r ∨ r.isExpired e.moment.time = false ∧
      Wrote cr config e.moment.env id r e.call e.reply r' := by
  cases h with
  | kept hl' => exact .inl (Option.some.inj (hl'.symm.trans hl))
  | wrote hl' hx hw =>
      cases hl.symm.trans hl'
      exact .inr ⟨hx, hw⟩
  | opened _ hnew _ _ => exact absurd (hdrawn id r hl) hnew

/-! ## Runs -/

/-- In every run, whatever the policy decides and the Access Server sends,
federated tokens come from the server the resource token names. -/
theorem federation_provenance
    (run : PersonHistory (fun _ _ _ _ => True) hist s) :
    FederationProvenance hist where
  granted later e earlier he id r body hid hl hf hg := by
    subst he
    obtain ⟨-, hrun, -, hx⟩ := run.split.front
    obtain ⟨ctx, agentJwt, ho, hp⟩ :=
      (PersonHistory.pursued hrun).opened id r hl
    exact ⟨ctx, agentJwt, ho,
      (personServes_of_exec hx).granted hid hl hf hg hp⟩
  stored later e earlier he id r body hl hf hs := by
    subst he
    obtain ⟨ctx, agentJwt, ho, hp⟩ :=
      (PersonHistory.pursued run.split).opened id r hl
    exact ⟨ctx, agentJwt, ho, hp.stored body hf hs⟩
  decided later e earlier he hfed body hg := by
    subst he
    obtain ⟨-, hrun, -, hx⟩ := run.split.front
    exact (personServes_of_exec hx).decided hfed hg
      (PersonHistory.pursued hrun)
  kept e he id r r' fed hl hf hl' := by
    obtain ⟨later, earlier, rfl⟩ := List.append_of_mem he
    obtain ⟨-, hrun, -, hx⟩ := run.split.front
    have hfound : Found e id r' := (personServes_of_exec hx).found hl'
    rcases hfound.of_lookup (PersonHistory.pursued hrun).drawn hl with
      rfl | ⟨-, hw⟩
    · exact ⟨rfl, fed, hf, rfl⟩
    · exact hw.kept hf

end Provenance

/-! ## At the sample parties -/

namespace Sample

/-- The agent's exchange, answered through its Access Server. -/
def federatedTurn (scope : Option String) :
    PersonTurn Empty crates personConfig :=
  ⟨⟨∅, []⟩, ⟨now, federatingEnv (.complete (accessBody scope))⟩,
    .exchangeToken (botContext federatedClaims) botJwt,
    .ok (.granted (accessBody scope)), ⟨∅, []⟩⟩

theorem federatedTurn_history (scope : Option String) :
    PersonHistory (fun _ _ _ _ => True) [federatedTurn scope] ⟨∅, []⟩ :=
  .serve .nil trivial
    (exchange_federated (federatingEnv_federating scope) _)

theorem federatedTurn_federates (scope : Option String) :
    Federates (federatedTurn scope) := by
  refine ⟨fun ctx d h => ?_, fun ctx input d h => ?_⟩
  · cases h
    rfl
  · cases h
    rfl

/-- The token it ends with is the Access Server's. -/
theorem federation_provenance_bot : ∃ ctx agentJwt,
    GoesBackTo ([] : List (PersonTurn Empty crates personConfig))
        (federatedTurn none).call ctx agentJwt ∧
      FederatedToken [federatedTurn none] ctx agentJwt (accessBody none) :=
  (federation_provenance (federatedTurn_history none)).decided [] _ [] rfl
    (federatedTurn_federates none) _ rfl

end Sample

end Aauth
