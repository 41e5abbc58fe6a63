import Aauth.Proofs.Provenance
import Aauth.Ref.Policies

/-!
# The Person Server mints for its own audience only

Nothing in the service compares the audience of a resource token with the
Person Server's URL; the shipped policies do, before every grant. Since a
record carries the audience and the server it was opened with, however
often it is deferred, the two are compared for the exchange as it was
made.
-/

namespace Aauth

open Effect

section SelfMint

/-! ## The policies -/

variable {cr : Crates} {ctx : PersonTokenContext} {grant : AuthGrant}

theorem grantOrFederate_grant {sub : String}
    (h : grantOrFederate cr sub ctx = .grant grant) :
    ctx.audienceIsPersonServer cr = true ∧
      grant = { sub, scope := ctx.resourceClaims.scope } := by
  rw [grantOrFederate] at h
  split at h
  · next ha =>
      cases h
      exact ⟨ha, rfl⟩
  · cases h

/-- A grant is for the Person Server's own audience and has the scope of
the resource token. -/
structure OwnGrant (cr : Crates) (ctx : PersonTokenContext)
    (grant : AuthGrant) : Prop where
  audience : ctx.audienceIsPersonServer cr = true
  scope : grant.scope = ctx.resourceClaims.scope

theorem OwnGrant.of_grantOrFederate {sub : String}
    (h : Except.ok (ε := PolicyError) (grantOrFederate cr sub ctx) =
      .ok (.grant grant)) : OwnGrant cr ctx grant := by
  obtain ⟨ha, rfl⟩ := grantOrFederate_grant (Except.ok.inj h)
  exact ⟨ha, rfl⟩

theorem PersonTokenPolicy.evaluate_grant {policy : PersonTokenPolicy}
    {buf : Bytes} (h : policy.evaluate cr ctx buf = .ok (.grant grant)) :
    OwnGrant cr ctx grant := by
  cases policy with
  | alwaysGrant policy => exact .of_grantOrFederate h
  | clarificationThenGrant policy => cases h
  | deferInteraction inner interactionUrl => cases h

theorem PersonTokenPolicy.resume_grant {policy : PersonTokenPolicy}
    {input : PendingInput}
    (h : policy.resume cr ctx input = .ok (.grant grant)) :
    OwnGrant cr ctx grant := by
  induction policy with
  | alwaysGrant policy =>
      cases input with
      | clarificationResponse _ | interactionCompleted | updatedToken _ =>
          exact .of_grantOrFederate h
      | claimsSubmission _ | cancelled => cases h
  | clarificationThenGrant policy =>
      cases input with
      | clarificationResponse _ | interactionCompleted | updatedToken _ =>
          exact .of_grantOrFederate h
      | claimsSubmission _ | cancelled => cases h
  | deferInteraction inner interactionUrl ih => exact ih h

/-! ## Decisions -/

variable {E : Type} {config : PersonServerConfig}
  {env : (o : PersonOp) → personExt.Ans o → Prop} {t : Nat}
  {policy : PersonTokenPolicy} {agentJwt : String}

theorem Decided.ownGrant {m : PersonMap} {c : PersonCall}
    (hp : policy.Governs cr env)
    (h : Decided env t m c ctx agentJwt (.grant grant)) :
    OwnGrant cr ctx grant := by
  cases h with
  | exchanged _ hd =>
      obtain ⟨buf, hd⟩ := hp.evaluate _ _ hd
      exact PersonTokenPolicy.evaluate_grant hd.symm
  | resumed _ _ _ hd =>
      exact PersonTokenPolicy.resume_grant (hp.resume _ _ _ hd).symm
  | calledBack _ _ _ hd =>
      obtain ⟨buf, hd⟩ := hp.evaluate _ _ hd
      exact PersonTokenPolicy.evaluate_grant hd.symm

variable {hist : List (PersonTurn E cr config)}
  {s : ServiceState PersonPendingContext} {c : PersonCall}

/-- What is decided on is the exchange a call goes back to, up to the
interaction the resource asked for. -/
theorem Decided.goesBack {d : PersonTokenDecision}
    (hs : Tracked (fun _ ctx agentJwt _ => Carries ctx agentJwt) hist s)
    (h : Decided env t s.records c ctx agentJwt d) :
    ∃ ctx₀ interaction, GoesBackTo hist c ctx₀ agentJwt ∧
      ctx = { ctx₀ with resourceClaims.interaction := interaction } := by
  cases h with
  | exchanged _ _ => exact ⟨ctx, ctx.resourceClaims.interaction, .inl rfl, rfl⟩
  | resumed hl _ _ _ =>
      obtain ⟨ctx₀, agentJwt, ho, hc⟩ := hs.opened _ _ hl
      obtain ⟨interaction, hctx⟩ := hc.context
      exact ⟨ctx₀, interaction,
        .inr ⟨_, rfl, hc.agentToken.symm ▸ ho⟩, hctx⟩
  | calledBack hl _ _ _ =>
      obtain ⟨ctx₀, agentJwt, ho, hc⟩ := hs.opened _ _ hl
      exact ⟨ctx₀, none, .inr ⟨_, rfl, hc.agentToken.symm ▸ ho⟩, hc.decided⟩

/-! ## Runs -/

/-- The call goes back to an exchange whose resource token is for the
Person Server. -/
def OwnExchange (hist : List (PersonTurn E cr config)) (c : PersonCall) :
    Prop :=
  ∃ ctx agentJwt, GoesBackTo hist c ctx agentJwt ∧
    ctx.audienceIsPersonServer cr = true

/-- The token was accepted from the Access Server that the exchange the
call goes back to names. -/
def TakenFromServer (env : (o : PersonOp) → personExt.Ans o → Prop)
    (hist : List (PersonTurn E cr config)) (c : PersonCall)
    (body : TokenResponseBody) : Prop :=
  ∃ ctx agentJwt url, GoesBackTo hist c ctx agentJwt ∧
    ForServer cr ctx.exchangeRequest.resourceToken url ∧
    Accepted cr config env agentJwt url body

/-- The Person Server mints only for calls that go back to its own
audience. -/
def MintsForOwn (hist : List (PersonTurn E cr config)) (c : PersonCall) :
    PersonOp → Prop
  | .mintPersonAuthJwt _ _ _ _ _ _ => OwnExchange hist c
  | _ => True

theorem Decided.ownExchange (hp : policy.Governs cr env)
    (hs : Tracked (fun _ ctx agentJwt _ => Carries ctx agentJwt) hist s)
    (h : Decided env t s.records c ctx agentJwt (.grant grant)) :
    OwnExchange hist c := by
  obtain ⟨ctx₀, interaction, hgo, rfl⟩ := h.goesBack hs
  exact ⟨ctx₀, agentJwt, hgo, (h.ownGrant hp).audience⟩

theorem Decided.token {d : PersonTokenDecision} {body : TokenResponseBody}
    (hp : policy.Governs cr env)
    (hs : Tracked (fun _ ctx agentJwt _ => Carries ctx agentJwt) hist s)
    (h : Decided env t s.records c ctx agentJwt d)
    (hr : Ruled cr config env ctx agentJwt d (.token body)) :
    OwnExchange hist c ∨ TakenFromServer env hist c body := by
  cases hr with
  | minted _ => exact .inl (h.ownExchange hp hs)
  | accepted hurl _ ha =>
      obtain ⟨ctx₀, interaction, hgo, rfl⟩ := h.goesBack hs
      exact .inr ⟨ctx₀, agentJwt, _, hgo, hurl, ha⟩

/-- A token of a ruling on a record is the ruling's token. -/
theorem RuledOn.token {r : PersonPendingRecord} {d : PersonTokenDecision}
    {body : TokenResponseBody} {ch : PersonChange} {id : String}
    (h : RuledOn (E := E) cr config env id r ctx agentJwt d
      (.ok (.granted body)) ch) :
    Ruled cr config env ctx agentJwt d (.token body) := by
  obtain ⟨ruling, hr, hreply, -⟩ := h
  cases ruling with
  | failure _ | unauthorized | denial _ | deferral _ _ => cases hreply
  | token body =>
      cases hreply
      exact hr

/-- A token of a call is the Person Server's own, for its own audience, or
the Access Server's. -/
theorem PersonServes.token {m : Occasion personExt}
    {reply : (personService E cr config).Reply c}
    {s' : ServiceState PersonPendingContext} {body : TokenResponseBody}
    (hp : policy.Governs cr m.env)
    (hs : Tracked (fun hist ctx agentJwt _ => Pursued hist ctx agentJwt)
      hist s)
    (h : PersonServes cr config m.env m.time s c reply s')
    (hg : Granted body c reply) :
    OwnExchange hist c ∨ TakenFromServer m.env hist c body := by
  have hcarries : Tracked (fun _ ctx agentJwt _ => Carries ctx agentJwt)
      hist s := hs.mono fun h => h.carries
  cases c with
  | exchangeToken ctx agentJwt =>
      cases (hg : reply = _)
      cases h with
      | decided hi hd hr hc =>
          cases hc with
          | token =>
              exact (Decided.exchanged (t := m.time) hi hd).token hp hcarries
                hr
  | pollPending _ | beginInteraction _ => exact hg.elim
  | resumePending id input =>
      obtain ⟨ch, h, -⟩ := h
      cases (hg : reply = _)
      obtain ⟨r, hl, hx, h⟩ := h.granted nofun
      cases h with
      | decided hf hd h =>
          exact (Decided.resumed hl hx hf hd).token hp hcarries h.token
      | posted hf h =>
          obtain ⟨ctx, agentJwt, ho, hpur⟩ := hs.opened id r hl
          cases h with
          | accepted _ ha =>
              rw [hpur.carries.agentToken] at ha
              exact .inr ⟨ctx, agentJwt, _, .inr ⟨id, rfl, ho⟩,
                hpur.server _ hf, ha⟩
  | resolveInteractionCallback id err =>
      obtain ⟨ch, h, -⟩ := h
      cases (hg : reply = _)
      obtain ⟨r, hl, hx, h⟩ := h.granted nofun
      cases h with
      | decided hf hd h =>
          exact (Decided.calledBack hl hx hf hd).token hp hcarries h.token

/-- Under a shipped policy, whatever was called before, a call mints only
when it goes back to an exchange for the Person Server's own audience, and
any other token it ends with was taken from the Access Server. -/
theorem self_mint_own_audience
    {G : List (PersonTurn E cr config) → ServiceState PersonPendingContext →
      Occasion personExt → PersonCall → Prop}
    (run : PersonHistory G hist s) (m : Occasion personExt)
    (hp : policy.Governs cr m.env) (c : PersonCall) :
    wp (occasionWorld m) (OnExt (MintsForOwn hist c))
      ((personService E cr config).prog c)
      (fun reply _ => ∀ body, Granted body c reply →
        OwnExchange hist c ∨ TakenFromServer m.env hist c body) s := by
  have hs := run.pursued
  refine wp_weaken (fun _ o ho => ?_) (fun reply s' h => ?_)
    (personServes (t := m.time) c)
  case refine_2 =>
    intro body hg
    exact h.token hp hs hg
  cases o with
  | ext o =>
      cases o with
      | mintPersonAuthJwt iss aud agent agentJwk sub scope =>
          obtain ⟨ctx, agentJwt, grant, hd, -⟩ := ho
          exact hd.ownExchange hp run.carries
      | evaluate _ | resume _ _ | codeBytes | fetchMetadata _
      | exchangeToken _ _ | resumePending _ _ | pollPending _ _
      | verifyEnv | panic => trivial
  | store _ | now | pendingIdBytes => trivial

end SelfMint

/-! ## At the sample parties -/

namespace Sample

/-- An exchange at the Access Server, and an empty history. -/
def federatedCall : PersonCall :=
  .exchangeToken (botContext federatedClaims) botJwt

abbrev noTurns : List (PersonTurn Empty crates personConfig) := []

/-- The Access Server is about to answer it with a token. -/
abbrev answeringEnv (o : PersonOp) (a : personExt.Ans o) : Prop :=
  shippedEnv grantAll (.complete (accessBody none)) o a

/-- No token is minted for the agent's exchange at the Access Server, and
none is granted that did not come from there. -/
theorem self_mint_own_audience_bot :
    wp (occasionWorld ⟨now, answeringEnv⟩)
      (OnExt (MintsForOwn noTurns federatedCall))
      ((personService Empty crates personConfig).prog federatedCall)
      (fun reply _ => ∀ body, Granted body federatedCall reply →
        OwnExchange noTurns federatedCall ∨
          TakenFromServer answeringEnv noTurns federatedCall body)
      ⟨∅, []⟩ :=
  self_mint_own_audience (G := fun _ _ _ _ => True) .nil
    ⟨now, answeringEnv⟩ (shippedEnv_governs grantAll _) _

end Sample

end Aauth
