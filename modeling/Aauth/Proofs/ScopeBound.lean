import Aauth.Proofs.AccessRuns
import Aauth.Proofs.Audience
import Aauth.Proofs.SelfMint
import Aauth.Proofs.Tokens

/-!
# The scope of granted tokens

The shipped policies grant the scope of the resource token and nothing
else, and the minters take it over as it is. A federated token brings the
scope another server gave it; it is checked for its issuer, audience and
agent, and its scope is not looked at. So the scope stays within the
resource token's as long as the Access Server keeps to it.
-/

namespace Aauth

open Text Effect

/-! ## Scopes -/

/-- The values of a space-separated scope. -/
def scopeValues (scope : Option String) : List String :=
  (split (scope.getD "") ' ').filter (· ≠ "")

/-- The body carries an auth token whose scope values are among those of
`scope`. -/
def ScopeWithin (cr : Crates) (scope : Option String)
    (body : TokenResponseBody) : Prop :=
  ∃ c, ParsedToken.parse cr body.authToken = .ok (.auth c) ∧
    scopeValues c.scope ⊆ scopeValues scope

section Person

variable {E : Type} {cr : Crates} {config : PersonServerConfig}
  {s : ServiceState PersonPendingContext} {m : Occasion personExt}
  {c : PersonCall} {key : Ed25519KeyPair} {policy : PersonTokenPolicy}

/-- Whatever the Access Server hands over that passes the Person Server's
checks, at an exchange the policy federates or for a federated record,
has no scope value that the resource token has not. -/
structure ServerKeepsScope (cr : Crates) (config : PersonServerConfig)
    (s : ServiceState PersonPendingContext) (m : Occasion personExt)
    (c : PersonCall) : Prop where
  exchanged : ∀ ctx agentJwt endpoint url body claims,
    Decided m.env m.time s.records c ctx agentJwt .federate →
    ForServer cr ctx.exchangeRequest.resourceToken url →
    m.env (.exchangeToken endpoint (federationRequest
      ctx.exchangeRequest.resourceToken agentJwt)) (.ok (.complete body)) →
    Accepted cr config m.env agentJwt url body →
    ParsedToken.parse cr body.authToken = .ok (.auth claims) →
    scopeValues claims.scope ⊆ scopeValues ctx.resourceClaims.scope
  posted : ∀ id input r fed body claims, c = .resumePending id input →
    s.records.lookup id = some r → r.isExpired m.time = false →
    r.context.federation = some fed →
    Answered config m.env fed input (.authToken body) →
    Accepted cr config m.env r.context.agentToken fed.accessServerUrl body →
    ParsedToken.parse cr body.authToken = .ok (.auth claims) →
    scopeValues claims.scope ⊆ scopeValues r.context.resourceClaims.scope

/-- An accepted token is an auth token. -/
theorem Accepted.parsed (laws : JwtLaws cr) {agentJwt url : String}
    {body : TokenResponseBody}
    (h : Accepted cr config m.env agentJwt url body) :
    ∃ claims, ParsedToken.parse cr body.authToken = .ok (.auth claims) := by
  obtain ⟨venv, -, hv⟩ := h
  obtain ⟨claims, hp, -⟩ := verifyFederated_hasAudience laws hv
  exact ⟨claims, hp⟩

theorem ServerKeepsScope.secures (laws : JwtLaws cr) (mint : MintLaws cr)
    (hp : policy.Governs cr m.env) (minter : PersonMinter cr key m.env)
    (h : ServerKeepsScope cr config s m c) :
    Secures cr config
      (fun ctx body => ScopeWithin cr ctx.resourceClaims.scope body)
      s m c where
  ruled ctx agentJwt d body hd hr := by
    cases hr with
    | minted hm =>
        obtain ⟨now, jti, hjwt⟩ := minter _ _ _ _ _ _ _ hm
        refine ⟨_, parse_encodeAuthJwt mint hjwt.symm rfl, ?_⟩
        have hs := (hd.ownGrant hp).scope
        show scopeValues _ ⊆ _
        rw [← hs]
        exact fun v hv => hv
    | accepted hurl he ha =>
        obtain ⟨claims, hc⟩ := ha.parsed laws
        exact ⟨claims, hc, h.exchanged _ _ _ _ _ _ hd hurl he ha hc⟩
  posted id input r fed body hcall hl hx hf hb ha := by
    obtain ⟨claims, hc⟩ := ha.parsed laws
    exact ⟨claims, hc, h.posted _ _ _ _ _ _ hcall hl hx hf hb ha hc⟩

end Person

/-! ## The Access Server -/

namespace Access

section Access

variable {cr : Crates} {config : AccessServerConfig}
  {s : ServiceState AccessPendingContext} {m : Occasion accessExt}
  {c : Call} {key : Ed25519KeyPair} {policy : AccessTokenPolicy}
  {ctx : AccessTokenContext} {grant : AuthGrant}

theorem scopeGrant_scope {sub : String}
    (h : Except.ok (ε := PolicyError) (scopeGrant sub ctx) =
      .ok (.grant grant)) : grant.scope = ctx.resourceClaims.scope := by
  cases h
  rfl

theorem AccessTokenPolicy.evaluate_scope {buf : Bytes}
    (h : policy.evaluate ctx buf = .ok (.grant grant)) :
    grant.scope = ctx.resourceClaims.scope := by
  cases policy with
  | alwaysGrant policy => exact scopeGrant_scope h
  | clarificationThenGrant _ | deferClaims _ | deferApproval _
  | deferInteraction _ _ => cases h

theorem AccessTokenPolicy.resume_scope {input : PendingInput}
    (h : policy.resume ctx input = .ok (.grant grant)) :
    grant.scope = ctx.resourceClaims.scope := by
  induction policy with
  | alwaysGrant policy | clarificationThenGrant policy
  | deferClaims policy | deferApproval policy =>
      cases input <;> first | exact scopeGrant_scope h | cases h
  | deferInteraction inner interactionUrl ih => exact ih h

theorem Decided.scope {t : Nat} {map : AccessMap}
    (hp : policy.Governs m.env)
    (h : Decided m.env t map c ctx (.grant grant)) :
    grant.scope = ctx.resourceClaims.scope := by
  cases h with
  | exchanged hd =>
      obtain ⟨buf, hd⟩ := hp.evaluate _ _ hd
      exact AccessTokenPolicy.evaluate_scope hd.symm
  | resumed _ _ hd =>
      exact AccessTokenPolicy.resume_scope (hp.resume _ _ _ hd).symm

/-- The scope minted on a grant is the resource token's. -/
theorem Decided.mintedScope {t : Nat} {map : AccessMap}
    (hp : policy.Governs m.env)
    (h : Decided m.env t map c ctx (.grant grant)) :
    (grant.scope <|> ctx.resourceClaims.scope) =
      ctx.resourceClaims.scope := by
  rw [h.scope hp]
  cases ctx.resourceClaims.scope with
  | none => rfl
  | some _ => rfl

theorem secures_scope (mint : MintLaws cr) (hp : policy.Governs m.env)
    (minter : Minter cr key m.env) :
    Secures config
      (fun ctx body => ScopeWithin cr ctx.resourceClaims.scope body)
      s m c := by
  intro ctx d body hd hr
  cases hr with
  | minted hm =>
      obtain ⟨now, jti, hjwt⟩ := minter _ _ _ _ _ _ _ hm
      refine ⟨_, parse_encodeAuthJwt mint hjwt.symm rfl, ?_⟩
      show scopeValues (_ <|> _) ⊆ _
      rw [hd.mintedScope hp]
      exact fun v hv => hv

end Access

end Access

/-! ## Both servers -/

namespace Sample

/-- The agent's exchange under a policy that grants, which federates it. -/
def shippedTurn (scope : Option String) :
    PersonTurn Empty crates personConfig :=
  ⟨⟨∅, []⟩, ⟨now, shippedEnv grantAll (.complete (accessBody scope))⟩,
    .exchangeToken (botContext federatedClaims) botJwt,
    .ok (.granted (accessBody scope)), ⟨∅, []⟩⟩

theorem shippedEnv_minter (policy : PersonTokenPolicy)
    (outcome : AccessServerExchangeOutcome) :
    PersonMinter crates personKey (shippedEnv policy outcome) := by
  intro iss aud agent agentJwk sub scope answer h
  refine ⟨now, "auth-1", ?_⟩
  rw [encodeAuthJwt_eq personKey rfl rfl]
  cases h
  rfl

theorem shippedTurn_exec (scope : Option String) :
    Exec (momentWorld (shippedEnv grantAll (.complete (accessBody scope)))
      now) ⟨∅, []⟩ (exchangeToken (E := Empty) crates personConfig
        (botContext federatedClaims) botJwt).run
      (.ok (.granted (accessBody scope))) ⟨∅, []⟩ :=
  exchange_federated (shippedEnv_federating scope) _

/-- The Access Server keeps to the resource token, which has no scope, by
giving none. -/
theorem shippedTurn_keepsScope :
    ServerKeepsScope crates personConfig ⟨∅, []⟩ (shippedTurn none).moment
      (shippedTurn none).call where
  exchanged ctx agentJwt endpoint url body claims _ _ he _ hc := by
    cases he
    rw [parse_accessBody] at hc
    cases hc
    exact List.nil_subset _
  posted _ _ _ _ _ _ hcall := nomatch hcall

end Sample

end Aauth
