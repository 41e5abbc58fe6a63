import Aauth.Proofs.Expiry
import Aauth.Proofs.ScopeBound

/-!
# Updated resource tokens

An agent may send a new resource token to a pending request. The services
pass it to the policy as the input of the resume, next to the context the
record was opened with; the shipped policies look at the context only, and
nothing verifies the new token. So it takes effect exactly when there is
nothing to take: when it verifies and says what the first one said.
-/

namespace Aauth

open Effect

/-- The new token passes the checks of `verify_resource_token` with these
claims, and has the issuer, the agent and the key of the original. -/
structure Updates (cr : Crates) (venv : VerifyEnv)
    (original : ResourceClaims) (u : UpdatedTokenRequest)
    (rc : ResourceClaims) : Prop where
  verified : verifyResourceToken cr venv
    { jwt := u.resourceToken, expectedAgent := some original.agent,
      expectedAgentJkt := some original.agentJkt } = .ok rc
  issuer : rc.iss = original.iss

section Person

variable {E : Type} {cr : Crates} {config : PersonServerConfig}
  {venv : VerifyEnv} {s : ServiceState PersonPendingContext}
  {m : Occasion personExt} {id : String} {r : PersonPendingRecord}
  {u : UpdatedTokenRequest} {policy : PersonTokenPolicy}

/-- Everything the Person Server asks, mints and forwards is about the
verified claims of the new token. -/
def DecidesOn (cr : Crates) (venv : VerifyEnv) (original : ResourceClaims)
    (u : UpdatedTokenRequest) : PersonOp → Prop
  | .evaluate ctx | .resume ctx _ =>
      Updates cr venv original u ctx.resourceClaims
  | .mintPersonAuthJwt _ _ _ _ _ scope =>
      ∃ rc, Updates cr venv original u rc ∧ scope = rc.scope
  | .exchangeToken _ request => ∃ rc, Updates cr venv original u rc ∧
      ParsedToken.parse cr request.resourceToken = .ok (.resource rc)
  | .resumePending _ input => input = .updatedToken u ∧
      ∃ rc, Updates cr venv original u rc
  | .fetchMetadata _ | .pollPending _ _ | .codeBytes | .verifyEnv
  | .panic => True

/-- The new token is what the request is decided on from here; when it does
not pass, nothing is granted and the record stays. -/
def UpdateTakesEffect (E : Type) (cr : Crates)
    (config : PersonServerConfig) (venv : VerifyEnv)
    (m : Occasion personExt) (s : ServiceState PersonPendingContext)
    (id : String) (r : PersonPendingRecord) (u : UpdatedTokenRequest) :
    Prop :=
  wp (occasionWorld m)
    (OnExt (DecidesOn cr venv r.context.resourceClaims u))
    ((personService E cr config).prog (.resumePending id (.updatedToken u)))
    (fun reply s' =>
      (∀ rc, ¬ Updates cr venv r.context.resourceClaims u rc) →
        (∀ body, reply ≠ .ok (.granted body)) ∧
          s'.records.lookup id = some r) s

/-- The new token passes, and for a live request that is not federated it
says what the first one said. -/
def UpdateAgrees (cr : Crates) (venv : VerifyEnv) (t : Nat)
    (r : PersonPendingRecord) (u : UpdatedTokenRequest) : Prop :=
  ∃ rc, Updates cr venv r.context.resourceClaims u rc ∧
    (r.isExpired t = false → r.context.federation = none →
      rc = r.context.resourceClaims)

theorem UpdateTakesEffect.agrees (hl : s.records.lookup id = some r)
    (h : UpdateTakesEffect E cr config venv m s id r u) :
    UpdateAgrees cr venv m.time r u := by
  simp only [UpdateTakesEffect, personService, resumePending,
    withLiveRecord, storeOp, wp_bind_except, wp_mapErr, wp_load, hl,
    Except.mapError, onExt_store, true_and, wp_liftProg, wp_systemNow,
    onExt_now] at h
  have h := h m.time rfl
  cases hx : r.isExpired m.time with
  | true =>
      simp only [hx, if_true, wp_bind_except, wp_liftProg, wp_remove,
        onExt_store, true_and, wp_pure_except] at h
      by_contra hn
      have hno : ∀ rc, ¬ Updates cr venv r.context.resourceClaims u rc := by
        intro rc hrc
        exact hn ⟨rc, hrc, fun hx' => by rw [hx] at hx'; cases hx'⟩
      have hkept := (h hno).2
      rw [AList.lookup_erase] at hkept
      cases hkept
  | false =>
      simp only [hx, Bool.false_eq_true, if_false] at h
      cases hf : r.context.federation with
      | some fed =>
          simp only [hf, handleFederatedPendingPost,
            PendingInput.isCancelled, Bool.false_eq_true, if_false,
            wp_bind_except, wp_liftProg, resumeAtAccessServer, wp_bind,
            wp_personOp, onExt_ext] at h
          obtain ⟨⟨-, rc, hrc⟩, -⟩ := h
          exact ⟨rc, hrc, fun _ hn => by rw [hf] at hn; cases hn⟩
      | none =>
          simp only [hf, wp_bind_except, wp_mapErr, wp_personOp,
            onExt_ext] at h
          exact ⟨_, h.1, fun _ _ => rfl⟩

/-- An unfederated record keeps its resource token and its claims
together. -/
def Coherent (cr : Crates) (r : PersonPendingRecord) : Prop :=
  r.context.federation = none →
    ParsedToken.parse cr r.context.exchangeRequest.resourceToken =
      .ok (.resource r.context.resourceClaims)

theorem UpdateAgrees.takesEffect (hl : s.records.lookup id = some r)
    (hr : Coherent cr r) (hp : policy.Governs cr m.env)
    (h : UpdateAgrees cr venv m.time r u) :
    UpdateTakesEffect E cr config venv m s id r u := by
  obtain ⟨rc, hrc, heq⟩ := h
  refine wp_weaken (fun _ o ho => ?_) (fun _ _ _ hno => absurd hrc (hno rc))
    (personServes (t := m.time) (.resumePending id (.updatedToken u)))
  -- The record a call on `id` is about is `r`.
  have same : ∀ {id' r'}, PersonCall.resumePending id (.updatedToken u) =
      .resumePending id' (.updatedToken u) →
      s.records.lookup id' = some r' → r' = r := by
    intro id' r' hc hl'
    cases hc
    exact Option.some.inj (hl'.symm.trans hl)
  cases o with
  | store _ | now | pendingIdBytes => trivial
  | ext o =>
      cases o with
      | evaluate ctx =>
          rcases ho with ⟨_, hc⟩ | ⟨_, _, hc, _⟩ <;> cases hc
      | resume ctx input =>
          obtain ⟨id', r', hc, hl', hx, hf, rfl⟩ := ho
          cases hc
          cases same rfl hl'
          have hagree := heq hx hf
          subst hagree
          exact hrc
      | mintPersonAuthJwt iss aud agent agentJwk sub scope =>
          obtain ⟨ctx, agentJwt, grant, hd, -, -, -, -, -, rfl⟩ := ho
          have hscope := (hd.ownGrant hp).scope
          cases hd with
          | resumed hl' hx hf _ =>
              cases same rfl hl'
              exact ⟨rc, hrc, hscope.trans (by rw [heq hx hf]; rfl)⟩
      | exchangeToken endpoint request =>
          obtain ⟨ctx, agentJwt, hd, rfl⟩ := ho
          cases hd with
          | resumed hl' hx hf _ =>
              cases same rfl hl'
              exact ⟨rc, hrc, (hr hf).trans (by rw [heq hx hf])⟩
      | resumePending url input =>
          obtain ⟨id', r', fed, hc, -⟩ := ho
          cases hc
          exact ⟨rfl, rc, hrc⟩
      | fetchMetadata _ | pollPending _ _ | codeBytes | verifyEnv | panic =>
          trivial

/-- The records of a run whose exchanges come from the token endpoint are
coherent. -/
theorem PersonHistory.coherent (laws : JwtLaws cr)
    {hist : List (PersonTurn E cr config)}
    (run : PersonHistory (fun _ _ _ c => PersonCall.Verified cr config c)
      hist s) (hl : s.records.lookup id = some r) : Coherent cr r := by
  intro hf
  obtain ⟨ctx, agentJwt, ⟨e, he, hcall, -⟩, hc⟩ := run.carries.opened id r hl
  obtain ⟨_, hv⟩ := run.guard_of_mem he
  rw [hcall] at hv
  obtain ⟨venv, jwt, jkt, request, hv⟩ := hv
  obtain ⟨c, rc, -, hrc, rfl⟩ := (verifyTokenRequest_eq_ok laws).mp hv
  have hctx := hc.unfederated hf
  have hrq : r.context.exchangeRequest = request :=
    congrArg PersonTokenContext.exchangeRequest hctx
  have hcl : r.context.resourceClaims = rc :=
    congrArg PersonTokenContext.resourceClaims hctx
  rw [hrq, hcl]
  exact hrc.parsed

end Person

/-! ## The Access Server -/

namespace Access

section Access

variable {E : Type} {cr : Crates} {config : AccessServerConfig}
  {venv : VerifyEnv} {s : ServiceState AccessPendingContext}
  {m : Occasion accessExt} {id : String} {r : AccessPendingRecord}
  {u : UpdatedTokenRequest} {policy : AccessTokenPolicy}

def DecidesOn (cr : Crates) (venv : VerifyEnv) (original : ResourceClaims)
    (u : UpdatedTokenRequest) : AccessOp → Prop
  | .evaluate ctx | .resume ctx _ =>
      Updates cr venv original u ctx.resourceClaims
  | .mintAccessAuthJwt _ _ _ _ _ scope =>
      ∃ rc, Updates cr venv original u rc ∧ scope = rc.scope

def UpdateTakesEffect (E : Type) (cr : Crates)
    (config : AccessServerConfig) (venv : VerifyEnv)
    (m : Occasion accessExt) (s : ServiceState AccessPendingContext)
    (id : String) (r : AccessPendingRecord) (u : UpdatedTokenRequest) :
    Prop :=
  wp (occasionWorld m)
    (OnExt (DecidesOn cr venv r.context.resourceClaims u))
    ((service E config).prog (.resumePending id (.updatedToken u)))
    (fun reply s' =>
      (∀ rc, ¬ Updates cr venv r.context.resourceClaims u rc) →
        (∀ body, reply ≠ .ok (.granted body)) ∧
          s'.records.lookup id = some r) s

/-- The new token passes, and for a live request it says what the first
one said. -/
def UpdateAgrees (cr : Crates) (venv : VerifyEnv) (t : Nat)
    (r : AccessPendingRecord) (u : UpdatedTokenRequest) : Prop :=
  ∃ rc, Updates cr venv r.context.resourceClaims u rc ∧
    (r.isExpired t = false → rc = r.context.resourceClaims)

theorem UpdateTakesEffect.agrees (hl : s.records.lookup id = some r)
    (h : UpdateTakesEffect E cr config venv m s id r u) :
    UpdateAgrees cr venv m.time r u := by
  simp only [UpdateTakesEffect, service, resumePending, storeOp,
    wp_bind_except, wp_mapErr, wp_load, hl, Except.mapError, onExt_store,
    true_and, wp_liftProg, wp_systemNow, onExt_now] at h
  have h := h m.time rfl
  cases hx : r.isExpired m.time with
  | true =>
      simp only [hx, if_true, wp_bind_except, wp_liftProg, wp_remove,
        onExt_store, true_and, wp_pure_except] at h
      by_contra hn
      have hno : ∀ rc, ¬ Updates cr venv r.context.resourceClaims u rc := by
        intro rc hrc
        exact hn ⟨rc, hrc, fun hx' => by rw [hx] at hx'; cases hx'⟩
      have hkept := (h hno).2
      rw [AList.lookup_erase] at hkept
      cases hkept
  | false =>
      simp only [hx, Bool.false_eq_true, if_false, wp_bind_except,
        wp_mapErr, wp_accessOp, onExt_ext] at h
      exact ⟨_, h.1, fun _ => rfl⟩

theorem UpdateAgrees.takesEffect (hl : s.records.lookup id = some r)
    (hp : policy.Governs m.env) (h : UpdateAgrees cr venv m.time r u) :
    UpdateTakesEffect E cr config venv m s id r u := by
  obtain ⟨rc, hrc, heq⟩ := h
  refine wp_weaken (fun _ o ho => ?_) (fun _ _ _ hno => absurd hrc (hno rc))
    (accessServes (t := m.time) (.resumePending id (.updatedToken u)))
  cases o with
  | store _ | now | pendingIdBytes => trivial
  | ext o =>
      cases o with
      | evaluate ctx => cases (show Call.resumePending _ _ = _ from ho)
      | resume ctx input =>
          obtain ⟨id', r', hc, hl', hx, rfl⟩ := ho
          cases hc
          cases hl.symm.trans hl'
          have hagree := heq hx
          subst hagree
          exact hrc
      | mintAccessAuthJwt iss aud agent agentJwk sub scope =>
          obtain ⟨ctx, grant, hd, -, -, -, -, -, rfl⟩ := ho
          have hscope := hd.mintedScope hp
          cases hd with
          | resumed hl' hx _ =>
              cases hl.symm.trans hl'
              exact ⟨rc, hrc, hscope.trans (by rw [heq hx]; rfl)⟩

end Access

end Access

/-! ## Both servers -/

namespace Sample

theorem askedRun_history : PersonHistory
    (fun _ _ _ c => PersonCall.Verified crates personConfig c) askedRun
    asked := by
  refine .serve .nil ⟨env, botJwt, thumbprint agentKey, exchangeRequest
    (resourceToken plainClaims resourceKey), ?_⟩ askedRun_exec
  exact (verifyTokenRequest_eq_ok jwtLaws).mpr ⟨bot, _,
    parse_agentToken bot providerKey, challenge_checks rfl rfl, rfl⟩

def grantingMoment : Occasion personExt :=
  ⟨now, shippedEnv grantAll (.complete (accessBody none))⟩

/-- The first resource token, sent once more. -/
def sameToken : UpdatedTokenRequest where
  resourceToken := resourceToken plainClaims resourceKey
  justification := none

/-- What is no resource token at all. -/
def noToken : UpdatedTokenRequest where
  resourceToken := "read-only"
  justification := none

end Sample

end Aauth
