import Aauth.Proofs.Acceptance
import Aauth.Proofs.PersonSteps
import Aauth.Ref.Policies
import Aauth.Sample.Servers

/-!
# A sample federation

The resource has an Access Server of its own, the policy of the Person
Server federates, and the Access Server answers the exchange with a
token.
-/

namespace Aauth.Sample

open Text Except Effect

/-- A token of the Access Server for the agent. -/
def accessGrant (scope : Option String) : AuthClaims :=
  { grant accessServer "aauth-access.json" resource with scope := scope }

def accessBody (scope : Option String) : TokenResponseBody where
  authToken := authToken (accessGrant scope) accessKey
  expiresIn := 3600

theorem parse_accessBody (scope : Option String) :
    ParsedToken.parse crates (accessBody scope).authToken =
      .ok (.auth (accessGrant scope)) := parse_authToken accessKey (.inl rfl)

theorem accessGrant_checks (scope : Option String) :
    TokenChecks crates env (presented (accessBody scope).authToken)
      (.auth (accessGrant scope)) where
  parsed := parse_accessBody scope
  unexpired := grant_unexpired
  bound := ⟨_, rfl, thumbprint_eq agentKey⟩
  signed := signed_authToken "aauth-access.json" rfl rfl grant_unexpired (by
    show (0 : Int) ≤ now + 3600
    decide)

/-- The Person Server takes the Access Server's tokens, whatever their
scope. -/
theorem verifyFederated_accessBody (scope : Option String) :
    verifyFederatedAuthToken crates env (accessBody scope).authToken
      accessServer resource botJwt = .ok () := by
  have hv : verifyToken crates env
      { jwt := (accessBody scope).authToken,
        httpSignatureThumbprint := thumbprint agentKey } =
      .ok (.auth (accessGrant scope)) :=
    (verifyToken_eq_ok jwtLaws).mpr ⟨accessGrant_checks scope, nofun⟩
  simp only [verifyFederatedAuthToken, bind_eq_ok, failIf_eq_ok]
  refine ⟨_, parse_agentToken bot providerKey, bot, rfl, thumbprint agentKey,
    thumbprint_eq agentKey, _, hv, accessGrant scope, rfl, (), ?_, (), ?_,
    not_not_intro rfl⟩
  · exact not_not_intro rfl
  · exact not_not_intro rfl

/-- What the resource answers the agent, naming its Access Server. -/
def federatedClaims : ResourceClaims :=
  challenge resource accessServer agentKey

/-- A policy that federates, and an Access Server that answers an exchange
with `outcome`, a POST with `posted` and a poll with `polled`. -/
def federatingAnswer (outcome : AccessServerExchangeOutcome)
    (posted : Option TokenResponseBody) (polled : ServerPollOutcome) :
    (o : PersonOp) → Option (personExt.Ans o)
  | .evaluate _ | .resume _ _ => some (.ok .federate)
  | .mintPersonAuthJwt .. => some (.error (.verify .missingKid))
  | .codeBytes => some (List.replicate 5 0)
  | .fetchMetadata url => some (.ok
      { issuer := some url, tokenEndpoint := url ++ "/token",
        jwksUri := none })
  | .exchangeToken _ _ => some (.ok outcome)
  | .resumePending _ _ => some (.ok posted)
  | .pollPending _ _ => some (.ok polled)
  | .verifyEnv => some env
  | .panic => none

abbrev federatingEnv (outcome : AccessServerExchangeOutcome)
    (o : PersonOp) (a : personExt.Ans o) : Prop :=
  federatingAnswer outcome none .gone o = some a

/-- A shipped policy and the shipped minter, before that Access Server. -/
def shippedAnswer (policy : PersonTokenPolicy)
    (outcome : AccessServerExchangeOutcome)
    (posted : Option TokenResponseBody) (polled : ServerPollOutcome) :
    (o : PersonOp) → Option (personExt.Ans o)
  | .evaluate ctx =>
      some (policy.evaluate crates ctx (List.replicate 5 0))
  | .resume ctx input => some (policy.resume crates ctx input)
  | .mintPersonAuthJwt iss aud agent agentJwk sub scope =>
      some (.ok (authToken ((personMintParams crates personKey iss aud agent
        agentJwk sub scope).claims now "auth-1") personKey))
  | o => federatingAnswer outcome posted polled o

abbrev shippedEnv (policy : PersonTokenPolicy)
    (outcome : AccessServerExchangeOutcome) (o : PersonOp)
    (a : personExt.Ans o) : Prop :=
  shippedAnswer policy outcome none .gone o = some a

theorem shippedEnv_governs (policy : PersonTokenPolicy)
    (outcome : AccessServerExchangeOutcome) :
    policy.Governs crates (shippedEnv policy outcome) where
  evaluate _ _ h := ⟨_, (Option.some.inj h).symm⟩
  resume _ _ _ h := (Option.some.inj h).symm

/-- A policy that grants. -/
def grantAll : PersonTokenPolicy := .alwaysGrant { sub := "user-1" }

/-- A call under a shipped policy, run to its end. -/
theorem shipped_exec {policy : PersonTokenPolicy}
    {outcome : AccessServerExchangeOutcome} {α : Type}
    {p : Prog (personSig Empty) α} {t : Nat}
    {s s' : ServiceState PersonPendingContext} {reply : α}
    (h : p.eval (answer (shippedAnswer policy outcome none .gone) t) s =
      some (reply, s')) :
    Exec (momentWorld (shippedEnv policy outcome) t) s p reply s' :=
  Prog.exec_of_eval answer_sound h

/-- What the Person Server is answered when it federates the exchange. -/
structure Federating (env : (o : PersonOp) → personExt.Ans o → Prop)
    (scope : Option String) : Prop where
  evaluate : env (.evaluate (botContext federatedClaims)) (.ok .federate)
  fetchMetadata : env (.fetchMetadata accessServer)
    (.ok { issuer := some accessServer,
           tokenEndpoint := accessServer ++ "/token", jwksUri := none })
  exchangeToken : env (.exchangeToken (accessServer ++ "/token")
    (federationRequest (resourceToken federatedClaims resourceKey) botJwt))
    (.ok (.complete (accessBody scope)))
  verifyEnv : env .verifyEnv Sample.env

theorem federatingEnv_federating (scope : Option String) :
    Federating (federatingEnv (.complete (accessBody scope))) scope :=
  ⟨rfl, rfl, rfl, rfl⟩

theorem grantAll_federates (buf : Bytes) :
    grantAll.evaluate crates (botContext federatedClaims) buf =
      .ok .federate := by
  have h : (botContext federatedClaims).audienceIsPersonServer crates =
      false := by decide +kernel
  show Except.ok (grantOrFederate crates "user-1" _) = _
  rw [grantOrFederate, h]
  rfl

theorem shippedEnv_federating (scope : Option String) :
    Federating (shippedEnv grantAll (.complete (accessBody scope))) scope :=
  ⟨congrArg some (grantAll_federates _), rfl, rfl, rfl⟩

/-- The exchange of the federated token. -/
theorem exchange_federated {env : (o : PersonOp) → personExt.Ans o → Prop}
    {scope : Option String} (h : Federating env scope)
    (s : ServiceState PersonPendingContext) :
    Exec (momentWorld env now) s
      (exchangeToken (E := Empty) crates personConfig
        (botContext federatedClaims) botJwt).run
      (.ok (.granted (accessBody scope))) s := by
  let W : World (personSig Empty) (ServiceState PersonPendingContext) :=
    momentWorld env now
  have hd : W s (.ext (.evaluate (botContext federatedClaims)))
      (.ok .federate) s := ⟨h.evaluate, rfl⟩
  have hm : W s (.ext (.fetchMetadata accessServer))
      (.ok { issuer := some accessServer,
             tokenEndpoint := accessServer ++ "/token",
             jwksUri := none }) s := ⟨h.fetchMetadata, rfl⟩
  refine exchangeToken_complete rfl hd (federateToAccessServer_complete
    (parse_resourceToken federatedClaims resourceKey) hm ?_
    ⟨h.exchangeToken, rfl⟩ ⟨h.verifyEnv, rfl⟩
    (verifyFederated_accessBody scope))
  decide

end Aauth.Sample
