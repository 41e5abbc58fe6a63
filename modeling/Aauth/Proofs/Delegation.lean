import Aauth.Proofs.Acceptance

/-!
# Delegation chains

An auth token may carry an `act` claim, a chain of the agents it was
delegated through. The verifier of an exchanged token looks at the
outermost node only, and asks of it no more than the prefix `aauth:`.

`verifyClientAuthToken_iff_prefixed` says so exactly. An agent identifier
has the prefix, so a chain that is valid throughout is never turned away;
but whatever hangs below a node with the prefix comes in with it. So the
chains of accepted tokens are valid if and only if the token breaks
another rule, or its chain fails at the prefix already, or the chain is
valid: `delegation_validated_iff`.
-/

namespace Aauth

open Text Except

/-! ## Chains -/

namespace ActClaim

/-- The nodes of a chain, the outermost first. -/
def nodes : ActClaim → List ActClaim
  | ⟨agent, none⟩ => [⟨agent, none⟩]
  | ⟨agent, some act⟩ => ⟨agent, some act⟩ :: act.nodes

/-- Every node names an agent. -/
def Valid (act : ActClaim) : Prop :=
  ∀ node ∈ act.nodes, isValidAgentIdentifier node.agent = true

theorem mem_nodes_self (act : ActClaim) : act ∈ act.nodes := by
  obtain ⟨agent, inner⟩ := act
  cases inner with
  | none => exact List.mem_cons_self
  | some inner => exact List.mem_cons_self

/-- A chain is valid when its outermost node and the rest of it are. -/
theorem valid_cons {agent : String} {inner : ActClaim} :
    Valid ⟨agent, some inner⟩ ↔
      isValidAgentIdentifier agent = true ∧ inner.Valid := by
  simp only [Valid, nodes, List.forall_mem_cons]

theorem valid_single {agent : String} :
    Valid ⟨agent, none⟩ ↔ isValidAgentIdentifier agent = true := by
  simp only [Valid, nodes, List.forall_mem_singleton]

end ActClaim

/-- The nodes of the chain of a token. -/
def AuthClaims.delegation (c : AuthClaims) : List ActClaim :=
  (c.act.map ActClaim.nodes).getD []

theorem AuthClaims.delegation_valid {c : AuthClaims} :
    (∀ node ∈ c.delegation, isValidAgentIdentifier node.agent = true) ↔
      ∀ act ∈ c.act, act.Valid := by
  cases h : c.act with
  | none => simp [delegation, h]
  | some act => simp [delegation, h, ActClaim.Valid]

/-- An agent identifier has the prefix the verifier looks for. -/
theorem prefix_of_isValidAgentIdentifier {id : String}
    (h : isValidAgentIdentifier id = true) : startsWith id "aauth:" = true := by
  rw [isValidAgentIdentifier] at h
  rw [startsWith]
  cases hs : stripPrefix id "aauth:" with
  | none =>
      rw [hs] at h
      cases h
  | some rest => rfl

/-- What has the prefix is not empty. -/
theorem isEmpty_of_prefixed {id : String}
    (h : startsWith id "aauth:" = true) : id.isEmpty = false := by
  by_contra he
  rw [Bool.not_eq_false, String.isEmpty_iff] at he
  rw [he] at h
  exact absurd h (by decide)

/-! ## What the verifier asks of a chain -/

section Client

variable {cr : Crates} {env : VerifyEnv}
  {jwt resourceUrl resourceTokenAud agentSub agentJkt : String}
  {verifySignature : Bool}

/-- The JWT is an auth token that meets every rule for exchanged tokens
except the one on `act`. -/
structure ExchangeRules (cr : Crates) (env : VerifyEnv)
    (jwt resourceUrl resourceTokenAud agentSub agentJkt : String)
    (verifySignature : Bool) (auth : AuthClaims) : Prop where
  parsed : ParsedToken.parse cr jwt = .ok (.auth auth)
  unexpired : env.now ≤ auth.exp + CLOCK_SKEW
  iss : normalizeServerUrl cr auth.iss =
    normalizeServerUrl cr resourceTokenAud
  aud : normalizeServerUrl cr auth.aud = normalizeServerUrl cr resourceUrl
  bound : jwkThumbprint cr auth.cnf.jwk = .ok agentJkt
  agent : auth.agent = agentSub
  signed : verifySignature = true →
    IssuerSigned cr env auth.iss auth.dwk jwt

/-- The rule on `act` is the prefix of the outermost node. -/
theorem verifyClientAuthToken_iff_prefixed (laws : JwtLaws cr)
    {auth : AuthClaims} :
    verifyClientAuthToken cr env jwt resourceUrl resourceTokenAud agentSub
        agentJkt verifySignature = .ok auth ↔
      ExchangeRules cr env jwt resourceUrl resourceTokenAud agentSub agentJkt
          verifySignature auth ∧
        ∀ act ∈ auth.act, startsWith act.agent "aauth:" = true := by
  rw [verifyClientAuthToken_eq_ok laws]
  constructor
  · intro h
    obtain ⟨hp, hc, hs⟩ := h
    refine ⟨⟨hp, hc.unexpired, hc.iss, hc.aud, hc.bound, hc.agent, hs⟩, ?_⟩
    intro act hm
    exact (hc.act act hm).2
  · intro h
    obtain ⟨hr, hact⟩ := h
    refine ⟨hr.parsed, ⟨hr.unexpired, hr.iss, hr.aud, hr.bound, hr.agent, ?_⟩,
      hr.signed⟩
    intro act hm
    exact ⟨isEmpty_of_prefixed (hact act hm), hact act hm⟩

/-- A chain that is valid throughout costs a token nothing. -/
theorem verifyClientAuthToken_of_valid (laws : JwtLaws cr)
    {auth : AuthClaims}
    (h : ExchangeRules cr env jwt resourceUrl resourceTokenAud agentSub
      agentJkt verifySignature auth)
    (hv : ∀ act ∈ auth.act, act.Valid) :
    verifyClientAuthToken cr env jwt resourceUrl resourceTokenAud agentSub
      agentJkt verifySignature = .ok auth := by
  refine (verifyClientAuthToken_iff_prefixed laws).mpr ⟨h, ?_⟩
  intro act hm
  exact prefix_of_isValidAgentIdentifier
    (hv act hm act act.mem_nodes_self)

/-- Every node of an accepted token's chain names an agent, if and only if
the token breaks a rule other than the one on `act`, or has no chain, or
one whose outermost node lacks the prefix, or one that is valid at every
node. -/
theorem delegation_validated_iff (laws : JwtLaws cr) :
    (∀ auth, verifyClientAuthToken cr env jwt resourceUrl resourceTokenAud
        agentSub agentJkt verifySignature = .ok auth →
      ∀ node ∈ auth.delegation, isValidAgentIdentifier node.agent = true) ↔
    ∀ auth, ExchangeRules cr env jwt resourceUrl resourceTokenAud agentSub
        agentJkt verifySignature auth →
      ∀ act ∈ auth.act, startsWith act.agent "aauth:" = true → act.Valid := by
  constructor
  · intro h auth hr act hm hpre
    have hact : ∀ a ∈ auth.act, startsWith a.agent "aauth:" = true := by
      intro a ha
      cases Option.mem_unique ha hm
      exact hpre
    have hok := (verifyClientAuthToken_iff_prefixed laws).mpr ⟨hr, hact⟩
    exact AuthClaims.delegation_valid.mp (h auth hok) act hm
  · intro h auth hok
    obtain ⟨hr, hact⟩ := (verifyClientAuthToken_iff_prefixed laws).mp hok
    refine AuthClaims.delegation_valid.mpr ?_
    intro act hm
    exact h auth hr act hm (hact act hm)

end Client

/-! ## At the sample parties -/

namespace Sample

/-- The Access Server's token for the agent, with a chain. -/
def delegated (chain : ActClaim) : AuthClaims :=
  { grant accessServer "aauth-access.json" resource with act := some chain }

theorem parse_delegated (chain : ActClaim) :
    ParsedToken.parse crates (authToken (delegated chain) accessKey) =
      .ok (.auth (delegated chain)) := parse_authToken accessKey (.inl rfl)

theorem delegated_rules (chain : ActClaim) (verifySignature : Bool) :
    ExchangeRules crates env (authToken (delegated chain) accessKey) resource
      accessServer bot.sub (thumbprint agentKey) verifySignature
      (delegated chain) where
  parsed := parse_delegated chain
  unexpired := grant_unexpired
  iss := rfl
  aud := rfl
  bound := thumbprint_eq agentKey
  agent := rfl
  signed := fun _ => signed_authToken "aauth-access.json" rfl rfl
    grant_unexpired (by
      show (0 : Int) ≤ now + 3600
      decide)

/-- Whatever hangs below the prefix is accepted, whether the signature is
verified or not. -/
theorem delegated_accepted {chain : ActClaim} (verifySignature : Bool)
    (h : startsWith chain.agent "aauth:" = true) :
    verifyClientAuthToken crates env (authToken (delegated chain) accessKey)
      resource accessServer bot.sub (thumbprint agentKey) verifySignature =
        .ok (delegated chain) := by
  refine (verifyClientAuthToken_iff_prefixed jwtLaws).mpr
    ⟨delegated_rules chain verifySignature, ?_⟩
  intro act hm
  cases hm
  exact h

/-- Below an agent hangs a node that names none. -/
def hollowChain : ActClaim where
  agent := "aauth:relay@vendor.example"
  act := some ⟨"", none⟩

theorem delegation_unchecked :
    ¬ ∀ (verifySignature : Bool) (auth : AuthClaims),
      verifyClientAuthToken crates env
          (authToken (delegated hollowChain) accessKey) resource accessServer
          bot.sub (thumbprint agentKey) verifySignature = .ok auth →
        ∀ node ∈ auth.delegation,
          isValidAgentIdentifier node.agent = true := by
  intro h
  have hok := @delegated_accepted hollowChain true (by decide)
  have hv := h true _ hok ⟨"", none⟩
    (List.mem_cons_of_mem _ List.mem_cons_self)
  exact absurd hv (by decide)

/-- An agent with another below it. -/
def soundChain : ActClaim where
  agent := "aauth:relay@vendor.example"
  act := some ⟨"aauth:planner.7f3c@vendor.example", none⟩

theorem delegation_checked :
    verifyClientAuthToken crates env
        (authToken (delegated soundChain) accessKey) resource accessServer
        bot.sub (thumbprint agentKey) true = .ok (delegated soundChain) ∧
      ∀ node ∈ (delegated soundChain).delegation,
        isValidAgentIdentifier node.agent = true := by
  have hok := @delegated_accepted soundChain true (by decide)
  refine ⟨hok, (delegation_validated_iff jwtLaws).mpr ?_ _ hok⟩
  intro auth hr act hm _
  cases hr.parsed.symm.trans (parse_delegated soundChain)
  cases hm
  exact ActClaim.valid_cons.mpr
    ⟨by decide, ActClaim.valid_single.mpr (by decide)⟩

end Sample

end Aauth
