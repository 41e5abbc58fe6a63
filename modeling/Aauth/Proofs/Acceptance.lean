import Aauth.Sample.Parties

/-!
# The acceptance rule of tokens

The protocol asks the same of an auth token and of an agent token: a
`dwk` of the right role, an issuer that is a server identifier, times in
order, the holder's key, the issuer's signature. `verifyToken` makes all
of these checks of an agent token. Of an auth token it skips the three
about the issuer's side (`dwk`, `iss` and `iat`), and nothing else stands
in for them.
-/

namespace Aauth

open Except

/-! ## The rule -/

/-- What is asked of the issuer's side of a token: the metadata document
its keys are published in, its identifier, and the time of issue. -/
structure IssuerRules (cr : Crates) (now : Nat) (dwks : List String)
    (dwk iss : String) (iat : Int) : Prop where
  dwk : dwk ∈ dwks
  iss : isValidServerIdentifier cr iss = true
  iat : iat ≤ now + CLOCK_SKEW

/-- What is asked of the holder's side of a token. -/
structure HolderRules (cr : Crates) (env : VerifyEnv)
    (options : VerifyTokenOptions) (exp : Int) (jwk : PublicJwk)
    (iss dwk : String) : Prop where
  exp : env.now ≤ exp + CLOCK_SKEW
  bound : jwkThumbprint cr jwk = .ok options.httpSignatureThumbprint
  signed : IssuerSigned cr env iss dwk options.jwt

/-- The documents an auth token's issuer may publish its keys in. -/
def authDwks : List String := ["aauth-person.json", "aauth-access.json"]

/-- The acceptance rule, for each kind of token. -/
def AcceptanceRule (cr : Crates) (env : VerifyEnv)
    (options : VerifyTokenOptions) : ParsedToken → Prop
  | .auth c =>
      IssuerRules cr env.now authDwks c.dwk c.iss c.iat ∧
      HolderRules cr env options c.exp c.cnf.jwk c.iss c.dwk ∧
      (c.sub.isSome ∨ c.scope.isSome)
  | .agent c =>
      IssuerRules cr env.now ["aauth-agent.json"] c.dwk c.iss c.iat ∧
      HolderRules cr env options c.exp c.cnf.jwk c.iss c.dwk ∧
      (∀ ps ∈ c.ps, isValidServerIdentifier cr ps = true) ∧
      ∀ parent ∈ c.parentAgent, isValidAgentIdentifier parent = true
  | .resource _ => False

/-! ## What the code checks -/

section Rule

variable {cr : Crates} {env : VerifyEnv} {options : VerifyTokenOptions}

theorem TokenChecks.auth {c : AuthClaims}
    (h : TokenChecks cr env options (.auth c)) :
    HolderRules cr env options c.exp c.cnf.jwk c.iss c.dwk ∧
      (c.sub.isSome ∨ c.scope.isSome) := by
  obtain ⟨hp, hexp, ⟨jwk, hjwk, hb⟩, hs⟩ := h
  cases hjwk
  exact ⟨⟨hexp, hb, hs⟩, parse_auth_validate hp⟩

theorem TokenChecks.agent {c : AgentClaims}
    (h : TokenChecks cr env options (.agent c)) :
    HolderRules cr env options c.exp c.cnf.jwk c.iss c.dwk := by
  obtain ⟨-, hexp, ⟨jwk, hjwk, hb⟩, hs⟩ := h
  cases hjwk
  exact ⟨hexp, hb, hs⟩

/-- An accepted agent token meets the whole rule. -/
theorem acceptanceRule_agent (laws : JwtLaws cr) {c : AgentClaims}
    (h : verifyToken cr env options = .ok (.agent c)) :
    AcceptanceRule cr env options (.agent c) := by
  obtain ⟨hchecks, hrules⟩ := (verifyToken_eq_ok laws).mp h
  have hr := hrules c rfl
  have hd : c.dwk ∈ ["aauth-agent.json"] := List.mem_singleton.mpr hr.dwk
  exact ⟨⟨hd, hr.iss, hr.iat⟩, hchecks.agent, hr.ps, hr.parent⟩

/-- An accepted auth token meets the rule exactly when it happens to keep
the issuer's side of it. -/
theorem acceptanceRule_auth {c : AuthClaims}
    (h : TokenChecks cr env options (.auth c)) :
    AcceptanceRule cr env options (.auth c) ↔
      IssuerRules cr env.now authDwks c.dwk c.iss c.iat := by
  obtain ⟨hholder, hclaims⟩ := h.auth
  constructor
  · intro hr
    exact hr.1
  · intro hr
    exact ⟨hr, hholder, hclaims⟩

/-- `verifyToken` keeps the acceptance rule on exactly those inputs that
are not auth tokens breaking the issuer's side of it. -/
theorem verifyToken_acceptance (laws : JwtLaws cr) :
    (∀ t, verifyToken cr env options = .ok t →
        AcceptanceRule cr env options t) ↔
      ∀ c, TokenChecks cr env options (.auth c) →
        IssuerRules cr env.now authDwks c.dwk c.iss c.iat := by
  constructor
  · intro h c hc
    have hok : verifyToken cr env options = .ok (.auth c) := by
      refine (verifyToken_eq_ok laws).mpr ⟨hc, ?_⟩
      intro c' he
      cases he
    exact (acceptanceRule_auth hc).mp (h _ hok)
  · intro h t ht
    cases t with
    | agent c => exact acceptanceRule_agent laws ht
    | auth c =>
        have hc := ((verifyToken_eq_ok laws).mp ht).1
        exact (acceptanceRule_auth hc).mpr (h c hc)
    | resource c => exact absurd ht (verifyToken_ne_resource laws c)

end Rule

/-! ## At the sample parties -/

namespace Sample

/-- An auth token for the agent, as the given issuer would write it. -/
def grant (iss dwk aud : String) : AuthClaims where
  iss := iss
  dwk := dwk
  aud := aud
  jti := "grant-1"
  agent := bot.sub
  act := none
  cnf := bot.cnf
  iat := now
  exp := now + 3600
  sub := some "user"
  scope := none
  tenant := none
  mission := none

def presented (jwt : String) : VerifyTokenOptions where
  jwt := jwt
  httpSignatureThumbprint := thumbprint agentKey

theorem grant_unexpired : (now : Int) ≤ now + 3600 + 60 := by decide

theorem grant_checks {iss dwk aud kid : String} {key : Ed25519KeyPair}
    (hkey : publishedKey iss = some key) (hkid : key.kid = some kid) :
    TokenChecks crates env (presented (authToken (grant iss dwk aud) key))
      (.auth (grant iss dwk aud)) where
  parsed := parse_authToken key (.inl rfl)
  unexpired := grant_unexpired
  bound := ⟨_, rfl, thumbprint_eq agentKey⟩
  signed := signed_authToken dwk hkey hkid grant_unexpired (by
    show (0 : Int) ≤ now + 3600
    decide)

/-- The agent's provider, whose keys are published for agent tokens, signs
an auth token and it is accepted. -/
theorem verifyToken_provider_grant :
    verifyToken crates env (presented (authToken
        (grant provider "aauth-agent.json" resource) providerKey)) =
      .ok (.auth (grant provider "aauth-agent.json" resource)) ∧
    ¬ AcceptanceRule crates env (presented (authToken
        (grant provider "aauth-agent.json" resource) providerKey))
      (.auth (grant provider "aauth-agent.json" resource)) := by
  constructor
  · refine (verifyToken_eq_ok jwtLaws).mpr ⟨grant_checks rfl rfl, ?_⟩
    intro c hc
    cases hc
  · intro h
    have hdwk := h.1.dwk
    revert hdwk
    decide

/-- A token of the Person Server is accepted by the rule. -/
theorem verifyToken_acceptance_grant :
    verifyToken crates env (presented (authToken
        (grant personServer "aauth-person.json" resource) personKey)) =
      .ok (.auth (grant personServer "aauth-person.json" resource)) ∧
    AcceptanceRule crates env (presented (authToken
        (grant personServer "aauth-person.json" resource) personKey))
      (.auth (grant personServer "aauth-person.json" resource)) := by
  have hok : verifyToken crates env (presented (authToken
        (grant personServer "aauth-person.json" resource) personKey)) =
      .ok (.auth (grant personServer "aauth-person.json" resource)) := by
    refine (verifyToken_eq_ok jwtLaws).mpr ⟨grant_checks rfl rfl, ?_⟩
    intro c hc
    cases hc
  refine ⟨hok, (verifyToken_acceptance jwtLaws).mpr ?_ _ hok⟩
  intro c hc
  have hp : ParsedToken.parse crates (authToken
      (grant personServer "aauth-person.json" resource) personKey) =
        .ok (.auth (grant personServer "aauth-person.json" resource)) :=
    parse_authToken personKey (.inl rfl)
  have hc := hp.symm.trans hc.parsed
  cases hc
  exact ⟨by decide, by decide, by decide⟩

end Sample

end Aauth
