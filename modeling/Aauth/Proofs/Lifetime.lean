import Aauth.Proofs.AccessRuns
import Aauth.Proofs.Audience
import Aauth.Proofs.Finality
import Aauth.Proofs.SelfMint
import Aauth.Proofs.Tokens

/-!
# How long minted tokens live

A minted token is valid for an hour from the moment it is minted, whatever
is left of the agent token it derives from. The agent token was checked
when the exchange came in; the mint may happen at any time until the
record expires. So a minted token stays within the agent token exactly
when an hour of the agent token is left at the mint.
-/

namespace Aauth

open Effect

/-- At time `t` the agent token was not expired, up to the clock skew, and
the token in the body does not outlive it. -/
def WithinAgent (cr : Crates) (t : Nat) (agent : AgentClaims)
    (body : TokenResponseBody) : Prop :=
  (t : Int) ≤ agent.exp + 60 ∧
    ∃ c, ParsedToken.parse cr body.authToken = .ok (.auth c) ∧
      c.exp ≤ agent.exp

/-- A token that `encode_auth_jwt` makes at time `t`. -/
theorem withinAgent_encodeAuthJwt {cr : Crates} (mint : MintLaws cr)
    {t : Nat} {jti sub : String} {p : AuthJwtMintParams}
    {agent : AgentClaims} {body : TokenResponseBody}
    (h : encodeAuthJwt cr t jti p = .ok body.authToken)
    (hs : p.sub = some sub) :
    WithinAgent cr t agent body ↔ (t : Int) + 3600 ≤ agent.exp := by
  have hp := parse_encodeAuthJwt mint h hs
  constructor
  · intro hw
    obtain ⟨-, c, hc, hexp⟩ := hw
    rw [hp] at hc
    cases hc
    exact hexp
  · intro hexp
    refine ⟨by omega, _, hp, ?_⟩
    exact hexp

/-! ## The Person Server -/

section Person

variable {E : Type} {cr : Crates} {config : PersonServerConfig}
  {s s' : ServiceState PersonPendingContext} {m : Occasion personExt}
  {c : PersonCall} {key : Ed25519KeyPair} {body : TokenResponseBody}
  {agent : AgentClaims}

/-- The shipped minter, which reads the clock when it mints. -/
def MintsNow (cr : Crates) (key : Ed25519KeyPair) (m : Occasion personExt) :
    Prop :=
  ∀ iss aud agent agentJwk sub scope answer,
    m.env (.mintPersonAuthJwt iss aud agent agentJwk sub scope) answer →
      ∃ jti, answer = encodeAuthJwt cr m.time jti
        (personMintParams cr key iss aud agent agentJwk sub scope)

/-- The token in the body was minted on this occasion for the agent. -/
def Minted (config : PersonServerConfig) (m : Occasion personExt)
    (agent : AgentClaims) (body : TokenResponseBody) : Prop :=
  ∃ sub scope, m.env (.mintPersonAuthJwt config.personServerUrl
    config.resourceUrl agent.identifier agent.cnf.jwk (some sub) scope)
    (.ok body.authToken)

/-- Where a token comes from, and how long it lives when it was minted. -/
structure Dated (cr : Crates) (config : PersonServerConfig)
    (m : Occasion personExt) (agent : AgentClaims)
    (body : TokenResponseBody) : Prop where
  source : Minted config m agent body ∨
    ∃ agentJwt url, Accepted cr config m.env agentJwt url body
  minted : Minted config m agent body →
    (WithinAgent cr m.time agent body ↔ (m.time : Int) + 3600 ≤ agent.exp)

theorem Dated.of_source (mint : MintLaws cr) (minter : MintsNow cr key m)
    (h : Minted config m agent body ∨
      ∃ agentJwt url, Accepted cr config m.env agentJwt url body) :
    Dated cr config m agent body := by
  refine ⟨h, fun hm => ?_⟩
  obtain ⟨sub, scope, hm⟩ := hm
  obtain ⟨jti, hjwt⟩ := minter _ _ _ _ _ _ _ hm
  exact withinAgent_encodeAuthJwt mint hjwt.symm rfl

theorem MintsNow.secures (mint : MintLaws cr) (minter : MintsNow cr key m) :
    Secures cr config (fun ctx => Dated cr config m ctx.agentClaims)
      s m c where
  ruled ctx agentJwt d body _ hr := by
    cases hr with
    | minted hm => exact .of_source mint minter (.inl ⟨_, _, hm⟩)
    | accepted _ _ ha => exact .of_source mint minter (.inr ⟨_, _, ha⟩)
  posted id input r fed body _ _ _ _ _ ha :=
    .of_source mint minter (.inr ⟨_, _, ha⟩)

end Person

/-! ## The Access Server -/

namespace Access

section Access

variable {cr : Crates} {config : AccessServerConfig}
  {s : ServiceState AccessPendingContext} {m : Occasion accessExt}
  {c : Call} {key : Ed25519KeyPair}

def MintsNow (cr : Crates) (key : Ed25519KeyPair) (m : Occasion accessExt) :
    Prop :=
  ∀ iss aud agent agentJwk sub scope answer,
    m.env (.mintAccessAuthJwt iss aud agent agentJwk sub scope) answer →
      ∃ jti, answer = encodeAuthJwt cr m.time jti
        (mintParams cr key iss aud agent agentJwk sub scope)

/-- A token of the Access Server was minted on this occasion for the agent;
how long it lives. -/
structure Dated (cr : Crates) (config : AccessServerConfig)
    (m : Occasion accessExt) (agent : AgentClaims)
    (body : TokenResponseBody) : Prop where
  source : ∃ sub scope, m.env (.mintAccessAuthJwt config.accessServerUrl
    config.resourceUrl agent.identifier agent.cnf.jwk (some sub) scope)
    (.ok body.authToken)
  minted : WithinAgent cr m.time agent body ↔
    (m.time : Int) + 3600 ≤ agent.exp

theorem MintsNow.secures (mint : MintLaws cr) (minter : MintsNow cr key m) :
    Secures config (fun ctx => Dated cr config m ctx.agentClaims) s m c := by
  intro ctx d body _ hr
  cases hr with
  | minted hm =>
      obtain ⟨jti, hjwt⟩ := minter _ _ _ _ _ _ _ hm
      exact ⟨⟨_, _, hm⟩, withinAgent_encodeAuthJwt mint hjwt.symm rfl⟩

end Access

end Access

/-! ## Both servers -/

namespace Sample

/-- A policy that grants everything, at time `t`. -/
def clockedAnswer (t : Nat) : (o : PersonOp) → Option (personExt.Ans o)
  | .mintPersonAuthJwt iss aud agent agentJwk sub scope =>
      some (.ok (authToken ((personMintParams crates personKey iss aud agent
        agentJwk sub scope).claims t "auth-1") personKey))
  | o => personAnswer (.grant userGrant) (fun _ => .grant userGrant) o

def clocked (t : Nat) : Occasion personExt where
  time := t
  env o a := clockedAnswer t o = some a

theorem clocked_mintsNow (t : Nat) :
    MintsNow crates personKey (clocked t) := by
  intro iss aud agent agentJwk sub scope answer h
  refine ⟨"auth-1", ?_⟩
  rw [encodeAuthJwt_eq personKey rfl rfl]
  cases h
  rfl

def clockedBody (t : Nat) : TokenResponseBody where
  authToken := authToken ((personMintParams crates personKey personServer
    resource bot.identifier bot.cnf.jwk (some "user-1") none).claims t
    "auth-1") personKey
  expiresIn := 3600

/-- The agent's exchange at its Person Server at time `t`. -/
def clockedTurn (t : Nat) : PersonTurn Empty crates personConfig :=
  ⟨⟨∅, []⟩, clocked t, .exchangeToken (botContext plainClaims) botJwt,
    .ok (.granted (clockedBody t)), ⟨∅, []⟩⟩

theorem clockedTurn_history (t : Nat) :
    PersonHistory (fun _ _ m _ => MintsNow crates personKey m)
      [clockedTurn t] ⟨∅, []⟩ :=
  .serve .nil (clocked_mintsNow t) (Prog.exec_of_eval answer_sound (by rfl))

theorem clockedTurn_minted (t : Nat) :
    Minted personConfig (clocked t) bot (clockedBody t) :=
  ⟨"user-1", none, rfl⟩

end Sample

end Aauth
