import Mathlib.Algebra.Group.Int.Defs
import Mathlib.Algebra.Group.Nat.Defs
import Aauth.Ref.AgentClient
import Aauth.Ref.Wire

/-!
# Claims and token requests as JSON (`protocol/jwt.rs`, `token_exchange.rs`)

What `serde` derives for the claims of the three token kinds, for the
confirmation claim as `httpsig-key` reads it, and for the bodies that are
posted to the two token endpoints. An optional member is left out without
a value. A delegation chain is read as deep as it goes.
-/

namespace Aauth

open Json

/-! ## Keys (`httpsig-key/src/protocol/jwk.rs`) -/

def PublicJwk.toJson (k : PublicJwk) : Json :=
  .obj (record [("kty", some (.str k.kty)), ("crv", some (.str k.crv)),
    ("x", some (.str k.x)), ("y", k.y.map .str), ("kid", k.kid.map .str)])

def PublicJwk.fromJson (j : Json) : Option PublicJwk := do
  let field ← j.fields ["kty", "crv", "x", "y", "kid"]
  let kty ← required asStr (field "kty")
  let crv ← required asStr (field "crv")
  let x ← required asStr (field "x")
  let y ← optional asStr (field "y")
  let kid ← optional asStr (field "kid")
  return { kty, crv, x, y, kid }

def CnfClaim.toJson (c : CnfClaim) : Json := .obj [("jwk", c.jwk.toJson)]

def CnfClaim.fromJson (j : Json) : Option CnfClaim := do
  let field ← j.fields ["jwk"]
  let jwk ← required PublicJwk.fromJson (field "jwk")
  return { jwk }

/-! ## The payload as `httpsig-key` reads it (`httpsig-key/src/verify.rs`) -/

/-- `Cnf`. An array has to give the field, by `null` if need be; an object
may leave it out. -/
def cnfFromJson : Json → Option (Option PublicJwk)
  | .arr [] => none
  | j => do
      let field ← j.fields ["jwk"]
      optional PublicJwk.fromJson (field "jwk")

def JwtPayload.fromJson : Json → Option JwtPayload
  | .arr [] => none
  | j => do
      let field ← j.fields ["cnf"]
      let cnf ← optional cnfFromJson (field "cnf")
      return { cnf }

/-! ## Parts of the claims (`protocol/jwt.rs`, `protocol/common.rs`) -/

def ActClaim.toJson : ActClaim → Json
  | ⟨agent, none⟩ => .obj [("agent", .str agent)]
  | ⟨agent, some act⟩ => .obj [("agent", .str agent), ("act", act.toJson)]

def ActClaim.fromJson (j : Json) : Option ActClaim :=
  match _ : j.fields ["agent", "act"] with
  | none => none
  | some field =>
      (required asStr (field "agent")).bind fun agent =>
        match _ : field "act" with
        | none => some { agent, act := none }
        | some .null => some { agent, act := none }
        | some v =>
            (ActClaim.fromJson v).map fun act => { agent, act := some act }
termination_by sizeOf j
decreasing_by exact sizeOf_field ‹_› ‹_›

def Mission.toJson (m : Mission) : Json :=
  .obj [("approver", .str m.approver), ("s256", .str m.s256)]

def Mission.fromJson (j : Json) : Option Mission := do
  let field ← j.fields ["approver", "s256"]
  let approver ← required asStr (field "approver")
  let s256 ← required asStr (field "s256")
  return { approver, s256 }

def ResourceInteractionClaim.toJson (c : ResourceInteractionClaim) : Json :=
  .obj [("url", .str c.url), ("code", .str c.code)]

def ResourceInteractionClaim.fromJson (j : Json) :
    Option ResourceInteractionClaim := do
  let field ← j.fields ["url", "code"]
  let url ← required asStr (field "url")
  let code ← required asStr (field "code")
  return { url, code }

/-! ## Claims (`protocol/jwt.rs`) -/

def AgentClaims.toJson (c : AgentClaims) : Json :=
  .obj (record [("iss", some (.str c.iss)), ("dwk", some (.str c.dwk)),
    ("sub", some (.str c.sub)), ("jti", some (.str c.jti)),
    ("cnf", some c.cnf.toJson), ("iat", some (.int c.iat)),
    ("exp", some (.int c.exp)), ("ps", c.ps.map .str),
    ("parent_agent", c.parentAgent.map .str)])

def AgentClaims.fromJson (j : Json) : Option AgentClaims := do
  let field ← j.fields
    ["iss", "dwk", "sub", "jti", "cnf", "iat", "exp", "ps", "parent_agent"]
  let iss ← required asStr (field "iss")
  let dwk ← required asStr (field "dwk")
  let sub ← required asStr (field "sub")
  let jti ← required asStr (field "jti")
  let cnf ← required CnfClaim.fromJson (field "cnf")
  let iat ← required asI64 (field "iat")
  let exp ← required asI64 (field "exp")
  let ps ← optional asStr (field "ps")
  let parentAgent ← optional asStr (field "parent_agent")
  return { iss, dwk, sub, jti, cnf, iat, exp, ps, parentAgent }

def AuthClaims.toJson (c : AuthClaims) : Json :=
  .obj (record [("iss", some (.str c.iss)), ("dwk", some (.str c.dwk)),
    ("aud", some (.str c.aud)), ("jti", some (.str c.jti)),
    ("agent", some (.str c.agent)), ("act", c.act.map ActClaim.toJson),
    ("cnf", some c.cnf.toJson), ("iat", some (.int c.iat)),
    ("exp", some (.int c.exp)), ("sub", c.sub.map .str),
    ("scope", c.scope.map .str), ("tenant", c.tenant.map .str),
    ("mission", c.mission.map Mission.toJson)])

def AuthClaims.fromJson (j : Json) : Option AuthClaims := do
  let field ← j.fields ["iss", "dwk", "aud", "jti", "agent", "act", "cnf",
    "iat", "exp", "sub", "scope", "tenant", "mission"]
  let iss ← required asStr (field "iss")
  let dwk ← required asStr (field "dwk")
  let aud ← required asStr (field "aud")
  let jti ← required asStr (field "jti")
  let agent ← required asStr (field "agent")
  let act ← optional ActClaim.fromJson (field "act")
  let cnf ← required CnfClaim.fromJson (field "cnf")
  let iat ← required asI64 (field "iat")
  let exp ← required asI64 (field "exp")
  let sub ← optional asStr (field "sub")
  let scope ← optional asStr (field "scope")
  let tenant ← optional asStr (field "tenant")
  let mission ← optional Mission.fromJson (field "mission")
  return { iss, dwk, aud, jti, agent, act, cnf, iat, exp, sub, scope, tenant,
           mission }

def ResourceClaims.toJson (c : ResourceClaims) : Json :=
  .obj (record [("iss", some (.str c.iss)), ("dwk", some (.str c.dwk)),
    ("aud", some (.str c.aud)), ("jti", some (.str c.jti)),
    ("agent", some (.str c.agent)), ("agent_jkt", some (.str c.agentJkt)),
    ("iat", some (.int c.iat)), ("exp", some (.int c.exp)),
    ("scope", c.scope.map .str), ("mission", c.mission.map Mission.toJson),
    ("interaction", c.interaction.map ResourceInteractionClaim.toJson)])

def ResourceClaims.fromJson (j : Json) : Option ResourceClaims := do
  let field ← j.fields ["iss", "dwk", "aud", "jti", "agent", "agent_jkt",
    "iat", "exp", "scope", "mission", "interaction"]
  let iss ← required asStr (field "iss")
  let dwk ← required asStr (field "dwk")
  let aud ← required asStr (field "aud")
  let jti ← required asStr (field "jti")
  let agent ← required asStr (field "agent")
  let agentJkt ← required asStr (field "agent_jkt")
  let iat ← required asU64 (field "iat")
  let exp ← required asU64 (field "exp")
  let scope ← optional asStr (field "scope")
  let mission ← optional Mission.fromJson (field "mission")
  let interaction ← optional ResourceInteractionClaim.fromJson
    (field "interaction")
  return { iss, dwk, aud, jti, agent, agentJkt, iat, exp, scope, mission,
           interaction }

/-- What the crates read and write as claims is what is derived for them. -/
structure Serde.Derived {α : Type} (cr : Crates) (s : Serde α)
    (write : α → Json) (read : Json → Option α) : Prop where
  toVec : ∀ a, s.toVec a = jsonBytes cr (write a)
  fromSlice : ∀ p a, s.fromSlice p = .ok a ↔
    Aauth.fromSlice cr read p = some a

structure ClaimsLaws (cr : Crates) : Prop where
  agent : cr.json.agentClaims.Derived cr AgentClaims.toJson
    AgentClaims.fromJson
  auth : cr.json.authClaims.Derived cr AuthClaims.toJson AuthClaims.fromJson
  resource : cr.json.resourceClaims.Derived cr ResourceClaims.toJson
    ResourceClaims.fromJson

/-! ## Token requests (`protocol/token_exchange.rs`) -/

/-- A unit variant is its name, or an object with its name alone. -/
def Capability.fromJson : Json → Option Capability
  | .str s => fromStr s
  | .obj [(s, .null)] => fromStr s
  | _ => none

def TokenExchangeRequest.fromJson (j : Json) :
    Option TokenExchangeRequest := do
  let field ← j.fields ["resource_token", "upstream_token",
    "subagent_token", "justification", "login_hint", "tenant", "domain_hint",
    "capabilities", "prompt", "platform", "device"]
  let resourceToken ← required asStr (field "resource_token")
  let upstreamToken ← optional asStr (field "upstream_token")
  let subagentToken ← optional asStr (field "subagent_token")
  let justification ← optional asStr (field "justification")
  let loginHint ← optional asStr (field "login_hint")
  let tenant ← optional asStr (field "tenant")
  let domainHint ← optional asStr (field "domain_hint")
  let capabilities ← optional (asList Capability.fromJson)
    (field "capabilities")
  let prompt ← optional asStr (field "prompt")
  let platform ← optional asStr (field "platform")
  let device ← optional asStr (field "device")
  return { resourceToken, upstreamToken, subagentToken, justification,
           loginHint, tenant, domainHint, capabilities, prompt, platform,
           device }

def AccessTokenExchangeRequest.toJson (r : AccessTokenExchangeRequest) :
    Json :=
  .obj (record [("resource_token", some (.str r.resourceToken)),
    ("agent_token", some (.str r.agentToken)),
    ("upstream_token", r.upstreamToken.map .str),
    ("subagent_token", r.subagentToken.map .str)])

def AccessTokenExchangeRequest.fromJson (j : Json) :
    Option AccessTokenExchangeRequest := do
  let field ← j.fields
    ["resource_token", "agent_token", "upstream_token", "subagent_token"]
  let resourceToken ← required asStr (field "resource_token")
  let agentToken ← required asStr (field "agent_token")
  let upstreamToken ← optional asStr (field "upstream_token")
  let subagentToken ← optional asStr (field "subagent_token")
  return { resourceToken, agentToken, upstreamToken, subagentToken }

end Aauth
