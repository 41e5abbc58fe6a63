import Mathlib.Algebra.Group.Nat.Defs
import Mathlib.Data.Finset.Insert
import Mathlib.Data.List.AList
import Aauth.Ref.Http
import Aauth.Ref.HttpSig
import Aauth.Ref.Jwt

/-!
# The agent's credentials (`aauth/src/agent`)

`AgentAuth` keeps the tokens an agent has obtained and decides with which
of them a request is sent and what its response means. Clones of one client
share it behind a mutex: each operation below is one hold of the lock. Two
things are left to chance: the order in which a scan of the token map meets
its keys, and the time.
-/

namespace Aauth

open Except

/-! ## Time (`std::time`) -/

/-- A point of the monotonic clock, in nanoseconds. -/
abbrev Instant := Nat

/-- `Duration::from_secs`, in nanoseconds. -/
def durationFromSecs (secs : Nat) : Nat := 1000000000 * secs

/-- An `Instant` holds its seconds as an `i64`. -/
def INSTANT_LIMIT : Nat := 2 ^ 63 * 1000000000

/-- `Instant + Duration`; `none` is the panic on overflow. -/
def Instant.add (t : Instant) (d : Nat) : Option Instant :=
  if t + d < INSTANT_LIMIT then some (t + d) else none

/-! ## State (`agent/auth.rs`) -/

/-- What a request is sent with. -/
inductive AgentAuthAttempt where
  | authToken (token : String)
  | opaqueToken (token : String)
  | agentSigned
deriving DecidableEq, Repr

/-- What a response calls for. -/
inductive AgentAuthStep where
  | finish
  | retryWithOpaque
  | exchangeToken (resourceToken : String)
  | pollDeferred
  | invalidate (attempt : AgentAuthAttempt)
deriving DecidableEq, Repr

structure CachedToken where
  authToken : String
  expiresAt : Instant
deriving DecidableEq, Repr

structure AuthTokenCacheKey where
  origin : String
  personServer : String
deriving DecidableEq, Repr

structure AgentAuth where
  tokenCache : AList fun _ : AuthTokenCacheKey => CachedToken
  opaqueCache : AList fun _ : String => String
  authorizeTried : Finset String
  opaqueSeed : Option String

namespace AgentAuth

/-- `from_options`: nothing cached, nothing tried. -/
def fresh (opaqueSeed : Option String) : AgentAuth where
  tokenCache := ∅
  opaqueCache := ∅
  authorizeTried := ∅
  opaqueSeed := opaqueSeed

def resourceOrigin (cr : Crates) (url : String) : AAuthResult String :=
  ((cr.urlParse url).mapError fun e => .agent (.invalidOrigin e)).map
    (·.origin)

/-- Whether this is the first try, with no opaque token cached yet. -/
def beginAuthorizeAttempt (a : AgentAuth) (origin : String) :
    Bool × AgentAuth :=
  if a.opaqueCache.lookup origin ≠ none then (false, a)
  else (decide (origin ∉ a.authorizeTried),
    { a with authorizeTried := insert origin a.authorizeTried })

def seedOpaque (a : AgentAuth) (origin : String) : AgentAuth :=
  match a.opaqueSeed with
  | none => a
  | some seed =>
      if a.opaqueCache.lookup origin = none then
        { a with opaqueCache := a.opaqueCache.insert origin seed }
      else a

/-- The first key of the origin, as the scan meets the keys. -/
def findCachedTokenKey (order : List AuthTokenCacheKey) (origin : String) :
    Option AuthTokenCacheKey :=
  order.find? (·.origin == origin)

/-- The token found when it has more than a minute left; else it is
dropped. -/
def findCachedToken (order : List AuthTokenCacheKey) (now : Instant)
    (a : AgentAuth) (origin : String) : Option CachedToken × AgentAuth :=
  match findCachedTokenKey order origin with
  | none => (none, a)
  | some key =>
      match a.tokenCache.lookup key with
      | none => (none, a)
      | some cached =>
          if cached.expiresAt > now + durationFromSecs 60 then
            (some cached, a)
          else (none, { a with tokenCache := a.tokenCache.erase key })

def nextAttempt (order : List AuthTokenCacheKey) (now : Instant)
    (a : AgentAuth) (origin : String) : AgentAuthAttempt × AgentAuth :=
  match findCachedToken order now a origin with
  | (some cached, a) => (.authToken cached.authToken, a)
  | (none, a) =>
      match a.opaqueCache.lookup origin with
      | some token => (.opaqueToken token, a)
      | none => (.agentSigned, a)

/-- The one readable token of the `AAuth-Access` headers. -/
def accessToken (headers : HeaderMap) : Option String :=
  match headers.getAll "aauth-access" with
  | [value] => (toStr value).bind fun raw =>
      (parseAauthAccessHeader raw).toOption
  | _ => none

/-- Keeps the token of a response; says whether it is a new one. -/
def cacheOpaqueFromHeaders (a : AgentAuth) (origin : String)
    (headers : HeaderMap) : Bool × AgentAuth :=
  match accessToken headers with
  | none => (false, a)
  | some token =>
      if a.opaqueCache.lookup origin = some token then (false, a)
      else (true, { a with opaqueCache := a.opaqueCache.insert origin token })

/-- What a `401` to an agent-signed request calls for. -/
def observeChallenge (headers : HeaderMap) : AAuthResult AgentAuthStep :=
  match headerValue headers "aauth-requirement" with
  | none => .ok .finish
  | some header => do
      match ← AAuthChallenge.fromHeader header with
      | .authToken resourceToken => return .exchangeToken resourceToken
      | _ => return .finish

def observeResponse (order : List AuthTokenCacheKey) (a : AgentAuth)
    (origin : String) (attempt : AgentAuthAttempt) (status : Nat)
    (headers : HeaderMap) : AAuthResult AgentAuthStep × AgentAuth :=
  if status ≠ 401 then
    let (cachedOpaque, a) := a.cacheOpaqueFromHeaders origin headers
    if status = 202 then (.ok .pollDeferred, a)
    else if cachedOpaque = true ∧ attempt = .agentSigned then
      (.ok .retryWithOpaque, a)
    else (.ok .finish, a)
  else match attempt with
    | .authToken _ =>
        -- whichever entry the scan meets first, whatever its token
        match findCachedTokenKey order origin with
        | none => (.ok (.invalidate attempt), a)
        | some key => (.ok (.invalidate attempt),
            { a with tokenCache := a.tokenCache.erase key })
    | .opaqueToken _ => (.ok (.invalidate attempt),
        { a with opaqueCache := a.opaqueCache.erase origin })
    | .agentSigned => (observeChallenge headers, a)

/-- `none` is the panic of a lifetime beyond the clock. -/
def recordAuthToken (now : Instant) (a : AgentAuth)
    (origin personServer token : String) (expiresIn : Nat) :
    Option AgentAuth :=
  (now.add (durationFromSecs expiresIn)).map fun expiresAt =>
    let cached : CachedToken := { authToken := token, expiresAt }
    { a with tokenCache := a.tokenCache.insert ⟨origin, personServer⟩ cached }

end AgentAuth

/-! ## Operations under the lock -/

inductive AgentAuthOp where
  | seedOpaque (origin : String)
  | beginAuthorizeAttempt (origin : String)
  | nextAttempt (origin : String)
  | observeResponse (origin : String) (attempt : AgentAuthAttempt)
      (status : Nat) (headers : HeaderMap)
  | recordAuthToken (origin personServer token : String) (expiresIn : Nat)

abbrev AgentAuthOp.Ans : AgentAuthOp → Type
  | seedOpaque _ | recordAuthToken _ _ _ _ => Unit
  | beginAuthorizeAttempt _ => Bool
  | nextAttempt _ => AgentAuthAttempt
  | observeResponse _ _ _ _ => AAuthResult AgentAuthStep

/-- The origin an operation is about. -/
def AgentAuthOp.origin : AgentAuthOp → String
  | seedOpaque o | beginAuthorizeAttempt o | nextAttempt o
  | observeResponse o _ _ _ | recordAuthToken o _ _ _ => o

/-- What an operation answers and leaves; an error is its panic. -/
def AgentAuth.apply (order : List AuthTokenCacheKey) (now : Instant)
    (a : AgentAuth) : (o : AgentAuthOp) → Except String o.Ans × AgentAuth
  | .seedOpaque origin => (.ok (), a.seedOpaque origin)
  | .beginAuthorizeAttempt origin =>
      let (first, a) := a.beginAuthorizeAttempt origin
      (.ok first, a)
  | .nextAttempt origin =>
      let (attempt, a) := a.nextAttempt order now origin
      (.ok attempt, a)
  | .observeResponse origin attempt status headers =>
      let (step, a) := a.observeResponse order origin attempt status headers
      (.ok step, a)
  | .recordAuthToken origin personServer token expiresIn =>
      match a.recordAuthToken now origin personServer token expiresIn with
      | none => (.error "overflow when adding duration to instant", a)
      | some a => (.ok (), a)

/-- The mutex and what it guards: a panic while it is held poisons it. -/
structure AgentState where
  auth : AgentAuth
  poisoned : Bool

/-- One hold of the lock. The scan meets the keys in any order, and the
clock shows any time. -/
def lockStep (s : AgentState) (o : AgentAuthOp) (r : Except String o.Ans)
    (s' : AgentState) : Prop :=
  if s.poisoned = true then r = .error "PoisonError" ∧ s' = s
  else ∃ order now, order.Perm s.auth.tokenCache.keys ∧
    (r, s'.auth) = s.auth.apply order now o ∧ s'.poisoned = !r.isOk

/-! ## Resolution (`agent/resolve.rs`) -/

def decodeAgentClaimsUnverified (cr : Crates) (jwt : String) :
    AAuthResult AgentClaims := do
  match ← ParsedToken.parse cr jwt with
  | .agent claims => return claims
  | .auth _ | .resource _ => throw (.agent .expectedAgentJwt)

/-- The configured Person Server, else the one the agent token names. -/
def resolvePersonServerUrl (cr : Crates) (configured : Option String)
    (agentJwt : String) : AAuthResult String :=
  match configured with
  | some url => .ok url
  | none => do
      let claims ← decodeAgentClaimsUnverified cr agentJwt
      claims.ps.okOr (.agent .personServerUnresolved)

def agentJwtFromSignatureKey : SignatureKey → AAuthResult String
  | .jwt j => .ok j
  | .hwk _ | .unsupported _ => .error (.agent .hwkUnsupported)

end Aauth
