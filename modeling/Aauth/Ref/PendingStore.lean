import Mathlib.Data.List.AList
import Aauth.Lib.Prog
import Aauth.Ref.Deferred

/-!
# Pending records and their store (`aauth-policy/src/store`)

The operations of a pending store are effects; the services of the next
modules are programs over them, so that one text serves both a call that
runs alone and calls that interleave between two store operations.
`memoryStore` is the in-memory store that ships with the crate: a map
under a lock, whose scan visits the entries in no particular order.
-/

namespace Aauth

open Effect

/-! ## Records (`records.rs`) -/

structure FederationPendingState where
  accessServerUrl : String
  asPendingUrl : String
deriving DecidableEq, Repr

structure PersonPendingContext where
  personServerUrl : String
  resourceUrl : String
  agentClaims : AgentClaims
  resourceClaims : ResourceClaims
  exchangeRequest : TokenExchangeRequest
  agentToken : String
  federation : Option FederationPendingState
  resourceInteraction : Option ResourceInteractionClaim
  psInteractionCode : Option String
  interactionCodeConsumed : Bool
deriving DecidableEq, Repr

structure AccessPendingContext where
  accessServerUrl : String
  resourceUrl : String
  personServerUrl : String
  agentClaims : AgentClaims
  resourceClaims : ResourceClaims
  resourceToken : String
  agentToken : String
deriving DecidableEq, Repr

structure PendingRecord (C : Type) where
  id : String
  createdAt : Nat
  expiresAt : Nat
  context : C
  snapshot : PendingSnapshot
deriving DecidableEq, Repr

abbrev PersonPendingRecord := PendingRecord PersonPendingContext
abbrev AccessPendingRecord := PendingRecord AccessPendingContext

namespace PendingRecord

variable {C : Type}

/-- `PendingRecord::new` at the time `now`. -/
def new (now : Nat) (id : String) (context : C) (snapshot : PendingSnapshot)
    (ttlSecs : Nat) : PendingRecord C where
  id := id
  createdAt := now
  expiresAt := now + ttlSecs
  context := context
  snapshot := snapshot

def isExpired (now : Nat) (r : PendingRecord C) : Bool := r.expiresAt < now

end PendingRecord

/-! ## Operations (`traits.rs`) -/

inductive PendingStoreOp (C : Type) where
  | create (record : PendingRecord C)
  | load (id : String)
  | save (id : String) (record : PendingRecord C)
  | complete (id : String) (outcome : PendingOutcome)
  | remove (id : String)
  | findIf (pred : PendingRecord C → Bool)

/-- What an operation answers; `E` is the store's error type. -/
def PendingStoreOp.Ans (E : Type) {C : Type} : PendingStoreOp C → Type
  | create _ => Except E String
  | load _ => Except E (Option (PendingRecord C))
  | save _ _ | complete _ _ | remove _ => Except E Unit
  | findIf _ => Except E (Option (String × PendingRecord C))

/-- The effects of a service over a store of `C`-records: the store, the
clock, random identifiers, and the service's own effects `X`. -/
inductive ServiceOp (C : Type) (X : Sig) where
  | store (o : PendingStoreOp C)
  | now
  | pendingIdBytes
  | ext (o : X.Op)

abbrev serviceSig (E C : Type) (X : Sig) : Sig where
  Op := ServiceOp C X
  Ans
    | .store o => o.Ans E
    | .now => Nat
    | .pendingIdBytes => Bytes
    | .ext o => X.Ans o

section Operations

variable {E C ε : Type} {X : Sig}

def PendingStore.create (record : PendingRecord C) :
    Prog (serviceSig E C X) (Except E String) :=
  .call (.store (.create record)) .ret

def PendingStore.load (id : String) :
    Prog (serviceSig E C X) (Except E (Option (PendingRecord C))) :=
  .call (.store (.load id)) .ret

def PendingStore.save (id : String) (record : PendingRecord C) :
    Prog (serviceSig E C X) (Except E Unit) :=
  .call (.store (.save id record)) .ret

def PendingStore.complete (id : String) (outcome : PendingOutcome) :
    Prog (serviceSig E C X) (Except E Unit) :=
  .call (.store (.complete id outcome)) .ret

def PendingStore.remove (id : String) :
    Prog (serviceSig E C X) (Except E Unit) :=
  .call (.store (.remove id)) .ret

def PendingStore.findIf (pred : PendingRecord C → Bool) :
    Prog (serviceSig E C X) (Except E (Option (String × PendingRecord C))) :=
  .call (.store (.findIf pred)) .ret

/-- The system clock, in seconds. -/
def systemNow : Prog (serviceSig E C X) Nat := .call .now .ret

def pendingIdBytes : Prog (serviceSig E C X) Bytes := .call .pendingIdBytes .ret

end Operations

/-- `result.map_err(f)?` -/
def mapErr {S : Sig} {ε ε' α : Type} (f : ε → ε')
    (p : Prog S (Except ε α)) : ExceptT ε' (Prog S) α :=
  ExceptT.mk (p >>= fun r => .ret (r.mapError f))

/-- Runs a step that cannot fail, or whose failure is ignored. -/
def liftProg {S : Sig} {ε α : Type} (p : Prog S α) : ExceptT ε (Prog S) α :=
  ExceptT.mk (p >>= fun a => .ret (.ok a))

/-- `poll_auth_pending` -/
def pollAuthPending {E C : Type} {X : Sig} (pendingId : String) :
    ExceptT E (Prog (serviceSig E C X)) AuthTokenPollOutcome := do
  match ← mapErr id (PendingStore.load pendingId) with
  | none => return .gone
  | some record =>
      if record.isExpired (← liftProg systemNow) then
        let _ ← liftProg (PendingStore.remove pendingId)
        return .gone
      else return pollOutcomeFromSnapshot record.snapshot

/-! ## The in-memory store (`memory.rs`) -/

abbrev PendingMap (C : Type) := AList fun _ : String => PendingRecord C

/-- What a locked operation does to the map. The scan may stop at any
matching entry. -/
def memoryStore {E C : Type} (m : PendingMap C) :
    (o : PendingStoreOp C) → o.Ans E → PendingMap C → Prop
  | .create r, a, m' => a = .ok r.id ∧ m' = m.insert r.id r
  | .load id, a, m' => a = .ok (m.lookup id) ∧ m' = m
  | .save id r, a, m' => a = .ok () ∧ m' = m.insert id r
  | .complete id o, a, m' => a = .ok () ∧ m' = match m.lookup id with
      | some r => m.insert id { r with snapshot := .complete o }
      | none => m
  | .remove id, a, m' => a = .ok () ∧ m' = m.erase id
  | .findIf p, a, m' => m' = m ∧ ∃ found, a = .ok found ∧ match found with
      | some (id, r) => m.lookup id = some r ∧ p r = true
      | none => ∀ id r, m.lookup id = some r → p r = false

/-- A store together with the identifiers that were ever drawn for it. -/
structure ServiceState (C : Type) where
  records : PendingMap C
  issued : List String

/-- The world of a service over the in-memory store. The clock reads what
`clock` allows; a drawn identifier was never drawn before; the service's
own effects answer as `env` allows and leave the store alone. -/
def serviceWorld {E C : Type} {X : Sig} (env : (o : X.Op) → X.Ans o → Prop)
    (clock : Nat → Prop) : World (serviceSig E C X) (ServiceState C)
  | s, .store o, a, s' =>
      memoryStore s.records o a s'.records ∧ s'.issued = s.issued
  | s, .now, t, s' => clock t ∧ s' = s
  | s, .pendingIdBytes, bytes, s' =>
      generatePendingId bytes ∉ s.issued ∧ s'.records = s.records ∧
        s'.issued = generatePendingId bytes :: s.issued
  | s, .ext o, a, s' => env o a ∧ s' = s

/-- The moment of a call is the time its clock shows. -/
abbrev momentWorld {E C : Type} {X : Sig}
    (env : (o : X.Op) → X.Ans o → Prop) (t : Nat) :
    World (serviceSig E C X) (ServiceState C) := serviceWorld env (· = t)

/-- When a call is served, and what the service's own effects answer it. -/
structure Occasion (X : Sig) where
  time : Nat
  env : (o : X.Op) → X.Ans o → Prop

abbrev occasionWorld {E C : Type} {X : Sig} (m : Occasion X) :
    World (serviceSig E C X) (ServiceState C) := momentWorld m.env m.time

end Aauth
