import Aauth.Ref.AccessServer
import Aauth.Proofs.PersonEndpoint

/-!
# Sample servers

A store, a clock and the effects of the Person Server that can be run, so
that whole runs of the services are evaluated rather than argued about.
-/

namespace Aauth.Sample

open Effect

/-! ## A store that can be run -/

section Run

variable {C : Type} {X : Sig}

/-- The in-memory store, scanning its entries front to back. -/
def storeAnswer (m : PendingMap C) :
    (o : PendingStoreOp C) → o.Ans Empty × PendingMap C
  | .create r => (.ok r.id, m.insert r.id r)
  | .load id => (.ok (m.lookup id), m)
  | .save id r => (.ok (), m.insert id r)
  | .complete id o => (.ok (), match m.lookup id with
      | some r => m.insert id { r with snapshot := .complete o }
      | none => m)
  | .remove id => (.ok (), m.erase id)
  | .findIf p => (.ok ((m.entries.find? fun e => p e.2).map
      fun e => (e.1, e.2)), m)

theorem storeAnswer_sound (m : PendingMap C) (o : PendingStoreOp C) :
    memoryStore m o (storeAnswer m o).1 (storeAnswer m o).2 := by
  cases o with
  | create _ | load _ | save _ _ | complete _ _ | remove _ =>
      exact ⟨rfl, rfl⟩
  | findIf p =>
      refine ⟨rfl, _, rfl, ?_⟩
      cases hf : m.entries.find? fun e => p e.2 with
      | some e =>
          have hp := List.find?_some hf
          have hm := List.mem_of_find?_eq_some hf
          exact ⟨AList.mem_lookup_iff.mpr hm, hp⟩
      | none =>
          intro id r hr
          have hm : Sigma.mk id r ∈ m.entries := AList.mem_lookup_iff.mp hr
          simpa using List.find?_eq_none.mp hf _ hm

/-- Sixteen bytes no earlier identifier was made from. -/
def freshBytes (issued : List String) : Bytes :=
  List.replicate 16 (UInt8.ofNat issued.length)

/-- A world at time `t` over the given effects. -/
def answer (ext : (o : X.Op) → Option (X.Ans o)) (t : Nat) :
    ServiceState C → (o : (serviceSig Empty C X).Op) →
      Option ((serviceSig Empty C X).Ans o × ServiceState C)
  | s, .store o => some ((storeAnswer s.records o).1,
      { s with records := (storeAnswer s.records o).2 })
  | s, .now => some (t, s)
  | s, .pendingIdBytes =>
      let id := generatePendingId (freshBytes s.issued)
      if id ∈ s.issued then none
      else some (freshBytes s.issued, { s with issued := id :: s.issued })
  | s, .ext o => (ext o).map fun a => (a, s)

theorem answer_sound {ext : (o : X.Op) → Option (X.Ans o)} {t : Nat}
    (s : ServiceState C) (o : (serviceSig Empty C X).Op)
    (a : (serviceSig Empty C X).Ans o) (s' : ServiceState C)
    (h : answer ext t s o = some (a, s')) :
    momentWorld (fun o a => ext o = some a) t s o a s' := by
  cases o with
  | store o =>
      cases h
      exact ⟨storeAnswer_sound _ o, rfl⟩
  | now =>
      cases h
      exact ⟨rfl, rfl⟩
  | pendingIdBytes =>
      simp only [answer] at h
      split at h
      · cases h
      · next hid =>
          cases h
          exact ⟨hid, rfl, rfl⟩
  | ext o =>
      obtain ⟨a', ha, he⟩ := Option.map_eq_some_iff.mp h
      cases he
      exact ⟨ha, rfl⟩

end Run

/-! ## The Person Server's effects -/

/-- A policy that answers exchanges with `evaluated` and inputs with
`resumed`, the shipped minter with the Person Server's key, and an Access
Server that is down. -/
def personAnswer (evaluated : PersonTokenDecision)
    (resumed : PendingInput → PersonTokenDecision) :
    (o : PersonOp) → Option (personExt.Ans o)
  | .evaluate _ => some (.ok evaluated)
  | .resume _ input => some (.ok (resumed input))
  | .mintPersonAuthJwt iss aud agent agentJwk sub scope =>
      some (.ok (authToken ((personMintParams crates personKey iss aud agent
        agentJwk sub scope).claims now "auth-1") personKey))
  | .codeBytes => some (List.replicate 5 0)
  | .fetchMetadata _ | .exchangeToken _ _ | .resumePending _ _
  | .pollPending _ _ => some (.error (.metadata (.request accessServer)))
  | .verifyEnv => some env
  | .panic => none

/-- What the shipped minter makes of its parameters. -/
theorem encodeAuthJwt_eq (key : Ed25519KeyPair) {p : AuthJwtMintParams}
    (hkey : p.encodingKey = key.encodingKey crates) (hkid : p.kid = key.kid)
    (now : Nat) (jti : String) :
    encodeAuthJwt crates now jti p =
      .ok (authToken (p.claims now jti) key) := by
  have he := encode_mint .auth (authClaims.enc (p.claims now jti)) key
  rw [encodeAuthJwt, hkey, hkid, crates_authClaims, serde_toVec, he]
  rfl

/-- A policy that answers exchanges with `evaluated` and inputs with
`resumed`, and the shipped minter with the Access Server's key. -/
def accessAnswer (evaluated : AccessTokenDecision)
    (resumed : PendingInput → AccessTokenDecision) :
    (o : AccessOp) → Option (accessExt.Ans o)
  | .evaluate _ => some (.ok evaluated)
  | .resume _ input => some (.ok (resumed input))
  | .mintAccessAuthJwt iss aud agent agentJwk sub scope =>
      some (.ok (authToken ((Access.mintParams crates accessKey iss aud agent
        agentJwk sub scope).claims now "auth-1") accessKey))

/-- A call of the Access Server, run to its end. -/
theorem access_exec {evaluated : AccessTokenDecision}
    {resumed : PendingInput → AccessTokenDecision} {α : Type}
    {p : Prog (accessSig Empty) α} {t : Nat}
    {s s' : ServiceState AccessPendingContext} {reply : α}
    (h : p.eval (answer (accessAnswer evaluated resumed) t) s =
      some (reply, s')) :
    Exec (momentWorld (fun o a => accessAnswer evaluated resumed o = some a)
      t) s p reply s' :=
  Prog.exec_of_eval answer_sound h

/-- A call of the Person Server, run to its end. -/
theorem person_exec {evaluated : PersonTokenDecision}
    {resumed : PendingInput → PersonTokenDecision} {α : Type}
    {p : Prog (personSig Empty) α} {t : Nat}
    {s s' : ServiceState PersonPendingContext} {reply : α}
    (h : p.eval (answer (personAnswer evaluated resumed) t) s =
      some (reply, s')) :
    Exec (momentWorld (fun o a => personAnswer evaluated resumed o = some a)
      t) s p reply s' :=
  Prog.exec_of_eval answer_sound h

/-! ## A request that waits -/

/-- The agent's exchange of a token the resource gave it. -/
def botContext (rc : ResourceClaims) : PersonTokenContext :=
  personContext personConfig bot rc
    (exchangeRequest (resourceToken rc resourceKey))

/-- The first identifier that is drawn. -/
def firstId : String := generatePendingId (freshBytes [])

/-- The state after one exchange that was deferred at `now`. -/
def waitingFor (c : PersonPendingContext) (requirement : DeferRequirement) :
    ServiceState PersonPendingContext where
  records := AList.insert firstId
    (.new now firstId c (.ofRequirement requirement)
      personConfig.pendingTtlSecs) ∅
  issued := [firstId]

end Aauth.Sample
