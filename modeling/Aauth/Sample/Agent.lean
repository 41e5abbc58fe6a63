import Aauth.Proofs.AgentCalls
import Aauth.Sample.Crates

/-!
# A sample agent

A request, options and servers that answer by a rule, for the runs that
show a statement of the agent at a concrete input. The lock, the scan and
the clock are run as functions: the scan meets the keys as the map lists
them, and the clock stands still.
-/

namespace Aauth.Sample

open Effect

/-- Servers, and everything else outside the agent, as a function of what
was called before. -/
abbrev Answers := List AgentEvent → (o : AgentOp) → Option (agentSig.Ans o)

/-- What a call answers, and the log after it. -/
def agentAnswer (env : Answers) (now : Instant) :
    AgentLog → (o : AgentOp) → Option (agentSig.Ans o × AgentLog)
  | (s, l), .lock o =>
      if s.poisoned = true then none
      else
        let (r, a) := s.auth.apply s.auth.tokenCache.keys now o
        some (r, (⟨a, !r.isOk⟩, ⟨.lock o, r⟩ :: l))
  | (s, l), o => (env l o).map fun r => (r, (s, ⟨o, r⟩ :: l))

/-- What `env` answers at some time, as a relation. -/
def Answers.rel (env : Answers) (o : AgentOp) (r : agentSig.Ans o) : Prop :=
  ∃ l, env l o = some r

theorem agentAnswer_world {env : Answers} {now : Instant} {q q' : AgentLog}
    {o : AgentOp} {r : agentSig.Ans o}
    (h : agentAnswer env now q o = some (r, q')) :
    logged (agentWorld env.rel) q o r q' := by
  obtain ⟨s, l⟩ := q
  cases o with
  | lock o =>
      rw [agentAnswer] at h
      by_cases hp : s.poisoned = true
      · rw [if_pos hp] at h
        cases h
      · rw [if_neg hp] at h
        cases ha : s.auth.apply s.auth.tokenCache.keys now o with
        | mk x a =>
            rw [ha] at h
            cases h
            refine ⟨?_, rfl⟩
            show lockStep s o r _
            rw [lockStep, if_neg hp]
            exact ⟨_, now, List.Perm.refl _, ha.symm, rfl⟩
  | _ =>
      obtain ⟨r', hr, he⟩ := Option.map_eq_some_iff.mp h
      cases he
      exact ⟨⟨⟨l, hr⟩, rfl⟩, rfl⟩

/-- A run of the function is a run of the world. -/
theorem exec_of_agentAnswer {α : Type} {env : Answers} {now : Instant}
    {p : Prog agentSig α} {q q' : AgentLog} {a : α}
    (h : p.eval (agentAnswer env now) q = some (a, q')) :
    Exec (logged (agentWorld env.rel)) q p a q' :=
  Prog.exec_of_eval (fun _ _ _ _ => agentAnswer_world) h

/-! ## A request -/

def agentOptions : AgentOptions where
  personServerUrl := none
  personServerMetadata := none
  scope := none
  capabilities := none
  justification := none
  loginHint := none
  tenant := none
  domainHint := none
  prompt := none
  onInteraction := false
  onClarification := false
  maxPollDurationSecs := none
  verifyAuthSignature := true

def getRequest : AgentRequest where
  method := "POST"
  url := "https://r.example/transfer"
  headers := .empty
  body := .bytes []

/-- Credentials nothing is cached in. -/
def newAgent (opaqueSeed : Option String) : AgentState where
  auth := .fresh opaqueSeed
  poisoned := false

/-- The response that sends the agent polling. -/
def deferral : HttpResponse where
  status := 202
  headers := ⟨[("location", "https://r.example/p")]⟩
  body := []

/-- A response with nothing but a status. -/
def bare (status : Nat) : HttpResponse where
  status := status
  headers := .empty
  body := []

/-- Every copy is deferred, and every poll ends with the given status. -/
def deferring (status : Nat) : Answers
  | _, .sendWrapped _ _ => some (.ok deferral)
  | _, .sendAgentSigned _ => some (.ok (bare status))
  | _, .resourceMetadata _ => some none
  | _, .instantNow => some (0 : Nat)
  | _, _ => none

end Aauth.Sample
