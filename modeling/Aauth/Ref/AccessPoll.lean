import Aauth.Ref.AgentClient

/-!
# Polling an Access Server (`aauth-reqwest/src/access_client.rs`)

`poll_pending` with its clock, its requests and its sleeps, as a program
over these three effects. `pollPending` is what it makes of the responses;
here it also decides when the next one is asked for.
-/

namespace Aauth

open Effect

inductive ServerPollOp where
  | instantNow
  /-- An unsigned `GET`, with its whole response. -/
  | get (url : String) (headers : HeaderMap)
  | sleep (ms : Nat)

abbrev serverPollSig : Sig where
  Op := ServerPollOp
  Ans
    | .instantNow => Instant
    | .get _ _ => AAuthResult HttpResponse
    | .sleep _ => Unit

abbrev ServerPollTask (α : Type) := ExceptT Halt (Prog serverPollSig) α

namespace ReqwestAccessServerClient

def instantNow : ServerPollTask Instant := liftProg (.call .instantNow .ret)

def sleep (ms : Nat) : ServerPollTask Unit := liftProg (.call (.sleep ms) .ret)

def get (url : String) (headers : HeaderMap) : ServerPollTask HttpResponse :=
  mapErr (fun e => .error (.aauth e)) (.call (.get url headers) .ret)

def parseRetryAfter (headers : HeaderMap) : Option Nat :=
  (headerValue headers "retry-after").bind parseU64

/-- In milliseconds; the product wraps. -/
def retryWait (retryAfter : Option Nat) (backoffMs : Nat) : Nat :=
  (retryAfter.map fun s => s * 1000 % 2 ^ 64).getD backoffMs

def pollRounds (cr : Crates) (accessServerUrl : String)
    (options : ServerPollOptions) (maxDuration : Nat) (deadline : Instant) :
    Nat → (backoffMs : Nat) → ServerPollTask ServerPollOutcome
  | 0, _ => throw .fuel
  | fuel + 1, backoffMs => do
      let now ← instantNow
      if now < deadline then do
        let response ← get options.locationUrl (HeaderMap.empty.insert "prefer"
          ("wait=" ++ (options.preferWait.getD 45).repr))
        let retryAfter :=
          parseRetryAfter (responseHeadersToHttp response.headers)
        match pollReply cr accessServerUrl response with
        | .error e => throw (.error (.aauth e))
        | .ok (some outcome) => return outcome
        | .ok none => do
            sleep (retryWait retryAfter backoffMs)
            pollRounds cr accessServerUrl options maxDuration deadline fuel
              (min (backoffMs * 2) 30000)
      else throw (.error (.aauth (.deferred (.timedOut maxDuration))))

/-- `poll_pending`, with its clock and its sleeps. -/
def pollPendingTimed (cr : Crates) (fuel : Nat) (accessServerUrl : String)
    (options : ServerPollOptions) : ServerPollTask ServerPollOutcome := do
  let maxDuration := options.maxPollDurationSecs.getD 300
  let now ← instantNow
  let deadline ← ExceptT.mk (.ret (((now.add
    (durationFromSecs maxDuration)).okOr
      "overflow when adding duration to instant").mapError .panicked))
  pollRounds cr accessServerUrl options maxDuration deadline fuel 1000

end ReqwestAccessServerClient

end Aauth
