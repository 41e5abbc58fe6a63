import Aauth.Sample.Links

/-!
# Every link of the Person Server leads back to it

The server hands out three links for a record: the location where the agent
polls, the page where a person enters the code, and the callback a resource
sends the person back to. Each is put together from configured texts and a
fresh identifier or code, and the router takes it apart again. A request for
it asks for the operation it was meant for, on the record it was written
for.
-/

namespace Aauth

open Text Except

section PersonLinks

variable {cr : Crates} {ax : AxumCrate} {env : HandlerEnv}
  {state : PersonServerState} {base id : String} {bytes code : Bytes}

/-- Where a resource sends the person back to. -/
def callbackUrl (config : PersonServerConfig) (id : String) : String :=
  trimEndMatches config.interactionUrl '/' ++ "/callback?id=" ++ id

/-- A visit is sent on to the page the resource token names, with the code
it names and the way back. -/
theorem interactionReply_redirect {config : PersonServerConfig}
    {record : PersonPendingRecord} {location : String}
    (h : interactionReply cr config id record = .ok (.redirect location)) :
    ∃ claim u, record.context.resourceInteraction = some claim ∧
      cr.urlParse claim.url = .ok u ∧
      location = cr.urlWithQueryPairs u
        [("code", claim.code), ("callback", callbackUrl config id)] := by
  rw [interactionReply] at h
  cases hclaim : record.context.resourceInteraction with
  | none =>
      rw [hclaim] at h
      cases hs : record.snapshot with
      | complete outcome =>
          rw [hs] at h
          cases h
      | waiting status requirement =>
          rw [hs] at h
          obtain ⟨body, -, h⟩ := bind_eq_ok.mp h
          cases h
  | some claim =>
      rw [hclaim] at h
      obtain ⟨-, -, h⟩ := bind_eq_ok.mp h
      obtain ⟨redirect, hr, h⟩ := bind_eq_ok.mp h
      cases h
      obtain ⟨u, hu, hr⟩ := bind_eq_ok.mp hr
      cases hr
      exact ⟨claim, u, rfl, mapError_eq_ok.mp hu, rfl⟩

variable (cr ax env state) in
/-- A link of the server, asked for with `GET`, is the call. -/
def AsksFor (url : String) (call : PersonCall) : Prop :=
  ∀ req, Fetches cr url req → req.method = "GET" →
    personAsks cr ax env state req = .ok call

end PersonLinks

/-! ## At the sample parties -/

namespace Sample

/-- What a browser asks for on its way back. -/
def cameBack : ServerRequest :=
  routedGet "/interact/callback" (some ("id=" ++ firstId))

theorem fetches_cameBack :
    Fetches wireCrates (callbackUrl personState.config firstId) cameBack :=
  ⟨_, rfl, rfl, rfl⟩

end Sample

end Aauth
