import Aauth.Lib.Pool
import Aauth.Ref.AccessClient
import Aauth.Ref.Agent
import Aauth.Ref.PendingStore
import Aauth.Ref.ResourceVerify

/-!
# The agent's client (`aauth-reqwest`)

The middleware that sends a request for the agent, as a program over its
effects: the locked credentials, the transport, the clock, the agent's key
and its callbacks. A loop of the source runs on fuel; a program that runs
out of it has not returned, which `Halt.fuel` keeps apart from every result
of the code. A panic is a result of its own as well.
-/

namespace Aauth

open Text Except Effect

/-! ## Errors (`error.rs`, `token_exchange.rs`) -/

inductive AgentError where
  | auth (e : AgentAuthError)
  | exchange (status : Nat) (aauthError : Option AAuthProtocolError)
  | deferred (e : DeferredError)
  | metadata (e : MetadataError)
  | aauth (e : AAuthError)
  | middleware (source : String)
  | bodyNotCloneable
deriving DecidableEq, Repr

def AgentError.toString : AgentError → String
  | auth e => e.toString
  | exchange _ (some e) => e.errorDescription.getD e.error.asStr
  | exchange status none =>
      "Token exchange failed with status " ++ status.repr
  | deferred e => e.toString
  | metadata e => e.toString
  | aauth e => e.toString
  | middleware _ => "middleware error"
  | bodyNotCloneable => "request body is not cloneable"

/-- How a program ends without a value. -/
inductive Halt where
  | error (e : AgentError)
  | panicked (message : String)
  /-- The code still runs when the fuel of the model is used up. -/
  | fuel

/-! ## Requests (`reqwest`) -/

inductive RequestBody where
  | none
  | bytes (b : Bytes)
  | stream
deriving DecidableEq, Repr

structure AgentRequest where
  method : String
  url : String
  headers : HeaderMap
  body : RequestBody
deriving DecidableEq, Repr

/-- A streamed body can be sent once only. -/
def AgentRequest.tryClone (req : AgentRequest) : Option AgentRequest :=
  if req.body = .stream then none else some req

/-- `apply_opaque_token` (`signed.rs`); `none` is the panic of a token that
no header can carry. -/
def applyOpaqueToken (req : AgentRequest) (token : String) :
    Option AgentRequest :=
  (headerValueFromStr ("AAuth " ++ token)).toOption.map fun value =>
    { req with headers := req.headers.insert "authorization" value }

/-- The field of the resource metadata that the agent reads. -/
structure ResourceServerMetadata where
  authorizationEndpoint : Option String
deriving DecidableEq, Repr

/-- The field of the Person Server metadata that the agent reads. -/
structure PersonServerMetadata where
  tokenEndpoint : String
deriving DecidableEq, Repr

/-- The members of the Person Server metadata that are texts, and those
that are lists of texts; `token_endpoint` apart none is required. -/
def PersonServerMetadata.textMembers : List String :=
  ["issuer", "jwks_uri", "name", "description", "logo_uri", "logo_dark_uri",
    "documentation_uri", "tos_uri", "policy_uri", "mission_endpoint",
    "permission_endpoint", "audit_endpoint", "interaction_endpoint",
    "mission_control_endpoint", "revocation_endpoint"]

def PersonServerMetadata.listMembers : List String :=
  ["scopes_supported", "claims_supported"]

def PersonServerMetadata.fromJson (j : Json) :
    Option PersonServerMetadata := do
  let field ← j.fields ("token_endpoint" :: textMembers ++ listMembers)
  let tokenEndpoint ← Json.required Json.asStr (field "token_endpoint")
  textMembers.forM fun name =>
    (Json.optional Json.asStr (field name)).map fun _ => ()
  listMembers.forM fun name =>
    (Json.optional (Json.asList Json.asStr) (field name)).map fun _ => ()
  return { tokenEndpoint }

def PersonServerMetadata.validate (m : PersonServerMetadata) :
    Except MetadataError Unit :=
  failIf (m.tokenEndpoint.isEmpty = true) .missingTokenEndpoint

namespace Capability

def asStr : Capability → String
  | interaction => "interaction"
  | clarification => "clarification"
  | payment => "payment"

def fromStr (value : String) : Option Capability :=
  match value with
  | "interaction" => some .interaction
  | "clarification" => some .clarification
  | "payment" => some .payment
  | _ => none

/-! The `AAuth-Capabilities` header (`protocol/headers.rs`). -/

def joinHeader (capabilities : List Capability) : String :=
  ", ".intercalate (capabilities.map asStr)

def parseHeader (headerValue : String) : List Capability :=
  ((Text.split headerValue ',').map Text.trim).filterMap fromStr

end Capability

def TokenExchangeRequest.toJson (r : TokenExchangeRequest) : Json :=
  .obj ([("resource_token", .str r.resourceToken)]
    ++ Json.written "upstream_token" .str r.upstreamToken
    ++ Json.written "subagent_token" .str r.subagentToken
    ++ Json.written "justification" .str r.justification
    ++ Json.written "login_hint" .str r.loginHint
    ++ Json.written "tenant" .str r.tenant
    ++ Json.written "domain_hint" .str r.domainHint
    ++ Json.written "capabilities"
      (fun cs : List Capability => .arr (cs.map fun c => .str c.asStr))
      r.capabilities
    ++ Json.written "prompt" .str r.prompt
    ++ Json.written "platform" .str r.platform
    ++ Json.written "device" .str r.device)

/-! ## Options (`agent/auth.rs`) -/

/-- `AgentOptions`, with a callback as whether it is set. -/
structure AgentOptions where
  personServerUrl : Option String
  personServerMetadata : Option PersonServerMetadata
  scope : Option String
  capabilities : Option (List Capability)
  justification : Option String
  loginHint : Option String
  tenant : Option String
  domainHint : Option String
  prompt : Option String
  onInteraction : Bool
  onClarification : Bool
  maxPollDurationSecs : Option Nat
  verifyAuthSignature : Bool
deriving DecidableEq, Repr

/-! ## Effects -/

inductive AgentOp where
  /-- One hold of the credentials' lock. -/
  | lock (o : AgentAuthOp)
  /-- A copy of the original request, sent with an attempt. -/
  | sendWrapped (req : AgentRequest) (attempt : AgentAuthAttempt)
  /-- A request of the agent's own. -/
  | sendAgentSigned (req : AgentRequest)
  /-- The metadata at a URL, when there is any to be had unsigned. -/
  | resourceMetadata (url : String)
  | keyMaterial
  /-- The clock and the metadata fetcher, as one verification finds them. -/
  | verifyEnv
  | instantNow
  | sleep (ms : Nat)
  | onInteraction (url code : String)
  | onClarification (question : String)

abbrev agentSig : Sig where
  Op := AgentOp
  Ans
    | .lock o => Except String o.Ans
    | .sendWrapped _ _ | .sendAgentSigned _ => Except AgentError HttpResponse
    | .resourceMetadata _ => Option ResourceServerMetadata
    | .keyMaterial => AAuthResult SigningMaterial
    | .verifyEnv => VerifyEnv
    | .instantNow => Instant
    | .sleep _ | .onInteraction _ _ => Unit
    | .onClarification _ => String

abbrev AgentTask (α : Type) := ExceptT Halt (Prog agentSig) α

/-- `lock().unwrap()`, then one operation. -/
def lock (o : AgentAuthOp) : AgentTask o.Ans :=
  mapErr .panicked (.call (.lock o) .ret)

def sendWrapped (req : AgentRequest) (attempt : AgentAuthAttempt) :
    AgentTask HttpResponse :=
  mapErr .error (.call (.sendWrapped req attempt) .ret)

def sendAgentSigned (req : AgentRequest) : AgentTask HttpResponse :=
  mapErr .error (.call (.sendAgentSigned req) .ret)

/-- A call that answers, whatever happens. -/
def effect (o : AgentOp) : AgentTask (agentSig.Ans o) :=
  liftProg (.call o .ret)

/-- A result of a library call, its error made the client's. -/
def ofResult {ε α : Type} (f : ε → Halt) (r : Except ε α) : AgentTask α :=
  ExceptT.mk (.ret (r.mapError f))

/-- `?` on a result of the `aauth` crate. -/
def ofAauth {α : Type} (r : AAuthResult α) : AgentTask α :=
  ofResult (fun e => .error (.aauth e)) r

/-- `injector.observe_response(..)?`, under the lock. -/
def observe (origin : String) (attempt : AgentAuthAttempt)
    (response : HttpResponse) : AgentTask AgentAuthStep := do
  let step ← lock (.observeResponse origin attempt response.status
    response.headers)
  ofAauth step

/-- `HttpRequest::builder()..body(..).expect(..)`, then
`Request::try_from(..).expect(..)`. -/
def buildRequest (cr : Crates) (method uri : String) (headers : HeaderMap)
    (body : RequestBody) : AgentTask AgentRequest := do
  let url ← ofResult (fun _ => .panicked "valid http request")
    (cr.httpUri uri)
  let _ ← ofResult (fun _ => .panicked "valid reqwest request")
    (cr.urlParse url)
  return { method, url, headers, body }

/-! ## Polling (`deferred.rs`) -/

structure AgentDeferredOptions where
  locationUrl : String
  interaction : Option (String × String)
  onInteraction : Bool
  onClarification : Bool
  maxPollDurationSecs : Option Nat
deriving DecidableEq, Repr

/-- `from_agent_options`; a URL without a code, or a code without a URL, is
no interaction. -/
def AgentDeferredOptions.fromAgentOptions (options : AgentOptions)
    (locationUrl : String) (interaction : Option (String × String)) :
    AgentDeferredOptions where
  locationUrl := locationUrl
  interaction := interaction
  onInteraction := options.onInteraction
  onClarification := options.onClarification
  maxPollDurationSecs := options.maxPollDurationSecs

structure DeferredResult where
  response : HttpResponse
  error : Option AAuthProtocolError
deriving DecidableEq, Repr

def isSuccess (status : Nat) : Bool := 200 ≤ status && status < 300

def headersContainJson (headers : HeaderMap) : Bool :=
  ((headerValue headers "content-type").map
    (Text.contains · "application/json")).getD false

def splitError (cr : Crates) (response : HttpResponse) : DeferredResult where
  response := response
  error :=
    if !isSuccess response.status && headersContainJson response.headers then
      fromSlice cr AAuthProtocolError.fromJson response.body
    else none

/-- `str::parse::<u64>` -/
def parseU64 (s : String) : Option Nat :=
  let digits := (stripPrefix s "+").getD s
  if !digits.isEmpty && digits.toList.all Char.isDigit then
    digits.toNat?.filter (· < 2 ^ 64)
  else none

/-- In milliseconds; the product wraps. -/
def retryDelayFromSecs (retryAfter : Option Nat) (fallbackMs : Nat) : Nat :=
  (retryAfter.map fun seconds => seconds * 1000 % 2 ^ 64).getD fallbackMs

/-- Asks the user the question of a pending response and posts the
answer. -/
def answerClarification (cr : Crates) (options : AgentDeferredOptions)
    (response : HttpResponse) : AgentTask Unit :=
  if options.onClarification && headersContainJson response.headers then
    match fromSlice cr ClarificationChallenge.fromJson response.body with
    | none => return ()
    | some body => do
        let answer ← effect (.onClarification body.clarification)
        let payload := jsonBytes cr
          (ClarificationResponse.toJson { clarificationResponse := answer })
        let req ← buildRequest cr "POST" options.locationUrl
          (HeaderMap.empty.insert "content-type" "application/json")
          (.bytes payload)
        let _ ← sendAgentSigned req
        return ()
  else return ()

/-- Tells the user where a pending response wants them. -/
def announceInteraction (options : AgentDeferredOptions)
    (response : HttpResponse) : AgentTask Unit :=
  match (headerValue response.headers "aauth-requirement").map
      AAuthChallenge.fromHeader with
  | some (.ok (.interaction url code)) =>
      if options.onInteraction then effect (.onInteraction url code)
      else return ()
  | _ => return ()

/-- The statuses that end a poll by name; any other but `202` and `503`
ends it as well. -/
def terminalStatuses : List Nat := [200, 400, 401, 403, 408, 410, 500]

def pollLoop (cr : Crates) (options : AgentDeferredOptions)
    (maxPollDuration : Nat) (deadline : Instant) :
    Nat → (backoffMs : Nat) → AgentTask DeferredResult
  | 0, _ => throw .fuel
  | fuel + 1, backoffMs => do
      let now ← effect .instantNow
      if now < deadline then do
        let req ← buildRequest cr "GET" options.locationUrl
          (HeaderMap.empty.insert "prefer" "wait=45") .none
        let response ← sendAgentSigned req
        let retryAfter :=
          (headerValue response.headers "retry-after").bind parseU64
        if response.status ∈ terminalStatuses then
          return splitError cr response
        else if response.status = 202 then do
          answerClarification cr options response
          announceInteraction options response
          effect (.sleep (retryDelayFromSecs retryAfter backoffMs))
          pollLoop cr options maxPollDuration deadline fuel
            (min (backoffMs * 2) 5000)
        else if response.status = 503 then do
          effect (.sleep (retryDelayFromSecs retryAfter backoffMs))
          pollLoop cr options maxPollDuration deadline fuel
            (min (backoffMs * 2) 30000)
        else return splitError cr response
      else throw (.error (.deferred (.timedOut maxPollDuration)))

def pollDeferredWith (cr : Crates) (fuel : Nat)
    (options : AgentDeferredOptions) : AgentTask DeferredResult := do
  let maxPollDuration := options.maxPollDurationSecs.getD 300
  let now ← effect .instantNow
  let deadline ← ofResult .panicked
    ((now.add (durationFromSecs maxPollDuration)).okOr
      "overflow when adding duration to instant")
  match options.interaction with
  | some (url, code) =>
      if options.onInteraction then effect (.onInteraction url code)
      else pure ()
  | none => pure ()
  pollLoop cr options maxPollDuration deadline fuel 1000

/-! ## Token exchange (`token_exchange.rs`) -/

structure TokenExchangeResult where
  authToken : String
  expiresIn : Nat
deriving DecidableEq, Repr

def fetchMetadata (cr : Crates) (personServerUrl : String) :
    AgentTask PersonServerMetadata := do
  let metadataUrl :=
    trimEndMatches personServerUrl '/' ++ "/.well-known/aauth-person.json"
  let req ← buildRequest cr "GET" metadataUrl .empty .none
  let response ← sendAgentSigned req
  if isSuccess response.status = false then
    throw (.error (.metadata (.httpStatus metadataUrl response.status)))
  else do
    let metadata ← ofResult (.error ∘ .metadata)
      ((fromSlice cr PersonServerMetadata.fromJson response.body).okOr
        (.decode metadataUrl))
    ofResult (.error ∘ .metadata) metadata.validate
    return metadata

/-- A relative URL is resolved against the base; one that cannot be stays
as it is. -/
def resolveUrl (cr : Crates) (base url : String) : String :=
  if startsWith url "http://" || startsWith url "https://" then url
  else (cr.urlJoin base url).toOption.getD url

/-- The interaction a response asks for. -/
def interactionFromResponse (response : HttpResponse) :
    Option (String × String) :=
  match (headerValue response.headers "aauth-requirement").map
      AAuthChallenge.fromHeader with
  | some (.ok (.interaction url code)) => some (url, code)
  | _ => none

def locationHeader (response : HttpResponse) : AgentTask String :=
  ofResult (.error ∘ .deferred)
    ((headerValue response.headers "location").okOr .missingLocation)

/-- The token of a successful response of the endpoint. -/
def tokenOfResponse (cr : Crates) (endpoint : String)
    (response : HttpResponse) : AgentTask TokenExchangeResult := do
  let parsed ← ofResult (.error ∘ .metadata)
    ((fromSlice cr TokenResponseBody.fromJson response.body).okOr
      (.decode endpoint))
  return { authToken := parsed.authToken, expiresIn := parsed.expiresIn }

/-- The body `exchange_token_with` posts. -/
def exchangeRequestOf (options : AgentOptions) (resourceToken : String) :
    TokenExchangeRequest where
  resourceToken := resourceToken
  upstreamToken := none
  subagentToken := none
  justification := options.justification
  loginHint := options.loginHint
  tenant := options.tenant
  domainHint := options.domainHint
  capabilities := options.capabilities
  prompt := options.prompt
  platform := none
  device := none

/-- The token request and what comes of it, once the endpoint is known. -/
def requestToken (cr : Crates) (fuel : Nat) (options : AgentOptions)
    (personServerUrl resourceToken : String)
    (metadata : PersonServerMetadata) : AgentTask TokenExchangeResult := do
  let body := jsonBytes cr (exchangeRequestOf options resourceToken).toJson
  let req ← buildRequest cr "POST" metadata.tokenEndpoint
    ((HeaderMap.empty.insert "content-type" "application/json").insert
      "prefer" "wait=45") (.bytes body)
  let response ← sendAgentSigned req
  if response.status = 202 then do
    let location ← locationHeader response
    let result ← pollDeferredWith cr fuel (.fromAgentOptions options
      (resolveUrl cr personServerUrl location)
      (interactionFromResponse response))
    if isSuccess result.response.status then
      tokenOfResponse cr metadata.tokenEndpoint result.response
    else throw (.error (.exchange result.response.status result.error))
  else if isSuccess response.status then
    tokenOfResponse cr metadata.tokenEndpoint response
  else throw (.error (.exchange response.status
    (splitError cr response).error))

/-- Its options are taken from the agent's. -/
def exchangeTokenWith (cr : Crates) (fuel : Nat) (options : AgentOptions)
    (personServerUrl resourceToken : String) :
    AgentTask TokenExchangeResult := do
  let metadata ← match options.personServerMetadata with
    | some metadata => pure metadata
    | none => fetchMetadata cr personServerUrl
  requestToken cr fuel options personServerUrl resourceToken metadata

/-! ## The middleware (`middleware/agent.rs`) -/

/-- Polls where a `202` says, and returns the response that ends it. -/
def pollResponse (cr : Crates) (fuel : Nat) (options : AgentOptions)
    (response : HttpResponse) : AgentTask HttpResponse := do
  let location ← locationHeader response
  let result ← pollDeferredWith cr fuel (.fromAgentOptions options location
    (interactionFromResponse response))
  return result.response

/-- Posts the authorization request and takes up what comes of it. -/
def authorizeAt (cr : Crates) (fuel : Nat) (options : AgentOptions)
    (origin endpoint : String) : AgentTask Unit := do
  let body := jsonBytes cr (.obj [("scope", .str (options.scope.getD ""))])
  let _ ← ofResult (fun e => .error (.auth (.invalidOrigin e)))
    (cr.urlParse endpoint)
  let response ← sendAgentSigned
    { method := "POST", url := endpoint,
      headers := HeaderMap.empty.insert "content-type" "application/json",
      body := .bytes body }
  let step ← observe origin .agentSigned response
  if step = .pollDeferred then do
    let polled ← pollResponse cr fuel options response
    let _ ← observe origin .agentSigned polled
    return ()
  else return ()

def tryProactiveAuthorize (cr : Crates) (fuel : Nat)
    (options : AgentOptions) (origin : String) : AgentTask Unit := do
  let first : Bool ← lock (.beginAuthorizeAttempt origin)
  if first = false then return ()
  else
    let metadata ← effect (.resourceMetadata
      (trimEndMatches origin '/' ++ "/.well-known/aauth-resource.json"))
    match metadata.bind (·.authorizationEndpoint) with
    | none => return ()
    | some endpoint => authorizeAt cr fuel options origin endpoint

/-- The exchange of a challenge's resource token, up to its recording: the
Person Server it was done with, and a token that passed the checks. -/
def exchangeChallenge (cr : Crates) (fuel : Nat) (options : AgentOptions)
    (origin resourceToken : String) :
    AgentTask (String × TokenExchangeResult) := do
  let material ← effect .keyMaterial
  let material ← ofAauth material
  let agentJwt ← ofAauth (agentJwtFromSignatureKey material.signatureKey)
  let parsed ← ofAauth (ParsedToken.parse cr agentJwt)
  let agentSub ← ofResult .error
    (parsed.agentIdentifier.okOr (.auth .expectedAgentJwt))
  let agentJkt ← ofAauth (jwkThumbprint cr material.signingJwk.publicJwk)
  let env ← effect .verifyEnv
  let claims ← ofAauth (verifyResourceChallenge cr env resourceToken origin
    agentSub agentJkt)
  let personServerUrl ← ofAauth
    (resolvePersonServerUrl cr options.personServerUrl agentJwt)
  let result ← exchangeTokenWith cr fuel options personServerUrl resourceToken
  let env ← effect .verifyEnv
  let _ ← ofAauth (verifyClientAuthToken cr env result.authToken origin
    claims.aud agentSub agentJkt options.verifyAuthSignature)
  return (personServerUrl, result)

/-- What the response of a copy leads to: a response to return, or another
round. -/
def afterResponse (cr : Crates) (fuel : Nat) (options : AgentOptions)
    (origin : String) (attempt : AgentAuthAttempt)
    (response : HttpResponse) : AgentTask (Option HttpResponse) := do
  match ← observe origin attempt response with
  | .finish => return some response
  | .retryWithOpaque => return none
  | .pollDeferred => do
      let polled ← pollResponse cr fuel options response
      let step ← observe origin attempt polled
      if step = .finish ∨ step = .retryWithOpaque then return none
      else return some polled
  | .invalidate _ => return none
  | .exchangeToken resourceToken => do
      let (personServerUrl, result) ←
        exchangeChallenge cr fuel options origin resourceToken
      lock (.recordAuthToken origin personServerUrl result.authToken
        result.expiresIn)
      return none

/-- The loop: pick a credential, send a copy, see what the response asks
for. -/
def handleLoop (cr : Crates) (options : AgentOptions) (req : AgentRequest)
    (origin : String) : Nat → AgentTask HttpResponse
  | 0 => throw .fuel
  | fuel + 1 => do
      let attempt ← lock (.nextAttempt origin)
      let copy ← ofResult .error (req.tryClone.okOr .bodyNotCloneable)
      let response ← sendWrapped copy attempt
      match ← afterResponse cr fuel options origin attempt response with
      | some response => return response
      | none => handleLoop cr options req origin fuel

/-- `handle_inner` -/
def handleInner (cr : Crates) (options : AgentOptions) (fuel : Nat)
    (req : AgentRequest) : AgentTask HttpResponse := do
  let origin ← ofAauth (AgentAuth.resourceOrigin cr req.url)
  lock (.seedOpaque origin)
  tryProactiveAuthorize cr fuel options origin
  handleLoop cr options req origin fuel

/-! ## The world -/

/-- The lock behaves as the mutex does; everything else answers as `env`
allows and leaves the credentials alone. -/
def agentWorld (env : (o : AgentOp) → agentSig.Ans o → Prop) :
    World agentSig AgentState
  | s, .lock o, r, s' => lockStep s o r s'
  | s, o, r, s' => env o r ∧ s' = s

/-- Calls of clones of one client, side by side. -/
def clients {ι σ : Type} (cr : Crates) (options : AgentOptions)
    (fuel : ι → Nat) (req : ι → AgentRequest) (s : σ) :
    Pool agentSig σ ι (Except Halt HttpResponse) where
  state := s
  thread i := (handleInner cr options (fuel i) (req i)).run

end Aauth
