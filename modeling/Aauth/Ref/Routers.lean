import Aauth.Ref.AccessServer
import Aauth.Ref.Claims
import Aauth.Ref.PersonService
import Aauth.Ref.ResourceService
import Aauth.Ref.Respond

/-!
# The routers (`aauth-axum`)

What the three servers mount: a request is taken apart by the path, the
method and the extractors of its handler, the handler makes at most one
call of the service, and the outcome is written as a response. A handler
is a program over the effects of its service. What `axum` answers before
a handler runs has a status here and no text.
-/

namespace Aauth

open Text Except Effect Json

/-! ## Requests and answers -/

/-- The path and the query as they stand in the URI. A body that cannot be
read, or that is too long, is the status `axum` has for it. -/
structure ServerRequest where
  method : String
  path : String
  query : Option String
  headers : HeaderMap
  body : Except Nat Bytes

inductive Answer where
  | response (r : HttpResponse)
  /-- Written by `axum`. -/
  | rejected (status : Nat)
  | panicked
deriving DecidableEq, Repr

namespace Answer

def ofOption : Option HttpResponse → Answer
  | some r => response r
  | none => panicked

def withoutBody : Answer → Answer
  | response r => response { r with body := [] }
  | rejected status => rejected status
  | panicked => panicked

end Answer

/-- What the extractors of `axum` do with text. -/
structure AxumCrate where
  /-- One segment of a path, when what it stands for is UTF-8. -/
  percentDecode : String → Option String
  /-- The pairs of an `application/x-www-form-urlencoded` text. -/
  formPairs : String → List (String × String)
  /-- `application/json`, or a type whose suffix is `+json`. -/
  jsonContentType : String → Bool
  /-- The status for JSON that is none, or none of the wanted type. -/
  jsonRejection : Bytes → Nat

/-- When a handler runs, and what it finds keys with. -/
structure HandlerEnv where
  now : Nat
  verifyEnv : VerifyEnv

/-! ## Responses (`respond.rs`) -/

namespace Respond

variable (cr : Crates)

def personFlowOutcome : PersonTokenFlowOutcome → Option HttpResponse
  | .granted body => flowOutcome cr (.granted body)
  | .deferred d => flowOutcome cr (.deferred d)
  | .denied err => flowOutcome cr (.denied err)
  | .gone => some (statusOnly 410)
  | .unauthorized => some (statusOnly 401)
  | .badGateway => some (statusOnly 502)

def bareError (code : AAuthErrorCode) : AAuthProtocolError where
  error := code
  errorDescription := none
  errorUri := none

/-- The array of a redirect's headers is turned into a map by `axum`. -/
def personInteractionOutcome : PersonInteractionOutcome → Answer
  | .redirect location =>
      match headerValueFromStr location with
      | .ok value => .response
          { status := 302, headers := HeaderMap.empty.insert "location" value,
            body := [] }
      | .error _ => .rejected 500
  | .invalidCode => .response (json cr 410 (bareError .invalidCode).toJson)
  | .expired => .response (json cr (pollingStatus (bareError .expired))
      (bareError .expired).toJson)
  | .pending body => .response (json cr 200 body.toJson)

def consentFlowOutcome : ResourceConsentFlowOutcome → Option HttpResponse
  | .grantOpaque token => opaqueAccess token
  | .deferred d => deferCreated cr d
  | .denied err => some (json cr 403 err.toJson)

/-- A handler's answer: an error of the service is an internal one. -/
def served {ε α : Type} (encode : α → Answer) : Except ε α → Answer
  | .ok outcome => encode outcome
  | .error _ => .response (internalServiceError cr)

def servedFlow {ε : Type} :
    Except ε PersonTokenFlowOutcome → Answer :=
  served cr fun o => .ofOption (personFlowOutcome cr o)

def servedPoll {ε : Type} : Except ε AuthTokenPollOutcome → Answer :=
  served cr fun o => .ofOption (pollOutcome cr o)

end Respond

/-! ## Extractors -/

/-- A field of a query, which may not occur twice. -/
def queryField (pairs : List (String × String)) (name : String) :
    Option (Option String) :=
  match pairs.filter (·.1 == name) with
  | [] => some none
  | [p] => some (some p.2)
  | _ => none

/-- `Query<InteractionStartQuery>` -/
def interactionStartQuery (ax : AxumCrate) (req : ServerRequest) :
    Option String := do
  let pairs := ax.formPairs (req.query.getD "")
  let code ← queryField pairs "code"
  code

/-- `Query<InteractionCallbackQuery>` -/
def interactionCallbackQuery (ax : AxumCrate) (req : ServerRequest) :
    Option (String × Option String) := do
  let pairs := ax.formPairs (req.query.getD "")
  let id ← queryField pairs "id"
  let error ← queryField pairs "error"
  return (← id, error)

/-- `Option<Json<T>>`: without a content type there is no body. -/
def optionJson {α : Type} (cr : Crates) (ax : AxumCrate)
    (read : Json → Option α) (req : ServerRequest) :
    Except Answer (Option α) :=
  match req.headers.get "content-type" with
  | none => .ok none
  | some value =>
      if ((toStr value).map ax.jsonContentType).getD false then do
        let body ← req.body.mapError .rejected
        let a ← (fromSlice cr read body).okOr
          (.rejected (ax.jsonRejection body))
        return some a
      else .error (.rejected 415)

/-- `invalid_request_response` (`extract.rs`) -/
def invalidRequestResponse (cr : Crates) (description : String) : Answer :=
  .response (Respond.json cr 400 (AAuthProtocolError.toJson
    (.withDescription .invalidRequest description)))

/-- `PendingResumeInput` (`extract.rs`) -/
def pendingResumeInput (cr : Crates) (req : ServerRequest) :
    Except Answer PendingInput := do
  let body ← req.body.mapError fun _ =>
    invalidRequestResponse cr "failed to read request body"
  (parsePendingPostBody cr body).mapError fun e =>
    invalidRequestResponse cr e.toString

/-! ## Routing -/

/-- The parameter of a route that ends in one: a segment of its own. -/
def pathParam (before path : String) : Option String :=
  (stripPrefix path before).filter fun id =>
    !id.isEmpty && !containsChar id '/'

section Methods

variable {S : Sig}

/-- `get(..)`, which answers `HEAD` as well. -/
def onGet (req : ServerRequest) (p : Prog S Answer) : Prog S Answer :=
  if req.method = "GET" then p
  else if req.method = "HEAD" then
    p >>= fun answer => .ret answer.withoutBody
  else .ret (.rejected 405)

def onPost (req : ServerRequest) (p : Prog S Answer) : Prog S Answer :=
  if req.method = "POST" then p else .ret (.rejected 405)

/-- `get(..).post(..)` -/
def onGetOrPost (req : ServerRequest) (get post : Prog S Answer) :
    Prog S Answer :=
  if req.method = "POST" then post else onGet req get

/-- A handler that runs when its extractors succeed. -/
def extracting {α : Type} (x : Except Answer α) (p : α → Prog S Answer) :
    Prog S Answer :=
  match x with
  | .error answer => .ret answer
  | .ok a => p a

end Methods

/-- `Path<String>` -/
def decodedId (ax : AxumCrate) (id : String) : Except Answer String :=
  (ax.percentDecode id).okOr (.rejected 400)

/-! ## The Person Server (`person/routes.rs`) -/

/-- `PersonServerState`, with the two parts of its configuration that only
its documents show. -/
structure PersonServerState where
  config : PersonServerConfig
  personJwksUri : String
  jwks : Json

/-- `person_metadata_handler`; the other members are left out. -/
def personMetadataHandler (cr : Crates) (state : PersonServerState) :
    HttpResponse :=
  let base := trimEndMatches state.config.pendingBaseUrl '/'
  Respond.json cr 200 (.obj [
    ("issuer", .str state.config.personServerUrl),
    ("token_endpoint", .str (base ++ "/aauth/token")),
    ("jwks_uri", .str state.personJwksUri),
    ("interaction_endpoint", .str state.config.interactionUrl)])

section PersonHandlers

variable {E : Type} (cr : Crates) (ax : AxumCrate) (env : HandlerEnv)
  (state : PersonServerState)

/-- `token_exchange_handler`, with the body its extractor made. -/
def tokenExchangeAnswer (req : ServerRequest)
    (body : Option TokenExchangeRequest) : Prog (personSig E) Answer :=
  tokenExchangeHandler cr env.now env.verifyEnv state.config req.path
      req.headers body >>= fun outcome =>
    .ret (match outcome with
      | .error status => .response (Respond.statusOnly status)
      | .ok reply => Respond.servedFlow cr reply)

def pendingPollHandler (id : String) : Prog (personSig E) Answer :=
  (pollPending id).run >>= fun reply => .ret (Respond.servedPoll cr reply)

def pendingPostHandler (id : String) (input : PendingInput) :
    Prog (personSig E) Answer :=
  (resumePending cr state.config id input).run >>= fun reply =>
    .ret (Respond.servedFlow cr reply)

def interactionStartHandler (code : String) : Prog (personSig E) Answer :=
  (beginInteraction cr state.config code).run >>= fun reply =>
    .ret (Respond.served cr (Respond.personInteractionOutcome cr) reply)

def interactionCallbackHandler (id : String) (error : Option String) :
    Prog (personSig E) Answer :=
  (resolveInteractionCallback cr state.config id error).run >>= fun reply =>
    .ret (Respond.servedFlow cr reply)

def personRouter (req : ServerRequest) : Prog (personSig E) Answer :=
  if req.path = "/.well-known/aauth-person.json" then
    onGet req (.ret (.response (personMetadataHandler cr state)))
  else if req.path = "/auth/jwks" then
    onGet req (.ret (.response (Respond.json cr 200 state.jwks)))
  else if req.path = "/aauth/token" then
    onPost req (extracting
      (optionJson cr ax TokenExchangeRequest.fromJson req)
      (tokenExchangeAnswer cr env state req))
  else if req.path = "/interact" then
    onGet req (extracting ((interactionStartQuery ax req).okOr
      (.rejected 400)) (interactionStartHandler cr state))
  else if req.path = "/interact/callback" then
    onGet req (extracting ((interactionCallbackQuery ax req).okOr
      (.rejected 400)) fun q => interactionCallbackHandler cr state q.1 q.2)
  else match pathParam "/pending/" req.path with
    | none => .ret (.rejected 404)
    | some id => onGetOrPost req
        (extracting (decodedId ax id) (pendingPollHandler cr))
        (extracting (decodedId ax id) fun id =>
          extracting (pendingResumeInput cr req)
            (pendingPostHandler cr state id))

end PersonHandlers

/-! ## The Access Server (`access/routes.rs`) -/

structure AccessServerState where
  config : AccessServerConfig
  accessJwksUri : String
  jwks : Json

/-- `access_metadata_handler`; the other members are left out. -/
def accessMetadataHandler (cr : Crates) (state : AccessServerState) :
    HttpResponse :=
  Respond.json cr 200 (.obj [
    ("issuer", .str state.config.accessServerUrl),
    ("token_endpoint",
      .str (state.config.accessServerUrl ++ "/access/aauth/token")),
    ("jwks_uri", .str state.accessJwksUri)])

section AccessHandlers

variable {E : Type} (cr : Crates) (ax : AxumCrate) (env : HandlerEnv)
  (state : AccessServerState)

def servedAccessFlow {ε : Type} : Except ε AuthTokenFlowOutcome → Answer :=
  Respond.served cr fun o => .ofOption (Respond.flowOutcome cr o)

/-- `access_token_exchange_handler`, with the body its extractor made. -/
def accessTokenExchangeAnswer (req : ServerRequest)
    (body : Option AccessTokenExchangeRequest) :
    Prog (accessSig E) Answer :=
  accessTokenExchangeHandler cr env.now state.config req.path req.headers
      body >>= fun outcome =>
    .ret (match outcome with
      | .error status => .response (Respond.statusOnly status)
      | .ok reply => servedAccessFlow cr reply)

def accessPendingPollHandler (id : String) : Prog (accessSig E) Answer :=
  (Access.pollPending id).run >>= fun reply =>
    .ret (Respond.servedPoll cr reply)

def accessPendingPostHandler (id : String) (input : PendingInput) :
    Prog (accessSig E) Answer :=
  (Access.resumePending state.config id input).run >>= fun reply =>
    .ret (servedAccessFlow cr reply)

def accessRouter (req : ServerRequest) : Prog (accessSig E) Answer :=
  if req.path = "/.well-known/aauth-access.json" then
    onGet req (.ret (.response (accessMetadataHandler cr state)))
  else if req.path = "/access/jwks" then
    onGet req (.ret (.response (Respond.json cr 200 state.jwks)))
  else if req.path = "/access/aauth/token" then
    onPost req (extracting
      (optionJson cr ax AccessTokenExchangeRequest.fromJson req)
      (accessTokenExchangeAnswer cr env state req))
  else match pathParam "/access/pending/" req.path with
    | none => .ret (.rejected 404)
    | some id => onGetOrPost req
        (extracting (decodedId ax id) (accessPendingPollHandler cr))
        (extracting (decodedId ax id) fun id =>
          extracting (pendingResumeInput cr req)
            (accessPendingPostHandler cr state id))

end AccessHandlers

/-! ## The resource (`resource/routes.rs`) -/

/-- `ResourceServerState`: the configuration is the service's. -/
structure ResourceServerState where
  config : ResourceAccessConfig
  resourceUrl : String

def AuthorizationRequest.fromJson (j : Json) :
    Option AuthorizationRequest := do
  let field ← j.fields ["scope"]
  let scope ← required asStr (field "scope")
  return { scope }

/-- `AuthorizationGrantedResponse` -/
structure AuthorizationGrantedResponse where
  status : String
  scope : String

def AuthorizationGrantedResponse.toJson (r : AuthorizationGrantedResponse) :
    Json := .obj [("status", .str r.status), ("scope", .str r.scope)]

section ResourceHandlers

variable {E : Type} (cr : Crates) (ax : AxumCrate) (env : HandlerEnv)
  (state : ResourceServerState)

/-- A token that is granted at once comes with the scope asked for. -/
def authorizeOutcome (scope : String) :
    ResourceConsentFlowOutcome → Option HttpResponse
  | .grantOpaque token => (headerValueFromStr token).toOption.map fun value =>
      Respond.jsonWith cr 200 (HeaderMap.empty.insert "aauth-access" value)
        (AuthorizationGrantedResponse.toJson
          { status := "authorized", scope })
  | outcome => Respond.consentFlowOutcome cr outcome

/-- `resource_authorize_handler`, with the body its extractor made. -/
def resourceAuthorizeHandler (req : ServerRequest)
    (body : Option AuthorizationRequest) : Prog (resourceSig E) Answer :=
  match resourceAuthorizeRequest cr env.now state.resourceUrl req.path
      req.headers body with
  | .error status => .ret (.response (Respond.statusOnly status))
  | .ok ctx => (Resource.consentForAgent state.config ctx).run >>=
      fun reply => .ret (Respond.served cr
        (fun o => .ofOption (authorizeOutcome cr (ctx.scope.getD "") o))
        reply)

def resourcePendingPollHandler (id : String) : Prog (resourceSig E) Answer :=
  (Resource.pollPending id).run >>= fun reply =>
    .ret (Respond.servedPoll cr reply)

def resourceRouter (req : ServerRequest) : Prog (resourceSig E) Answer :=
  if req.path = "/resource/authorize" then
    onPost req (extracting (optionJson cr ax AuthorizationRequest.fromJson req)
      (resourceAuthorizeHandler cr env state req))
  else match pathParam "/resource/pending/" req.path with
    | none => .ret (.rejected 404)
    | some id => onGet req
        (extracting (decodedId ax id) (resourcePendingPollHandler cr))

end ResourceHandlers

end Aauth
