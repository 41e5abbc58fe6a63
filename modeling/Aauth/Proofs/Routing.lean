import Aauth.Lib.Front
import Aauth.Proofs.PersonAnswers
import Aauth.Proofs.ServerAnswers
import Aauth.Proofs.SingleUse

/-!
# The routers stand in front of the services

A request asks for one call of the token service, or it has an answer
without one. Requests to a server, side by side, therefore run as those
calls do, with the same effects in the same order on the same records, and
every answer is the reply of a call as it is written on the wire. What is
known of the calls in every interleaving is known of the requests.
-/

namespace Aauth

open Text Except Effect

variable {cr : Crates} {ax : AxumCrate} {env : HandlerEnv}
  {req : ServerRequest} {E : Type}

/-! ## Methods -/

/-- `HEAD` is served as `GET`. -/
def ServerRequest.asked (req : ServerRequest) : ServerRequest :=
  if req.method = "HEAD" then { req with method := "GET" } else req

/-- The answer to `HEAD` has no body. -/
def ServerRequest.finish (req : ServerRequest) (answer : Answer) : Answer :=
  if req.method = "HEAD" then answer.withoutBody else answer

theorem ServerRequest.asked_method : req.asked.method ≠ "HEAD" := by
  rw [asked]
  split
  · show "GET" ≠ "HEAD"
    decide
  · assumption

section Methods

variable {S : Sig} {p q : Prog S Answer}

theorem get_ne_post : "GET" ≠ "POST" := by decide

theorem get_ne_head : "GET" ≠ "HEAD" := by decide

theorem onGet_head (h : req.method = "HEAD") :
    onGet req p = onGet { req with method := "GET" } p >>= fun a =>
      .ret a.withoutBody := by
  rw [onGet, onGet, if_neg (by rw [h]; decide), if_pos h, if_pos rfl]

theorem onPost_head (h : req.method = "HEAD") :
    onPost req p = onPost { req with method := "GET" } q >>= fun a =>
      .ret a.withoutBody := by
  rw [onPost, onPost, if_neg (by rw [h]; decide), if_neg get_ne_post]
  rfl

theorem onGetOrPost_head (h : req.method = "HEAD") :
    onGetOrPost req p q = onGetOrPost { req with method := "GET" } p q >>=
      fun a => .ret a.withoutBody := by
  rw [onGetOrPost, onGetOrPost, if_neg (by rw [h]; decide),
    if_neg get_ne_post]
  exact onGet_head h

theorem bind_finish (h : req.method ≠ "HEAD") :
    (p >>= fun a => .ret (req.finish a)) = p := by
  have hid : req.finish = id := by
    funext a
    rw [ServerRequest.finish, if_neg h]
    rfl
  rw [hid]
  exact Prog.bind_ret p

end Methods

/-! ## The call of a request -/

/-- A route of one method. -/
def asking {α : Type} (method : String) (req : ServerRequest)
    (x : Except Answer α) : Except Answer α :=
  if req.method = method then x else .error (.rejected 405)

section Rules

variable {S : Sig} {V : Service S} {write : (Σ c, V.Reply c) → Answer}
  {p q : Prog S Answer} {x y : Except Answer V.Call}

/-- A handler that makes a call and writes the reply. -/
theorem thread_front (c : V.Call) :
    (V.prog c >>= fun reply => .ret (write ⟨c, reply⟩)) =
      (V.front write (.ok c)).prog := by
  show _ = V.thread c >>= fun b => .ret (write b)
  rw [Service.thread, Prog.bind_assoc]
  rfl

/-- A router that serves requests of its methods by a front serves every
request so. -/
theorem front_of_head {router : ServerRequest → Prog S Answer}
    {asks : ServerRequest → Except Answer V.Call}
    (hfront : ∀ {req : ServerRequest}, req.method ≠ "HEAD" →
      router req = (V.front write (asks req)).prog)
    (hhead : ∀ {req : ServerRequest}, req.method = "HEAD" →
      router req = router { req with method := "GET" } >>= fun a =>
        .ret a.withoutBody) :
    router req =
      ((V.front write (asks req.asked)).map req.finish).prog := by
  rw [Front.prog_map]
  by_cases h : req.method = "HEAD"
  · rw [ServerRequest.asked, if_pos h, ← hfront get_ne_head, hhead h,
      show req.finish = Answer.withoutBody from funext fun a => if_pos h]
  · rw [ServerRequest.asked, if_neg h, ← hfront h, bind_finish h]

theorem onGet_front (h : req.method ≠ "HEAD")
    (hp : p = (V.front write x).prog) :
    onGet req p = (V.front write (asking "GET" req x)).prog := by
  rw [onGet, asking, if_neg h]
  split
  · exact hp
  · rfl

theorem onPost_front (hp : p = (V.front write x).prog) :
    onPost req p =
      (V.front write (asking "POST" req x)).prog := by
  rw [onPost, asking]
  split
  · exact hp
  · rfl

theorem onGetOrPost_front (h : req.method ≠ "HEAD")
    (hp : p = (V.front write x).prog)
    (hq : q = (V.front write y).prog) :
    onGetOrPost req p q = (V.front write
      (if req.method = "POST" then y else asking "GET" req x)).prog := by
  rw [onGetOrPost]
  split
  · exact hq
  · exact onGet_front h hp

theorem extracting_front {α : Type} {z : Except Answer α}
    {handler : α → Prog S Answer} {f : α → Except Answer V.Call}
    (hp : ∀ c, handler c = (V.front write (f c)).prog) :
    extracting z handler = (V.front write (z >>= f)).prog := by
  cases z with
  | error answer => rfl
  | ok c => exact hp c

end Rules

/-! ## The Person Server -/

section Person

variable {state : PersonServerState}

/-- The exchange a request asks for, when it is one that is accepted. -/
def exchangeAsks (cr : Crates) (env : HandlerEnv)
    (state : PersonServerState) (req : ServerRequest)
    (body : Option TokenExchangeRequest) : Except Answer PersonCall := do
  let accepted ← (tokenExchangeRequest cr env.now env.verifyEnv state.config
    req.path req.headers body).mapError fun status =>
      .response (Respond.statusOnly status)
  return .exchangeToken accepted.1 accepted.2

/-- The call a request to the Person Server asks for, or the answer it has
without one; a `HEAD` asks for nothing. -/
def personAsks (cr : Crates) (ax : AxumCrate) (env : HandlerEnv)
    (state : PersonServerState) (req : ServerRequest) :
    Except Answer PersonCall :=
  if req.path = "/.well-known/aauth-person.json" then
    asking "GET" req (.error (.response (personMetadataHandler cr state)))
  else if req.path = "/auth/jwks" then
    asking "GET" req (.error (.response (Respond.json cr 200 state.jwks)))
  else if req.path = "/aauth/token" then asking "POST" req do
    let body ← optionJson cr ax TokenExchangeRequest.fromJson req
    exchangeAsks cr env state req body
  else if req.path = "/interact" then asking "GET" req do
    let code ← (interactionStartQuery ax req).okOr (.rejected 400)
    return .beginInteraction code
  else if req.path = "/interact/callback" then asking "GET" req do
    let q ← (interactionCallbackQuery ax req).okOr (.rejected 400)
    return .resolveInteractionCallback q.1 q.2
  else match pathParam "/pending/" req.path with
    | none => .error (.rejected 404)
    | some id =>
        if req.method = "POST" then do
          let id ← decodedId ax id
          let input ← pendingResumeInput cr req
          return .resumePending id input
        else asking "GET" req do
          let id ← decodedId ax id
          return .pollPending id

/-- The reply of a call, as the handler of its route writes it. -/
def personWrites (cr : Crates) (state : PersonServerState) :
    PersonAnswer E cr state.config → Answer
  | ⟨.exchangeToken _ _, reply⟩ => Respond.servedFlow cr reply
  | ⟨.pollPending _, reply⟩ => Respond.servedPoll cr reply
  | ⟨.resumePending _ _, reply⟩ => Respond.servedFlow cr reply
  | ⟨.beginInteraction _, reply⟩ =>
      Respond.served cr (Respond.personInteractionOutcome cr) reply
  | ⟨.resolveInteractionCallback _ _, reply⟩ => Respond.servedFlow cr reply

abbrev personFront (E : Type) (cr : Crates) (state : PersonServerState) :
    Except Answer PersonCall → Front (personSig E) Answer
      (PersonAnswer E cr state.config) :=
  (personService E cr state.config).front (personWrites cr state)

theorem personThread_front (c : PersonCall) :
    ((personService E cr state.config).prog c >>= fun reply =>
      .ret (personWrites cr state ⟨c, reply⟩)) =
        (personFront E cr state (.ok c)).prog :=
  thread_front (V := personService E cr state.config) c

theorem tokenExchange_front {body : Option TokenExchangeRequest} :
    tokenExchangeAnswer (E := E) cr env state req body =
      (personFront E cr state (exchangeAsks cr env state req body)).prog := by
  rw [tokenExchangeAnswer, tokenExchangeHandler, exchangeAsks]
  cases tokenExchangeRequest cr env.now env.verifyEnv state.config req.path
      req.headers body with
  | error status => rfl
  | ok accepted =>
      refine Eq.trans ?_ (personThread_front
        (.exchangeToken accepted.1 accepted.2))
      show ((exchangeToken cr state.config accepted.1 accepted.2).run >>=
        _ >>= _) = _
      rw [Prog.bind_assoc]
      rfl

theorem personRouter_front (h : req.method ≠ "HEAD") :
    personRouter (E := E) cr ax env state req =
      (personFront E cr state (personAsks cr ax env state req)).prog := by
  rw [personRouter, personAsks]
  split
  · exact onGet_front h rfl
  split
  · exact onGet_front h rfl
  split
  · exact onPost_front (extracting_front fun _ => tokenExchange_front)
  split
  · exact onGet_front h (extracting_front fun code =>
      personThread_front (.beginInteraction code))
  split
  · exact onGet_front h (extracting_front fun q =>
      personThread_front (.resolveInteractionCallback q.1 q.2))
  cases pathParam "/pending/" req.path with
  | none => rfl
  | some id =>
      exact onGetOrPost_front h
        (extracting_front fun id => personThread_front (.pollPending id))
        (extracting_front fun id => extracting_front fun input =>
          personThread_front (.resumePending id input))

theorem personRouter_head (h : req.method = "HEAD") :
    personRouter (E := E) cr ax env state req =
      personRouter cr ax env state { req with method := "GET" } >>= fun a =>
        .ret a.withoutBody := by
  rw [personRouter, personRouter]
  split
  · exact onGet_head h
  split
  · exact onGet_head h
  split
  · exact onPost_head h
  split
  · exact onGet_head h
  split
  · exact onGet_head h
  cases pathParam "/pending/" req.path with
  | none => rfl
  | some id => exact onGetOrPost_head h

/-- A request is served by the call it asks for. -/
theorem personRouter_asked :
    personRouter (E := E) cr ax env state req =
      ((personFront E cr state (personAsks cr ax env state req.asked)).map
        req.finish).prog :=
  front_of_head personRouter_front personRouter_head

/-- The calls behind requests; who asks for none makes none. -/
def personCalls {ι : Type} (cr : Crates) (ax : AxumCrate)
    (env : ι → HandlerEnv) (state : PersonServerState)
    (req : ι → ServerRequest) (i : ι) : PersonCall :=
  ((personAsks cr ax (env i) state (req i).asked).toOption).getD
    (.pollPending "")

/-- Any requests to the Person Server, served side by side in any order,
are the calls they ask for, made in that order: with the same effects, on
the same records, and answered with what the calls reply. -/
theorem person_server_refines {ι : Type} [DecidableEq ι]
    {env : ι → HandlerEnv} {req : ι → ServerRequest}
    {W : World (personSig E) (ServiceState PersonPendingContext)}
    {G : ServiceState PersonPendingContext → ι → (personSig E).Op → Prop}
    {s : ServiceState PersonPendingContext}
    {l : List (ι × PersonEvent E)}
    {P : Pool (personSig E) (ServiceState PersonPendingContext) ι Answer}
    (run : Steps W (fun P => G P.state)
      (personServerPool E cr ax env state req s) l P) :
    ∃ Q, Steps W (fun Q => G Q.state) (personPool E cr state.config
        (personCalls cr ax env state req) s) l Q ∧ Q.state = P.state ∧
      ∀ i a, P.thread i = .ret a → ∃ a', a = (req i).finish a' ∧
        Service.Wrote (V := personService E cr state.config)
          (personWrites cr state) (Q.thread i)
          (personAsks cr ax (env i) state (req i).asked) a' := by
  rw [personServerPool] at run
  exact run.behind_router _ fun i => personRouter_asked

end Person

namespace Sample

/-- The metadata is asked for beside a record that is not there. -/
def besideRequests (i : Bool) : ServerRequest :=
  if i then routedGet "/.well-known/aauth-person.json" none
  else routedGet "/pending/other" none

def besideEnv (_ : Bool) : HandlerEnv := ⟨now, Sample.env⟩

/-- A load of a record that is not there. -/
theorem gated_load : (momentWorld gatedEnv now : World (personSig Empty)
    (ServiceState PersonPendingContext)) gated (.store (.load "other"))
      (.ok none) gated := by
  have hother : gated.records.lookup "other" = none :=
    AList.lookup_insert_ne (by decide)
  exact ⟨⟨congrArg Except.ok hother.symm, rfl⟩, rfl⟩

/-- The poll is answered, as the call it asked for. -/
theorem person_server_refines_beside : ∃ l P,
    Steps (momentWorld gatedEnv now) (fun _ _ _ => True)
      (personServerPool Empty crates axum besideEnv personState besideRequests
        gated) l P ∧ l.length = 1 ∧
    ∃ Q, Steps (momentWorld gatedEnv now) (fun _ _ _ => True)
      (personPool Empty crates personState.config
        (personCalls crates axum besideEnv personState besideRequests)
        gated) l Q ∧ Q.state = P.state ∧
      ∀ i a, P.thread i = .ret a → ∃ a', a = (besideRequests i).finish a' ∧
        Service.Wrote (V := personService Empty crates personState.config)
          (personWrites crates personState) (Q.thread i)
          (personAsks crates axum (besideEnv i) personState
            (besideRequests i).asked) a' := by
  have run := Steps.step (G := fun _ _ _ => True) (i := false) .nil trivial
    (Step.mk (P := personServerPool Empty crates axum besideEnv personState
      besideRequests gated) (by rfl) gated_load)
  exact ⟨_, _, run, rfl, person_server_refines (G := fun _ _ _ => True) run⟩

end Sample

/-! ## The Access Server -/

section Access

variable {state : AccessServerState}

/-- The call a request to the Access Server asks for, or its answer. -/
def accessAsks (cr : Crates) (ax : AxumCrate) (env : HandlerEnv)
    (state : AccessServerState) (req : ServerRequest) :
    Except Answer Access.Call :=
  if req.path = "/.well-known/aauth-access.json" then
    asking "GET" req (.error (.response (accessMetadataHandler cr state)))
  else if req.path = "/access/jwks" then
    asking "GET" req (.error (.response (Respond.json cr 200 state.jwks)))
  else if req.path = "/access/aauth/token" then asking "POST" req do
    let body ← optionJson cr ax AccessTokenExchangeRequest.fromJson req
    let ctx ← (accessTokenExchangeRequest cr env.now state.config req.path
      req.headers body).mapError fun status =>
        .response (Respond.statusOnly status)
    return .exchangeToken ctx
  else match pathParam "/access/pending/" req.path with
    | none => .error (.rejected 404)
    | some id =>
        if req.method = "POST" then do
          let id ← decodedId ax id
          let input ← pendingResumeInput cr req
          return .resumePending id input
        else asking "GET" req do
          let id ← decodedId ax id
          return .pollPending id

def accessWrites (cr : Crates) (config : AccessServerConfig) :
    (Σ c, (Access.service E config).Reply c) → Answer
  | ⟨.exchangeToken _, reply⟩ => servedAccessFlow cr reply
  | ⟨.pollPending _, reply⟩ => Respond.servedPoll cr reply
  | ⟨.resumePending _ _, reply⟩ => servedAccessFlow cr reply

abbrev accessFront (E : Type) (cr : Crates) (config : AccessServerConfig) :
    Except Answer Access.Call → Front (accessSig E) Answer
      (Σ c, (Access.service E config).Reply c) :=
  (Access.service E config).front (accessWrites cr config)

theorem accessThread_front (c : Access.Call) :
    ((Access.service E state.config).prog c >>= fun reply =>
      .ret (accessWrites cr state.config ⟨c, reply⟩)) =
        (accessFront E cr state.config (.ok c)).prog :=
  thread_front (V := Access.service E state.config) c

theorem accessRouter_front (h : req.method ≠ "HEAD") :
    accessRouter (E := E) cr ax env state req =
      (accessFront E cr state.config
        (accessAsks cr ax env state req)).prog := by
  rw [accessRouter, accessAsks]
  split
  · exact onGet_front h rfl
  split
  · exact onGet_front h rfl
  split
  · refine onPost_front (extracting_front fun body => ?_)
    rw [accessTokenExchangeAnswer, accessTokenExchangeHandler]
    cases accessTokenExchangeRequest cr env.now state.config req.path
        req.headers body with
    | error status => rfl
    | ok ctx =>
        refine Eq.trans ?_ (accessThread_front (.exchangeToken ctx))
        show ((Access.exchangeToken state.config ctx).run >>= _ >>= _) = _
        rw [Prog.bind_assoc]
        rfl
  cases pathParam "/access/pending/" req.path with
  | none => rfl
  | some id =>
      exact onGetOrPost_front h
        (extracting_front fun id => accessThread_front (.pollPending id))
        (extracting_front fun id => extracting_front fun input =>
          accessThread_front (.resumePending id input))

theorem accessRouter_head (h : req.method = "HEAD") :
    accessRouter (E := E) cr ax env state req =
      accessRouter cr ax env state { req with method := "GET" } >>= fun a =>
        .ret a.withoutBody := by
  rw [accessRouter, accessRouter]
  split
  · exact onGet_head h
  split
  · exact onGet_head h
  split
  · exact onPost_head h
  cases pathParam "/access/pending/" req.path with
  | none => rfl
  | some id => exact onGetOrPost_head h

theorem accessRouter_asked :
    accessRouter (E := E) cr ax env state req =
      ((accessFront E cr state.config
        (accessAsks cr ax env state req.asked)).map req.finish).prog :=
  front_of_head accessRouter_front accessRouter_head

/-- Requests to an Access Server, side by side. -/
def accessServerPool {ι : Type} (E : Type) (cr : Crates) (ax : AxumCrate)
    (env : ι → HandlerEnv) (state : AccessServerState)
    (req : ι → ServerRequest) (s : ServiceState AccessPendingContext) :
    Pool (accessSig E) (ServiceState AccessPendingContext) ι Answer where
  state := s
  thread i := accessRouter cr ax (env i) state (req i)

def accessCalls {ι : Type} (cr : Crates) (ax : AxumCrate)
    (env : ι → HandlerEnv) (state : AccessServerState)
    (req : ι → ServerRequest) (i : ι) : Access.Call :=
  ((accessAsks cr ax (env i) state (req i).asked).toOption).getD
    (.pollPending "")

/-- Any requests to the Access Server, served side by side in any order,
are the calls they ask for. -/
theorem access_server_refines {ι : Type} [DecidableEq ι]
    {env : ι → HandlerEnv} {req : ι → ServerRequest}
    {W : World (accessSig E) (ServiceState AccessPendingContext)}
    {G : ServiceState AccessPendingContext → ι → (accessSig E).Op → Prop}
    {s : ServiceState AccessPendingContext}
    {l : List (ι × Event (accessSig E))}
    {P : Pool (accessSig E) (ServiceState AccessPendingContext) ι Answer}
    (run : Steps W (fun P => G P.state)
      (accessServerPool E cr ax env state req s) l P) :
    ∃ Q, Steps W (fun Q => G Q.state)
        ⟨s, fun i => (Access.service E state.config).thread
          (accessCalls cr ax env state req i)⟩ l Q ∧ Q.state = P.state ∧
      ∀ i a, P.thread i = .ret a → ∃ a', a = (req i).finish a' ∧
        Service.Wrote (V := Access.service E state.config)
          (accessWrites cr state.config) (Q.thread i)
          (accessAsks cr ax (env i) state (req i).asked) a' := by
  rw [accessServerPool] at run
  exact run.behind_router _ fun i => accessRouter_asked

end Access

namespace Sample

/-- The metadata is asked for beside a record that is not there. -/
def accessBeside (i : Bool) : ServerRequest :=
  if i then routedGet "/.well-known/aauth-access.json" none
  else routedGet "/access/pending/other" none

/-- The poll is answered, as the call it asked for. -/
theorem access_server_refines_beside : ∃ l P,
    Steps (serviceWorld (fun _ _ => False) (· = now)) (fun _ _ _ => True)
      (accessServerPool Empty crates axum besideEnv accessState accessBeside
        (emptyState AccessPendingContext)) l P ∧ l.length = 1 ∧
    ∃ Q, Steps (serviceWorld (fun _ _ => False) (· = now)) (fun _ _ _ => True)
      ⟨emptyState AccessPendingContext, fun i =>
        (Access.service Empty accessState.config).thread
          (accessCalls crates axum besideEnv accessState accessBeside i)⟩
        l Q ∧ Q.state = P.state ∧
      ∀ i a, P.thread i = .ret a → ∃ a', a = (accessBeside i).finish a' ∧
        Service.Wrote (V := Access.service Empty accessState.config)
          (accessWrites crates accessState.config) (Q.thread i)
          (accessAsks crates axum (besideEnv i) accessState
            (accessBeside i).asked) a' := by
  have hload : (serviceWorld (fun _ _ => False) (· = now) :
      World (accessSig Empty) (ServiceState AccessPendingContext))
      (emptyState _) (.store (.load "other")) (.ok none) (emptyState _) :=
    ⟨⟨rfl, rfl⟩, rfl⟩
  have run := Steps.step (G := fun _ _ _ => True) (i := false) .nil trivial
    (Step.mk (P := accessServerPool Empty crates axum besideEnv accessState
      accessBeside (emptyState _)) (by rfl) hload)
  exact ⟨_, _, run, rfl, access_server_refines (G := fun _ _ _ => True) run⟩

end Sample

/-! ## The resource -/

section Resource

variable {state : ResourceServerState}

def resourceAsks (cr : Crates) (ax : AxumCrate) (env : HandlerEnv)
    (state : ResourceServerState) (req : ServerRequest) :
    Except Answer Resource.Call :=
  if req.path = "/resource/authorize" then asking "POST" req do
    let body ← optionJson cr ax AuthorizationRequest.fromJson req
    let ctx ← (resourceAuthorizeRequest cr env.now state.resourceUrl
      req.path req.headers body).mapError fun status =>
        .response (Respond.statusOnly status)
    return .consentForAgent ctx
  else match pathParam "/resource/pending/" req.path with
    | none => .error (.rejected 404)
    | some id => asking "GET" req do
        let id ← decodedId ax id
        return .pollPending id

def resourceWrites (cr : Crates) (config : ResourceAccessConfig) :
    (Σ c, (Resource.service E config).Reply c) → Answer
  | ⟨.consentForAgent ctx, reply⟩ => Respond.served cr
      (fun o => .ofOption (authorizeOutcome cr (ctx.scope.getD "") o)) reply
  | ⟨.pollPending _, reply⟩ => Respond.servedPoll cr reply

abbrev resourceFront (E : Type) (cr : Crates)
    (config : ResourceAccessConfig) :
    Except Answer Resource.Call → Front (resourceSig E) Answer
      (Σ c, (Resource.service E config).Reply c) :=
  (Resource.service E config).front (resourceWrites cr config)

theorem resourceThread_front (c : Resource.Call) :
    ((Resource.service E state.config).prog c >>= fun reply =>
      .ret (resourceWrites cr state.config ⟨c, reply⟩)) =
        (resourceFront E cr state.config (.ok c)).prog :=
  thread_front (V := Resource.service E state.config) c

theorem resourceRouter_front (h : req.method ≠ "HEAD") :
    resourceRouter (E := E) cr ax env state req =
      (resourceFront E cr state.config
        (resourceAsks cr ax env state req)).prog := by
  rw [resourceRouter, resourceAsks]
  split
  · refine onPost_front (extracting_front fun body => ?_)
    rw [resourceAuthorizeHandler]
    cases resourceAuthorizeRequest cr env.now state.resourceUrl req.path
        req.headers body with
    | error status => rfl
    | ok ctx => exact resourceThread_front (.consentForAgent ctx)
  cases pathParam "/resource/pending/" req.path with
  | none => rfl
  | some id =>
      exact onGet_front h
        (extracting_front fun id => resourceThread_front (.pollPending id))

theorem resourceRouter_head (h : req.method = "HEAD") :
    resourceRouter (E := E) cr ax env state req =
      resourceRouter cr ax env state { req with method := "GET" } >>=
        fun a => .ret a.withoutBody := by
  rw [resourceRouter, resourceRouter]
  split
  · exact onPost_head h
  cases pathParam "/resource/pending/" req.path with
  | none => rfl
  | some id => exact onGet_head h

theorem resourceRouter_asked :
    resourceRouter (E := E) cr ax env state req =
      ((resourceFront E cr state.config
        (resourceAsks cr ax env state req.asked)).map req.finish).prog :=
  front_of_head resourceRouter_front resourceRouter_head

/-- Requests to a resource's own endpoints, side by side. -/
def resourceServerPool {ι : Type} (E : Type) (cr : Crates) (ax : AxumCrate)
    (env : ι → HandlerEnv) (state : ResourceServerState)
    (req : ι → ServerRequest) (s : ServiceState ResourcePendingContext) :
    Pool (resourceSig E) (ServiceState ResourcePendingContext) ι Answer where
  state := s
  thread i := resourceRouter cr ax (env i) state (req i)

def resourceCalls {ι : Type} (cr : Crates) (ax : AxumCrate)
    (env : ι → HandlerEnv) (state : ResourceServerState)
    (req : ι → ServerRequest) (i : ι) : Resource.Call :=
  ((resourceAsks cr ax (env i) state (req i).asked).toOption).getD
    (.pollPending "")

/-- Any requests to the resource's endpoints, served side by side in any
order, are the calls they ask for. -/
theorem resource_server_refines {ι : Type} [DecidableEq ι]
    {env : ι → HandlerEnv} {req : ι → ServerRequest}
    {W : World (resourceSig E) (ServiceState ResourcePendingContext)}
    {G : ServiceState ResourcePendingContext → ι → (resourceSig E).Op → Prop}
    {s : ServiceState ResourcePendingContext}
    {l : List (ι × Event (resourceSig E))}
    {P : Pool (resourceSig E) (ServiceState ResourcePendingContext) ι Answer}
    (run : Steps W (fun P => G P.state)
      (resourceServerPool E cr ax env state req s) l P) :
    ∃ Q, Steps W (fun Q => G Q.state)
        ⟨s, fun i => (Resource.service E state.config).thread
          (resourceCalls cr ax env state req i)⟩ l Q ∧ Q.state = P.state ∧
      ∀ i a, P.thread i = .ret a → ∃ a', a = (req i).finish a' ∧
        Service.Wrote (V := Resource.service E state.config)
          (resourceWrites cr state.config) (Q.thread i)
          (resourceAsks cr ax (env i) state (req i).asked) a' := by
  rw [resourceServerPool] at run
  exact run.behind_router _ fun i => resourceRouter_asked

end Resource

namespace Sample

/-- One request goes nowhere, the other to a record that is not there. -/
def resourceBeside (i : Bool) : ServerRequest :=
  if i then routedGet "/resource" none
  else routedGet "/resource/pending/other" none

theorem resource_server_refines_beside : ∃ l P,
    Steps (serviceWorld (fun _ _ => False) (· = now)) (fun _ _ _ => True)
      (resourceServerPool Empty crates axum besideEnv resourceState
        resourceBeside (emptyState ResourcePendingContext)) l P ∧
    l.length = 1 ∧
    ∃ Q, Steps (serviceWorld (fun _ _ => False) (· = now)) (fun _ _ _ => True)
      ⟨emptyState ResourcePendingContext, fun i =>
        (Resource.service Empty resourceState.config).thread
          (resourceCalls crates axum besideEnv resourceState resourceBeside
            i)⟩ l Q ∧ Q.state = P.state ∧
      ∀ i a, P.thread i = .ret a → ∃ a', a = (resourceBeside i).finish a' ∧
        Service.Wrote (V := Resource.service Empty resourceState.config)
          (resourceWrites crates resourceState.config) (Q.thread i)
          (resourceAsks crates axum (besideEnv i) resourceState
            (resourceBeside i).asked) a' := by
  have hload : (serviceWorld (fun _ _ => False) (· = now) :
      World (resourceSig Empty) (ServiceState ResourcePendingContext))
      (emptyState _) (.store (.load "other")) (.ok none) (emptyState _) :=
    ⟨⟨rfl, rfl⟩, rfl⟩
  have run := Steps.step (G := fun _ _ _ => True) (i := false) .nil trivial
    (Step.mk (P := resourceServerPool Empty crates axum besideEnv
      resourceState resourceBeside (emptyState _)) (by rfl) hload)
  exact ⟨_, _, run, rfl, resource_server_refines (G := fun _ _ _ => True) run⟩

end Sample

end Aauth
