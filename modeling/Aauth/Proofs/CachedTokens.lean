import Aauth.Proofs.OpaqueReplay
import Aauth.Proofs.Verify
import Aauth.Sample.Exchange

/-!
# What enters the agent's cache

A token is recorded at one place of the loop, after an exchange that began
with a challenge. The log of the call says which: the last thing observed
before the recording is the challenge, and everything since is the exchange
(`Taken`). The two verifications in it then bind the token, whatever the
servers answered, and what is later presented for an origin is one of the
tokens recorded for it.
-/

namespace Aauth

open Text Effect Except

/-! ## An exchange -/

/-- What one exchange went by: the key and what the agent is by it, what
the challenge and the token were verified against, and what they claim. -/
structure Exchange where
  material : SigningMaterial
  agentSub : String
  agentJkt : String
  challengeEnv : VerifyEnv
  resource : ResourceClaims
  tokenEnv : VerifyEnv
  auth : AuthClaims

/-- The identifier of the agent is the one its own token has, and the
thumbprint that of its signing key. -/
structure Exchange.Own (cr : Crates) (x : Exchange) : Prop where
  sub : ∃ jwt claims, agentJwtFromSignatureKey x.material.signatureKey =
      .ok jwt ∧ ParsedToken.parse cr jwt = .ok (.agent claims) ∧
    claims.sub = x.agentSub
  jkt : jwkThumbprint cr x.material.signingJwk.publicJwk = .ok x.agentJkt

/-- The request that posts a resource token to a token endpoint. -/
def exchangePost (cr : Crates) (options : AgentOptions)
    (url resourceToken : String) : AgentRequest where
  method := "POST"
  url := url
  headers := (HeaderMap.empty.insert "content-type" "application/json").insert
    "prefer" "wait=45"
  body := .bytes (jsonBytes cr
    (exchangeRequestOf options resourceToken).toJson)

/-- The token is what the exchange of the resource token was answered with,
at once or where the polling it was deferred to ended. -/
def Obtained (cr : Crates) (options : AgentOptions) (l : List AgentEvent)
    (resourceToken token : String) : Prop :=
  ∃ url first final body,
    (⟨.sendAgentSigned (exchangePost cr options url resourceToken),
      .ok first⟩ : AgentEvent) ∈ l ∧
    (final = first ∨ first.status = 202 ∧ ∃ poll : AgentRequest,
      poll.method = "GET" ∧
        (⟨.sendAgentSigned poll, .ok final⟩ : AgentEvent) ∈ l) ∧
    isSuccess final.status = true ∧
    fromSlice cr TokenResponseBody.fromJson final.body = some body ∧
    body.authToken = token

/-- An exchange that ended with the token: the calls it made and what they
were checked for. -/
structure ExchangeMade (cr : Crates) (options : AgentOptions)
    (l : List AgentEvent) (origin resourceToken token : String)
    (x : Exchange) : Prop where
  own : x.Own cr
  keyRead : (⟨.keyMaterial, .ok x.material⟩ : AgentEvent) ∈ l
  challengeRead : (⟨.verifyEnv, x.challengeEnv⟩ : AgentEvent) ∈ l
  challenge : verifyResourceChallenge cr x.challengeEnv resourceToken origin
    x.agentSub x.agentJkt = .ok x.resource
  obtained : Obtained cr options l resourceToken token
  tokenRead : (⟨.verifyEnv, x.tokenEnv⟩ : AgentEvent) ∈ l
  token : verifyClientAuthToken cr x.tokenEnv token origin x.resource.aud
    x.agentSub x.agentJkt options.verifyAuthSignature = .ok x.auth

/-! ## The calls of an exchange -/

section Calls

variable {cr : Crates} {options : AgentOptions} {fuel : Nat}

/-- A poll that ends returns the response to one of its requests. -/
def PolledFor (result : DeferredResult) (l : List AgentEvent) : Prop :=
  ∃ poll : AgentRequest, poll.method = "GET" ∧
    (⟨.sendAgentSigned poll, .ok result.response⟩ : AgentEvent) ∈ l

theorem PolledFor.mono {result : DeferredResult} {l l' : List AgentEvent}
    (h : PolledFor result l) (hl : l ⊆ l') : PolledFor result l' := by
  obtain ⟨poll, hm, hp⟩ := h
  exact ⟨poll, hm, hl hp⟩

/-- What a poll ends with is kept by what comes before it. -/
theorem traces_before {α : Type} {x : AgentTask α}
    {f : α → AgentTask DeferredResult} (hx : OwnCalls x)
    (hf : ∀ a, Traces (f a) PolledFor) : Traces (x >>= f) PolledFor := by
  refine (Traces.of_calls hx).bind fun a l _ => ?_
  exact (hf a).mono fun result l' h => h.mono (List.subset_append_left l' l)

theorem pollLoop_traces {deferred : AgentDeferredOptions}
    {maxPollDuration : Nat} {deadline : Instant} {backoffMs : Nat} :
    Traces (pollLoop cr deferred maxPollDuration deadline fuel backoffMs)
      PolledFor := by
  induction fuel generalizing backoffMs with
  | zero => exact .throw
  | succ fuel ih =>
      rw [pollLoop]
      refine traces_before (ownCalls_effect (by trivial)) fun now => ?_
      split
      · refine traces_buildRequest.bind fun req l hreq => ?_
        obtain ⟨hl, url, hreq⟩ := hreq
        have hm : req.method = "GET" := by rw [hreq]
        rw [hl]
        refine traces_sendAgentSigned.bind fun response l hsent => ?_
        have hend : Traces (pure (splitError cr response) :
            AgentTask DeferredResult) fun result l' =>
              PolledFor result (l' ++ l ++ []) := by
          refine .pure ⟨req, hm, ?_⟩
          rw [hsent]
          exact List.mem_cons_self
        have hgo : ∀ {t : AgentTask DeferredResult}, Traces t PolledFor →
            Traces t fun result l' => PolledFor result (l' ++ l ++ []) := by
          intro t ht
          refine ht.mono fun result l' h => h.mono ?_
          rw [List.append_nil]
          exact List.subset_append_left l' l
        split
        · exact hend
        · split
          · refine hgo (traces_before answerClarification_calls fun _ => ?_)
            refine traces_before announceInteraction_calls fun _ => ?_
            exact traces_before (ownCalls_effect (by trivial)) fun _ => ih
          · split
            · exact hgo (traces_before (ownCalls_effect (by trivial))
                fun _ => ih)
            · exact hend
      · exact .throw

theorem pollDeferredWith_traces {deferred : AgentDeferredOptions} :
    Traces (pollDeferredWith cr fuel deferred) PolledFor := by
  rw [pollDeferredWith]
  refine traces_before (ownCalls_effect (by trivial)) fun now => ?_
  refine traces_before (ownCalls_ofResult _ _) fun deadline => ?_
  split
  · split
    · exact traces_before (ownCalls_effect (by trivial))
        fun _ => pollLoop_traces
    · exact traces_before (ownCalls_pure _) fun _ => pollLoop_traces
  · exact traces_before (ownCalls_pure _) fun _ => pollLoop_traces

theorem tokenOfResponse_traces {endpoint : String} {response : HttpResponse} :
    Traces (tokenOfResponse cr endpoint response) fun result l =>
      l = [] ∧ ∃ body, fromSlice cr TokenResponseBody.fromJson response.body =
        some body ∧ body.authToken = result.authToken := by
  refine traces_ofResult.bind fun body l hb => ?_
  obtain ⟨hb, rfl⟩ := hb
  exact .pure ⟨rfl, body, Option.okOr_eq_ok.mp hb, rfl⟩

theorem requestToken_traces {personServerUrl resourceToken : String}
    {metadata : PersonServerMetadata} :
    Traces (requestToken cr fuel options personServerUrl resourceToken
      metadata) fun result l =>
        Obtained cr options l resourceToken result.authToken := by
  refine traces_buildRequest.bind fun req l hreq => ?_
  obtain ⟨rfl, url, rfl⟩ := hreq
  refine traces_sendAgentSigned.bind fun first l hsent => ?_
  subst hsent
  have hpost : ∀ l', (⟨.sendAgentSigned
      (exchangePost cr options url resourceToken), .ok first⟩ : AgentEvent) ∈
      l' ++ [⟨.sendAgentSigned (exchangePost cr options url resourceToken),
        .ok first⟩] ++ [] := by
    intro l'
    simp
  split
  · next h202 =>
    refine (Traces.of_calls locationHeader_calls).bind
      fun location l₁ _ => ?_
    refine pollDeferredWith_traces.bind fun result l₂ hp => ?_
    split
    · next hsuccess =>
      refine tokenOfResponse_traces.mono fun token l₃ ht => ?_
      obtain ⟨rfl, body, hbody, ht⟩ := ht
      obtain ⟨poll, hm, hp⟩ := hp
      refine ⟨url, first, result.response, body, hpost _,
        .inr ⟨h202, poll, hm, ?_⟩, hsuccess, hbody, ht⟩
      simp [hp]
    · exact .throw
  · split
    · next hsuccess =>
      refine tokenOfResponse_traces.mono fun token l₃ ht => ?_
      obtain ⟨rfl, body, hbody, ht⟩ := ht
      exact ⟨url, first, first, body, hpost _, .inl rfl, hsuccess, hbody, ht⟩
    · exact .throw

theorem Obtained.mono {l l' : List AgentEvent} {resourceToken token : String}
    (h : Obtained cr options l resourceToken token) (hl : l ⊆ l') :
    Obtained cr options l' resourceToken token := by
  obtain ⟨url, first, final, body, hsent, hfinal, hbody⟩ := h
  refine ⟨url, first, final, body, hl hsent, ?_, hbody⟩
  rcases hfinal with rfl | ⟨h202, poll, hm, hp⟩
  · exact .inl rfl
  · exact .inr ⟨h202, poll, hm, hl hp⟩

theorem exchangeTokenWith_traces {personServerUrl resourceToken : String} :
    Traces (exchangeTokenWith cr fuel options personServerUrl resourceToken)
      fun result l =>
        Obtained cr options l resourceToken result.authToken := by
  rw [exchangeTokenWith]
  split
  · refine (Traces.of_calls (ownCalls_pure _)).bind fun metadata l _ => ?_
    exact requestToken_traces.mono fun result l' h =>
      h.mono (List.subset_append_left l' l)
  · refine (Traces.of_calls fetchMetadata_calls).bind fun metadata l _ => ?_
    exact requestToken_traces.mono fun result l' h =>
      h.mono (List.subset_append_left l' l)

theorem exchangeChallenge_traces {origin resourceToken : String} :
    Traces (exchangeChallenge cr fuel options origin resourceToken)
      fun result l => ∃ x, ExchangeMade cr options l origin resourceToken
        result.2.authToken x := by
  refine traces_effect.bind fun material l₁ h₁ => ?_
  refine traces_ofAauth.bind fun material' l hm => ?_
  obtain ⟨rfl, rfl⟩ := hm
  refine traces_ofAauth.bind fun agentJwt l hjwt => ?_
  obtain ⟨hjwt, rfl⟩ := hjwt
  refine traces_ofAauth.bind fun parsed l hparsed => ?_
  obtain ⟨hparsed, rfl⟩ := hparsed
  refine traces_ofResult.bind fun agentSub l hsub => ?_
  obtain ⟨hsub, rfl⟩ := hsub
  refine traces_ofAauth.bind fun agentJkt l hjkt => ?_
  obtain ⟨hjkt, rfl⟩ := hjkt
  refine traces_effect.bind fun challengeEnv l₂ h₂ => ?_
  refine traces_ofAauth.bind fun claims l hclaims => ?_
  obtain ⟨hclaims, rfl⟩ := hclaims
  refine traces_ofAauth.bind fun personServerUrl l hps => ?_
  obtain ⟨-, rfl⟩ := hps
  refine exchangeTokenWith_traces.bind fun result l₃ h₃ => ?_
  refine traces_effect.bind fun tokenEnv l₄ h₄ => ?_
  refine traces_ofAauth.bind fun auth l hauth => ?_
  obtain ⟨hauth, rfl⟩ := hauth
  have hown : ∃ c, parsed = .agent c ∧ c.sub = agentSub := by
    have hsub := Option.okOr_eq_ok.mp hsub
    cases parsed with
    | agent c => exact ⟨c, rfl, Option.some.inj hsub⟩
    | auth c => cases hsub
    | resource c => cases hsub
  obtain ⟨own, rfl, hid⟩ := hown
  refine .pure ⟨⟨material', agentSub, agentJkt, challengeEnv, claims,
    tokenEnv, auth⟩, ⟨⟨_, own, hjwt, hparsed, hid⟩, hjkt⟩, ?_, ?_, hclaims,
    ?_, ?_, hauth⟩
  · simp [h₁]
  · simp [h₂]
  · refine h₃.mono fun e he => ?_
    simp [he]
  · simp [h₄]

end Calls

/-! ## The calls up to a recording -/

section Recording

variable {cr : Crates} {options : AgentOptions} {fuel : Nat}
  {req : AgentRequest} {origin : String} {l : List AgentEvent}

/-- What has been called when a token is recorded: a copy was answered with
a challenge, and its resource token exchanged since. -/
def Taken (cr : Crates) (options : AgentOptions) (req : AgentRequest)
    (l : List AgentEvent) : AgentOp → Prop
  | .lock (.recordAuthToken origin _ token _) =>
      AgentAuth.resourceOrigin cr req.url = .ok origin ∧
      ∃ attempt response resourceToken during before x,
        l = during ++ ⟨.lock (.observeResponse origin attempt response.status
            response.headers), .ok (.ok (.exchangeToken resourceToken))⟩ ::
          ⟨.sendWrapped req attempt, .ok response⟩ :: before ∧
        (∀ e ∈ during, e.op.own) ∧
        ExchangeMade cr options during origin resourceToken token x
  | _ => True

theorem taken_of_preparing {o : AgentOp} (ho : o.preparing) :
    Taken cr options req l o := by
  cases o with
  | lock op =>
      cases op with
      | recordAuthToken o ps token expiresIn => exact ho.elim
      | _ => trivial
  | _ => trivial

theorem Prepares.taken {α : Type} {t : AgentTask α} (ht : Prepares t) :
    wp recorder (Taken cr options req) t.run (fun _ _ => True) l := by
  have ht : Prog.Calls AgentOp.preparing t.run := ht
  exact wp_of_calls ht (fun _ _ ho _ => taken_of_preparing ho)
    (fun _ _ _ _ _ _ _ => trivial) trivial

/-- The rule for a part that records nothing. -/
theorem Prepares.taken_bind {α β : Type} {t : AgentTask α}
    {f : α → AgentTask β} (ht : Prepares t)
    (hf : ∀ a l, wp recorder (Taken cr options req) (f a).run
      (fun _ _ => True) l) :
    wp recorder (Taken cr options req) (t >>= f).run (fun _ _ => True) l := by
  rw [wp_bind_except]
  refine wp_mono ?_ ht.taken
  intro r l' _
  cases r with
  | error e => trivial
  | ok a => exact hf a l'

theorem afterResponse_taken {attempt : AgentAuthAttempt}
    {response : HttpResponse}
    (ho : AgentAuth.resourceOrigin cr req.url = .ok origin) :
    wp recorder (Taken cr options req)
      (afterResponse cr fuel options origin attempt response).run
      (fun _ _ => True) (⟨.sendWrapped req attempt, .ok response⟩ :: l) := by
  rw [afterResponse, wp_bind_except, observe, wp_bind_except,
    wp_recorder_lock]
  refine ⟨trivial, fun r => ?_⟩
  cases r with
  | error m => trivial
  | ok step =>
      cases step with
      | error e => trivial
      | ok step =>
          cases step with
          | finish => trivial
          | retryWithOpaque => trivial
          | invalidate attempt' => trivial
          | pollDeferred => exact afterPoll_prepares.taken
          | exchangeToken resourceToken =>
              show wp _ _ (exchangeChallenge cr fuel options origin
                resourceToken >>= _ : AgentTask _).run _ _
              rw [wp_bind_except]
              have hown : Traces (exchangeChallenge cr fuel options origin
                  resourceToken) fun _ d => ∀ e ∈ d, e.op.own :=
                .of_calls exchangeChallenge_calls
              refine wp_mono ?_ ((exchangeChallenge_traces.and hown).after
                exchangeChallenge_calls.prepares
                (fun l o h => taken_of_preparing h) _)
              intro r l' h
              obtain ⟨during, rfl, h⟩ := h
              cases r with
              | error e => trivial
              | ok result =>
                  obtain ⟨⟨x, hx⟩, hd⟩ := h result rfl
                  show wp _ _ _ _ _
                  rw [wp_bind_except, wp_recorder_lock]
                  refine ⟨⟨ho, attempt, response, resourceToken, during, l,
                    x, rfl, hd, hx⟩, fun r => ?_⟩
                  cases r with
                  | error m => trivial
                  | ok u => trivial

theorem handleLoop_taken
    (ho : AgentAuth.resourceOrigin cr req.url = .ok origin) :
    wp recorder (Taken cr options req)
      (handleLoop cr options req origin fuel).run (fun _ _ => True) l := by
  induction fuel generalizing l with
  | zero => trivial
  | succ fuel ih =>
      rw [handleLoop, wp_bind_except, wp_recorder_lock]
      refine ⟨trivial, fun r => ?_⟩
      cases r with
      | error m => trivial
      | ok attempt =>
          show wp _ _ _ _ _
          rw [wp_bind_except, wp_ofResult, AgentRequest.tryClone]
          by_cases hb : req.body = .stream
          · rw [if_pos hb]
            trivial
          · rw [if_neg hb]
            show wp _ _ _ _ _
            rw [wp_bind_except, wp_recorder_sendWrapped]
            refine ⟨trivial, fun r => ?_⟩
            cases r with
            | error e => trivial
            | ok response =>
                show wp _ _ _ _ _
                rw [wp_bind_except]
                refine wp_mono ?_ (afterResponse_taken ho)
                intro r l' _
                cases r with
                | error e => trivial
                | ok found =>
                    cases found with
                    | some response => trivial
                    | none => exact ih

theorem handleInner_taken :
    wp recorder (Taken cr options req) (handleInner cr options fuel req).run
      (fun _ _ => True) [] := by
  rw [handleInner, wp_bind_except, wp_ofAauth]
  cases ho : AgentAuth.resourceOrigin cr req.url with
  | error e => trivial
  | ok origin =>
      refine (lock_prepares (by trivial)).taken_bind fun _ l => ?_
      refine tryProactiveAuthorize_prepares.taken_bind fun _ l => ?_
      exact handleLoop_taken ho

end Recording

/-! ## What the checks bind -/

/-- The recorded token and the resource token it was obtained for are both
bound to the agent, its key and the origin. -/
structure Bound (cr : Crates) (x : Exchange)
    (origin resourceToken token : String) : Prop where
  resource_parsed : ParsedToken.parse cr resourceToken =
    .ok (.resource x.resource)
  resource_signed : IssuerSigned cr x.challengeEnv x.resource.iss
    x.resource.dwk resourceToken
  resource_iss : normalizeServerUrl cr x.resource.iss =
    normalizeServerUrl cr origin
  resource_agent : x.resource.agent = x.agentSub
  resource_agentJkt : x.resource.agentJkt = x.agentJkt
  typ : ∃ header, cr.jsonwebtoken.decodeHeader token = .ok header ∧
    header.typ = some "aa-auth+jwt"
  parsed : ParsedToken.parse cr token = .ok (.auth x.auth)
  iss : normalizeServerUrl cr x.auth.iss = normalizeServerUrl cr x.resource.aud
  aud : normalizeServerUrl cr x.auth.aud = normalizeServerUrl cr origin
  agent : x.auth.agent = x.agentSub
  cnf : jwkThumbprint cr x.auth.cnf.jwk = .ok x.agentJkt
  unexpired : x.tokenEnv.now ≤ x.auth.exp + 60
  subject : x.auth.sub.isSome ∨ x.auth.scope.isSome

theorem ExchangeMade.bound {cr : Crates} (laws : JwtLaws cr)
    {options : AgentOptions} {l : List AgentEvent}
    {origin resourceToken token : String} {x : Exchange}
    (h : ExchangeMade cr options l origin resourceToken token x) :
    Bound cr x origin resourceToken token := by
  obtain ⟨hr, hiss⟩ := (verifyResourceChallenge_eq_ok laws).mp h.challenge
  obtain ⟨hp, hc, -⟩ := (verifyClientAuthToken_eq_ok laws).mp h.token
  exact ⟨hr.parsed, hr.signed, hiss, hr.agent _ rfl, hr.agentJkt _ rfl,
    parse_auth_typ hp, hp, hc.iss, hc.aud, hc.agent, hc.bound, hc.unexpired,
    parse_auth_validate hp⟩

/-! ## Runs -/

/-- How a token came to be recorded for an origin by the call that handles
`req`, which has made the calls of `l`. -/
structure Recording (cr : Crates) (options : AgentOptions)
    (req : AgentRequest) (l : List AgentEvent) (origin token : String) where
  response : HttpResponse
  header : String
  resourceToken : String
  during : List AgentEvent
  before : List AgentEvent
  exchange : Exchange
  asked : AgentAuth.resourceOrigin cr req.url = .ok origin
  log : l = during ++ ⟨.lock (.observeResponse origin .agentSigned
      response.status response.headers),
        .ok (.ok (.exchangeToken resourceToken))⟩ ::
    ⟨.sendWrapped req .agentSigned, .ok response⟩ :: before
  status : response.status = 401
  required : headerValue response.headers "aauth-requirement" = some header
  challenge : AAuthChallenge.fromHeader header = .ok (.authToken resourceToken)
  exchanged : ExchangeMade cr options during origin resourceToken token exchange
  bound : Bound cr exchange origin resourceToken token

section Runs

variable {ι α : Type} [DecidableEq ι] {cr : Crates} {options : AgentOptions}
  {fuel : ι → Nat} {req : ι → AgentRequest} {s : AgentState}
  {env : (o : AgentOp) → agentSig.Ans o → Prop}
  {G : Pool agentSig AgentState ι α → ι → AgentOp → Prop}

/-- The token was recorded for the origin in the run. -/
def RecordedIn (t : List (ι × AgentEvent)) (origin token : String) : Prop :=
  ∃ i ps expiresIn r, (i, (⟨.lock (.recordAuthToken origin ps token
    expiresIn), r⟩ : AgentEvent)) ∈ t

/-- Whatever is cached was so from the start, or was recorded. -/
theorem cached_recorded {P₀ P : Pool agentSig AgentState ι α}
    {t : List (ι × AgentEvent)} (run : Steps (agentWorld env) G P₀ t P)
    {key : AuthTokenCacheKey} {cached : CachedToken}
    (hl : P.state.auth.tokenCache.lookup key = some cached) :
    P₀.state.auth.tokenCache.lookup key = some cached ∨
      RecordedIn t key.origin cached.authToken := by
  induction run with
  | nil => exact .inl hl
  | @step t P P' i e _ _ hs ih =>
      have hlater : ∀ {origin token}, RecordedIn t origin token →
          RecordedIn ((i, e) :: t) origin token := by
        intro origin token h
        obtain ⟨j, ps, expiresIn, r, h⟩ := h
        exact ⟨j, ps, expiresIn, r, List.mem_cons_of_mem _ h⟩
      obtain ⟨-, -, -, hw⟩ := hs.self
      obtain ⟨o, r⟩ := e
      have hkept : P'.state.auth = P.state.auth →
          P₀.state.auth.tokenCache.lookup key = some cached ∨
            RecordedIn ((i, ⟨o, r⟩) :: t) key.origin cached.authToken := by
        intro hsame
        rw [hsame] at hl
        exact (ih hl).imp_right hlater
      cases o with
      | lock op =>
          rcases lockStep_apply hw with hsame | ⟨order, now, -, ha⟩
          · exact hkept hsame
          · rcases (AgentAuth.apply_cacheChange ha).token_from hl with hl |
              ⟨expiresIn, rfl, -⟩
            · exact (ih hl).imp_right hlater
            · exact .inr ⟨i, key.personServer, expiresIn, r,
                List.mem_cons_self⟩
      | _ => exact hkept (congrArg AgentState.auth hw.2)

/-- Only bound tokens enter the cache, and nothing else is presented. In
every run of any number of calls that share the credentials, whatever the
servers answer, a token is recorded for an origin only by a call to that
origin, after a `401` whose resource token verified for the origin, the
agent and its key, and only when it is itself bound to them (`Recording`);
a token presented for an origin was in the cache for it from the start, or
was so recorded before. -/
theorem recorded_tokens_bound (laws : JwtLaws cr)
    {t : List (ι × AgentEvent)}
    {P : Pool agentSig AgentState ι (Except Halt HttpResponse)}
    (run : Steps (agentWorld env) (fun _ _ _ => True)
      (clients cr options fuel req s) t P) :
    (∀ t₁ t₂ i origin ps token expiresIn r,
      t = t₁ ++ (i, ⟨.lock (.recordAuthToken origin ps token expiresIn), r⟩) ::
        t₂ →
      Nonempty (Recording cr options (req i) (proj i t₂) origin token)) ∧
    (∀ t₁ t₂ i copy token r,
      t = t₁ ++ (i, ⟨.sendWrapped copy (.authToken token), r⟩) :: t₂ →
      ∃ origin, AgentAuth.resourceOrigin cr copy.url = .ok origin ∧
        ((∃ key cached, s.auth.tokenCache.lookup key = some cached ∧
          key.origin = origin ∧ cached.authToken = token) ∨
        RecordedIn t₂ origin token)) := by
  constructor
  · intro t₁ t₂ i origin ps token expiresIn r ht
    rw [ht] at run
    obtain ⟨ho, attempt, response, resourceToken, during, before, x, hlog, -,
      hx⟩ := run.pre_at (i := i) handleInner_taken
    obtain ⟨Q, Q', run₂, -, -⟩ := run.split
    -- the challenge itself is a step of the run
    have hmem : (⟨.lock (.observeResponse origin attempt response.status
        response.headers), .ok (.ok (.exchangeToken resourceToken))⟩ :
          AgentEvent) ∈ proj i t₂ := by
      rw [hlog]
      exact List.mem_append_right during List.mem_cons_self
    obtain ⟨u₁, u₂, hu⟩ := List.append_of_mem (mem_proj.mp hmem)
    rw [hu] at run₂
    obtain ⟨R, R', -, -, hs⟩ := run₂.split
    obtain ⟨-, -, -, hw⟩ := hs.self
    obtain ⟨h401, rfl, header, hh, hc⟩ := observe_exchangeToken hw
    exact ⟨response, header, resourceToken, during, before, x, ho, hlog, h401,
      hh, hc, hx, hx.bound laws⟩
  · intro t₁ t₂ i copy token r ht
    rw [ht] at run
    have hf := run.pre_at (i := i) handleInner_follows
    obtain ⟨origin, l', ho, hlog⟩ := hf.1 copy _ rfl
    obtain ⟨Q, Q', run₂, -, -⟩ := run.split
    obtain ⟨u₁, u₂, hu, -, -⟩ := proj_eq_cons hlog
    rw [hu] at run₂
    obtain ⟨R, R', run₃, -, hs⟩ := run₂.split
    obtain ⟨-, -, -, hw⟩ := hs.self
    obtain ⟨order, now, -, hn⟩ := lockStep_nextAttempt hw
    refine ⟨origin, ho, ?_⟩
    rcases AgentAuth.nextAttempt_cases hn with
      ⟨key, cached, hk, hl, -, he, -⟩ | ⟨-, ⟨_, -, he⟩ | ⟨-, he⟩⟩
    · cases he
      have hkey := AgentAuth.findCachedTokenKey_origin hk
      rcases cached_recorded run₃ hl with hl | ⟨j, ps, expiresIn, r, hm⟩
      · exact .inl ⟨key, cached, hl, hkey, rfl⟩
      · rw [hkey] at hm
        refine .inr ⟨j, ps, expiresIn, r, ?_⟩
        rw [hu]
        exact List.mem_append_right u₁ (List.mem_cons_of_mem _ hm)
    · cases he
    · cases he

end Runs

namespace Sample

/-- The run in which the agent is challenged, exchanges and records. -/
theorem recorded_token_bound : ∃ t₁ t₂ P,
    Steps (agentWorld exchangeEnv) (fun _ _ _ => True)
      (clients fullCrates botOptions (fun _ : Unit => 2) (fun _ => botRequest)
        (newAgent none))
      (t₁ ++ ((), ⟨.lock (.recordAuthToken resource personServer
        exchangedBody.authToken 3600), .ok ()⟩) :: t₂) P ∧
    Nonempty (Recording fullCrates botOptions botRequest (proj () t₂) resource
      exchangedBody.authToken) := by
  obtain ⟨d₁, d₂, s', hx⟩ := call_exec
  have hstart : Steps (agentWorld exchangeEnv) (fun _ _ _ => True)
      (clients fullCrates botOptions (fun _ : Unit => 2) (fun _ => botRequest)
        (newAgent none)) []
      (clients fullCrates botOptions (fun _ : Unit => 2) (fun _ => botRequest)
        (newAgent none)) := .nil
  obtain ⟨d, P, hd, -, -, run⟩ := hstart.exec (i := ()) hx
  rw [List.append_nil] at hd run
  rw [← hd, List.map_append, List.map_cons] at run
  exact ⟨_, _, P, run, (recorded_tokens_bound fullCrates_jwtLaws run).1 _ _ _
    _ _ _ _ _ rfl⟩

end Sample

end Aauth
