import Aauth.Lib.Service
import Aauth.Proofs.AccessEndpoint
import Aauth.Proofs.AccessSteps
import Aauth.Proofs.Mint
import Aauth.Proofs.Origin
import Aauth.Proofs.PersonSteps
import Aauth.Sample.Servers

/-!
# The audience of granted tokens

Whoever mints a token, the Person Server or an Access Server, and however
long the request waited, the audience is the resource URL of the server's
own configuration. Where the resource token came from plays no part in
it: its issuer is verified and then forgotten. So a grant is for the
resource that asked exactly when that resource is the configured one.
-/

namespace Aauth

open Except Effect

section Audience

variable {cr : Crates}

/-- The body carries an auth token for the resource at `url`. -/
def HasAudience (cr : Crates) (url : String) (body : TokenResponseBody) :
    Prop :=
  ∃ c, ParsedToken.parse cr body.authToken = .ok (.auth c) ∧
    normalizeServerUrl cr c.aud = normalizeServerUrl cr url

/-- A token has one audience. -/
theorem HasAudience.iff {url url' : String} {body : TokenResponseBody}
    (h : HasAudience cr url body) :
    HasAudience cr url' body ↔
      normalizeServerUrl cr url = normalizeServerUrl cr url' := by
  obtain ⟨c, hp, ha⟩ := h
  constructor
  · intro h'
    obtain ⟨c', hp', ha'⟩ := h'
    rw [hp] at hp'
    cases hp'
    rw [← ha, ha']
  · intro h'
    exact ⟨c, hp, ha.trans h'⟩

/-- What `encode_auth_jwt` mints is for the audience it was given. -/
theorem encodeAuthJwt_hasAudience (laws : MintLaws cr) {now : Nat}
    {jti jwt sub : String} {p : AuthJwtMintParams}
    (h : encodeAuthJwt cr now jti p = .ok jwt) (hs : p.sub = some sub) :
    ∀ expiresIn,
      HasAudience cr p.aud { authToken := jwt, expiresIn := expiresIn } := by
  intro expiresIn
  exact ⟨p.claims now jti, parse_encodeAuthJwt laws h hs, rfl⟩

/-- A federated token that was checked is for the expected audience. -/
theorem verifyFederated_hasAudience (laws : JwtLaws cr) {venv : VerifyEnv}
    {iss aud agentJwt : String} {body : TokenResponseBody}
    (h : verifyFederatedAuthToken cr venv body.authToken iss aud agentJwt =
      .ok ()) :
    HasAudience cr aud body := by
  simp only [verifyFederatedAuthToken, bind_eq_ok, failIf_eq_ok,
    expectAuth_eq_ok, verifyToken_eq_ok laws] at h
  obtain ⟨_, -, _, -, _, -, _, ⟨hc, -⟩, c, rfl, _, -, _, ha, -⟩ := h
  refine ⟨c, hc.parsed, ?_⟩
  rw [normalizeServerUrl, not_ne_iff.mp ha, normalizeServerUrl]

end Audience

/-! ## The Person Server -/

section Person

variable {E : Type} {cr : Crates} {config : PersonServerConfig}
  {env : (o : PersonOp) → personExt.Ans o → Prop}
  {key : Ed25519KeyPair}

/-- The Person Server mints with the shipped minter, at whatever time and
with whatever `jti`. -/
def PersonMinter (cr : Crates) (key : Ed25519KeyPair)
    (env : (o : PersonOp) → personExt.Ans o → Prop) : Prop :=
  ∀ iss aud agent agentJwk sub scope answer,
    env (.mintPersonAuthJwt iss aud agent agentJwk sub scope) answer →
      ∃ now jti, answer = encodeAuthJwt cr now jti
        (personMintParams cr key iss aud agent agentJwk sub scope)

theorem Issued.hasAudience (laws : JwtLaws cr) (mint : MintLaws cr)
    (minter : PersonMinter cr key env) {agent : AgentClaims}
    {agentJwt : String} {body : TokenResponseBody}
    (h : Issued cr config env agent agentJwt body) :
    HasAudience cr config.resourceUrl body := by
  cases h with
  | minted hm =>
      obtain ⟨now, jti, h⟩ := minter _ _ _ _ _ _ _ hm
      have ha := encodeAuthJwt_hasAudience mint h.symm rfl
      exact ha _
  | federated _ hv => exact verifyFederated_hasAudience laws hv

/-- Exchanges come from the token endpoint, with contexts it verified. -/
def PersonCall.Verified (cr : Crates) (config : PersonServerConfig) :
    PersonCall → Prop
  | .exchangeToken ctx _ => ∃ venv jwt jkt request,
      verifyTokenRequest cr venv config jwt jkt request.resourceToken
        request = .ok ctx
  | _ => True

/-- What is known of the Person Server's records. -/
abbrev PersonRecordOk
    (hist : List (Served (personService E cr config)
      (ServiceState PersonPendingContext) Nat)) :
    String → PersonPendingRecord → Prop :=
  (personExchanges E cr config).RecordOk
    (HasAudience cr config.resourceUrl) hist

section Step

variable (laws : JwtLaws cr) (mint : MintLaws cr)
  (minter : PersonMinter cr key env)
  {hist : List (Served (personService E cr config)
    (ServiceState PersonPendingContext) Nat)}
  {t : Nat} {id : String} {m m' : PersonMap} {r : PersonPendingRecord}
  {reply : FlowReply E}
include laws mint minter

/-- Settling a record keeps what is known of all of them. -/
theorem Settled.recordsOk (hm : Every (PersonRecordOk hist) m)
    (hr : PersonRecordOk hist id r)
    (h : Settled cr config env id m r reply m') :
    Every (PersonRecordOk hist) m' ∧ ∀ body,
      reply = .ok (.granted body) →
        HasAudience cr config.resourceUrl body := by
  cases h with
  | failed | unauthorized | badGateway => exact ⟨hm, nofun⟩
  | granted hi =>
      have ha := hi.hasAudience laws mint minter
      refine ⟨hm.insert (hr.update fun body hb => ?_), fun body hb => ?_⟩
      · cases hb
        exact ha
      · cases hb
        exact ha
  | denied => exact ⟨hm.insert (hr.update nofun), nofun⟩
  | deferred _ => exact ⟨hm.insert (hr.update nofun), nofun⟩
  | dropped => exact ⟨hm.erase, nofun⟩

theorem CalledBack.recordsOk {err : Option String}
    (hm : Every (PersonRecordOk hist) m) (hr : PersonRecordOk hist id r)
    (h : CalledBack cr config env id m r err reply m') :
    Every (PersonRecordOk hist) m' ∧ ∀ body,
      reply = .ok (.granted body) →
        HasAudience cr config.resourceUrl body := by
  cases h with
  | error => exact ⟨hm.insert (hr.update nofun), nofun⟩
  | federated _ => exact ⟨hm, nofun⟩
  | settled _ h => exact h.recordsOk laws mint minter hm hr

omit laws mint minter in
theorem Begun.recordsOk {canonical : String}
    {reply : Except (PersonTokenServiceError E) PersonInteractionOutcome}
    (hm : Every (PersonRecordOk hist) m)
    (h : Begun cr config t canonical m reply m') :
    Every (PersonRecordOk hist) m' := by
  cases h with
  | unknown _ => exact hm
  | expired _ _ _ => exact hm.erase
  | @begun id r hl _ _ =>
      have hr := hm _ _ hl
      refine hm.insert (hr.update fun body hb => hr.token body ?_)
      cases hs : r.snapshot with
      | waiting _ _ => simp [PersonPendingRecord.consumed, hs] at hb
      | complete _ => simpa [PersonPendingRecord.consumed, hs] using hb

/-- One call keeps what is known of the records, and a token it hands out
is for the configured resource. -/
theorem PersonStep.recordsOk {s s' : ServiceState PersonPendingContext}
    {c : PersonCall} {reply : (personService E cr config).Reply c}
    (h : PersonStep cr config env t s c reply s')
    (hs : Every (PersonRecordOk hist) s.records) :
    Every (PersonRecordOk (⟨s, t, c, reply, s'⟩ :: hist)) s'.records ∧
      ∀ body, (personExchanges E cr config).Grants body c reply →
        (personExchanges E cr config).GrantOk
          (HasAudience cr config.resourceUrl)
          (⟨s, t, c, reply, s'⟩ :: hist) c body := by
  cases c with
  | exchangeToken ctx agentJwt =>
      refine ⟨?_, fun body hb => ⟨?_, ctx, .inl rfl⟩⟩
      · cases h with
        | failed | unauthorized | denied | granted _ _ =>
            exact hs.mono fun _ _ hr => hr.cons _
        | created hfresh _ =>
            refine (hs.mono fun _ _ hr => hr.cons _).insert ⟨⟨ctx, _,
              List.mem_cons_self, rfl, hfresh, List.mem_cons_self⟩, nofun⟩
      · cases (hb : reply = _)
        cases h with
        | granted _ hi => exact hi.hasAudience laws mint minter
  | pollPending id =>
      obtain ⟨hm, hg⟩ := Exchanges.polled_ok hs h.1
      refine ⟨hm.mono fun _ _ hr => hr.cons _, fun body hb => ?_⟩
      obtain ⟨hq, ctx, ho⟩ := hg body hb
      exact ⟨hq, ctx, .inr ⟨id, rfl, ho.cons _⟩⟩
  | resumePending id input =>
      obtain ⟨hm, hg⟩ := Exchanges.settled_ok (fun body => .ok (.granted body))
        (fun _ h => by cases h)
        (fun hr h => h.recordsOk laws mint minter hs hr) hs h.1
      refine ⟨hm.mono fun _ _ hr => hr.cons _, fun body hb => ?_⟩
      obtain ⟨hq, ctx, ho⟩ := hg body hb
      exact ⟨hq, ctx, .inr ⟨id, rfl, ho.cons _⟩⟩
  | beginInteraction code =>
      obtain ⟨⟨canonical, -, h⟩, -⟩ := h
      exact ⟨(h.recordsOk hs).mono fun _ _ hr => hr.cons _, nofun⟩
  | resolveInteractionCallback id err =>
      obtain ⟨hm, hg⟩ := Exchanges.settled_ok (fun body => .ok (.granted body))
        (fun _ h => by cases h)
        (fun hr h => h.recordsOk laws mint minter hs hr) hs h.1
      refine ⟨hm.mono fun _ _ hr => hr.cons _, fun body hb => ?_⟩
      obtain ⟨hq, ctx, ho⟩ := hg body hb
      exact ⟨hq, ctx, .inr ⟨id, rfl, ho.cons _⟩⟩

end Step

/-- The resource token behind a grant, and when the grant is for the
resource that issued it. -/
structure AudienceBound (cr : Crates) (configured resourceToken : String)
    (rc : ResourceClaims) (body : TokenResponseBody) : Prop where
  parsed : ParsedToken.parse cr resourceToken = .ok (.resource rc)
  bound : HasAudience cr rc.iss body ↔
    normalizeServerUrl cr configured = normalizeServerUrl cr rc.iss

theorem person_audienceBound (laws : JwtLaws cr) (mint : MintLaws cr)
    (minter : PersonMinter cr key env)
    {hist : List (Served (personService E cr config)
      (ServiceState PersonPendingContext) Nat)}
    {s : ServiceState PersonPendingContext}
    (run : History (momentWorld env)
      (fun _ _ _ c => PersonCall.Verified cr config c) ⟨∅, []⟩ hist s) :
    ∀ e ∈ hist, ∀ body,
      (personExchanges E cr config).Grants body e.call e.reply →
        (∃ ctx, (personExchanges E cr config).Origin hist ctx e.call) ∧
        ∀ ctx, (personExchanges E cr config).Origin hist ctx e.call →
          AudienceBound cr config.resourceUrl
            ctx.exchangeRequest.resourceToken ctx.resourceClaims body := by
  intro e he body hb
  have hok := Exchanges.grants_ok (fun hx hs =>
    (personStep_of_exec hx).recordsOk laws mint minter hs) run e he body hb
  refine ⟨hok.origin, fun ctx ho => ⟨?_, hok.token.iff⟩⟩
  obtain ⟨d, hd, hc⟩ := ho.exchanged he
  obtain ⟨-, hv⟩ := run.guard_of_mem hd
  cases hcall : d.call with
  | exchangeToken ctx' agentJwt =>
      rw [hcall] at hc hv
      cases hc
      obtain ⟨venv, jwt, jkt, request, hv⟩ := hv
      obtain ⟨c, rc, -, hrc, rfl⟩ := (verifyTokenRequest_eq_ok laws).mp hv
      exact hrc.parsed
  | pollPending _ | resumePending _ _ | beginInteraction _
  | resolveInteractionCallback _ _ =>
      rw [hcall] at hc
      cases hc

end Person

/-! ## The Access Server -/

namespace Access

section Access

variable {E : Type} {cr : Crates} {config : AccessServerConfig}
  {env : (o : AccessOp) → accessExt.Ans o → Prop}
  {key : Ed25519KeyPair}

/-- The Access Server mints with the shipped minter. -/
def Minter (cr : Crates) (key : Ed25519KeyPair)
    (env : (o : AccessOp) → accessExt.Ans o → Prop) : Prop :=
  ∀ iss aud agent agentJwk sub scope answer,
    env (.mintAccessAuthJwt iss aud agent agentJwk sub scope) answer →
      ∃ now jti, answer = encodeAuthJwt cr now jti
        (mintParams cr key iss aud agent agentJwk sub scope)

theorem Issued.hasAudience (mint : MintLaws cr)
    (minter : Minter cr key env) {agent : AgentClaims}
    {body : TokenResponseBody} (h : Issued config env agent body) :
    HasAudience cr config.resourceUrl body := by
  cases h with
  | minted hm =>
      obtain ⟨now, jti, h⟩ := minter _ _ _ _ _ _ _ hm
      have ha := encodeAuthJwt_hasAudience mint h.symm rfl
      exact ha _

/-- Exchanges come from the token endpoint, with contexts it built. -/
def Call.FromExchange (cr : Crates) (config : AccessServerConfig) :
    Call → Prop
  | .exchangeToken ctx => ∃ request,
      AccessTokenContext.fromExchange cr config request = .ok ctx
  | _ => True

/-- What is known of the Access Server's records. -/
abbrev AccessRecordOk (cr : Crates)
    (hist : List (Served (service E config)
      (ServiceState AccessPendingContext) Nat)) :
    String → AccessPendingRecord → Prop :=
  (exchanges E config).RecordOk (HasAudience cr config.resourceUrl) hist

section Step

variable (mint : MintLaws cr) (minter : Minter cr key env)
  {hist : List (Served (service E config)
    (ServiceState AccessPendingContext) Nat)}
  {t : Nat} {id : String} {m m' : PendingMap AccessPendingContext}
  {r : AccessPendingRecord} {reply : FlowReply E}
include mint minter

theorem Settled.recordsOk (hm : Every (AccessRecordOk cr hist) m)
    (hr : AccessRecordOk cr hist id r)
    (h : Settled config env id m r reply m') :
    Every (AccessRecordOk cr hist) m' ∧ ∀ body,
      reply = .ok (.granted body) →
        HasAudience cr config.resourceUrl body := by
  cases h with
  | failed => exact ⟨hm, nofun⟩
  | granted hi =>
      have ha := hi.hasAudience mint minter
      refine ⟨hm.insert (hr.update fun body hb => ?_), fun body hb => ?_⟩
      · cases hb
        exact ha
      · cases hb
        exact ha
  | denied => exact ⟨hm.insert (hr.update nofun), nofun⟩
  | deferred => exact ⟨hm.insert (hr.update nofun), nofun⟩

theorem AccessStep.recordsOk {s s' : ServiceState AccessPendingContext}
    {c : Call} {reply : (service E config).Reply c}
    (h : AccessStep config env t s c reply s')
    (hs : Every (AccessRecordOk cr hist) s.records) :
    Every (AccessRecordOk cr (⟨s, t, c, reply, s'⟩ :: hist)) s'.records ∧
      ∀ body, (exchanges E config).Grants body c reply →
        (exchanges E config).GrantOk (HasAudience cr config.resourceUrl)
          (⟨s, t, c, reply, s'⟩ :: hist) c body := by
  cases c with
  | exchangeToken ctx =>
      refine ⟨?_, fun body hb => ⟨?_, ctx, .inl rfl⟩⟩
      · cases h with
        | failed | denied | granted _ =>
            exact hs.mono fun _ _ hr => hr.cons _
        | created hfresh =>
            refine (hs.mono fun _ _ hr => hr.cons _).insert ⟨⟨ctx, _,
              List.mem_cons_self, rfl, hfresh, List.mem_cons_self⟩, nofun⟩
      · cases (hb : reply = _)
        cases h with
        | granted hi => exact hi.hasAudience mint minter
  | pollPending id =>
      obtain ⟨hm, hg⟩ := Exchanges.polled_ok hs h.1
      refine ⟨hm.mono fun _ _ hr => hr.cons _, fun body hb => ?_⟩
      obtain ⟨hq, ctx, ho⟩ := hg body hb
      exact ⟨hq, ctx, .inr ⟨id, rfl, ho.cons _⟩⟩
  | resumePending id input =>
      obtain ⟨hm, hg⟩ := Exchanges.settled_ok (fun body => .ok (.granted body))
        (fun _ h => by cases h)
        (fun hr h => h.recordsOk mint minter hs hr) hs h.1
      refine ⟨hm.mono fun _ _ hr => hr.cons _, fun body hb => ?_⟩
      obtain ⟨hq, ctx, ho⟩ := hg body hb
      exact ⟨hq, ctx, .inr ⟨id, rfl, ho.cons _⟩⟩

end Step

theorem access_audienceBound (mint : MintLaws cr)
    (minter : Minter cr key env)
    {hist : List (Served (service E config)
      (ServiceState AccessPendingContext) Nat)}
    {s : ServiceState AccessPendingContext}
    (run : History (momentWorld env)
      (fun _ _ _ c => Call.FromExchange cr config c) ⟨∅, []⟩ hist s) :
    ∀ e ∈ hist, ∀ body, (exchanges E config).Grants body e.call e.reply →
      (∃ ctx, (exchanges E config).Origin hist ctx e.call) ∧
      ∀ ctx, (exchanges E config).Origin hist ctx e.call →
        AudienceBound cr config.resourceUrl ctx.resourceToken
          ctx.resourceClaims body := by
  intro e he body hb
  have hok := Exchanges.grants_ok (fun hx hs =>
    (accessStep_of_exec hx).recordsOk mint minter hs) run e he body hb
  refine ⟨hok.origin, fun ctx ho => ⟨?_, hok.token.iff⟩⟩
  obtain ⟨d, hd, hc⟩ := ho.exchanged he
  obtain ⟨-, hv⟩ := run.guard_of_mem hd
  cases hcall : d.call with
  | exchangeToken ctx' =>
      rw [hcall] at hc hv
      cases hc
      obtain ⟨request, hv⟩ := hv
      obtain ⟨c, rc, -, hp, rfl⟩ := fromExchange_eq_ok.mp hv
      exact hp
  | pollPending _ | resumePending _ _ =>
      rw [hcall] at hc
      cases hc

end Access

end Access

/-! ## Both servers -/

namespace Sample

/-- A policy that grants everything. -/
def userGrant : AuthGrant where
  sub := "user-1"
  scope := none

abbrev grantingEnv (o : PersonOp) (a : personExt.Ans o) : Prop :=
  personAnswer (.grant userGrant) (fun _ => .grant userGrant) o = some a

abbrev grantingAccessEnv (o : AccessOp) (a : accessExt.Ans o) : Prop :=
  accessAnswer (.grant userGrant) (fun _ => .grant userGrant) o = some a

theorem grantingEnv_minter : PersonMinter crates personKey grantingEnv := by
  intro iss aud agent agentJwk sub scope answer h
  refine ⟨now, "auth-1", ?_⟩
  rw [encodeAuthJwt_eq personKey rfl rfl]
  cases h
  rfl

theorem grantingAccessEnv_minter :
    Access.Minter crates accessKey grantingAccessEnv := by
  intro iss aud agent agentJwk sub scope answer h
  refine ⟨now, "auth-1", ?_⟩
  rw [encodeAuthJwt_eq accessKey rfl rfl]
  cases h
  rfl

/-- The claims the Person Server mints for the agent. -/
def grantClaims : AuthClaims :=
  (personMintParams crates personKey personServer resource bot.identifier
    bot.cnf.jwk (some "user-1") none).claims now "auth-1"

def grantBody : TokenResponseBody where
  authToken := authToken grantClaims personKey
  expiresIn := 3600

/-- One exchange of a resource token with these claims. -/
def grantedRun (rc : ResourceClaims) :
    List (Served (personService Empty crates personConfig)
      (ServiceState PersonPendingContext) Nat) :=
  [⟨⟨∅, []⟩, now, .exchangeToken (botContext rc) botJwt,
    .ok (.granted grantBody), ⟨∅, []⟩⟩]

/-- The agent brings a token of the resource at `iss` to its Person
Server. -/
theorem grantedRun_history (iss : String)
    (hiss : publishedKey iss = some resourceKey) :
    History (momentWorld grantingEnv)
      (fun _ _ _ c => PersonCall.Verified crates personConfig c) ⟨∅, []⟩
      (grantedRun (challenge iss personServer agentKey)) ⟨∅, []⟩ := by
  refine .serve .nil ⟨env, botJwt, thumbprint agentKey, exchangeRequest
    (resourceToken (challenge iss personServer agentKey) resourceKey), ?_⟩
    (person_exec (by rfl))
  exact (verifyTokenRequest_eq_ok jwtLaws).mpr ⟨bot, _,
    parse_agentToken bot providerKey, challenge_checks rfl hiss, rfl⟩

end Sample

end Aauth
