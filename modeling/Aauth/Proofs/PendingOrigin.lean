import Aauth.Proofs.PersonRuns
import Aauth.Proofs.PollWire
import Aauth.Ref.AccessClient
import Aauth.Sample.Federation
import Aauth.Sample.WebUrl

/-!
# The origin of a pending URL

An Access Server that defers names the URL to come back to, and the Person
Server posts the agent's answers there. A `Location` that is an absolute URL
is taken as it is, wherever it points. Any other is resolved against the
server, but without its leading slashes, and what is left of it may be an
absolute URL after all.

`resolveDeferredLocation_iff` says for each `Location` whether it stays on
the origin of the server. For a run the invariant is that of every record,
`AtHome`: when each deferral names a URL that stays, and the token endpoint
is on the Access Server's origin, every pending URL is too, however often the
server moves it.
-/

namespace Aauth

open Text Except Effect ReqwestAccessServerClient

/-! ## One response -/

/-- Where a `Location` leads, for a server of the origin `o`: an absolute URL
leads where it says, anything else where it leads without its slashes. -/
def LeadsTo (cr : Crates) (o : WebOrigin) (location : String) : Prop :=
  if startsWith location "http://" || startsWith location "https://" then
    HasOrigin cr location o
  else match WebUrl.read o.scheme.toList
      (trimStartMatches location '/').toList with
    | .here => True
    | .away text => HasOrigin cr (String.ofList text) o

section Response

variable {cr : Crates} {o : WebOrigin} {base location : String}

/-- A `Location` that cannot be joined cannot be parsed either. -/
theorem not_hasOrigin_location (laws : WebLaws cr) {text : List Char}
    {scheme : List Char}
    (h : WebUrl.read scheme (trimStartMatches location '/').toList =
      .away text)
    (hn : ∀ o, ¬ HasOrigin cr (String.ofList text) o) :
    ¬ HasOrigin cr location o := by
  by_cases hs : location.toList.head? = some '/'
  · obtain ⟨s, hs⟩ := List.head?_eq_some_iff.mp hs
    refine laws.relative ?_
    rw [hs]
    exact WebUrl.isAbsolute_slash s
  · have htrim : (trimStartMatches location '/').toList = location.toList := by
      rw [trimStartMatches, String.toList_ofList]
      exact UriRef.dropSlashes_of_head hs
    rw [htrim] at h
    rcases WebUrl.read_away h with rfl | hrel
    · rw [String.ofList_toList] at hn
      exact hn o
    · exact laws.relative hrel

/-- The pending URL is on the origin of the server exactly when the
`Location` leads there. -/
theorem resolveDeferredLocation_iff (laws : WebLaws cr)
    (hb : HasOrigin cr base o) (hw : o.IsWeb) :
    HasOrigin cr (resolveDeferredLocation cr base location) o ↔
      LeadsTo cr o location := by
  rw [resolveDeferredLocation, LeadsTo]
  by_cases habs : (startsWith location "http://" ||
      startsWith location "https://") = true
  · rw [if_pos habs, if_pos habs]
  · rw [if_neg habs, if_neg habs]
    cases hread : WebUrl.read o.scheme.toList
        (trimStartMatches location '/').toList with
    | here =>
        obtain ⟨url, hj, ho⟩ := laws.here hb hw hread
        rw [hj]
        exact iff_of_true ho trivial
    | away text =>
        by_cases hp : ∃ o', HasOrigin cr (String.ofList text) o'
        · obtain ⟨o', ho'⟩ := hp
          obtain ⟨url, hj, ho⟩ := laws.away hb hw hread ho'
          rw [hj]
          show HasOrigin cr url o ↔ HasOrigin cr (String.ofList text) o
          constructor
          · intro h
            rw [h.unique ho]
            exact ho'
          · intro h
            rw [h.unique ho']
            exact ho
        · have hn := not_exists.mp hp
          obtain ⟨e, hj⟩ := laws.unread hb hw hread hn
          rw [hj]
          exact iff_of_false (not_hasOrigin_location laws hread hn) (hn o)

theorem parseDeferredResponse_location {status : Nat} {headers : HeaderMap}
    {body : Bytes} {parsed : ParsedDeferred}
    (h : parseDeferredResponse cr status headers body base = .ok parsed) :
    status = 202 ∧ ∃ location, headerValue headers "location" = some location ∧
      parsed.location = resolveDeferredLocation cr base location := by
  simp only [parseDeferredResponse, bind_eq_ok, failIf_eq_ok,
    Option.okOr_eq_ok, not_not] at h
  obtain ⟨_, hs, location, hl, _, _, _, _, requirement, _, h⟩ := h
  cases h
  exact ⟨hs, location, hl, rfl⟩

/-! ## What the client makes of the responses -/

/-- If the response is a deferral, its `Location` leads to the origin of the
server. -/
def StaysOn (cr : Crates) (base : String) (r : HttpResponse) : Prop :=
  r.status = 202 → ∀ o location, HasOrigin cr base o →
    headerValue (responseHeadersToHttp r.headers) "location" = some location →
    LeadsTo cr o location

variable {requirement : DeferRequirement} {url : String} {r : HttpResponse}

theorem StaysOn.parsed (laws : WebLaws cr) (hb : HasOrigin cr base o)
    (hw : o.IsWeb) (h : StaysOn cr base r) {parsed : ParsedDeferred}
    (hp : parseDeferredResponse cr r.status (responseHeadersToHttp r.headers)
      r.body base = .ok parsed) : HasOrigin cr parsed.location o := by
  obtain ⟨hs, location, hl, hloc⟩ := parseDeferredResponse_location hp
  rw [hloc, resolveDeferredLocation_iff laws hb hw]
  exact h hs o location hb hl

/-- A deferral of the exchange. -/
theorem StaysOn.exchanged (laws : WebLaws cr) (hb : HasOrigin cr base o)
    (hw : o.IsWeb) (h : StaysOn cr base r) {endpoint : String}
    (hx : exchangeReply cr endpoint base r =
      .ok (.deferred requirement url)) : HasOrigin cr url o := by
  rw [exchangeReply] at hx
  split at hx
  · cases hx
  · split at hx
    · obtain ⟨parsed, hp, hx⟩ := bind_eq_ok.mp hx
      cases hx
      exact h.parsed laws hb hw hp
    · split at hx
      · cases hx
      · obtain ⟨_, -, hx⟩ := bind_eq_ok.mp hx
        cases hx

theorem StaysOn.replied (laws : WebLaws cr) (hb : HasOrigin cr base o)
    (hw : o.IsWeb) (h : StaysOn cr base r)
    (hx : pollReply cr base r = .ok (some (.deferred requirement url))) :
    HasOrigin cr url o := by
  by_cases h202 : r.status = 202
  · rw [pollReply, if_neg (by omega), if_neg (by omega), if_neg (by omega),
      if_pos h202] at hx
    obtain ⟨parsed, hp, hx⟩ := bind_eq_ok.mp hx
    cases hx
    exact h.parsed laws hb hw hp
  · rw [pollReply] at hx
    split at hx
    · split at hx <;> cases hx
    · split at hx
      · cases hx
      · split at hx
        · cases hx
        · split at hx
          · cases hx
          · cases hx

/-- A deferral that a poll ends with. -/
theorem StaysOn.polled (laws : WebLaws cr) (hb : HasOrigin cr base o)
    (hw : o.IsWeb) {secs : Nat} {rs : List HttpResponse}
    (h : ∀ r ∈ rs, StaysOn cr base r)
    (hx : ReqwestAccessServerClient.pollPending cr base secs rs =
      .ok (.deferred requirement url)) : HasOrigin cr url o := by
  induction rs with
  | nil => cases hx
  | cons r rs ih =>
      rw [ReqwestAccessServerClient.pollPending] at hx
      cases hr : pollReply cr base r with
      | error e =>
          rw [hr] at hx
          cases hx
      | ok outcome =>
          rw [hr] at hx
          cases outcome with
          | none => exact ih (fun r hm => h r (List.mem_cons_of_mem _ hm)) hx
          | some outcome =>
              cases hx
              exact (h r List.mem_cons_self).replied laws hb hw hr

end Response

/-! ## Runs -/

/-- What the client is answered is read from responses that `P` holds of,
for the server they come from. -/
structure FromClient (cr : Crates) (P : String → HttpResponse → Prop)
    (env : (o : PersonOp) → personExt.Ans o → Prop) : Prop where
  exchanged : ∀ {endpoint request outcome},
    env (.exchangeToken endpoint request) (.ok outcome) →
      ∃ base r, originOf cr endpoint = .ok base ∧ P base r ∧
        exchangeReply cr endpoint base r = .ok outcome
  polled : ∀ {server options outcome},
    env (.pollPending server options) (.ok outcome) →
      ∃ secs rs, (∀ r ∈ rs, P server r) ∧
        ReqwestAccessServerClient.pollPending cr server secs rs = .ok outcome

/-- The exchanges are posted to the Access Server the resource token is
for. -/
def EndpointsOn (cr : Crates)
    (env : (o : PersonOp) → personExt.Ans o → Prop) : Prop :=
  ∀ endpoint request outcome server base,
    env (.exchangeToken endpoint request) (.ok outcome) →
    ForServer cr request.resourceToken server →
    originOf cr endpoint = .ok base →
      ∃ o, o.IsWeb ∧ HasOrigin cr server o ∧ HasOrigin cr base o

/-- The Access Servers keep to their origins. -/
structure KeepsOrigins (cr : Crates)
    (env : (o : PersonOp) → personExt.Ans o → Prop) : Prop where
  client : FromClient cr (StaysOn cr) env
  endpoints : EndpointsOn cr env

/-- The pending URL of a federation is on the Access Server. -/
def AtHome (cr : Crates) (fed : FederationPendingState) : Prop :=
  ∃ o, o.IsWeb ∧ HasOrigin cr fed.accessServerUrl o ∧
    HasOrigin cr fed.asPendingUrl o

/-- What a record may say of a federation. -/
def RecordAtHome (cr : Crates) (r : PersonPendingRecord) : Prop :=
  ∀ fed, r.context.federation = some fed → AtHome cr fed

/-- An answer of the agent is posted to the Access Server of the request it
is about. -/
def PostsHome (cr : Crates) (m : PersonMap) : PersonOp → Prop
  | .resumePending url _ => ∃ id r fed, m.lookup id = some r ∧
      r.context.federation = some fed ∧ ∃ o, o.IsWeb ∧
        HasOrigin cr fed.accessServerUrl o ∧ HasOrigin cr url o
  | _ => True

section Runs

variable {E : Type} {cr : Crates} {config : PersonServerConfig}
  {env : (o : PersonOp) → personExt.Ans o → Prop} {ctx : PersonTokenContext}
  {agentJwt id : String} {requirement : DeferRequirement}
  {r r' : PersonPendingRecord} {reply : FlowReply E}

/-- A federation starts at home. -/
theorem Ruled.atHome (laws : WebLaws cr) (he : KeepsOrigins cr env)
    {d : PersonTokenDecision} {fed : FederationPendingState}
    (h : Ruled cr config env ctx agentJwt d
      (.deferral requirement (some fed))) : AtHome cr fed := by
  cases h with
  | federated hurl ha =>
      obtain ⟨base, r, ho, hr, hx⟩ := he.client.exchanged ha
      obtain ⟨o, hw, hs, hb⟩ := he.endpoints _ _ _ _ _ ha hurl ho
      exact ⟨o, hw, hs, hr.exchanged laws hb hw hx⟩

theorem RuledOn.atHome (laws : WebLaws cr) (he : KeepsOrigins cr env)
    {d : PersonTokenDecision} (hr : RecordAtHome cr r)
    (h : RuledOn cr config env id r ctx agentJwt d reply (.write r')) :
    RecordAtHome cr r' := by
  obtain ⟨ruling, hruled, -, hch⟩ := h
  cases ruling with
  | failure _ | unauthorized => cases hch
  | token _ | denial _ =>
      cases hch
      exact hr
  | deferral requirement fed =>
      cases fed with
      | none =>
          cases hch
          exact hr
      | some fed =>
          cases hch
          intro fed' hf
          cases hf
          exact hruled.atHome laws he

/-- The server may move its pending URL, and keeps it at home. -/
theorem Posted.atHome (laws : WebLaws cr) (he : KeepsOrigins cr env)
    {fed : FederationPendingState} {input : PendingInput}
    (hr : RecordAtHome cr r) (hf : r.context.federation = some fed)
    (h : Posted cr config env id r fed input reply (.write r')) :
    RecordAtHome cr r' := by
  cases h with
  | cancelled _ | accepted _ _ | denied _ => exact hr
  | moved ha =>
      intro fed' hf'
      cases hf'
      cases ha with
      | polled _ ha =>
          obtain ⟨o, hw, hs, -⟩ := hr fed hf
          obtain ⟨secs, rs, hrs, hx⟩ := he.client.polled ha
          exact ⟨o, hw, hs, StaysOn.polled laws hs hw hrs hx⟩

theorem Opens.atHome (laws : WebLaws cr) (he : KeepsOrigins cr env)
    {c : PersonPendingContext} {t ttl : Nat}
    (h : Opens cr config env ctx agentJwt c requirement) :
    RecordAtHome cr (.new t id c (.ofRequirement requirement) ttl) := by
  cases h with
  | gated _ _ _ => exact nofun
  | deferred _ _ hr =>
      intro fed hf
      cases hf
      exact hr.atHome laws he

theorem Wrote.atHome (laws : WebLaws cr) (he : KeepsOrigins cr env)
    {c : PersonCall} {reply : (personService E cr config).Reply c}
    (hr : RecordAtHome cr r)
    (h : Wrote cr config env id r c reply r') : RecordAtHome cr r' := by
  cases c with
  | exchangeToken _ _ | pollPending _ => exact h.elim
  | resumePending id' input =>
      obtain ⟨-, h⟩ := h
      cases h with
      | posted hf h => exact h.atHome laws he hr hf
      | decided _ _ h => exact h.atHome laws he hr
  | beginInteraction code =>
      obtain ⟨rfl, -⟩ := h
      exact hr
  | resolveInteractionCallback id' err =>
      obtain ⟨-, h⟩ := h
      cases h with
      | error => exact hr
      | decided _ _ h => exact h.atHome laws he hr

variable {hist : List (PersonTurn E cr config)}
  {s : ServiceState PersonPendingContext}

/-- Every record of a run is at home. -/
theorem PersonHistory.atHome (laws : WebLaws cr)
    (run : PersonHistory (fun _ _ m _ => KeepsOrigins cr m.env) hist s)
    (hl : s.records.lookup id = some r) : RecordAtHome cr r := by
  have htracked : Tracked (fun _ _ _ _ r => RecordAtHome cr r) hist s :=
    run.tracked (fun _ h => h) (fun he _ h => h.atHome laws he)
      (fun he _ hr _ _ h => h.atHome laws he hr)
  obtain ⟨_, _, -, hr⟩ := htracked.opened id r hl
  exact hr

/-- What is posted while the records are at home. -/
theorem postsHome {m : Occasion personExt} {c : PersonCall}
    (hs : ∀ id r, s.records.lookup id = some r → RecordAtHome cr r) :
    wp (occasionWorld m) (OnExt (PostsHome cr s.records))
      ((personService E cr config).prog c) (fun _ _ => True) s := by
  refine wp_weaken (fun _ o ho => ?_) (fun _ _ _ => trivial)
    (personServes (t := m.time) c)
  cases o with
  | ext o =>
      cases o with
      | resumePending url input =>
          obtain ⟨id, r, fed, -, hl, -, hf, rfl⟩ := ho
          exact ⟨id, r, fed, hl, hf, hs id r hl fed hf⟩
      | evaluate _ | resume _ _ | mintPersonAuthJwt _ _ _ _ _ _ | codeBytes
      | fetchMetadata _ | exchangeToken _ _ | pollPending _ _ | verifyEnv
      | panic => trivial
  | store _ | now | pendingIdBytes => trivial

end Runs

/-- A pending URL is on the origin of the server that named it exactly when
the `Location` leads there. In a run where every `Location` does, and every
token endpoint is on its Access Server, the pending URLs stay there and so
do the answers that are posted. -/
theorem pending_urls_stay {cr : Crates} (laws : WebLaws cr) :
    (∀ base o status headers body parsed location, HasOrigin cr base o →
      o.IsWeb →
      parseDeferredResponse cr status headers body base = .ok parsed →
      headerValue headers "location" = some location →
        (HasOrigin cr parsed.location o ↔ LeadsTo cr o location)) ∧
    ∀ E config (hist : List (PersonTurn E cr config)) s,
      PersonHistory (fun _ _ m _ => KeepsOrigins cr m.env) hist s →
        (∀ id r, s.records.lookup id = some r → RecordAtHome cr r) ∧
        ∀ m c, wp (occasionWorld m) (OnExt (PostsHome cr s.records))
          ((personService E cr config).prog c) (fun _ _ => True) s := by
  constructor
  · intro base o status headers body parsed location hb hw hp hl
    obtain ⟨-, location', hl', hloc⟩ := parseDeferredResponse_location hp
    cases hl.symm.trans hl'
    rw [hloc]
    exact resolveDeferredLocation_iff laws hb hw
  · intro E config hist s run
    have hs : ∀ id r, s.records.lookup id = some r → RecordAtHome cr r :=
      fun id r hl => PersonHistory.atHome laws run hl
    exact ⟨hs, fun m c => postsHome hs⟩

/-! ## At the sample parties -/

namespace Sample

/-- The origin of the sample Access Server. -/
def accessOrigin : WebOrigin := ⟨"https", some "access.example", none⟩

/-- What a server defers with. -/
def deferredTo (location : String) : HttpResponse where
  status := 202
  headers := ⟨[("location", location),
    ("aauth-requirement", "requirement=approval")]⟩
  body := []

/-- The exchange is deferred to `url`. -/
def deferredAnswer (url : String) :
    (o : PersonOp) → Option (personExt.Ans o)
  | .exchangeToken endpoint request =>
      if endpoint = accessServer ++ "/token" ∧ request = federationRequest
          (resourceToken federatedClaims resourceKey) botJwt then
        some (.ok (.deferred .approval url))
      else none
  | .resumePending _ _ | .pollPending _ _ => none
  | o => federatingAnswer (.deferred .approval url) none .gone o

abbrev deferredEnv (url : String) (o : PersonOp) (a : personExt.Ans o) :
    Prop := deferredAnswer url o = some a

def federatedContext (url : String) : PersonPendingContext :=
  (botContext federatedClaims).toPending botJwt (some ⟨accessServer, url⟩)
    none none

/-- The agent's exchange, put off by its Access Server. -/
def deferredTurn (url : String) : PersonTurn Empty webCrates personConfig :=
  ⟨⟨∅, []⟩, ⟨now, deferredEnv url⟩,
    .exchangeToken (botContext federatedClaims) botJwt,
    .ok (.deferredAt personConfig firstId .approval),
    waitingFor (federatedContext url) .approval⟩

/-- URLs are not looked at when a token is read. -/
theorem parse_urls (cr : Crates) (p : String → Except String Url)
    (j : String → String → Except String String) (jwt : String) :
    ParsedToken.parse { cr with urlParse := p, urlJoin := j } jwt =
      ParsedToken.parse cr jwt := rfl

theorem parse_federated :
    ParsedToken.parse webCrates (resourceToken federatedClaims resourceKey) =
      .ok (.resource federatedClaims) :=
  (parse_urls crates _ _ _).trans
    (parse_resourceToken federatedClaims resourceKey)

theorem deferredTurn_exec (url : String) :
    Exec (momentWorld (deferredEnv url) now) ⟨∅, []⟩
      (exchangeToken (E := Empty) webCrates personConfig
        (botContext federatedClaims) botJwt).run
      (.ok (.deferredAt personConfig firstId .approval))
      (waitingFor (federatedContext url) .approval) := by
  let W : World (personSig Empty) (ServiceState PersonPendingContext) :=
    momentWorld (deferredEnv url) now
  let s : ServiceState PersonPendingContext := ⟨∅, []⟩
  have hd : W s (.ext (.evaluate (botContext federatedClaims)))
      (.ok .federate) s := ⟨rfl, rfl⟩
  have hm : W s (.ext (.fetchMetadata accessServer))
      (.ok { issuer := some accessServer,
             tokenEndpoint := accessServer ++ "/token",
             jwksUri := none }) s := ⟨rfl, rfl⟩
  have ha : W s (.ext (.exchangeToken (accessServer ++ "/token")
      (federationRequest (resourceToken federatedClaims resourceKey)
        botJwt))) (.ok (.deferred .approval url)) s :=
    ⟨if_pos ⟨rfl, rfl⟩, rfl⟩
  have hid : generatePendingId (freshBytes []) ∉ s.issued := nofun
  exact exchangeToken_deferred rfl hd
    (federateToAccessServer_deferred parse_federated hm (by decide) ha)
    (createRecord_opened hid)

/-- The pending URL that `/pending/1` stands for. -/
def pendingUrl : String := accessServer ++ "/pending/1"

theorem access_hasOrigin : HasOrigin webCrates accessServer accessOrigin := by
  rw [hasOrigin_web]
  exact ⟨_, by rfl, rfl⟩

theorem accessOrigin_isWeb : accessOrigin.IsWeb := ⟨.inr rfl, nofun⟩

theorem leadsTo_pending : LeadsTo webCrates accessOrigin "/pending/1" := by
  have hread : WebUrl.read accessOrigin.scheme.toList
      (trimStartMatches "/pending/1" '/').toList = .here := by decide
  rw [LeadsTo, if_neg (by decide), hread]
  trivial

theorem deferredTo_parsed {base location : String}
    (hl : headerValue (responseHeadersToHttp (deferredTo location).headers)
      "location" = some location)
    (hh : headerValue (responseHeadersToHttp (deferredTo location).headers)
      "aauth-requirement" = some "requirement=approval") :
    parseDeferredResponse webCrates 202
        (responseHeadersToHttp (deferredTo location).headers) [] base =
      .ok ⟨resolveDeferredLocation webCrates base location, .approval⟩ :=
  parseDeferredResponse_ok base hl hh AAuthChallenge.fromHeader_approval rfl

theorem deferredEnv_keepsOrigins :
    KeepsOrigins webCrates (deferredEnv pendingUrl) := by
  have hanswer : ∀ {endpoint request outcome},
      deferredEnv pendingUrl (.exchangeToken endpoint request) (.ok outcome) →
        endpoint = accessServer ++ "/token" ∧
        request = federationRequest
          (resourceToken federatedClaims resourceKey) botJwt ∧
        outcome = .deferred .approval pendingUrl := by
    intro endpoint request outcome h
    by_cases hc : endpoint = accessServer ++ "/token" ∧
        request = federationRequest
          (resourceToken federatedClaims resourceKey) botJwt
    · have h := (if_pos hc).symm.trans h
      cases h
      exact ⟨hc.1, hc.2, rfl⟩
    · have h := (if_neg hc).symm.trans h
      cases h
  refine ⟨⟨fun h => ?_, nofun⟩, fun endpoint request outcome server base h hs
    hb => ?_⟩
  · obtain ⟨rfl, rfl, rfl⟩ := hanswer h
    refine ⟨accessServer, deferredTo "/pending/1", by rfl, ?_, ?_⟩
    · intro _ o location ho hl
      cases access_hasOrigin.unique ho
      have hl' : headerValue (responseHeadersToHttp
          (deferredTo "/pending/1").headers) "location" =
            some "/pending/1" := by rfl
      cases hl.symm.trans hl'
      exact leadsTo_pending
    · have hp := @deferredTo_parsed accessServer "/pending/1" (by rfl) (by rfl)
      exact exchangeReply_accepted rfl hp
  · obtain ⟨rfl, rfl, rfl⟩ := hanswer h
    obtain ⟨rc, hrc, rfl⟩ := hs
    cases parse_federated.symm.trans hrc
    have hbase : originOf webCrates (accessServer ++ "/token") =
      .ok accessServer := by rfl
    cases hbase.symm.trans hb
    exact ⟨accessOrigin, accessOrigin_isWeb, access_hasOrigin,
      access_hasOrigin⟩

/-- A relative `Location` leads to the Access Server, and so the agent's
answers are posted there. -/
theorem pending_url_stays :
    HasOrigin webCrates
        (resolveDeferredLocation webCrates accessServer "/pending/1")
        accessOrigin ∧
      AtHome webCrates ⟨accessServer, pendingUrl⟩ := by
  have run : PersonHistory (fun _ _ m _ => KeepsOrigins webCrates m.env)
      [deferredTurn pendingUrl]
      (waitingFor (federatedContext pendingUrl) .approval) :=
    .serve .nil deferredEnv_keepsOrigins (deferredTurn_exec pendingUrl)
  have hp := @deferredTo_parsed accessServer "/pending/1" (by rfl) (by rfl)
  constructor
  · exact ((pending_urls_stay webLaws).1 _ _ _ _ _ _ "/pending/1"
      access_hasOrigin accessOrigin_isWeb hp (by rfl)).mpr leadsTo_pending
  · exact ((pending_urls_stay webLaws).2 Empty personConfig _ _ run).1 firstId
      _ (AList.lookup_insert _) _ rfl

/-- The Access Server may name another host, outright or behind a slash
that is taken off. -/
theorem pending_url_elsewhere :
    (∀ location ∈ ["https://evil.example/1", "/https://evil.example/1"],
      parseDeferredResponse webCrates 202
          (responseHeadersToHttp (deferredTo location).headers) []
          accessServer =
        .ok ⟨"https://evil.example/1", .approval⟩) ∧
      HasOrigin webCrates accessServer accessOrigin ∧
      ¬ HasOrigin webCrates "https://evil.example/1" accessOrigin := by
  refine ⟨?_, access_hasOrigin, fun h => ?_⟩
  · intro location hl
    simp only [List.mem_cons, List.not_mem_nil, or_false] at hl
    rcases hl with rfl | rfl
    · exact deferredTo_parsed rfl rfl
    · exact deferredTo_parsed rfl rfl
  · have hevil : HasOrigin webCrates "https://evil.example/1"
        ⟨"https", some "evil.example", none⟩ := by
      rw [hasOrigin_web]
      exact ⟨_, by rfl, rfl⟩
    exact absurd (h.unique hevil) (by decide)

end Sample

end Aauth
