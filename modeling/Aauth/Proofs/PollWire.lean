import Aauth.Proofs.Challenge
import Aauth.Proofs.Http
import Aauth.Proofs.Wire
import Aauth.Ref.AccessClient
import Aauth.Sample.Json

/-!
# From the Access Server's answer to the Person Server's outcome

The Access Server turns an outcome into a response, and the Person Server's
client turns the response into an outcome. The first deferral arrives as it
was sent, up to what its headers can hold. Of the answers to a poll, a
token and a lost request arrive; a request still pending never does, since
the answer has no `Location` and the client asks for one; and an error
arrives only with the status the client reads errors from, under a code
that is spelled as no other.
-/

namespace Aauth

open Json ReqwestAccessServerClient

variable {cr : Crates}

/-! ## Agreement -/

/-- What the Access Server serves on a pending URL; a lifetime is a `u64`. -/
inductive ServedOnPoll : AuthTokenPollOutcome → Prop
  | pending {w : DeferWaiting}
      (h : ∀ location, w.requirement ≠ .payment location) :
      ServedOnPoll (.pending w)
  | token {b : TokenResponseBody} (h : b.expiresIn < 2 ^ 64) :
      ServedOnPoll (.complete (.authToken b))
  | error (e : AAuthProtocolError) : ServedOnPoll (.complete (.error e))
  | gone : ServedOnPoll .gone

/-- The same outcome on both sides. -/
def SameOutcome : AuthTokenPollOutcome → ServerPollOutcome → Prop
  | .pending w, .deferred requirement _ => requirement = w.requirement
  | .complete (.authToken b), .authToken b' => b' = b
  | .complete (.error e), .error e' =>
      e'.error = e.error ∧ e'.errorDescription = e.errorDescription
  | .gone, .gone => True
  | _, _ => False

/-- A poll answered with the outcome ends with the same one, whatever
would be answered later. -/
def PollAgrees (cr : Crates) (url : String) (maxDuration : Nat)
    (outcome : AuthTokenPollOutcome) : Prop :=
  ∃ r, Respond.pollOutcome cr outcome = some r ∧
    ∀ later, ∃ seen, ReqwestAccessServerClient.pollPending cr url maxDuration
      (r :: later) = .ok seen ∧ SameOutcome outcome seen

/-- A deferred exchange is seen with the same requirement. -/
def DeferAgrees (cr : Crates) (tokenEndpoint origin : String)
    (d : DeferCreated) : Prop :=
  ∃ r, Respond.flowOutcome cr (.deferred d) = some r ∧
    ∃ location, exchangeReply cr tokenEndpoint origin r =
      .ok (.deferred d.requirement location)

/-! ## Conditions -/

namespace AAuthErrorCode

/-- A custom code that is spelled as no named one. -/
def OwnName (c : AAuthErrorCode) : Prop :=
  ∀ code, c = .custom code → ∀ k ∈ named, k.asStr ≠ code

/-- The codes served under another status than `403`. -/
def elsewhere : List AAuthErrorCode :=
  [expired, interactionExpired, invalidCode, slowDown, serverError,
    temporarilyUnavailable]

end AAuthErrorCode

/-- What arrives of the answers to a poll. -/
def AuthTokenPollOutcome.Carried : AuthTokenPollOutcome → Prop
  | .pending _ => False
  | .complete (.error e) => e.error.OwnName ∧ e.error ∉ AAuthErrorCode.elsewhere
  | _ => True

/-- Neither parameter of the header has a quote; a timeout is a `u64`. -/
def DeferRequirement.WellFormed : DeferRequirement → Prop
  | .interaction url code => '"' ∉ url.toList ∧ '"' ∉ code.toList
  | .clarification _ timeout => ∀ n ∈ timeout, n < 2 ^ 64
  | _ => True

/-- What arrives of a deferral: its header values are visible ASCII, and no
`code="` stands before the code. -/
def DeferCreated.Carried (d : DeferCreated) : Prop :=
  IsVisible d.location ∧ match d.requirement with
    | .interaction url code => IsVisible url ∧ IsVisible code ∧
        ("code=".toList <:+ url.toList → code = "; code=")
    | .payment _ => False
    | _ => True

/-! ## Errors -/

namespace AAuthErrorCode

theorem fromWire_asStr {c : AAuthErrorCode} :
    fromWire c.asStr = c ↔ c.OwnName := by
  constructor
  · intro h code hc k hk hs
    rw [hc, asStr, ← hs, fromWire_asStr_named hk] at h
    rw [h] at hk
    simp [named] at hk
  · intro h
    by_cases hn : c ∈ named
    · exact fromWire_asStr_named hn
    · cases c with
      | custom code => exact fromWire_custom code (h code rfl)
      | _ => exact absurd (by decide) hn

end AAuthErrorCode

/-- Errors are served as `403`, or with a status under which the client
reads none. -/
theorem pollingStatus_cases (e : AAuthProtocolError) :
    Respond.pollingStatus e = 403 ∨ Respond.pollingStatus e = 408 ∨
      Respond.pollingStatus e = 410 ∨ Respond.pollingStatus e = 429 ∨
      Respond.pollingStatus e = 500 := by
  -- one goal for each status a branch names
  rw [Respond.pollingStatus]
  repeat' split
  all_goals decide

theorem pollingStatus_forbidden {e : AAuthProtocolError}
    (h : e.error.OwnName) :
    Respond.pollingStatus e = 403 ↔ e.error ∉ AAuthErrorCode.elsewhere := by
  obtain ⟨c, description, uri⟩ := e
  cases c with
  | custom code =>
      have hne : ∀ k ∈ AAuthErrorCode.named, code ≠ k.asStr :=
        fun k hk he => h code rfl k hk he.symm
      have h1 := hne .expired (by decide)
      have h2 := hne .interactionExpired (by decide)
      have h3 := hne .invalidCode (by decide)
      have h4 := hne .slowDown (by decide)
      have h5 := hne .serverError (by decide)
      have h6 := hne .temporarilyUnavailable (by decide)
      simp only [AAuthErrorCode.asStr] at h1 h2 h3 h4 h5 h6
      simp [Respond.pollingStatus, AAuthErrorCode.elsewhere, h1, h2, h3, h4,
        h5, h6]
  | _ => simp [Respond.pollingStatus, AAuthErrorCode.elsewhere]

/-! ## Polls -/

/-- An answer that ends the poll decides it. -/
theorem pollPending_cons {url : String} {maxDuration : Nat}
    {r : HttpResponse} {later : List HttpResponse}
    {outcome : ServerPollOutcome}
    (h : pollReply cr url r = .ok (some outcome)) :
    ReqwestAccessServerClient.pollPending cr url maxDuration (r :: later) =
      .ok outcome := by
  rw [ReqwestAccessServerClient.pollPending, h]

theorem pollReply_token (h : JsonLaws cr) (url : String)
    {b : TokenResponseBody} (hb : b.expiresIn < 2 ^ 64) :
    pollReply cr url (Respond.json cr 200 b.toJson) =
      .ok (some (.authToken b)) := by
  have hr : fromSlice cr TokenResponseBody.fromJson
      (jsonBytes cr b.toJson) = some b :=
    fromSlice_of_tree h (b.isJson h hb) (b.fromJson_toJson hb)
  simp only [pollReply, Respond.json, if_true, parseAuthTokenResponse, hr]
  rfl

/-- The status alone decides what the client makes of an error. -/
theorem pollReply_error (h : JsonLaws cr) (url : String)
    (e : AAuthProtocolError) :
    pollReply cr url (Respond.json cr (Respond.pollingStatus e) e.toJson) =
      if Respond.pollingStatus e = 403 then
        .ok (some (.error { e with error := .fromWire e.error.asStr }))
      else if Respond.pollingStatus e = 410 then .ok (some .gone)
      else .error (.deferred (.unexpectedStatus 200
        (Respond.pollingStatus e))) := by
  have hr : fromSlice cr AAuthProtocolError.fromJson
      (jsonBytes cr e.toJson) =
        some { e with error := .fromWire e.error.asStr } :=
    fromSlice_of_tree h (e.isJson h) e.fromJson_toJson
  have hs := pollingStatus_cases e
  generalize Respond.pollingStatus e = status at hs ⊢
  rcases hs with rfl | rfl | rfl | rfl | rfl
  · simp [pollReply, Respond.json, hr]
  all_goals simp [pollReply, Respond.json]

/-- An error arrives under its own code, from a `403` alone. -/
theorem error_agrees (h : JsonLaws cr) (url : String) (maxDuration : Nat)
    (e : AAuthProtocolError) :
    PollAgrees cr url maxDuration (.complete (.error e)) ↔
      AuthTokenPollOutcome.Carried (.complete (.error e)) := by
  have hr := pollReply_error h url e
  constructor
  · intro ha
    obtain ⟨r, hro, hall⟩ := ha
    cases hro
    obtain ⟨seen, hseen, hsame⟩ := hall []
    rw [ReqwestAccessServerClient.pollPending, hr] at hseen
    by_cases hs : Respond.pollingStatus e = 403
    · rw [if_pos hs] at hseen
      cases hseen
      have hown := AAuthErrorCode.fromWire_asStr.mp hsame.1
      exact ⟨hown, (pollingStatus_forbidden hown).mp hs⟩
    · rw [if_neg hs] at hseen
      by_cases hg : Respond.pollingStatus e = 410
      · rw [if_pos hg] at hseen
        cases hseen
        exact hsame.elim
      · rw [if_neg hg] at hseen
        cases hseen
  · intro hc
    obtain ⟨hown, hnot⟩ := hc
    rw [if_pos ((pollingStatus_forbidden hown).mpr hnot)] at hr
    refine ⟨_, rfl, fun later => ⟨_, pollPending_cons hr, ?_⟩⟩
    exact ⟨AAuthErrorCode.fromWire_asStr.mpr hown, rfl⟩

/-! ## Deferrals -/

open HeaderMap

/-- The client finds the headers that the handler gave. -/
theorem headerValue_jsonWith {status : Nat} {headers : HeaderMap}
    {tree : Json} {name : String} (hs : headers.Single)
    (hn : name ≠ "content-type") :
    headerValue (responseHeadersToHttp
      (Respond.jsonWith cr status headers tree).headers) name =
        headerValue headers name := by
  have hb : (Respond.json cr status tree).headers.Single :=
    single_empty.insert _ _
  have hg : (Respond.json cr status tree).headers.get name = none :=
    get_insert_of_ne hn
  have hh : (Respond.jsonWith cr status headers tree).headers =
      (Respond.json cr status tree).headers.extend headers := rfl
  rw [headerValue, responseHeadersToHttp, hh, get_copy (hb.extend headers),
    get_extend hs, hg, Option.or_none, headerValue]

/-- A header of a deferral arrives. -/
theorem headerValue_sent {headers : HeaderMap} {name v : String}
    (cr : Crates) (tree : Json) (hs : headers.Single)
    (hn : name ≠ "content-type") (hv : headerValue headers name = some v) :
    headerValue (responseHeadersToHttp (Respond.jsonWith cr 202
      (headers.insert "content-type" "application/json") tree).headers)
        name = some v := by
  rw [headerValue_jsonWith (hs.insert _ _) hn, headerValue_insert_of_ne hn,
    hv]

/-- The poll headers leave `Location` alone, and hold the challenge. -/
structure PollHeaders (h headers : HeaderMap) (requirement : DeferRequirement)
    : Prop where
  single : headers.Single
  location : headers.get "location" = h.get "location"
  challenge : ∀ ch, requirement.headerChallenge = .ok ch →
    headerValue headers "aauth-requirement" = some ch.toHeader

theorem insertPollHeaders_spec {h headers : HeaderMap}
    {requirement : DeferRequirement} (hs : h.Single)
    (hi : Respond.insertPollHeaders h requirement = some headers) :
    PollHeaders h headers requirement := by
  have hb := (hs.insert "retry-after" "0").insert "cache-control" "no-store"
  rw [Respond.insertPollHeaders] at hi
  cases hc : requirement.headerChallenge with
  | error e =>
      rw [hc] at hi
      cases hi
      refine ⟨hb, ?_, fun ch h => nomatch hc.symm.trans h⟩
      rw [get_insert_of_ne (by decide), get_insert_of_ne (by decide)]
  | ok ch =>
      rw [hc] at hi
      obtain ⟨value, hv, rfl⟩ := Option.map_eq_some_iff.mp hi
      have hv := headerValueFromStr_eq_ok.mp (Except.toOption_eq_some.mp hv)
      obtain ⟨hvis, heq⟩ := toStr_eq_some.mp hv
      refine ⟨hb.insert _ _, ?_, ?_⟩
      · rw [get_insert_of_ne (by decide), get_insert_of_ne (by decide),
          get_insert_of_ne (by decide)]
      · intro ch' hch
        rw [hc] at hch
        cases hch
        rw [← heq] at hv ⊢
        exact headerValue_insert_self hv

theorem insertPollHeaders_some (h : HeaderMap)
    {requirement : DeferRequirement} {ch : AAuthChallenge}
    (hc : requirement.headerChallenge = .ok ch)
    (hv : IsVisible ch.toHeader) :
    ∃ headers, Respond.insertPollHeaders h requirement = some headers := by
  have hs : headerValueFromStr ch.toHeader = .ok ch.toHeader :=
    headerValueFromStr_eq_ok.mpr (toStr_eq_some.mpr ⟨hv, rfl⟩)
  rw [Respond.insertPollHeaders, hc]
  simp only [hs]
  exact ⟨_, rfl⟩

/-- An answer to a poll has no `Location`. -/
theorem deferWaiting_no_location {w : DeferWaiting} {r : HttpResponse}
    (h : Respond.deferWaiting cr w = some r) :
    r.status = 500 ∨ r.status = 202 ∧
      headerValue (responseHeadersToHttp r.headers) "location" = none := by
  rw [Respond.deferWaiting] at h
  split at h
  · cases h
    exact .inl rfl
  · next body hb =>
      rw [Option.bind_eq_bind, Option.bind_eq_some_iff] at h
      obtain ⟨headers, hh, hr⟩ := h
      cases hr
      have hp := insertPollHeaders_spec single_empty hh
      refine .inr ⟨rfl, ?_⟩
      rw [headerValue_jsonWith (hp.single.insert _ _) (by decide),
        headerValue_insert_of_ne (by decide), headerValue, hp.location]
      rfl

/-- The client ends such a poll with an error. -/
theorem pending_not_agrees (url : String) (maxDuration : Nat)
    (w : DeferWaiting) : ¬ PollAgrees cr url maxDuration (.pending w) := by
  intro ha
  obtain ⟨r, hr, hall⟩ := ha
  obtain ⟨seen, hseen, -⟩ := hall []
  have hfail : ∃ e, pollReply cr url r = .error e := by
    rcases deferWaiting_no_location hr with hs | ⟨hs, hl⟩
    · exact ⟨.deferred (.unexpectedStatus 200 500), by simp [pollReply, hs]⟩
    · refine ⟨.deferred .missingLocation, ?_⟩
      simp only [pollReply, hs, parseDeferredResponse, hl]
      rfl
  obtain ⟨e, he⟩ := hfail
  rw [ReqwestAccessServerClient.pollPending, he] at hseen
  cases hseen

/-! ## The first deferral -/

/-- The requirement is read from the challenge and the body. -/
theorem deferRequirementFrom_body (h : JsonLaws cr)
    {requirement : DeferRequirement} {status : PendingStatus}
    {body : PendingBody} {ch : AAuthChallenge}
    (hw : requirement.WellFormed)
    (hb : PendingBody.forWaiting requirement status = .ok body)
    (hc : requirement.headerChallenge = .ok ch) :
    deferRequirementFrom cr ch (jsonBytes cr body.toJson) =
      .ok requirement := by
  cases requirement with
  | interaction url code => cases hc; rfl
  | approval => cases hc; rfl
  | payment location => exact nomatch hc
  | clarification question timeout =>
      cases hc
      cases hb
      have hf : ClarificationChallenge.Fits
        ⟨status, question, timeout, none⟩ := hw
      have hj := ClarificationChallenge.isJson h hf
      have hr := fromSlice_of_tree h hj
        (ClarificationChallenge.fromJson_toJson hf)
      simp only [deferRequirementFrom, PendingBody.toJson,
        jsonBytes_not_empty h hj, hr]
      rfl
  | claims requiredClaims =>
      cases hc
      cases hb
      have hj := ClaimsChallenge.isJson h ⟨status, requiredClaims⟩
      have hr := fromSlice_of_tree h hj (ClaimsChallenge.fromJson_toJson _)
      simp only [deferRequirementFrom, PendingBody.toJson,
        jsonBytes_not_empty h hj, hr]
      rfl

/-- What the client reads for a requirement. -/
def DeferRequirement.seen : DeferRequirement → DeferRequirement
  | interaction url code =>
      .interaction url (AAuthChallenge.codeRead url code)
  | requirement => requirement

theorem requirement_seen (h : JsonLaws cr) {requirement : DeferRequirement}
    {status : PendingStatus} {body : PendingBody} {ch : AAuthChallenge}
    (hw : requirement.WellFormed)
    (hb : PendingBody.forWaiting requirement status = .ok body)
    (hc : requirement.headerChallenge = .ok ch) :
    ∃ ch', AAuthChallenge.fromHeader ch.toHeader = .ok ch' ∧
      deferRequirementFrom cr ch' (jsonBytes cr body.toJson) =
        .ok requirement.seen := by
  cases requirement with
  | interaction url code =>
      cases hc
      exact ⟨_, AAuthChallenge.fromHeader_interaction hw.1 hw.2, rfl⟩
  | payment location => exact nomatch hc
  | approval =>
      cases hc
      exact ⟨_, AAuthChallenge.fromHeader_approval,
        deferRequirementFrom_body h hw hb rfl⟩
  | clarification question timeout =>
      cases hc
      exact ⟨_, AAuthChallenge.fromHeader_clarification,
        deferRequirementFrom_body h hw hb rfl⟩
  | claims requiredClaims =>
      cases hc
      exact ⟨_, AAuthChallenge.fromHeader_claims,
        deferRequirementFrom_body h hw hb rfl⟩

theorem parseDeferredResponse_ok {headers : HeaderMap} {body : Bytes}
    {location header : String} {ch : AAuthChallenge}
    {requirement : DeferRequirement} (origin : String)
    (hl : headerValue headers "location" = some location)
    (hh : headerValue headers "aauth-requirement" = some header)
    (hf : AAuthChallenge.fromHeader header = .ok ch)
    (hd : deferRequirementFrom cr ch body = .ok requirement) :
    parseDeferredResponse cr 202 headers body origin =
      .ok ⟨resolveDeferredLocation cr origin location, requirement⟩ := by
  have h0 : ¬ (202 : Nat) ≠ 202 := fun h => h rfl
  simp only [parseDeferredResponse, Except.failIf_of_not h0, hl, hh, hf, hd,
    Option.okOr, bind, Except.bind, pure, Except.pure]

theorem exchangeReply_accepted {tokenEndpoint origin : String}
    {r : HttpResponse} {parsed : ParsedDeferred} (hs : r.status = 202)
    (hp : parseDeferredResponse cr 202 (responseHeadersToHttp r.headers)
      r.body origin = .ok parsed) :
    exchangeReply cr tokenEndpoint origin r =
      .ok (.deferred parsed.requirement parsed.location) := by
  rw [exchangeReply, if_neg (by omega), if_pos hs, hs, hp]
  rfl

/-- The response to a deferral: its header values can be sent, and the
client reads the requirement out of it. -/
theorem deferCreated_reply (h : JsonLaws cr) (tokenEndpoint origin : String)
    {d : DeferCreated} {body : PendingBody} {ch : AAuthChallenge}
    {r : HttpResponse} (hw : d.requirement.WellFormed)
    (hb : PendingBody.forWaiting d.requirement .pending = .ok body)
    (hc : d.requirement.headerChallenge = .ok ch)
    (hr : Respond.deferCreated cr d = some r) :
    IsVisible d.location ∧ IsVisible ch.toHeader ∧
      ∃ location, exchangeReply cr tokenEndpoint origin r =
        .ok (.deferred d.requirement.seen location) := by
  rw [Respond.deferCreated, hb] at hr
  simp only [Respond.insertDeferCreatedHeaders, Option.bind_eq_bind,
    Option.bind_eq_some_iff, Option.pure_def, Option.some.injEq,
    Except.toOption_eq_some, headerValueFromStr_eq_ok] at hr
  obtain ⟨_, ⟨value, hv, headers, hh, rfl⟩, rfl⟩ := hr
  have hp := insertPollHeaders_spec (single_empty.insert _ _) hh
  have hchallenge := hp.challenge ch hc
  have hl : headerValue headers "location" = some value := by
    obtain ⟨-, rfl⟩ := toStr_eq_some.mp hv
    rw [headerValue, hp.location, get_insert_self, Option.bind_some, hv]
  obtain ⟨ch', hf, hd⟩ := requirement_seen h hw hb hc
  have hl' := headerValue_sent cr body.toJson hp.single (by decide) hl
  have hc' := headerValue_sent cr body.toJson hp.single (by decide)
    hchallenge
  have hparse := parseDeferredResponse_ok origin hl' hc' hf hd
  exact ⟨(toStr_eq_some.mp hv).1, headerValue_visible hchallenge,
    resolveDeferredLocation cr origin value, exchangeReply_accepted rfl hparse⟩

/-- The header has only visible characters when its parameters do. -/
theorem visible_interaction {url code : String} :
    IsVisible (AAuthChallenge.toHeader (.interaction url code)) ↔
      IsVisible url ∧ IsVisible code := by
  rw [IsVisible, AAuthChallenge.interaction_toList]
  simp [IsVisible, isVisibleAscii]

theorem seen_eq {url code : String} :
    DeferRequirement.seen (.interaction url code) = .interaction url code ↔
      ("code=".toList <:+ url.toList → code = "; code=") := by
  rw [DeferRequirement.seen, AAuthChallenge.codeRead]
  by_cases hs : "code=".toList <:+ url.toList
  · rw [if_pos hs]
    constructor
    · intro h _
      cases h
      rfl
    · intro h
      rw [h hs]
  · rw [if_neg hs]
    exact ⟨fun _ hs' => absurd hs' hs, fun _ => rfl⟩

/-- The values of the headers, when they can be sent. -/
theorem insertDeferCreatedHeaders_some {location : String}
    {requirement : DeferRequirement} {ch : AAuthChallenge}
    (hl : IsVisible location)
    (hc : requirement.headerChallenge = .ok ch)
    (hv : IsVisible ch.toHeader) :
    ∃ headers, Respond.insertDeferCreatedHeaders .empty location
      requirement = some headers := by
  have hs : headerValueFromStr location = .ok location :=
    headerValueFromStr_eq_ok.mpr (toStr_eq_some.mpr ⟨hl, rfl⟩)
  obtain ⟨headers, hh⟩ := insertPollHeaders_some
    (HeaderMap.empty.insert "location" location) hc hv
  refine ⟨headers.insert "content-type" "application/json", ?_⟩
  simp only [Respond.insertDeferCreatedHeaders, hs, Except.toOption,
    Option.bind_eq_bind, Option.bind_some, hh, Option.pure_def]

theorem defer_agrees (h : JsonLaws cr) (tokenEndpoint origin : String)
    (d : DeferCreated) (hw : d.requirement.WellFormed) :
    DeferAgrees cr tokenEndpoint origin d ↔ d.Carried := by
  obtain ⟨location, requirement⟩ := d
  cases hb : PendingBody.forWaiting requirement .pending with
  | error e =>
      -- a payment: the server answers with a status of its own
      have hr : Respond.flowOutcome cr (.deferred ⟨location, requirement⟩) =
          some (Respond.internalServiceError cr) := by
        rw [Respond.flowOutcome, Respond.deferCreated, hb]
      cases requirement with
      | payment url =>
          constructor
          · intro ha
            obtain ⟨r, hro, seen, hseen⟩ := ha
            rw [hr] at hro
            cases hro
            cases hseen
          · intro hc
            exact hc.2.elim
      | _ => exact nomatch hb
  | ok body =>
      obtain ⟨ch, hc⟩ : ∃ ch, requirement.headerChallenge = .ok ch := by
        cases requirement with
        | payment url => exact nomatch hb
        | _ => exact ⟨_, rfl⟩
      constructor
      · intro ha
        obtain ⟨r, hr, seen, hseen⟩ := ha
        obtain ⟨hl, hv, at', hat⟩ := deferCreated_reply h tokenEndpoint
          origin hw hb hc hr
        rw [hat] at hseen
        have hsame : requirement.seen = requirement := by
          injection hseen with hseen
          injection hseen
        refine ⟨hl, ?_⟩
        cases requirement with
        | interaction url code =>
            cases hc
            obtain ⟨hurl, hcode⟩ := visible_interaction.mp hv
            exact ⟨hurl, hcode, seen_eq.mp hsame⟩
        | payment url => exact nomatch hb
        | _ => trivial
      · intro hcarried
        obtain ⟨hl, hreq⟩ := hcarried
        have hboth : IsVisible ch.toHeader ∧
            requirement.seen = requirement := by
          cases requirement with
          | interaction url code =>
              cases hc
              exact ⟨visible_interaction.mpr ⟨hreq.1, hreq.2.1⟩,
                seen_eq.mpr hreq.2.2⟩
          | payment url => exact hreq.elim
          | clarification question timeout =>
              cases hc
              exact ⟨rfl, rfl⟩
          | claims requiredClaims =>
              cases hc
              exact ⟨rfl, rfl⟩
          | approval =>
              cases hc
              exact ⟨rfl, rfl⟩
        obtain ⟨headers, hh⟩ := insertDeferCreatedHeaders_some hl hc hboth.1
        have hr : Respond.flowOutcome cr
            (.deferred ⟨location, requirement⟩) =
            some (Respond.jsonWith cr 202 headers body.toJson) := by
          simp only [Respond.flowOutcome, Respond.deferCreated, hb, hh,
            Option.bind_eq_bind, Option.bind_some, Option.pure_def]
        obtain ⟨-, -, seen, hseen⟩ := deferCreated_reply h tokenEndpoint
          origin hw hb hc hr
        rw [hboth.2] at hseen
        exact ⟨_, hr, seen, hseen⟩

/-! ## Both endpoints -/

namespace Sample

def asUrl : String := "https://as.example"

def asTokenEndpoint : String := "https://as.example/access/aauth/token"

def protocolError (code : AAuthErrorCode) : AAuthProtocolError where
  error := code
  errorDescription := none
  errorUri := none

end Sample

end Aauth
