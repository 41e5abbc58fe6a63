import Aauth.Proofs.Provenance

/-!
# What every token of a run has

A token the Person Server hands out is minted on a grant, or taken from an
Access Server at an exchange, a POST or a poll; after that it is only
stored and read back. So what holds of the tokens each call may end with
holds of every token of a run, of the stored ones and the polled ones too.
-/

namespace Aauth

open Effect

section Tokens

variable {E : Type} {cr : Crates} {config : PersonServerConfig}
  {Q : PersonTokenContext → TokenResponseBody → Prop}
  {G : List (PersonTurn E cr config) → ServiceState PersonPendingContext →
    Occasion personExt → PersonCall → Prop}
  {hist : List (PersonTurn E cr config)} {ctx : PersonTokenContext}
  {agentJwt id : String} {body : TokenResponseBody}
  {s : ServiceState PersonPendingContext} {m : Occasion personExt}
  {c : PersonCall}

/-- Every token the call may end with has `Q`, for the context it is
decided on or the one its record carries. -/
structure Secures (cr : Crates) (config : PersonServerConfig)
    (Q : PersonTokenContext → TokenResponseBody → Prop)
    (s : ServiceState PersonPendingContext) (m : Occasion personExt)
    (c : PersonCall) : Prop where
  ruled : ∀ ctx agentJwt d body,
    Decided m.env m.time s.records c ctx agentJwt d →
    Ruled cr config m.env ctx agentJwt d (.token body) → Q ctx body
  posted : ∀ id input r fed body, c = .resumePending id input →
    s.records.lookup id = some r → r.isExpired m.time = false →
    r.context.federation = some fed →
    Answered config m.env fed input (.authToken body) →
    Accepted cr config m.env r.context.agentToken fed.accessServerUrl body →
    Q r.context.toTokenContext body

/-- `Q` says nothing of the interaction the resource asked for. -/
def Interactionless (Q : PersonTokenContext → TokenResponseBody → Prop) :
    Prop :=
  ∀ ctx interaction body,
    Q { ctx with resourceClaims.interaction := interaction } body →
      Q ctx body

theorem Interactionless.carried {r : PersonPendingRecord}
    (hQ : Interactionless Q) (hc : Carries ctx agentJwt r)
    (h : Q r.context.toTokenContext body) : Q ctx body := by
  obtain ⟨interaction, hctx⟩ := hc.context
  rw [hctx] at h
  exact hQ ctx interaction body h

theorem Interactionless.decided {r : PersonPendingRecord}
    {interaction : Option ResourceInteractionClaim}
    (hQ : Interactionless Q) (hc : Carries ctx agentJwt r)
    (h : Q { r.context.toTokenContext with
      resourceClaims.interaction := interaction } body) : Q ctx body :=
  hQ.carried hc (hQ _ interaction body h)

/-- What is known of a record: the context it was opened with, and what its
token has. -/
structure Secured (Q : PersonTokenContext → TokenResponseBody → Prop)
    (ctx : PersonTokenContext) (agentJwt : String)
    (r : PersonPendingRecord) : Prop where
  carries : Carries ctx agentJwt r
  token : ∀ body, r.snapshot = .complete (.authToken body) → Q ctx body

/-! ## One call -/

/-- A token in the reply, or in what is written, has `Q`. -/
structure Yields (Q : PersonTokenContext → TokenResponseBody → Prop)
    (ctx : PersonTokenContext) (reply : FlowReply E) (ch : PersonChange) :
    Prop where
  granted : ∀ body, reply = .ok (.granted body) → Q ctx body
  written : ∀ r' body, ch = .write r' →
    r'.snapshot = .complete (.authToken body) → Q ctx body

/-- A call that ends without a token. -/
theorem Yields.kept {reply : FlowReply E}
    (hr : ∀ body, reply ≠ .ok (.granted body)) : Yields Q ctx reply .keep :=
  ⟨fun body h => absurd h (hr body), fun _ _ h => nomatch h⟩

theorem Yields.erased {reply : FlowReply E}
    (hr : ∀ body, reply ≠ .ok (.granted body)) : Yields Q ctx reply .erase :=
  ⟨fun body h => absurd h (hr body), fun _ _ h => nomatch h⟩

theorem Yields.other {reply : FlowReply E} {r : PersonPendingRecord}
    (hr : ∀ body, reply ≠ .ok (.granted body))
    (hs : ∀ body, r.snapshot ≠ .complete (.authToken body)) :
    Yields Q ctx reply (.write r) := by
  refine ⟨fun body h => absurd h (hr body), fun r' body h h' => ?_⟩
  cases h
  exact absurd h' (hs body)

theorem Yields.token {r : PersonPendingRecord} (h : Q ctx body) :
    Yields (E := E) Q ctx (.ok (.granted body))
      (.write { r with snapshot := .complete (.authToken body) }) := by
  refine ⟨fun body' hb => ?_, fun r' body' hr hs => ?_⟩
  · cases hb
    exact h
  · cases hr
    cases hs
    exact h

/-- The token of a ruling on a record, in the reply and in what is
written. -/
theorem RuledOn.secured {r : PersonPendingRecord} {d : PersonTokenDecision}
    {dctx : PersonTokenContext} {reply : FlowReply E} {ch : PersonChange}
    (hq : ∀ body, Ruled cr config m.env dctx agentJwt d (.token body) →
      Q ctx body)
    (h : RuledOn cr config m.env id r dctx agentJwt d reply ch) :
    Yields Q ctx reply ch := by
  obtain ⟨ruling, hr, rfl, rfl⟩ := h
  cases ruling with
  | failure _ | unauthorized => exact .kept fun _ h => nomatch h
  | token body => exact .token (hq _ hr)
  | denial _ =>
      exact .other (fun _ h => nomatch h) (fun _ h => nomatch h)
  | deferral requirement fed =>
      cases fed with
      | none | some _ =>
          exact .other (fun _ h => nomatch h) (fun _ h => nomatch h)

theorem Posted.secured {r : PersonPendingRecord} {input : PendingInput}
    {fed : FederationPendingState} {reply : FlowReply E} {ch : PersonChange}
    (hq : ∀ body, Answered config m.env fed input (.authToken body) →
      Accepted cr config m.env r.context.agentToken fed.accessServerUrl
        body → Q ctx body)
    (h : Posted cr config m.env id r fed input reply ch) :
    Yields Q ctx reply ch := by
  cases h with
  | badGateway | unauthorized => exact .kept fun _ h => nomatch h
  | dropped _ => exact .erased fun _ h => nomatch h
  | cancelled _ | moved _ | denied _ =>
      exact .other (fun _ h => nomatch h) (fun _ h => nomatch h)
  | accepted hb ha => exact .token (hq _ hb ha)

/-- An input to a live record whose tokens are secured. -/
theorem Resumed.secured {r : PersonPendingRecord} {input : PendingInput}
    {reply : FlowReply E} {ch : PersonChange} (hQ : Interactionless Q)
    (hsec : Secures cr config Q s m (.resumePending id input))
    (hc : Carries ctx agentJwt r) (hl : s.records.lookup id = some r)
    (hx : r.isExpired m.time = false)
    (h : Resumed cr config m.env id input r reply ch) :
    Yields Q ctx reply ch := by
  cases h with
  | failed _ => exact .kept fun _ h => nomatch h
  | decided hf hd h =>
      refine h.secured fun body hr => ?_
      exact hQ.carried hc
        (hsec.ruled _ _ _ _ (.resumed hl hx hf hd) hr)
  | posted hf h =>
      refine h.secured fun body hb ha => ?_
      exact hQ.carried hc (hsec.posted _ _ _ _ _ rfl hl hx hf hb ha)

theorem Returned.secured {r : PersonPendingRecord} {err : Option String}
    {reply : FlowReply E} {ch : PersonChange} (hQ : Interactionless Q)
    (hsec : Secures cr config Q s m (.resolveInteractionCallback id err))
    (hc : Carries ctx agentJwt r) (hl : s.records.lookup id = some r)
    (hx : r.isExpired m.time = false)
    (h : Returned cr config m.env id r err reply ch) :
    Yields Q ctx reply ch := by
  cases h with
  | federated _ | failed _ => exact .kept fun _ h => nomatch h
  | error => exact .other (fun _ h => nomatch h) (fun _ h => nomatch h)
  | decided hf hd h =>
      refine h.secured fun body hr => ?_
      exact hQ.decided hc
        (hsec.ruled _ _ _ _ (.calledBack hl hx hf hd) hr)

/-! ## Records -/

theorem Secured.consumed {r : PersonPendingRecord}
    (h : Secured Q ctx agentJwt r) : Secured Q ctx agentJwt r.consumed := by
  refine ⟨h.carries.update rfl rfl fun h => h, fun body hs => ?_⟩
  cases hr : r.snapshot with
  | waiting _ _ => simp [PersonPendingRecord.consumed, hr] at hs
  | complete _ =>
      exact h.token body
        (by simpa [PersonPendingRecord.consumed, hr] using hs)

theorem Wrote.secured {r r' : PersonPendingRecord}
    {reply : (personService E cr config).Reply c} (hQ : Interactionless Q)
    (hsec : Secures cr config Q s m c) (hp : Secured Q ctx agentJwt r)
    (hl : s.records.lookup id = some r) (hx : r.isExpired m.time = false)
    (h : Wrote cr config m.env id r c reply r') :
    Secured Q ctx agentJwt r' := by
  have hc : Carries ctx agentJwt r' := h.carries hp.carries
  cases c with
  | exchangeToken _ _ | pollPending _ => exact h.elim
  | resumePending id' input =>
      obtain ⟨rfl, h⟩ := h
      have hy := h.secured hQ hsec hp.carries hl hx
      exact ⟨hc, fun body hs => hy.written _ body rfl hs⟩
  | beginInteraction code =>
      obtain ⟨rfl, -⟩ := h
      exact hp.consumed
  | resolveInteractionCallback id' err =>
      obtain ⟨rfl, h⟩ := h
      have hy := h.secured hQ hsec hp.carries hl hx
      exact ⟨hc, fun body hs => hy.written _ body rfl hs⟩

theorem PersonHistory.secured (hQ : Interactionless Q)
    (hG : ∀ hist s m c, G hist s m c → Secures cr config Q s m c)
    (run : PersonHistory G hist s) :
    Tracked (fun _ ctx agentJwt _ => Secured Q ctx agentJwt) hist s :=
  run.tracked (fun _ h => h) (fun _ _ h => ⟨h.carries, nofun⟩)
    (fun hg _ hp hl hx h => h.secured hQ (hG _ _ _ _ hg) hp hl hx)

/-! ## Tokens -/

/-- A token that a call ends with has `Q` for the exchange the call goes
back to. -/
theorem PersonServes.yields
    {reply : (personService E cr config).Reply c}
    {s' : ServiceState PersonPendingContext} (hQ : Interactionless Q)
    (hsec : Secures cr config Q s m c)
    (hs : Tracked (fun _ ctx agentJwt _ => Carries ctx agentJwt) hist s)
    (h : PersonServes cr config m.env m.time s c reply s')
    (hg : Granted body c reply) :
    ∃ ctx agentJwt, GoesBackTo hist c ctx agentJwt ∧ Q ctx body := by
  cases c with
  | exchangeToken ctx agentJwt =>
      refine ⟨ctx, agentJwt, .inl rfl, ?_⟩
      cases (hg : reply = _)
      cases h with
      | decided hi hd hr hc =>
          cases hc with
          | token => exact hsec.ruled _ _ _ _ (.exchanged hi hd) hr
  | pollPending _ | beginInteraction _ => exact hg.elim
  | resumePending id input =>
      obtain ⟨ch, h, -⟩ := h
      cases (hg : reply = _)
      obtain ⟨r, hl, hx, h⟩ := h.granted nofun
      obtain ⟨ctx, agentJwt, ho, hc⟩ := hs.opened id r hl
      exact ⟨ctx, agentJwt, .inr ⟨id, rfl, ho⟩,
        (h.secured hQ hsec hc hl hx).granted _ rfl⟩
  | resolveInteractionCallback id err =>
      obtain ⟨ch, h, -⟩ := h
      cases (hg : reply = _)
      obtain ⟨r, hl, hx, h⟩ := h.granted nofun
      obtain ⟨ctx, agentJwt, ho, hc⟩ := hs.opened id r hl
      exact ⟨ctx, agentJwt, .inr ⟨id, rfl, ho⟩,
        (h.secured hQ hsec hc hl hx).granted _ rfl⟩

/-- A token that is handed out has `Q` for the exchange it goes back to. -/
theorem PersonServes.secured
    {reply : (personService E cr config).Reply c}
    {s' : ServiceState PersonPendingContext} (hQ : Interactionless Q)
    (hsec : Secures cr config Q s m c)
    (hs : Tracked (fun _ ctx agentJwt _ => Secured Q ctx agentJwt) hist s)
    (h : PersonServes cr config m.env m.time s c reply s')
    (hg : (personExchanges E cr config).Grants body c reply) :
    ∃ ctx agentJwt, GoesBackTo hist c ctx agentJwt ∧ Q ctx body := by
  have hc : Tracked (fun _ ctx agentJwt _ => Carries ctx agentJwt) hist s :=
    hs.mono fun h => h.carries
  cases c with
  | exchangeToken _ _ | resumePending _ _ | resolveInteractionCallback _ _ =>
      exact h.yields hQ hsec hc hg
  | beginInteraction _ => exact hg.elim
  | pollPending id =>
      obtain ⟨ch, h, -⟩ := h
      cases (hg : reply = _)
      obtain ⟨r, hl, -, hr, -⟩ := h.granted nofun
      obtain ⟨ctx, agentJwt, ho, hp⟩ := hs.opened id r hl
      have hs := pollOutcomeFromSnapshot_eq_complete.mp (Except.ok.inj hr).symm
      exact ⟨ctx, agentJwt, .inr ⟨id, rfl, ho⟩, hp.token body hs⟩

/-- Every token of the run has `Q` for the exchange it goes back to: the
ones handed out and the ones still stored. -/
structure TokensHave
    (Q : PersonTokenContext → TokenResponseBody → Prop)
    (hist : List (PersonTurn E cr config))
    (s : ServiceState PersonPendingContext) : Prop where
  granted : ∀ later e earlier, hist = later ++ e :: earlier → ∀ body,
    (personExchanges E cr config).Grants body e.call e.reply →
      ∃ ctx agentJwt, GoesBackTo earlier e.call ctx agentJwt ∧ Q ctx body
  stored : ∀ id r body, s.records.lookup id = some r →
    r.snapshot = .complete (.authToken body) →
      ∃ ctx agentJwt, OpenedBy hist ctx agentJwt id ∧ Q ctx body

/-- The run rule for tokens. -/
theorem PersonHistory.tokens (hQ : Interactionless Q)
    (hG : ∀ hist s m c, G hist s m c → Secures cr config Q s m c)
    (run : PersonHistory G hist s) : TokensHave Q hist s where
  granted later e earlier he body hg := by
    subst he
    obtain ⟨-, hrun, hguard, hx⟩ := run.split.front
    exact (personServes_of_exec hx).secured hQ (hG _ _ _ _ hguard)
      (PersonHistory.secured hQ hG hrun) hg
  stored id r body hl hs := by
    obtain ⟨ctx, agentJwt, ho, hp⟩ := (run.secured hQ hG).opened id r hl
    exact ⟨ctx, agentJwt, ho, hp.token body hs⟩

end Tokens

end Aauth
