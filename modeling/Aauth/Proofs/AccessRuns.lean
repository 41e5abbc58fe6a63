import Aauth.Proofs.AccessDecisions
import Aauth.Proofs.Origin

/-!
# Runs of the Access Server

The counterpart of the Person Server's runs. A record of the Access Server
keeps the context it was opened with, so a decision on it, however late,
is a decision on the context of the exchange.
-/

namespace Aauth.Access

open Effect

section Runs

variable {E : Type} {config : AccessServerConfig}

/-- A call of the Access Server that was served on some occasion. -/
abbrev AccessTurn (E : Type) (config : AccessServerConfig) :=
  Served (service E config) (ServiceState AccessPendingContext)
    (Occasion accessExt)

abbrev AccessHistory (G : List (AccessTurn E config) →
      ServiceState AccessPendingContext → Occasion accessExt → Call → Prop)
    (hist : List (AccessTurn E config))
    (s : ServiceState AccessPendingContext) : Prop :=
  History occasionWorld (fun hist s m (c : Call) => G hist s m c)
    ⟨∅, []⟩ hist s

variable {hist : List (AccessTurn E config)} {ctx : AccessTokenContext}
  {id : String} {body : TokenResponseBody}
  {s s' : ServiceState AccessPendingContext} {m : Occasion accessExt}
  {c : Call} {Q : AccessTokenContext → TokenResponseBody → Prop}
  {G : List (AccessTurn E config) → ServiceState AccessPendingContext →
    Occasion accessExt → Call → Prop}

/-- The request under `id` was opened by this exchange. -/
def OpenedBy (hist : List (AccessTurn E config)) (ctx : AccessTokenContext)
    (id : String) : Prop :=
  ∃ e ∈ hist, e.call = .exchangeToken ctx ∧ id ∉ e.pre.issued ∧
    id ∈ e.post.issued

theorem OpenedBy.cons (h : OpenedBy hist ctx id) (e : AccessTurn E config) :
    OpenedBy (e :: hist) ctx id := by
  obtain ⟨d, hd, h⟩ := h
  exact ⟨d, List.mem_cons_of_mem _ hd, h⟩

/-- The exchange a call goes back to: itself, or the one that opened the
request it is about. -/
def GoesBackTo (earlier : List (AccessTurn E config)) (c : Call)
    (ctx : AccessTokenContext) : Prop :=
  c = .exchangeToken ctx ∨
    ∃ id, (exchanges E config).target c = some id ∧
      OpenedBy earlier ctx id

/-! ## Where a record comes from -/

/-- The call, answered with the reply, wrote `r'` over the record `r`. -/
def Wrote (config : AccessServerConfig)
    (env : (o : AccessOp) → accessExt.Ans o → Prop) (id : String)
    (r : AccessPendingRecord) :
    (c : Call) → (service E config).Reply c → AccessPendingRecord → Prop
  | .resumePending id' input, reply, r' => id' = id ∧
      Resumed config env id input r reply (.write r')
  | .exchangeToken _, _, _ | .pollPending _, _, _ => False

/-- Where a record comes from that is found after a call. -/
inductive Found (e : AccessTurn E config) (id : String) :
    AccessPendingRecord → Prop where
  | kept {r : AccessPendingRecord} : e.pre.records.lookup id = some r →
      Found e id r
  | wrote {r r' : AccessPendingRecord} :
      e.pre.records.lookup id = some r →
      r.isExpired e.moment.time = false →
      Wrote config e.moment.env id r e.call e.reply r' → Found e id r'
  | opened {ctx : AccessTokenContext} {requirement : DeferRequirement} :
      e.call = .exchangeToken ctx → id ∉ e.pre.issued →
      id ∈ e.post.issued →
      Found e id (.new e.moment.time id (toPending ctx)
        (.ofRequirement requirement) config.pendingTtlSecs)

theorem AccessServes.found {reply : (service E config).Reply c}
    (h : AccessServes config m.env m.time s c reply s') {id : String}
    {r : AccessPendingRecord} (hr : s'.records.lookup id = some r) :
    Found ⟨s, m, c, reply, s'⟩ id r := by
  cases c with
  | exchangeToken ctx =>
      cases h with
      | failed => exact .kept hr
      | decided _ _ hc =>
          cases hc with
          | failure | token | denial => exact .kept hr
          | @deferral requirement id' hid =>
              by_cases he : id = id'
              · subst he
                rw [AList.lookup_insert] at hr
                cases hr
                exact .opened rfl hid List.mem_cons_self
              · rw [AList.lookup_insert_ne he] at hr
                exact .kept hr
  | pollPending id' =>
      obtain ⟨ch, h, rfl⟩ := h
      rcases Change.found hr with hr | ⟨rfl, rfl⟩
      · exact .kept hr
      · obtain ⟨r, -, -, -, hch⟩ := h.wrote
        cases hch
  | resumePending id' input =>
      obtain ⟨ch, h, rfl⟩ := h
      rcases Change.found hr with hr | ⟨rfl, rfl⟩
      · exact .kept hr
      · obtain ⟨r, hl, hx, h⟩ := h.wrote
        exact .wrote hl hx ⟨rfl, h⟩

/-- Identifiers that were drawn stay drawn. -/
theorem AccessServes.issued {reply : (service E config).Reply c}
    (h : AccessServes config m.env m.time s c reply s') {id : String}
    (hid : id ∈ s.issued) : id ∈ s'.issued := by
  cases c with
  | exchangeToken ctx =>
      cases h with
      | failed => exact hid
      | decided _ _ hc =>
          cases hc with
          | failure | token | denial => exact hid
          | deferral _ => exact List.mem_cons_of_mem _ hid
  | pollPending _ | resumePending _ _ =>
      obtain ⟨ch, -, rfl⟩ := h
      exact hid

/-! ## The run rule -/

/-- Every record has a drawn identifier, keeps the context of the exchange
that opened it, and has `P`. -/
structure Tracked (P : AccessTokenContext → AccessPendingRecord → Prop)
    (hist : List (AccessTurn E config))
    (s : ServiceState AccessPendingContext) : Prop where
  drawn : ∀ id r, s.records.lookup id = some r → id ∈ s.issued
  opened : ∀ id r, s.records.lookup id = some r → ∃ ctx,
    OpenedBy hist ctx id ∧ r.context = toPending ctx ∧ P ctx r

theorem Wrote.context {env : (o : AccessOp) → accessExt.Ans o → Prop}
    {reply : (service E config).Reply c} {r r' : AccessPendingRecord}
    (h : Wrote config env id r c reply r') : r'.context = r.context := by
  cases c with
  | exchangeToken _ | pollPending _ => exact h.elim
  | resumePending id' input =>
      obtain ⟨-, h⟩ := h
      cases h with
      | decided _ h =>
          obtain ⟨ruling, -, -, hch⟩ := h
          cases ruling with
          | failure _ => cases hch
          | token _ | denial _ | deferral _ =>
              cases hch
              rfl

/-- What the opening of a record and every write preserve holds of every
record of a run. -/
theorem AccessHistory.tracked
    {P : AccessTokenContext → AccessPendingRecord → Prop}
    (opened : ∀ {t id ctx req}, P ctx
      (.new t id (toPending ctx) (.ofRequirement req) config.pendingTtlSecs))
    (wrote : ∀ {h} {e : AccessTurn E config} {ctx id r r'},
      G h e.pre e.moment e.call → r.context = toPending ctx → P ctx r →
      e.pre.records.lookup id = some r →
      r.isExpired e.moment.time = false →
      Wrote config e.moment.env id r e.call e.reply r' → P ctx r')
    (run : AccessHistory G hist s) : Tracked P hist s := by
  refine run.induction (I := fun hist s => Tracked P hist s) ⟨?_, ?_⟩ ?_
  · intro id r hr
    rw [AList.lookup_empty] at hr
    cases hr
  · intro id r hr
    rw [AList.lookup_empty] at hr
    cases hr
  · intro h s m c reply s' ih hg hx
    have hs := accessServes_of_exec hx
    refine ⟨fun id r hr => ?_, fun id r hr => ?_⟩
    · cases hs.found hr with
      | kept hl => exact hs.issued (ih.drawn id _ hl)
      | wrote hl _ _ => exact hs.issued (ih.drawn id _ hl)
      | opened _ _ hid => exact hid
    · cases hs.found hr with
      | kept hl =>
          obtain ⟨ctx, ho, hp⟩ := ih.opened id _ hl
          exact ⟨ctx, ho.cons _, hp⟩
      | wrote hl hx hw =>
          obtain ⟨ctx, ho, hc, hp⟩ := ih.opened id _ hl
          have hw : Wrote config m.env id _ c reply r := hw
          refine ⟨ctx, ho.cons _, hw.context.trans hc, ?_⟩
          exact wrote (e := ⟨s, m, c, reply, s'⟩) hg hc hp hl hx hw
      | opened hcall hnew hid =>
          exact ⟨_, ⟨_, List.mem_cons_self, hcall, hnew, hid⟩, rfl, opened⟩

/-! ## Tokens -/

/-- Every token the call may end with has `Q`, for the context it is
decided on. -/
def Secures (config : AccessServerConfig)
    (Q : AccessTokenContext → TokenResponseBody → Prop)
    (s : ServiceState AccessPendingContext) (m : Occasion accessExt)
    (c : Call) : Prop :=
  ∀ ctx d body, Decided m.env m.time s.records c ctx d →
    Ruled config m.env ctx d (.token body) → Q ctx body

/-- The token a record keeps has `Q`. -/
def Secured (Q : AccessTokenContext → TokenResponseBody → Prop)
    (ctx : AccessTokenContext) (r : AccessPendingRecord) : Prop :=
  ∀ body, r.snapshot = .complete (.authToken body) → Q ctx body

/-- A decision on a record is on the context it was opened with. -/
theorem Resumed.secured {r : AccessPendingRecord} {input : PendingInput}
    {reply : FlowReply E} {ch : AccessChange}
    (hsec : Secures config Q s m (.resumePending id input))
    (hc : r.context = toPending ctx) (hl : s.records.lookup id = some r)
    (hx : r.isExpired m.time = false)
    (h : Resumed config m.env id input r reply ch) :
    (∀ body, reply = .ok (.granted body) → Q ctx body) ∧
      ∀ r', ch = .write r' → Secured Q ctx r' := by
  cases h with
  | failed => exact ⟨fun _ h => (nomatch h), fun _ h => nomatch h⟩
  | decided hd h =>
      obtain ⟨ruling, hr, rfl, rfl⟩ := h
      have hq := fun body => hsec _ _ body (.resumed hl hx hd)
      rw [hc] at hq hr
      cases ruling with
      | failure _ => exact ⟨fun _ h => (nomatch h), fun _ h => nomatch h⟩
      | token body =>
          refine ⟨fun body' hb => ?_, fun r' hr' body' hs => ?_⟩
          · cases hb
            exact hq _ hr
          · cases hr'
            cases hs
            exact hq _ hr
      | denial _ | deferral _ =>
          refine ⟨fun _ h => (nomatch h), fun r' hr' body' hs => ?_⟩
          cases hr'
          cases hs

theorem Wrote.secured {reply : (service E config).Reply c}
    {r r' : AccessPendingRecord} (hsec : Secures config Q s m c)
    (hc : r.context = toPending ctx) (hl : s.records.lookup id = some r)
    (hx : r.isExpired m.time = false)
    (h : Wrote config m.env id r c reply r') : Secured Q ctx r' := by
  cases c with
  | exchangeToken _ | pollPending _ => exact h.elim
  | resumePending id' input =>
      obtain ⟨rfl, h⟩ := h
      exact (h.secured hsec hc hl hx).2 _ rfl

theorem AccessHistory.secured
    (hG : ∀ hist s m c, G hist s m c → Secures config Q s m c)
    (run : AccessHistory G hist s) : Tracked (Secured Q) hist s :=
  run.tracked (fun _ h => nomatch h)
    (fun hg hc _ hl hx h => h.secured (hG _ _ _ _ hg) hc hl hx)

theorem Tracked.mono {P P' : AccessTokenContext → AccessPendingRecord → Prop}
    (h : Tracked P hist s) (hP : ∀ {ctx r}, P ctx r → P' ctx r) :
    Tracked P' hist s := by
  refine ⟨h.drawn, fun id r hl => ?_⟩
  obtain ⟨ctx, ho, hc, hp⟩ := h.opened id r hl
  exact ⟨ctx, ho, hc, hP hp⟩

/-- The call ended with a token, and did not just read a stored one. -/
def Granted (body : TokenResponseBody) :
    (c : Call) → (service E config).Reply c → Prop
  | .exchangeToken _, reply | .resumePending _ _, reply =>
      reply = .ok (.granted body)
  | .pollPending _, _ => False

/-- A token that a call ends with has `Q` for the exchange the call goes
back to. -/
theorem AccessServes.yields {reply : (service E config).Reply c}
    (hsec : Secures config Q s m c)
    (hs : Tracked (fun _ _ => True) hist s)
    (h : AccessServes config m.env m.time s c reply s')
    (hg : Granted body c reply) :
    ∃ ctx, GoesBackTo hist c ctx ∧ Q ctx body := by
  cases c with
  | exchangeToken ctx =>
      refine ⟨ctx, .inl rfl, ?_⟩
      cases (hg : reply = _)
      cases h with
      | decided hd hr hc =>
          cases hc with
          | token => exact hsec _ _ _ (.exchanged hd) hr
  | pollPending _ => exact hg.elim
  | resumePending id input =>
      obtain ⟨ch, h, -⟩ := h
      cases (hg : reply = _)
      obtain ⟨r, hl, hx, h⟩ := h.granted nofun
      obtain ⟨ctx, ho, hc, -⟩ := hs.opened id r hl
      exact ⟨ctx, .inr ⟨id, rfl, ho⟩, (h.secured hsec hc hl hx).1 _ rfl⟩

/-- A token that is handed out has `Q` for the exchange it goes back to. -/
theorem AccessServes.secured {reply : (service E config).Reply c}
    (hsec : Secures config Q s m c) (hs : Tracked (Secured Q) hist s)
    (h : AccessServes config m.env m.time s c reply s')
    (hg : (exchanges E config).Grants body c reply) :
    ∃ ctx, GoesBackTo hist c ctx ∧ Q ctx body := by
  cases c with
  | exchangeToken _ | resumePending _ _ =>
      exact h.yields hsec (hs.mono fun _ => trivial) hg
  | pollPending id =>
      obtain ⟨ch, h, -⟩ := h
      cases (hg : reply = _)
      obtain ⟨r, hl, -, hr, -⟩ := h.granted nofun
      obtain ⟨ctx, ho, -, hp⟩ := hs.opened id r hl
      have hs := pollOutcomeFromSnapshot_eq_complete.mp (Except.ok.inj hr).symm
      exact ⟨ctx, .inr ⟨id, rfl, ho⟩, hp body hs⟩

/-- Every token of the run has `Q` for the exchange it goes back to: the
ones handed out and the ones still stored. -/
structure TokensHave (Q : AccessTokenContext → TokenResponseBody → Prop)
    (hist : List (AccessTurn E config))
    (s : ServiceState AccessPendingContext) : Prop where
  granted : ∀ later e earlier, hist = later ++ e :: earlier → ∀ body,
    (exchanges E config).Grants body e.call e.reply →
      ∃ ctx, GoesBackTo earlier e.call ctx ∧ Q ctx body
  stored : ∀ id r body, s.records.lookup id = some r →
    r.snapshot = .complete (.authToken body) →
      ∃ ctx, OpenedBy hist ctx id ∧ Q ctx body

/-- The run rule for tokens. -/
theorem AccessHistory.tokens
    (hG : ∀ hist s m c, G hist s m c → Secures config Q s m c)
    (run : AccessHistory G hist s) : TokensHave Q hist s where
  granted later e earlier he body hg := by
    subst he
    obtain ⟨-, hrun, hguard, hx⟩ := run.split.front
    exact (accessServes_of_exec hx).secured (hG _ _ _ _ hguard)
      (AccessHistory.secured hG hrun) hg
  stored id r body hl hs := by
    obtain ⟨ctx, ho, -, hp⟩ := (run.secured hG).opened id r hl
    exact ⟨ctx, ho, hp body hs⟩

end Runs

end Aauth.Access
