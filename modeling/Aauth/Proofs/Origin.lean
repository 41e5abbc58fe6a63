import Aauth.Lib.Service
import Aauth.Proofs.Store
import Aauth.Ref.AccessServer
import Aauth.Ref.PersonService

/-!
# Which exchange a request goes back to

A pending request is opened by the exchange that draws its identifier.
Identifiers are drawn once, so every later call about the request, and
every token such a call hands out, goes back to that exchange and the
context it was made with.
-/

namespace Aauth

open Effect

/-- How the calls of a service speak of exchanges: which context a call
exchanges, which request it is about, and which token it hands out. -/
structure Exchanges {S : Sig} (V : Service S) (Ctx : Type) where
  context : V.Call → Option Ctx
  target : V.Call → Option String
  Grants : TokenResponseBody → (c : V.Call) → V.Reply c → Prop

namespace Exchanges

variable {E C Ctx : Type} {X : Sig} {V : Service (serviceSig E C X)}
  {R : Exchanges V Ctx}
  {hist : List (Served V (ServiceState C) Nat)} {id : String} {ctx : Ctx}

/-- The request under `id` was opened by an exchange of `ctx`. -/
def Opened (R : Exchanges V Ctx)
    (hist : List (Served V (ServiceState C) Nat)) (id : String)
    (ctx : Ctx) : Prop :=
  ∃ e ∈ hist, R.context e.call = some ctx ∧ id ∉ e.pre.issued ∧
    id ∈ e.post.issued

/-- The exchange a call goes back to: itself, or the one that opened the
request it is about. -/
def Origin (R : Exchanges V Ctx)
    (hist : List (Served V (ServiceState C) Nat)) (ctx : Ctx)
    (c : V.Call) : Prop :=
  R.context c = some ctx ∨
    ∃ id, R.target c = some id ∧ R.Opened hist id ctx

theorem Opened.cons (h : R.Opened hist id ctx)
    (e : Served V (ServiceState C) Nat) : R.Opened (e :: hist) id ctx := by
  obtain ⟨d, hd, h⟩ := h
  exact ⟨d, List.mem_cons_of_mem _ hd, h⟩

theorem Origin.cons {c : V.Call} (h : R.Origin hist ctx c)
    (e : Served V (ServiceState C) Nat) : R.Origin (e :: hist) ctx c := by
  rcases h with h | ⟨id, ht, ho⟩
  · exact .inl h
  · exact .inr ⟨id, ht, ho.cons e⟩

/-- The context of an origin was exchanged in the history, or by the call
itself. -/
theorem Origin.exchanged {e : Served V (ServiceState C) Nat}
    (he : e ∈ hist) (h : R.Origin hist ctx e.call) :
    ∃ d ∈ hist, R.context d.call = some ctx := by
  rcases h with h | ⟨id, -, d, hd, hc, -⟩
  · exact ⟨e, he, h⟩
  · exact ⟨d, hd, hc⟩

/-! ## Tokens that are handed out -/

/-- What is known of a record when every token handed out has `Q`: an
exchange opened it, and a token it keeps has `Q`. -/
structure RecordOk (R : Exchanges V Ctx) (Q : TokenResponseBody → Prop)
    (hist : List (Served V (ServiceState C) Nat)) (id : String)
    (r : PendingRecord C) : Prop where
  opened : ∃ ctx, R.Opened hist id ctx
  token : ∀ body, r.snapshot = .complete (.authToken body) → Q body

/-- What is known of a token a call hands out. -/
structure GrantOk (R : Exchanges V Ctx) (Q : TokenResponseBody → Prop)
    (hist : List (Served V (ServiceState C) Nat)) (c : V.Call)
    (body : TokenResponseBody) : Prop where
  token : Q body
  origin : ∃ ctx, R.Origin hist ctx c

variable {Q : TokenResponseBody → Prop}

theorem RecordOk.cons {r : PendingRecord C} (h : R.RecordOk Q hist id r)
    (e : Served V (ServiceState C) Nat) : R.RecordOk Q (e :: hist) id r := by
  obtain ⟨ctx, ho⟩ := h.opened
  exact ⟨⟨ctx, ho.cons e⟩, h.token⟩

/-- The same record with another context or snapshot. -/
theorem RecordOk.update {r r' : PendingRecord C} (h : R.RecordOk Q hist id r)
    (hq : ∀ body, r'.snapshot = .complete (.authToken body) → Q body) :
    R.RecordOk Q hist id r' := ⟨h.opened, hq⟩

/-- A call that settles a live record hands out what the record goes back
to. -/
theorem settled_ok {α : Type} {gone reply : α} {t : Nat}
    {m m' : PendingMap C} {K : PendingRecord C → α → PendingMap C → Prop}
    (granted : TokenResponseBody → α) (hgone : ∀ body, granted body ≠ gone)
    (hK : ∀ {r}, R.RecordOk Q hist id r → K r reply m' →
      Every (R.RecordOk Q hist) m' ∧ ∀ body, reply = granted body → Q body)
    (hm : Every (R.RecordOk Q hist) m)
    (h : OnLive gone t id m K reply m') :
    Every (R.RecordOk Q hist) m' ∧ ∀ body, reply = granted body →
      Q body ∧ ∃ ctx, R.Opened hist id ctx := by
  cases h with
  | absent _ => exact ⟨hm, fun body h => absurd h.symm (hgone body)⟩
  | expired _ _ =>
      exact ⟨hm.erase, fun body h => absurd h.symm (hgone body)⟩
  | live hl _ h =>
      have hr := hm _ _ hl
      obtain ⟨hm', hq⟩ := hK hr h
      exact ⟨hm', fun body hb => ⟨hq body hb, hr.opened⟩⟩

/-- A poll hands out what the record keeps. -/
theorem polled_ok {ε : Type} {t : Nat} {m m' : PendingMap C}
    {reply : Except ε AuthTokenPollOutcome}
    (hm : Every (R.RecordOk Q hist) m) (h : Polled ε t id m reply m') :
    Every (R.RecordOk Q hist) m' ∧ ∀ body,
      reply = .ok (.complete (.authToken body)) →
        Q body ∧ ∃ ctx, R.Opened hist id ctx := by
  cases h with
  | absent _ => exact ⟨hm, nofun⟩
  | expired _ _ => exact ⟨hm.erase, nofun⟩
  | live hl _ h =>
      have hr := hm _ _ hl
      obtain ⟨rfl, rfl⟩ := h
      refine ⟨hm, fun body hb => ⟨hr.token body ?_, hr.opened⟩⟩
      rw [Except.ok.injEq, pollOutcomeFromSnapshot_eq_complete] at hb
      exact hb

/-! ## Runs -/

theorem GrantOk.cons {c : V.Call} {body : TokenResponseBody}
    (h : R.GrantOk Q hist c body) (e : Served V (ServiceState C) Nat) :
    R.GrantOk Q (e :: hist) c body := by
  obtain ⟨ctx, ho⟩ := h.origin
  exact ⟨h.token, ctx, ho.cons e⟩

variable {W : Nat → World (serviceSig E C X) (ServiceState C)}
  {G : List (Served V (ServiceState C) Nat) → ServiceState C → Nat →
    V.Call → Prop}

/-- The run lemma for tokens: when every call that is served hands out
tokens with `Q` only, so does every call of a history. -/
theorem grants_ok
    (step : ∀ {h s t} {c : V.Call} {reply : V.Reply c} {s'},
      Exec (W t) s (V.prog c) reply s' →
      Every (R.RecordOk Q h) s.records →
      Every (R.RecordOk Q (⟨s, t, c, reply, s'⟩ :: h)) s'.records ∧
        ∀ body, R.Grants body c reply →
          R.GrantOk Q (⟨s, t, c, reply, s'⟩ :: h) c body)
    {s : ServiceState C} (run : History W G ⟨∅, []⟩ hist s) :
    ∀ e ∈ hist, ∀ body, R.Grants body e.call e.reply →
      R.GrantOk Q hist e.call body := by
  refine (run.induction (I := fun h s => Every (R.RecordOk Q h) s.records ∧
    ∀ e ∈ h, ∀ body, R.Grants body e.call e.reply →
      R.GrantOk Q h e.call body) ⟨.empty, nofun⟩ ?_).2
  intro h s t c reply s' ih _ hx
  obtain ⟨hm, hg⟩ := step hx ih.1
  refine ⟨hm, fun e he body hb => ?_⟩
  rcases List.mem_cons.mp he with rfl | he
  · exact hg body hb
  · exact (ih.2 e he body hb).cons _

end Exchanges

/-! ## The two servers -/

/-- The exchanges of the Person Server. -/
def personExchanges (E : Type) (cr : Crates) (config : PersonServerConfig) :
    Exchanges (personService E cr config) PersonTokenContext where
  context
    | .exchangeToken ctx _ => some ctx
    | _ => none
  target
    | .exchangeToken _ _ | .beginInteraction _ => none
    | .pollPending id | .resumePending id _
    | .resolveInteractionCallback id _ => some id
  Grants body
    | .exchangeToken _ _, reply | .resumePending _ _, reply
    | .resolveInteractionCallback _ _, reply => reply = .ok (.granted body)
    | .pollPending _, reply => reply = .ok (.complete (.authToken body))
    | .beginInteraction _, _ => False

/-- The exchanges of the Access Server. -/
def Access.exchanges (E : Type) (config : AccessServerConfig) :
    Exchanges (Access.service E config) AccessTokenContext where
  context
    | .exchangeToken ctx => some ctx
    | _ => none
  target
    | .exchangeToken _ => none
    | .pollPending id | .resumePending id _ => some id
  Grants body
    | .exchangeToken _, reply | .resumePending _ _, reply =>
        reply = .ok (.granted body)
    | .pollPending _, reply => reply = .ok (.complete (.authToken body))

end Aauth
