import Aauth.Lib.Pool
import Aauth.Proofs.PersonSteps

/-!
# What a call of the Person Server does whatever the others do

Between two effects of a call the store belongs to everybody, so nothing
can be said of what a call finds there. What it does in answer can: where
a token comes from before it is stored, and what was stored last when the
call returns. These are facts about the paths of one program, proved in
the world that only records calls.
-/

namespace Aauth

open Effect

section Paths

variable {E : Type}

abbrev PersonEvent (E : Type) := Event (personSig E)

/-- The event brought the call a token that it has yet to store or hand
out: it minted one, or it read what it checks one against. -/
def Obtains (body : TokenResponseBody) : PersonEvent E → Prop
  | ⟨.ext (.mintPersonAuthJwt _ _ _ _ _ _), answer⟩ =>
      (answer : AAuthResult String) = .ok body.authToken
  | ⟨.ext .verifyEnv, _⟩ => True
  | _ => False

/-- The call just stored a token, or just minted one. -/
def Loaded : List (PersonEvent E) → Prop
  | ⟨.ext (.mintPersonAuthJwt _ _ _ _ _ _), answer⟩ :: _ =>
      ∃ jwt, (answer : AAuthResult String) = .ok jwt
  | ⟨.store (.complete _ (.authToken _)), answer⟩ :: _ =>
      (answer : Except E Unit) = .ok ()
  | _ => False

/-- The effects a settling call on `id` makes, and when. A token is stored
right after it was obtained, and between a mint and its store, or after a
store, there is nothing else. A record is saved right after it was loaded,
and expires when it did. -/
def SettleOp (id : String) (l : List (PersonEvent E)) :
    (personSig E).Op → Prop
  | .store (.load id') | .store (.remove id')
  | .store (.complete id' (.error _)) => id' = id ∧ ¬ Loaded l
  | .store (.save id' r) => id' = id ∧ ∃ (r₀ : PersonPendingRecord) (l' : _),
      l = ⟨.store (.load id), .ok (some r₀)⟩ :: l' ∧
        r.expiresAt = r₀.expiresAt
  | .store (.complete id' (.authToken body)) =>
      id' = id ∧ ∃ e l', l = e :: l' ∧ Obtains body e
  | .store (.complete _ (.opaqueAccess _)) => False
  | .store (.create _) | .store (.findIf _) | .pendingIdBytes => False
  | .now | .ext _ => ¬ Loaded l

/-- What a settling call answers, told by what it did last. -/
def SettleReply (id : String) :
    Except (PersonTokenServiceError E) PersonTokenFlowOutcome →
      List (PersonEvent E) → Prop
  | .ok (.granted body), l => ∃ l',
      l = ⟨.store (.complete id (.authToken body)), .ok ()⟩ :: l'
  | .ok (.denied e), l => ∃ l',
      l = ⟨.store (.complete id (.error e)), .ok ()⟩ :: l'
  | _, l => ¬ Loaded l

/-! ## Steps -/

variable {cr : Crates} {config : PersonServerConfig} {id agentJwt : String}
  {l : List (PersonEvent E)}

@[simp] theorem wp_recorder_personOp
    {pre : List (PersonEvent E) → (personSig E).Op → Prop} {o : PersonOp}
    {post : personExt.Ans o → List (PersonEvent E) → Prop} :
    wp (α := no_index (personExt.Ans o)) recorder pre (personOp o) post l ↔
      pre l (.ext o) ∧ ∀ r, post r (⟨.ext o, r⟩ :: l) := wp_recorder_call

/-- Some effect of the list's head obtained `body`. -/
def JustObtained (body : TokenResponseBody) (l : List (PersonEvent E)) :
    Prop :=
  ∃ e l', l = e :: l' ∧ Obtains body e

/-- Nothing was obtained or stored just before. -/
abbrev Quiet (l : List (PersonEvent E)) : Prop := ¬ Loaded l

theorem verifyFederated_path {authToken iss aud : String} (hl : Quiet l) :
    wp recorder (SettleOp id)
      (verifyFederated cr authToken iss aud agentJwt).run
      (fun _ l' => ∀ body, JustObtained body l' ∧ Quiet l') l := by
  simp only [verifyFederated, wp_bind_except, wp_liftProg,
    wp_recorder_personOp]
  exact ⟨hl, fun venv body => ⟨⟨_, _, rfl, trivial⟩, fun h => h⟩⟩

theorem federateToAccessServer_path {resourceToken : String}
    (hl : Quiet l) :
    wp recorder (SettleOp id)
      (federateToAccessServer cr config resourceToken agentJwt).run
      (fun r l' => Quiet l' ∧ ∀ body, r = .ok (.complete body) →
        JustObtained body l') l := by
  have failed : ∀ (e : AAuthError) {l : List (PersonEvent E)}, Quiet l →
      Quiet l ∧ ∀ body,
        (.error e : AAuthResult FederationOutcome) = .ok (.complete body) →
          JustObtained body l := fun _ _ h => ⟨h, nofun⟩
  refine wp_liftExcept_bind.mpr ⟨fun e _ => failed e hl, fun parsed _ => ?_⟩
  refine wp_liftExcept_bind.mpr ⟨fun e _ => failed e hl, fun claims _ => ?_⟩
  rw [wp_bind_except, wp_mapErr, wp_recorder_personOp]
  refine ⟨hl, fun metadata => ?_⟩
  cases metadata with
  | error e => exact failed e fun h => h
  | ok metadata =>
      refine wp_liftExcept_bind.mpr ⟨fun e _ => failed e fun h => h,
        fun _ _ => ?_⟩
      rw [wp_bind_except, wp_mapErr, wp_recorder_personOp]
      refine ⟨fun h => h, fun answer => ?_⟩
      cases answer with
      | error e => exact failed e fun h => h
      | ok outcome =>
          cases outcome with
          | deferred requirement url => exact ⟨fun h => h, nofun⟩
          | complete body =>
              refine wp_bind_except.mpr (wp_mono (fun r l' h => ?_)
                (verifyFederated_path fun h => h))
              cases r with
              | error e => exact failed e (h body).2
              | ok _ =>
                  refine ⟨(h body).2, fun body' hb => ?_⟩
                  cases hb
                  exact (h body).1

theorem mintGrant_path {ctx : PersonTokenContext} {grant : AuthGrant}
    (hl : Quiet l) :
    wp recorder (SettleOp id) (mintGrant (E := E) config ctx grant).run
      (fun r l' => match r with
        | .ok body => JustObtained body l'
        | .error _ => Quiet l') l := by
  simp only [mintGrant, mintPersonAuth, wp_mapErr, wp_bind_except,
    wp_recorder_personOp]
  refine ⟨hl, fun answer => ?_⟩
  cases answer with
  | error e => exact fun h => by obtain ⟨jwt, h⟩ := h; cases h
  | ok jwt => exact ⟨_, _, rfl, rfl⟩

/-- The last step of a call that settles a record. -/
theorem complete_path {o : PendingOutcome} {reply : PersonTokenFlowOutcome}
    (hop : SettleOp id l (.store (.complete id o)))
    (hreply : SettleReply (E := E) id (.ok reply)
      (⟨.store (.complete id o), .ok ()⟩ :: l)) :
    wp recorder (SettleOp id)
      (do storeOp (PendingStore.complete id o)
          return reply : PersonTask E PersonTokenFlowOutcome).run
      (SettleReply id) l := by
  refine wp_bind_except.mpr (wp_mapErr.mpr (wp_recorder_perform.mpr
    ⟨hop, fun answer => ?_⟩))
  cases answer with
  | error e =>
      intro h
      cases o with
      | authToken body => exact nomatch h
      | opaqueAccess token => exact h
      | error e => exact h
  | ok _ => exact hreply

/-- A load, and what follows it. -/
theorem load_path {f : Option PersonPendingRecord →
      PersonTask E PersonTokenFlowOutcome} (hl : Quiet l)
    (h : ∀ r, wp recorder (SettleOp id) (f r).run (SettleReply id)
      (⟨.store (.load id), .ok r⟩ :: l)) :
    wp recorder (SettleOp id)
      (storeOp (PendingStore.load id) >>= f).run (SettleReply id) l := by
  refine wp_bind_except.mpr (wp_mapErr.mpr (wp_recorder_perform.mpr
    ⟨⟨rfl, hl⟩, fun answer => ?_⟩))
  cases answer with
  | error e => exact fun h => h
  | ok r => exact h r

theorem rewriteRecord_path {requirement : DeferRequirement}
    {rewrite : PersonPendingRecord → PersonPendingRecord}
    (hr : ∀ r, (rewrite r).expiresAt = r.expiresAt) (hl : Quiet l) :
    wp recorder (SettleOp id)
      (rewriteRecord (E := E) config id requirement rewrite).run
      (SettleReply id) l := by
  refine load_path hl fun r => ?_
  cases r with
  | none => exact fun h => h
  | some r =>
      refine wp_bind_except.mpr (wp_mapErr.mpr (wp_recorder_perform.mpr
        ⟨⟨rfl, r, _, rfl, hr r⟩, fun answer => ?_⟩))
      cases answer with
      | error e => exact fun h => h
      | ok _ => exact fun h => h

theorem applyPersonPendingDecision_path {ctx : PersonTokenContext}
    {d : PersonTokenDecision} (hl : Quiet l) :
    wp recorder (SettleOp id)
      (applyPersonPendingDecision (E := E) cr config ctx id d agentJwt).run
      (SettleReply id) l := by
  cases d with
  | grant grant =>
      refine wp_bind_except.mpr (wp_mono (fun answer l' h => ?_)
        (mintGrant_path hl))
      cases answer with
      | error e => exact h
      | ok body => exact complete_path ⟨rfl, h⟩ ⟨_, rfl⟩
  | federate =>
      refine wp_bind_except.mpr (wp_liftProg.mpr
        (wp_mono (fun answer l' h => ?_) (federateToAccessServer_path hl)))
      obtain ⟨hl', hb⟩ := h
      cases answer with
      | error e => exact hl'
      | ok outcome =>
          cases outcome with
          | complete body => exact complete_path ⟨rfl, hb body rfl⟩ ⟨_, rfl⟩
          | deferred requirement asPendingUrl url =>
              exact rewriteRecord_path (fun _ => rfl) hl'
  | deny e => exact complete_path ⟨rfl, hl⟩ ⟨_, rfl⟩
  | defer requirement => exact rewriteRecord_path (fun _ => rfl) hl

theorem resumeAtAccessServer_path {fed : FederationPendingState}
    {input : PendingInput} (hl : Quiet l) :
    wp recorder (SettleOp id)
      (resumeAtAccessServer (E := E) config fed input)
      (fun _ l' => Quiet l') l := by
  rw [resumeAtAccessServer, wp_bind, wp_recorder_personOp]
  refine ⟨hl, fun answer => ?_⟩
  rcases answer with e | body | _
  · exact fun h => h
  · rw [wp_recorder_personOp]
    exact ⟨fun h => h, fun _ h => h⟩
  · exact fun h => h

theorem handleFederatedPendingPost_path {fed : FederationPendingState}
    {resourceUrl : String} {input : PendingInput} (hl : Quiet l) :
    wp recorder (SettleOp id)
      (handleFederatedPendingPost (E := E) cr config id fed agentJwt
        resourceUrl input).run (SettleReply id) l := by
  rw [handleFederatedPendingPost]
  cases hc : input.isCancelled with
  | true => exact complete_path ⟨rfl, hl⟩ ⟨_, rfl⟩
  | false =>
      refine wp_bind_except.mpr (wp_liftProg.mpr
        (wp_mono (fun answer l' hl' => ?_) (resumeAtAccessServer_path hl)))
      rcases answer with e | body | ⟨requirement, url⟩ | e | _
      · exact hl'
      · refine wp_bind_except.mpr (wp_liftProg.mpr
          (wp_mono (fun answer l' h => ?_) (verifyFederated_path hl')))
        obtain ⟨hb, hl'⟩ := h body
        cases answer with
        | error e => exact hl'
        | ok _ => exact complete_path ⟨rfl, hb⟩ ⟨_, rfl⟩
      · exact rewriteRecord_path (fun _ => rfl) hl'
      · exact complete_path ⟨rfl, hl'⟩ ⟨_, rfl⟩
      · exact wp_bind_except.mpr (wp_liftProg.mpr
          (wp_recorder_perform.mpr ⟨⟨rfl, hl'⟩, fun _ h => h⟩))

theorem withLiveRecord_path {k : PersonPendingRecord →
      PersonTask E PersonTokenFlowOutcome} (hl : Quiet l)
    (hk : ∀ r l', Quiet l' → wp recorder (SettleOp id) (k r).run
      (SettleReply id) l') :
    wp recorder (SettleOp id) (withLiveRecord id k).run (SettleReply id)
      l := by
  refine load_path hl fun r => ?_
  cases r with
  | none => exact fun h => h
  | some r =>
      refine wp_bind_except.mpr (wp_liftProg.mpr (wp_recorder_perform.mpr
        ⟨fun h => h, fun now => ?_⟩))
      cases hx : r.isExpired now with
      | true =>
          simp only [hx, if_true]
          exact wp_bind_except.mpr (wp_liftProg.mpr
            (wp_recorder_perform.mpr ⟨⟨rfl, fun h => h⟩, fun _ h => h⟩))
      | false =>
          simp only [hx]
          exact hk r _ fun h => h

theorem resumePending_path {input : PendingInput} (hl : Quiet l) :
    wp recorder (SettleOp id)
      (resumePending (E := E) cr config id input).run (SettleReply id) l := by
  refine withLiveRecord_path hl fun r l' hl' => ?_
  cases hf : r.context.federation with
  | some fed => exact handleFederatedPendingPost_path hl'
  | none =>
      refine wp_bind_except.mpr (wp_mapErr.mpr (wp_recorder_personOp.mpr
        ⟨hl', fun answer => ?_⟩))
      cases answer with
      | error e => exact fun h => h
      | ok d => exact applyPersonPendingDecision_path fun h => h

theorem resolveInteractionCallback_path {err : Option String}
    (hl : Quiet l) :
    wp recorder (SettleOp id)
      (resolveInteractionCallback (E := E) cr config id err).run
      (SettleReply id) l := by
  refine withLiveRecord_path hl fun r l' hl' => ?_
  cases err with
  | some err => exact complete_path ⟨rfl, hl'⟩ ⟨_, rfl⟩
  | none =>
      cases hf : r.context.federation.isSome with
      | true =>
          simp only [if_true]
          exact hl'
      | false =>
          refine wp_bind_except.mpr (wp_mapErr.mpr (wp_recorder_personOp.mpr
            ⟨hl', fun answer => ?_⟩))
          cases answer with
          | error e => exact fun h => h
          | ok d => exact applyPersonPendingDecision_path fun h => h

end Paths

end Aauth
