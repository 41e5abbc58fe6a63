import Aauth.Ref.Metadata

/-!
# What a call of the fetcher does

One description of every call on its own, read off its program: before each
operation it says what the call has done so far, and at the end where the
result is from. Whatever runs beside it, a call keeps to that
(`Steps.wp`).
-/

namespace Aauth

open Effect Except

abbrev FetchEvent := Event fetchSig

/-- When the event took place. -/
def FetchEvent.time (e : FetchEvent) : Nat := e.ans.time

/-- A GET that leaves. -/
def FetchEvent.starts : FetchEvent → Bool
  | ⟨.startGet _, _⟩ => true
  | _ => false

/-- The call has asked whether it may fetch `key`, and found nothing to use
instead if it may not. -/
def Cleared (key : String) : List FetchEvent → Prop
  | ⟨.canFetch k, ⟨_, true⟩⟩ :: _ => k = key
  | ⟨.anyMetadata k, ⟨_, none⟩⟩ :: _ => k = key
  | _ => False

/-- What a call has done before an operation. -/
def MayCall (jwkSetFromSlice : Bytes → Option JwkSet) (c : FetcherCall)
    (l : List FetchEvent) : FetchOp → Prop
  | .recordFetch key => Cleared key l
  | .startGet url => (∃ r l', l = ⟨.recordFetch url, r⟩ :: l') ∧
      ∀ e ∈ l, FetchEvent.starts e = false
  | .storeJwks uri jwks => ∃ time status bytes l',
      l = ⟨.finishGet uri, ⟨time, some ⟨status, some bytes⟩⟩⟩ :: l' ∧
        isSuccess status = true ∧ jwkSetFromSlice bytes = some jwks
  | .clearMetadata | .clearJwks | .clearLastFetch => c = .clearCache
  | _ => True

/-- Where a key set that a call returns is from. -/
def Returns (c : FetcherCall) :
    Except AAuthError FetcherReply → List FetchEvent → Prop
  | .ok (.jwks jwks), l => ∃ uri, c = .fetchJwks uri ∧
      ((∃ time l', l = ⟨.cachedJwks uri, ⟨time, some jwks⟩⟩ :: l') ∨
        ∃ r l', l = ⟨.storeJwks uri jwks, r⟩ :: l')
  | _, _ => True

section Calls

variable {cr : Crates} {jwkSetFromSlice : Bytes → Option JwkSet}
  {c : FetcherCall} {l : List FetchEvent} {α : Type}
  {post : Except AAuthError α → List FetchEvent → Prop}

theorem wp_ask {o : FetchOp} {f : o.Reply → FetchTask α}
    {pre : List FetchEvent → FetchOp → Prop} :
    wp recorder pre (ask o >>= f).run post l ↔
      pre l o ∧ ∀ r : Timed o.Reply,
        wp recorder pre (f r.value).run post (⟨o, r⟩ :: l) := by
  rw [wp_bind_except]
  exact @wp_recorder_call fetchSig (Except AAuthError o.Reply) pre o
    (fun r => .ret (.ok r.value)) _ l

theorem wp_refuse {e : MetadataError} {pre : List FetchEvent → FetchOp → Prop} :
    wp recorder pre (refuse e : FetchTask α).run post l ↔
      post (.error (.metadata e)) l := Iff.rfl

/-- A GET, and what it may end with. -/
theorem getBytes_path {url : String} {post : Except AAuthError Bytes →
      List FetchEvent → Prop}
    (hl : ∃ r l', l = ⟨.recordFetch url, r⟩ :: l')
    (hstart : ∀ e ∈ l, FetchEvent.starts e = false)
    (herr : ∀ e l', post (.error e) l')
    (hok : ∀ time status bytes l', isSuccess status = true →
      post (.ok bytes)
        (⟨.finishGet url, ⟨time, some ⟨status, some bytes⟩⟩⟩ :: l')) :
    wp recorder (MayCall jwkSetFromSlice c) (getBytes url).run post l := by
  rw [getBytes, wp_ask]
  refine ⟨⟨hl, hstart⟩, fun _ => ?_⟩
  rw [wp_ask]
  refine ⟨trivial, ?_⟩
  rintro ⟨time, response⟩
  cases response with
  | none => exact herr _ _
  | some response =>
      obtain ⟨status, body⟩ := response
      show wp _ _ (if isSuccess status = false then _ else _ :
        FetchTask Bytes).run _ _
      split
      · exact herr _ _
      · next hs =>
        rw [Bool.not_eq_false] at hs
        cases body with
        | none => exact herr _ _
        | some bytes => exact hok time status bytes _ hs

/-- Metadata is downloaded by a call that has not sent anything. -/
theorem downloadMetadata_path {url : String}
    {post : Except AAuthError AgentProviderMetadata →
      List FetchEvent → Prop} (hl : Cleared url l)
    (hstart : ∀ e ∈ l, FetchEvent.starts e = false)
    (hpost : ∀ r l', post r l') :
    wp recorder (MayCall jwkSetFromSlice c) (downloadMetadata cr url).run
      post l := by
  rw [downloadMetadata, wp_ask]
  refine ⟨hl, fun r => ?_⟩
  rw [wp_bind_except]
  refine getBytes_path ⟨r, l, rfl⟩ ?_ (fun _ _ => hpost _ _) ?_
  · intro e he
    rcases List.mem_cons.mp he with rfl | he
    · rfl
    · exact hstart e he
  · intro time status bytes l' hs
    dsimp only
    split
    · exact hpost _ _
    · split
      · exact hpost _ _
      · rw [wp_ask]
        exact ⟨trivial, fun _ => hpost _ _⟩

theorem fetchIssuerMetadata_path {url : String}
    {post : Except AAuthError AgentProviderMetadata →
      List FetchEvent → Prop} (hpost : ∀ r l', post r l') :
    wp recorder (MayCall jwkSetFromSlice c)
      (fetchIssuerMetadata cr url).run post [] := by
  rw [fetchIssuerMetadata, wp_ask]
  refine ⟨trivial, ?_⟩
  rintro ⟨t₁, entry⟩
  cases entry with
  | some jwksUri => exact hpost _ _
  | none =>
      show wp _ _ (ask (.canFetch url) >>= _).run _ _
      rw [wp_ask]
      refine ⟨trivial, ?_⟩
      rintro ⟨t₂, allowed⟩
      cases allowed with
      | true =>
          refine downloadMetadata_path rfl ?_ hpost
          simp [FetchEvent.starts]
      | false =>
          show wp _ _ (ask (.anyMetadata url) >>= _).run _ _
          rw [wp_ask]
          refine ⟨trivial, ?_⟩
          rintro ⟨t₃, entry⟩
          cases entry with
          | some jwksUri => exact hpost _ _
          | none =>
              refine downloadMetadata_path rfl ?_ hpost
              simp [FetchEvent.starts]

theorem fetchJwks_path {uri : String} (hc : c = .fetchJwks uri) :
    wp recorder (MayCall jwkSetFromSlice c)
      (fetchJwks jwkSetFromSlice uri).run
      (fun r l => ∀ jwks, r = .ok jwks → Returns c (.ok (.jwks jwks)) l)
      [] := by
  have herr : ∀ (e : AAuthError) {l : List FetchEvent} (jwks : JwkSet),
      (.error e : Except AAuthError JwkSet) = .ok jwks →
        Returns c (.ok (.jwks jwks)) l := by
    intro e l jwks h
    cases h
  rw [fetchJwks, wp_ask]
  refine ⟨trivial, ?_⟩
  rintro ⟨t₁, cached⟩
  cases cached with
  | some cached =>
      rintro jwks ⟨⟩
      exact ⟨uri, hc, .inl ⟨_, _, rfl⟩⟩
  | none =>
      show wp _ _ (ask (.canFetch uri) >>= _).run _ _
      rw [wp_ask]
      refine ⟨trivial, ?_⟩
      rintro ⟨t₂, allowed⟩
      cases allowed with
      | true =>
          show wp _ _ (downloadJwks jwkSetFromSlice uri).run _ _
          rw [downloadJwks, wp_ask]
          refine ⟨rfl, fun r => ?_⟩
          rw [wp_bind_except]
          refine getBytes_path ⟨r, _, rfl⟩ (by simp [FetchEvent.starts])
            (fun e l' => herr e) ?_
          intro time status bytes l' hs
          dsimp only
          split
          · exact herr _
          · next jwks hj =>
            rw [wp_ask]
            refine ⟨⟨time, status, bytes, l', rfl, hs, hj⟩, fun r => ?_⟩
            rintro jwks ⟨⟩
            exact ⟨uri, hc, .inr ⟨_, _, rfl⟩⟩
      | false =>
          show wp _ _ (ask (.cachedJwks uri) >>= _).run _ _
          rw [wp_ask]
          refine ⟨trivial, ?_⟩
          rintro ⟨t₃, cached⟩
          cases cached with
          | some cached =>
              rintro jwks ⟨⟩
              exact ⟨uri, hc, .inl ⟨_, _, rfl⟩⟩
          | none => exact herr _

variable (cr jwkSetFromSlice c) in
/-- Every call, from its start. -/
theorem FetcherCall.path :
    wp recorder (MayCall jwkSetFromSlice c)
      (c.run cr jwkSetFromSlice).run (Returns c) [] := by
  cases c with
  | fetchMetadata url =>
      rw [FetcherCall.run, wp_bind_except]
      exact fetchIssuerMetadata_path fun r l' => by cases r <;> trivial
  | resolveJwksUri iss dwk =>
      rw [FetcherCall.run, wp_bind_except, Aauth.resolveJwksUri,
        wp_bind_except]
      exact fetchIssuerMetadata_path fun r l' => by cases r <;> trivial
  | fetchJwks uri =>
      rw [FetcherCall.run, wp_bind_except]
      refine wp_mono ?_ (fetchJwks_path rfl)
      intro r l h
      cases r with
      | error e => trivial
      | ok jwks => exact h jwks rfl
  | clearCache =>
      rw [FetcherCall.run, wp_bind_except, Aauth.clearCache, wp_ask]
      refine ⟨rfl, fun _ => ?_⟩
      rw [wp_ask]
      exact ⟨rfl, fun _ => ⟨rfl, fun _ _ _ => trivial⟩⟩

end Calls

end Aauth
