import Aauth.Proofs.FetcherCalls
import Aauth.Proofs.Verify
import Aauth.Sample.Crates
import Aauth.Sample.Fetcher

/-!
# How old a key set may get

Key sets are stored without a time and leave the cache only when all of it
is cleared. So a key set is returned within a day of its download as long as
somebody looks to it: that nobody asks for it any more after a day
(`KeepsFresh`). Since when the cache holds a key set is not in the cache; it
is read off the run (`heldSince`).
-/

namespace Aauth

open Effect Except

/-- How long a key set may be used. -/
def JWKS_MAX_AGE : Nat := durationFromSecs 86400

section Age

variable {ι : Type} {cr : Crates} {jwkSetFromSlice : Bytes → Option JwkSet}
  {call : ι → FetcherCall} {start : Instant}

/-! ## Downloads -/

/-- A GET of `uri` was answered at that time with the key set. -/
def Downloaded (jwkSetFromSlice : Bytes → Option JwkSet)
    (t : List (ι × FetchEvent)) (uri : String) (jwks : JwkSet) (time : Nat) :
    Prop :=
  ∃ i status bytes,
    (i, (⟨.finishGet uri, ⟨time, some ⟨status, some bytes⟩⟩⟩ : FetchEvent)) ∈
      t ∧ isSuccess status = true ∧ jwkSetFromSlice bytes = some jwks

theorem Downloaded.cons {t : List (ι × FetchEvent)} {e : ι × FetchEvent}
    {uri : String} {jwks : JwkSet} {time : Nat}
    (h : Downloaded jwkSetFromSlice t uri jwks time) :
    Downloaded jwkSetFromSlice (e :: t) uri jwks time := by
  obtain ⟨i, status, bytes, hm, hs, hj⟩ := h
  exact ⟨i, status, bytes, List.mem_cons_of_mem _ hm, hs, hj⟩

variable [DecidableEq ι]

/-- When a call did the last thing it did. -/
def lastTime (i : ι) (t : List (ι × FetchEvent)) : Option Nat :=
  (proj i t).head?.map FetchEvent.time

/-- When the key set that the cache holds was downloaded: the call that
stored it did nothing between the two. -/
def heldSince (uri : String) : List (ι × FetchEvent) → Option Nat
  | [] => none
  | (i, ⟨.storeJwks k _, _⟩) :: t =>
      if k = uri then lastTime i t else heldSince uri t
  | (_, ⟨.clearJwks, _⟩) :: _ => none
  | _ :: t => heldSince uri t

theorem heldSince_cons {uri : String} {i : ι} {o : FetchOp}
    {r : Timed o.Reply} {t : List (ι × FetchEvent)}
    (hs : ∀ jwks, o ≠ .storeJwks uri jwks) (hc : o ≠ .clearJwks) :
    heldSince uri ((i, ⟨o, r⟩) :: t) = heldSince uri t := by
  cases o with
  | storeJwks k jwks =>
      have hk : k ≠ uri := by
        rintro rfl
        exact hs jwks rfl
      rw [heldSince, if_neg hk]
  | clearJwks => exact absurd rfl hc
  | _ => rfl

/-- The key set that the call of the event goes on with. -/
def FetchEvent.serves (uri : String) (jwks : JwkSet) : FetchEvent → Prop
  | ⟨.cachedJwks k, ⟨_, found⟩⟩ => k = uri ∧ found = some jwks
  | ⟨.storeJwks k stored, _⟩ => k = uri ∧ stored = jwks
  | _ => False

/-! ## The condition -/

/-- A stored key set is asked for, and a downloaded one stored, at most a
day after its download. -/
def KeepsFresh (t : List (ι × FetchEvent)) (e : ι × FetchEvent) : Prop :=
  match e with
  | (_, ⟨.cachedJwks uri, r⟩) =>
      ∀ d ∈ heldSince uri t, r.time ≤ d + JWKS_MAX_AGE
  | (i, ⟨.storeJwks _ _, r⟩) =>
      ∀ d ∈ lastTime i t, r.time ≤ d + JWKS_MAX_AGE
  | _ => True

/-! ## The invariant -/

/-- Where the key sets of a run are from: those in the cache, and those that
calls went on with. -/
structure JwksInv (jwkSetFromSlice : Bytes → Option JwkSet)
    (t : List (ι × FetchEvent)) (s : FetcherState) : Prop where
  held : ∀ uri jwks, s.cache.jwks.lookup uri = some jwks →
    ∃ d, heldSince uri t = some d ∧
      Downloaded jwkSetFromSlice t uri jwks d
  recent : ∀ e ∈ t, ∀ uri jwks, FetchEvent.serves uri jwks e.2 →
    ∃ d, Downloaded jwkSetFromSlice t uri jwks d ∧
      FetchEvent.time e.2 ≤ d + JWKS_MAX_AGE

/-- Only two operations change the key sets. -/
theorem jwks_answers {c c' : MetadataCache} {now : Instant} {o : FetchOp}
    {v : o.Reply} (h : c.answers now o v c')
    (hs : ∀ uri jwks, o ≠ .storeJwks uri jwks) (hc : o ≠ .clearJwks) :
    c'.jwks = c.jwks := by
  cases o with
  | storeJwks uri jwks => exact absurd rfl (hs uri jwks)
  | clearJwks => exact absurd rfl hc
  | freshMetadata _ | anyMetadata _ | canFetch _ | cachedJwks _ => rw [h.1]
  | storeMetadata _ _ | recordFetch _ | clearMetadata | clearLastFetch
  | startGet _ | finishGet _ => rw [h]

section Step

variable {t : List (ι × FetchEvent)} {s s' : FetcherState} {i : ι}
  {o : FetchOp} {r : Timed o.Reply}

/-- A key set is stored by the call that has just downloaded it. -/
theorem downloaded_of_store {uri : String} {jwks : JwkSet}
    (hmade : MayCall jwkSetFromSlice (call i) (proj i t)
      (.storeJwks uri jwks)) :
    ∃ d, lastTime i t = some d ∧ Downloaded jwkSetFromSlice t uri jwks d := by
  obtain ⟨time, status, bytes, l, hp, hs, hj⟩ := hmade
  refine ⟨time, ?_, i, status, bytes, ?_, hs, hj⟩
  · rw [lastTime, hp]
    rfl
  · rw [← mem_proj, hp]
    exact List.mem_cons_self

theorem JwksInv.held_step (inv : JwksInv jwkSetFromSlice t s)
    (hw : fetcherWorld s o r s')
    (hmade : MayCall jwkSetFromSlice (call i) (proj i t) o) (uri : String)
    (jwks : JwkSet) (h : s'.cache.jwks.lookup uri = some jwks) :
    ∃ d, heldSince uri ((i, ⟨o, r⟩) :: t) = some d ∧
      Downloaded jwkSetFromSlice ((i, ⟨o, r⟩) :: t) uri jwks d := by
  by_cases hs : ∃ k stored, o = .storeJwks k stored
  · obtain ⟨k, stored, rfl⟩ := hs
    have hcache : s'.cache.jwks = s.cache.jwks.insert k stored := by
      rw [hw.2.2]
    rw [hcache] at h
    by_cases hk : uri = k
    · subst hk
      rw [AList.lookup_insert] at h
      cases h
      obtain ⟨d, hd, hdown⟩ := downloaded_of_store hmade
      refine ⟨d, ?_, hdown.cons⟩
      rw [heldSince, if_pos rfl, hd]
    · rw [AList.lookup_insert_ne hk] at h
      obtain ⟨d, hd, hdown⟩ := inv.held uri jwks h
      refine ⟨d, ?_, hdown.cons⟩
      rw [heldSince, if_neg (Ne.symm hk), hd]
  · by_cases hc : o = .clearJwks
    · subst hc
      rw [hw.2.2] at h
      cases h
    · rw [jwks_answers hw.2.2 (fun k j ho => hs ⟨k, j, ho⟩) hc] at h
      obtain ⟨d, hd, hdown⟩ := inv.held uri jwks h
      refine ⟨d, ?_, hdown.cons⟩
      rw [heldSince_cons (fun j ho => hs ⟨uri, j, ho⟩) hc, hd]

theorem JwksInv.recent_step (inv : JwksInv jwkSetFromSlice t s)
    (hw : fetcherWorld s o r s')
    (hmade : MayCall jwkSetFromSlice (call i) (proj i t) o)
    (hkeeps : KeepsFresh t (i, ⟨o, r⟩)) (uri : String) (jwks : JwkSet)
    (h : FetchEvent.serves uri jwks ⟨o, r⟩) :
    ∃ d, Downloaded jwkSetFromSlice t uri jwks d ∧
      r.time ≤ d + JWKS_MAX_AGE := by
  cases o with
  | cachedJwks k =>
      obtain ⟨time, found⟩ := r
      obtain ⟨rfl, rfl⟩ := h
      have hlookup : s.cache.jwks.lookup k = some jwks := hw.2.2.2.symm
      obtain ⟨d, hd, hdown⟩ := inv.held k jwks hlookup
      exact ⟨d, hdown, hkeeps d hd⟩
  | storeJwks k stored =>
      obtain ⟨rfl, rfl⟩ := h
      obtain ⟨d, hd, hdown⟩ := downloaded_of_store hmade
      exact ⟨d, hdown, hkeeps d hd⟩
  | _ => exact h.elim

theorem JwksInv.step (inv : JwksInv jwkSetFromSlice t s)
    (hw : fetcherWorld s o r s')
    (hmade : MayCall jwkSetFromSlice (call i) (proj i t) o)
    (hkeeps : KeepsFresh t (i, ⟨o, r⟩)) :
    JwksInv jwkSetFromSlice ((i, ⟨o, r⟩) :: t) s' where
  held := inv.held_step hw hmade
  recent := by
    intro e he uri jwks h
    rcases List.mem_cons.mp he with rfl | he
    · obtain ⟨d, hdown, hd⟩ := inv.recent_step hw hmade hkeeps uri jwks h
      exact ⟨d, hdown.cons, hd⟩
    · obtain ⟨d, hdown, hd⟩ := inv.recent e he uri jwks h
      exact ⟨d, hdown.cons, hd⟩

end Step

/-! ## Every run -/

/-- The key set that call `i` ended with was downloaded at most a day before
the call ended. -/
def ReturnedFresh (jwkSetFromSlice : Bytes → Option JwkSet)
    (call : ι → FetcherCall) (t : List (ι × FetchEvent)) (i : ι)
    (uri : String) (jwks : JwkSet) : Prop :=
  call i = .fetchJwks uri ∧ ∃ returned downloaded,
    lastTime i t = some returned ∧
    Downloaded jwkSetFromSlice t uri jwks downloaded ∧
    returned ≤ downloaded + JWKS_MAX_AGE

/-- A run of calls on clones of one new fetcher. -/
abbrev FetcherRun (cr : Crates) (jwkSetFromSlice : Bytes → Option JwkSet)
    (call : ι → FetcherCall) (start : Instant) (t : List (ι × FetchEvent))
    (P : Pool fetchSig FetcherState ι (Except AAuthError FetcherReply)) :
    Prop :=
  Steps fetcherWorld (fun _ _ _ => True)
    (fetchers cr jwkSetFromSlice call start) t P

variable {t : List (ι × FetchEvent)}
  {P : Pool fetchSig FetcherState ι (Except AAuthError FetcherReply)}

theorem FetcherRun.jwksInv
    (run : FetcherRun cr jwkSetFromSlice call start t P)
    (hkeeps : Along KeepsFresh t) : JwksInv jwkSetFromSlice t P.state := by
  induction run with
  | nil => exact ⟨nofun, nofun⟩
  | @step t P P' i e run _ hs ih =>
      obtain ⟨hkeep, halong⟩ := hkeeps
      obtain ⟨k, hk, -, hw⟩ := hs.self
      obtain ⟨o, r⟩ := e
      have hmade := Steps.wp (FetcherCall.path cr jwkSetFromSlice (call i))
        run
      rw [hk] at hmade
      exact (ih halong).step hw hmade.1 hkeep

theorem FetcherRun.returnedFresh
    (run : FetcherRun cr jwkSetFromSlice call start t P)
    (hkeeps : Along KeepsFresh t) {i : ι} {jwks : JwkSet}
    (h : P.thread i = .ret (.ok (.jwks jwks))) :
    ∃ uri, ReturnedFresh jwkSetFromSlice call t i uri jwks := by
  have inv := run.jwksInv hkeeps
  have hend := Steps.wp (FetcherCall.path cr jwkSetFromSlice (call i)) run
  rw [h] at hend
  obtain ⟨uri, hcall, hfrom⟩ := hend
  have hlast : ∃ e l, proj i t = e :: l ∧
      FetchEvent.serves uri jwks e := by
    rcases hfrom with ⟨time, l, hp⟩ | ⟨r, l, hp⟩
    · exact ⟨_, l, hp, rfl, rfl⟩
    · exact ⟨_, l, hp, rfl, rfl⟩
  obtain ⟨e, l, hp, hserves⟩ := hlast
  have he : (i, e) ∈ t := mem_proj.mp (hp ▸ List.mem_cons_self)
  obtain ⟨d, hdown, hd⟩ := inv.recent (i, e) he uri jwks hserves
  refine ⟨uri, hcall, FetchEvent.time e, d, ?_, hdown, hd⟩
  rw [lastTime, hp]
  rfl

/-! ## The tokens that are verified -/

/-- A verification that gets its key sets from the calls of the run. -/
def ReadsFrom (call : ι → FetcherCall)
    (P : Pool fetchSig FetcherState ι (Except AAuthError FetcherReply))
    (fetcher : MetadataFetcher) : Prop :=
  ∀ uri jwks, fetcher.fetchJwks uri = .ok jwks →
    ∃ i, call i = .fetchJwks uri ∧ P.thread i = .ret (.ok (.jwks jwks))

/-- The JWT verifies with a key from a set that a call returned within a day
of its download. -/
def SignedFresh (jwkSetFromSlice : Bytes → Option JwkSet)
    (call : ι → FetcherCall) (t : List (ι × FetchEvent)) (cr : Crates)
    (env : VerifyEnv) (jwt : String) (verified : ParsedToken) : Prop :=
  ∃ parsed key, ParsedToken.parse cr jwt = .ok parsed ∧
    ParsedToken.verifyWithKey cr env.now jwt key = .ok verified ∧
    ∃ k : IssuerKey cr env parsed.iss parsed.dwk jwt key, ∃ i,
      ReturnedFresh jwkSetFromSlice call t i k.jwksUri k.jwks

theorem FetcherRun.signedFresh
    (run : FetcherRun cr jwkSetFromSlice call start t P)
    (hkeeps : Along KeepsFresh t) {env : VerifyEnv}
    (hreads : ReadsFrom call P env.fetcher) {jwt : String}
    {parsed verified : ParsedToken} {key : DecodingKey}
    (hp : ParsedToken.parse cr jwt = .ok parsed)
    (hkey : fetchDecodingKey cr env parsed.iss parsed.dwk jwt = .ok key)
    (hv : ParsedToken.verifyWithKey cr env.now jwt key = .ok verified) :
    SignedFresh jwkSetFromSlice call t cr env jwt verified := by
  obtain ⟨k⟩ := fetchDecodingKey_eq_ok.mp hkey
  obtain ⟨i, hcall, hret⟩ := hreads _ _ k.fetched
  obtain ⟨uri, hfresh⟩ := run.returnedFresh hkeeps hret
  have huri : uri = k.jwksUri := by
    have h := hfresh.1.symm.trans hcall
    cases h
    rfl
  subst huri
  exact ⟨parsed, key, hp, hv, k, i, hfresh⟩

/-- In every run that keeps the key sets fresh, no call returns one that was
downloaded more than a day before, and no token is accepted with a key from
an older one. -/
theorem jwks_at_most_a_day_old
    (run : FetcherRun cr jwkSetFromSlice call start t P)
    (hkeeps : Along KeepsFresh t) :
    (∀ i jwks, P.thread i = .ret (.ok (.jwks jwks)) →
      ∃ uri, ReturnedFresh jwkSetFromSlice call t i uri jwks) ∧
    ∀ env : VerifyEnv, ReadsFrom call P env.fetcher →
      (∀ options token, verifyToken cr env options = .ok token →
        SignedFresh jwkSetFromSlice call t cr env options.jwt token) ∧
      ∀ options claims, verifyResourceToken cr env options = .ok claims →
        SignedFresh jwkSetFromSlice call t cr env options.jwt
          (.resource claims) := by
  refine ⟨fun i jwks h => run.returnedFresh hkeeps h, ?_⟩
  intro env hreads
  constructor
  · intro options token h
    simp only [verifyToken, bind_eq_ok, mapError_eq_ok] at h
    obtain ⟨parsed, hp, -, -, -, -, -, -, -, -, -, -, key, hkey, hv⟩ := h
    exact run.signedFresh hkeeps hreads hp hkey hv
  · intro options claims h
    simp only [verifyResourceToken, bind_eq_ok, expectResource_eq_ok] at h
    obtain ⟨parsed, hp, c, rfl, -, -, -, -, -, -, -, -, key, hkey, verified,
      hv, rfl⟩ := h
    exact run.signedFresh hkeeps hreads hp hkey hv

end Age

/-! ## Two calls, hours apart -/

namespace Sample

def keysUrl : String := "https://agent.example/jwks.json"

/-- Both calls ask for one key set; the server's is empty. -/
def jwksCall (_ : Bool) : FetcherCall := .fetchJwks keysUrl

def emptyKeys (_ : Bytes) : Option JwkSet := some ⟨[]⟩

/-- Each call is made `pause` after what was before it, and a GET is
answered at once. -/
def reachable (pause : Nat) : Surroundings where
  wait o := match o with
    | .cachedJwks _ => pause
    | _ => 0
  response := some ⟨200, some []⟩

/-- The time of an event that ends a GET. -/
def downloadTime (e : Bool × FetchEvent) : Option Nat :=
  match e.2 with
  | ⟨.finishGet _, r⟩ => some r.time
  | _ => none

/-- The second call comes 25 hours after the first and returns what the
first has downloaded. -/
theorem jwks_returned_after_a_day : ¬ ∀ t P,
    FetcherRun crates emptyKeys jwksCall 0 t P → ∀ i jwks,
      P.thread i = .ret (.ok (.jwks jwks)) →
      ∃ uri, ReturnedFresh emptyKeys jwksCall t i uri jwks := by
  intro h
  have hrun : ∃ t P, Pool.play
        (fetcherAnswer (reachable (durationFromSecs 90000)))
        (List.replicate 6 true ++ [false])
        ([], fetchers crates emptyKeys jwksCall 0) = some (t, P) ∧
      P.thread false = .ret (.ok (.jwks ⟨[]⟩)) ∧
      lastTime false t = some (durationFromSecs 180000) ∧
      t.filterMap downloadTime = [durationFromSecs 90000] :=
    ⟨_, _, rfl, rfl, rfl, rfl⟩
  obtain ⟨t, P, hp, hret, hlast, hdowns⟩ := hrun
  obtain ⟨uri, -, returned, d, hr, hdown, hle⟩ :=
    h t P (fetchers_play hp) false _ hret
  obtain ⟨i, status, bytes, hm, -, -⟩ := hdown
  have hd : d ∈ t.filterMap downloadTime :=
    List.mem_filterMap.mpr ⟨_, hm, rfl⟩
  rw [hdowns, List.mem_singleton] at hd
  rw [hlast] at hr
  cases hr
  subst hd
  exact absurd hle (by decide)

/-- The second call comes 23 hours after the first. -/
theorem jwks_returned_within_a_day : ∃ t P,
    FetcherRun crates emptyKeys jwksCall 0 t P ∧
    P.thread false = .ret (.ok (.jwks ⟨[]⟩)) ∧
    ∃ uri, ReturnedFresh emptyKeys jwksCall t false uri ⟨[]⟩ := by
  have hrun : ∃ t P, Pool.play
        (fetcherAnswer (reachable (durationFromSecs 82800)))
        (List.replicate 6 true ++ [false])
        ([], fetchers crates emptyKeys jwksCall 0) = some (t, P) ∧
      P.thread false = .ret (.ok (.jwks ⟨[]⟩)) ∧ Along KeepsFresh t := by
    refine ⟨_, _, rfl, rfl, ?_, ?_, trivial, trivial, trivial, trivial, ?_,
      trivial⟩
    · rintro d ⟨⟩
      show durationFromSecs 165600 ≤ durationFromSecs 82800 + JWKS_MAX_AGE
      decide
    · rintro d ⟨⟩
      exact Nat.le_add_right _ _
    · exact nofun
  obtain ⟨t, P, hp, hret, hkeeps⟩ := hrun
  have run : FetcherRun crates emptyKeys jwksCall 0 t P := fetchers_play hp
  exact ⟨t, P, run, hret,
    (jwks_at_most_a_day_old run hkeeps).1 false _ hret⟩

end Sample

end Aauth
