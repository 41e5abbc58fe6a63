import Aauth.Ref.Metadata

/-!
# A sample fetcher

Clones of one fetcher under a clock that moves only when an operation is
waited for, and in front of a server that answers every GET alike.
-/

namespace Aauth.Sample

open Effect

/-- How long each operation is waited for, and what a GET is answered. -/
structure Surroundings where
  wait : FetchOp → Nat
  response : Option FetchedResponse

/-- What an operation answers on a cache at the time `now`, and the cache
after it. -/
def Surroundings.answer (env : Surroundings) (c : MetadataCache)
    (now : Instant) : (o : FetchOp) → o.Reply × MetadataCache
  | .freshMetadata url => (((c.metadata.lookup url).filter fun entry =>
      elapsed now entry.fetchedAt < METADATA_CACHE_TTL).map (·.jwksUri), c)
  | .anyMetadata url => ((c.metadata.lookup url).map (·.jwksUri), c)
  | .canFetch key => (match c.lastFetch.lookup key with
      | some last => decide (MIN_FETCH_INTERVAL ≤ elapsed now last)
      | none => true, c)
  | .recordFetch key => ((), { c with lastFetch := c.lastFetch.insert key now })
  | .cachedJwks uri => (c.jwks.lookup uri, c)
  | .storeMetadata url jwksUri =>
      ((), { c with metadata := c.metadata.insert url ⟨jwksUri, now⟩ })
  | .storeJwks uri jwks => ((), { c with jwks := c.jwks.insert uri jwks })
  | .clearMetadata => ((), { c with metadata := ∅ })
  | .clearJwks => ((), { c with jwks := ∅ })
  | .clearLastFetch => ((), { c with lastFetch := ∅ })
  | .startGet _ => ((), c)
  | .finishGet _ => (env.response, c)

def fetcherAnswer (env : Surroundings) (s : FetcherState) (o : FetchOp) :
    Option (Timed o.Reply × FetcherState) :=
  let now : Nat := s.now + env.wait o
  let (r, c) := env.answer s.cache now o
  some (⟨now, r⟩, ⟨c, now⟩)

theorem Surroundings.answer_answers (env : Surroundings) (c : MetadataCache)
    (now : Instant) (o : FetchOp) :
    c.answers now o (env.answer c now o).1 (env.answer c now o).2 := by
  cases o with
  | freshMetadata _ | anyMetadata _ | canFetch _ | cachedJwks _ =>
      exact ⟨rfl, rfl⟩
  | _ => exact rfl

theorem fetcherAnswer_world (env : Surroundings) (s : FetcherState)
    (o : FetchOp) (r : Timed o.Reply) (s' : FetcherState)
    (h : fetcherAnswer env s o = some (r, s')) : fetcherWorld s o r s' := by
  cases h
  exact ⟨Nat.le_add_right _ _, rfl, env.answer_answers _ _ _⟩

/-- A schedule played over the calls is a run of them. -/
theorem fetchers_play {ι : Type} [DecidableEq ι] {env : Surroundings}
    {cr : Crates} {jwkSetFromSlice : Bytes → Option JwkSet}
    {call : ι → FetcherCall} {start : Instant} {is : List ι}
    {t : List (ι × Event fetchSig)}
    {P : Pool fetchSig FetcherState ι (Except AAuthError FetcherReply)}
    (h : Pool.play (fetcherAnswer env) is
      ([], fetchers cr jwkSetFromSlice call start) = some (t, P)) :
    Steps fetcherWorld (fun _ _ _ => True)
      (fetchers cr jwkSetFromSlice call start) t P :=
  Steps.play (fetcherAnswer_world env) .nil h

end Aauth.Sample
