import Aauth.Ref.AgentClient

/-!
# The metadata fetcher (`aauth-reqwest/src/metadata.rs`)

Three maps behind a mutex each: where an issuer's keys are, the keys, and
when a URL was last fetched. A call is a program over the holds of those
mutexes and the HTTP client; every answer says when it was given, which is
where the code reads its clock. Clones of one fetcher are calls over one
cache.
-/

namespace Aauth

open Text Except Effect

/-- `METADATA_CACHE_TTL` -/
def METADATA_CACHE_TTL : Nat := durationFromSecs 600

/-- `MIN_FETCH_INTERVAL` -/
def MIN_FETCH_INTERVAL : Nat := durationFromSecs 60

/-! ## Documents (`protocol/metadata.rs`) -/

/-- The field of the Agent Provider metadata that the fetcher reads. -/
structure AgentProviderMetadata where
  jwksUri : String
deriving DecidableEq, Repr

def AgentProviderMetadata.fromJwksUri (jwksUri : String) :
    AgentProviderMetadata where
  jwksUri := jwksUri

/-- The members that are texts; none of them is required. -/
def AgentProviderMetadata.textMembers : List String :=
  ["issuer", "name", "description", "logo_uri", "logo_dark_uri",
    "documentation_uri", "callback_endpoint", "event_endpoint",
    "login_endpoint", "tos_uri", "policy_uri"]

def AgentProviderMetadata.fromJson (j : Json) :
    Option AgentProviderMetadata := do
  let field ← j.fields
    ("jwks_uri" :: "localhost_callback_allowed" :: textMembers)
  let jwksUri ← Json.required Json.asStr (field "jwks_uri")
  textMembers.forM fun name =>
    (Json.optional Json.asStr (field name)).map fun _ => ()
  let _ ← Json.optional Json.asBool (field "localhost_callback_allowed")
  return { jwksUri }

/-! ## The cache -/

structure CacheEntry where
  jwksUri : String
  fetchedAt : Instant
deriving DecidableEq, Repr

structure MetadataCache where
  metadata : AList fun _ : String => CacheEntry
  jwks : AList fun _ : String => JwkSet
  lastFetch : AList fun _ : String => Instant

def MetadataCache.new : MetadataCache where
  metadata := ∅
  jwks := ∅
  lastFetch := ∅

/-- `elapsed()` of an instant that is not in the future. -/
def elapsed (now since : Instant) : Nat := now - since

/-! ## Effects -/

/-- What came of a GET that was answered; `none` is a body that broke
off. -/
structure FetchedResponse where
  status : Nat
  body : Option Bytes
deriving DecidableEq, Repr

inductive FetchOp where
  /-- The metadata of a URL, when it is younger than its TTL. -/
  | freshMetadata (url : String)
  /-- The metadata of a URL, whatever its age. -/
  | anyMetadata (url : String)
  | canFetch (key : String)
  | recordFetch (key : String)
  | cachedJwks (jwksUri : String)
  | storeMetadata (url jwksUri : String)
  | storeJwks (jwksUri : String) (jwks : JwkSet)
  | clearMetadata
  | clearJwks
  | clearLastFetch
  /-- The request leaves. -/
  | startGet (url : String)
  /-- Its response is there, or it has failed. -/
  | finishGet (url : String)
deriving DecidableEq, Repr

abbrev FetchOp.Reply : FetchOp → Type
  | freshMetadata _ | anyMetadata _ => Option String
  | canFetch _ => Bool
  | cachedJwks _ => Option JwkSet
  | finishGet _ => Option FetchedResponse
  | recordFetch _ | storeMetadata _ _ | storeJwks _ _ | clearMetadata
  | clearJwks | clearLastFetch | startGet _ => Unit

/-- An answer and when it was given. -/
structure Timed (α : Type) where
  time : Instant
  value : α

abbrev fetchSig : Sig where
  Op := FetchOp
  Ans o := Timed o.Reply

abbrev FetchTask (α : Type) := ExceptT AAuthError (Prog fetchSig) α

/-- One call, its time left aside. -/
def ask (o : FetchOp) : FetchTask o.Reply :=
  ExceptT.mk (.call o fun r => .ret (.ok r.value))

def refuse {α : Type} (e : MetadataError) : FetchTask α :=
  throw (.metadata e)

/-! ## Fetching -/

/-- `client.get(url).send().await?` up to `response.bytes().await?` -/
def getBytes (url : String) : FetchTask Bytes := do
  ask (.startGet url)
  match ← ask (.finishGet url) with
  | none => refuse (.request url)
  | some response =>
      if isSuccess response.status = false then
        refuse (.httpStatus url response.status)
      else match response.body with
        | none => refuse (.request url)
        | some bytes => return bytes

/-- Past the cache: the fetch is recorded before it starts. -/
def downloadMetadata (cr : Crates) (metadataUrl : String) :
    FetchTask AgentProviderMetadata := do
  ask (.recordFetch metadataUrl)
  let bytes ← getBytes metadataUrl
  match fromSlice cr AgentProviderMetadata.fromJson bytes with
  | none => refuse (.decode metadataUrl)
  | some metadata =>
      if metadata.jwksUri.isEmpty then refuse (.missingJwksUri metadataUrl)
      else do
        ask (.storeMetadata metadataUrl metadata.jwksUri)
        return metadata

/-- A denied fetch uses stale metadata, and goes on when there is none. -/
def fetchIssuerMetadata (cr : Crates) (metadataUrl : String) :
    FetchTask AgentProviderMetadata := do
  match ← ask (.freshMetadata metadataUrl) with
  | some jwksUri => return .fromJwksUri jwksUri
  | none =>
      let allowed ← ask (.canFetch metadataUrl)
      if allowed = true then downloadMetadata cr metadataUrl
      else match ← ask (.anyMetadata metadataUrl) with
        | some jwksUri => return .fromJwksUri jwksUri
        | none => downloadMetadata cr metadataUrl

def resolveJwksUri (cr : Crates) (iss dwk : String) : FetchTask String := do
  let metadata ← fetchIssuerMetadata cr
    (trimEndMatches iss '/' ++ "/.well-known/" ++ dwk)
  return metadata.jwksUri

/-- `jwkSetFromSlice` is `serde_json::from_slice::<JwkSet>`. -/
def downloadJwks (jwkSetFromSlice : Bytes → Option JwkSet)
    (jwksUri : String) : FetchTask JwkSet := do
  ask (.recordFetch jwksUri)
  let bytes ← getBytes jwksUri
  match jwkSetFromSlice bytes with
  | none => refuse (.decode jwksUri)
  | some jwks => do
      ask (.storeJwks jwksUri jwks)
      return jwks

/-- A denied fetch uses the key set that has been stored meanwhile, and is
refused when there is none. -/
def fetchJwks (jwkSetFromSlice : Bytes → Option JwkSet)
    (jwksUri : String) : FetchTask JwkSet := do
  match ← ask (.cachedJwks jwksUri) with
  | some cached => return cached
  | none =>
      let allowed ← ask (.canFetch jwksUri)
      if allowed = true then downloadJwks jwkSetFromSlice jwksUri
      else match ← ask (.cachedJwks jwksUri) with
        | some cached => return cached
        | none => refuse (.rateLimited jwksUri)

def clearCache : FetchTask Unit := do
  ask .clearMetadata
  ask .clearJwks
  ask .clearLastFetch

/-! ## Calls side by side -/

inductive FetcherCall where
  | fetchMetadata (metadataUrl : String)
  | resolveJwksUri (iss dwk : String)
  | fetchJwks (jwksUri : String)
  | clearCache
deriving DecidableEq, Repr

inductive FetcherReply where
  | metadata (m : AgentProviderMetadata)
  | jwksUri (jwksUri : String)
  | jwks (jwks : JwkSet)
  | cleared
deriving DecidableEq, Repr

def FetcherCall.run (cr : Crates)
    (jwkSetFromSlice : Bytes → Option JwkSet) :
    FetcherCall → FetchTask FetcherReply
  | fetchMetadata url => do return .metadata (← fetchIssuerMetadata cr url)
  | resolveJwksUri iss dwk => do
      return .jwksUri (← Aauth.resolveJwksUri cr iss dwk)
  | fetchJwks uri => do return .jwks (← Aauth.fetchJwks jwkSetFromSlice uri)
  | clearCache => do
      Aauth.clearCache
      return .cleared

/-- The cache and the clock. -/
structure FetcherState where
  cache : MetadataCache
  now : Instant

/-- What one operation answers at the time `now`, and the cache after it;
the HTTP client answers as it pleases. -/
def MetadataCache.answers (c : MetadataCache) (now : Instant) :
    (o : FetchOp) → o.Reply → MetadataCache → Prop
  | .freshMetadata url, r, c' => c' = c ∧
      r = ((c.metadata.lookup url).filter fun entry =>
        elapsed now entry.fetchedAt < METADATA_CACHE_TTL).map (·.jwksUri)
  | .anyMetadata url, r, c' => c' = c ∧
      r = (c.metadata.lookup url).map (·.jwksUri)
  | .canFetch key, r, c' => c' = c ∧ r = match c.lastFetch.lookup key with
      | some last => decide (MIN_FETCH_INTERVAL ≤ elapsed now last)
      | none => true
  | .recordFetch key, _, c' =>
      c' = { c with lastFetch := c.lastFetch.insert key now }
  | .cachedJwks uri, r, c' => c' = c ∧ r = c.jwks.lookup uri
  | .storeMetadata url jwksUri, _, c' =>
      c' = { c with metadata := c.metadata.insert url ⟨jwksUri, now⟩ }
  | .storeJwks uri jwks, _, c' =>
      c' = { c with jwks := c.jwks.insert uri jwks }
  | .clearMetadata, _, c' => c' = { c with metadata := ∅ }
  | .clearJwks, _, c' => c' = { c with jwks := ∅ }
  | .clearLastFetch, _, c' => c' = { c with lastFetch := ∅ }
  | .startGet _, _, c' => c' = c
  | .finishGet _, _, c' => c' = c

/-- The clock does not run back. -/
def fetcherWorld : World fetchSig FetcherState :=
  fun s o r s' => s.now ≤ r.time ∧ s'.now = r.time ∧
    s.cache.answers r.time o r.value s'.cache

/-- Calls on clones of one new fetcher. -/
def fetchers {ι : Type} (cr : Crates)
    (jwkSetFromSlice : Bytes → Option JwkSet) (call : ι → FetcherCall)
    (now : Instant) :
    Pool fetchSig FetcherState ι (Except AAuthError FetcherReply) where
  state := ⟨.new, now⟩
  thread i := ((call i).run cr jwkSetFromSlice).run

end Aauth
