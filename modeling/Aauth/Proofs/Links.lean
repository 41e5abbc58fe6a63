import Aauth.Proofs.Routing

/-!
# The links a server hands out lead back to it

A deferral names the URL it is polled at, a requirement the page where its
code is entered, a redirect the callback at its end, and the metadata the
token endpoint. Each is put together from the configuration and an
identifier in one module, and taken apart by the router, the extractors and
the parser of a client in others. For a server that is mounted where its
configuration says, the request that is made for a link asks for the very
call the link was meant for.
-/

namespace Aauth

open Text Except Effect

variable {cr : Crates} {ax : AxumCrate} {env : HandlerEnv}
  {req : ServerRequest} {base : String}

/-! ## PlainText texts -/

/-- A character that stands for itself everywhere in a URL. -/
def isUnreserved (c : Char) : Bool :=
  c.isAlphanum || c == '-' || c == '.' || c == '_' || c == '~'

/-- A text that needs no encoding, and is there. -/
structure PlainText (s : String) : Prop where
  some : s.toList ≠ []
  all : ∀ c ∈ s.toList, isUnreserved c = true

instance (s : String) : Decidable (PlainText s) :=
  decidable_of_iff (s.toList ≠ [] ∧ ∀ c ∈ s.toList, isUnreserved c = true)
    ⟨fun h => ⟨h.1, h.2⟩, fun h => ⟨h.some, h.all⟩⟩

theorem PlainText.not_mem {s : String} (h : PlainText s) {c : Char}
    (hc : isUnreserved c = false) : c ∉ s.toList := fun hm => by
  rw [h.all c hm] at hc
  cases hc

/-- A segment of a path: a plain text that is no dot segment. -/
structure IsSegment (s : String) : Prop where
  plain : PlainText s
  one : s ≠ "."
  two : s ≠ ".."

instance (s : String) : Decidable (IsSegment s) :=
  decidable_of_iff (PlainText s ∧ s ≠ "." ∧ s ≠ "..")
    ⟨fun h => ⟨h.1, h.2.1, h.2.2⟩, fun h => ⟨h.plain, h.one, h.two⟩⟩

theorem unreserved_hexDigit (n : Nat) : isUnreserved (hexDigit n) = true := by
  have hall : ∀ c ∈ "0123456789abcdef".toList, isUnreserved c = true := by
    decide
  rw [hexDigit, List.getD_eq_getElem?_getD]
  cases h : "0123456789abcdef".toList[n]? with
  | none => rfl
  | some c => exact hall c (List.mem_of_getElem? h)

theorem hexDigit_ne_dot (n : Nat) : hexDigit n ≠ '.' := by
  have hall : ∀ c ∈ "0123456789abcdef".toList, c ≠ '.' := by decide
  rw [hexDigit, List.getD_eq_getElem?_getD]
  cases h : "0123456789abcdef".toList[n]? with
  | none => decide
  | some c => exact hall c (List.mem_of_getElem? h)

theorem mem_generatePendingId {bytes : Bytes} {c : Char}
    (h : c ∈ (generatePendingId bytes).toList) : ∃ n, c = hexDigit n := by
  rw [generatePendingId, String.toList_ofList, List.mem_flatMap] at h
  obtain ⟨b, -, hc⟩ := h
  simp only [List.mem_cons, List.not_mem_nil, or_false] at hc
  rcases hc with rfl | rfl
  · exact ⟨_, rfl⟩
  · exact ⟨_, rfl⟩

/-- An identifier is drawn from sixteen bytes, so it is not empty. -/
theorem isSegment_generatePendingId {bytes : Bytes} (h : bytes ≠ []) :
    IsSegment (generatePendingId bytes) := by
  have hplain : PlainText (generatePendingId bytes) := by
    refine ⟨fun hn => ?_, fun c hc => ?_⟩
    · obtain ⟨b, l, rfl⟩ := List.exists_cons_of_ne_nil h
      rw [generatePendingId, String.toList_ofList] at hn
      cases hn
    · obtain ⟨n, rfl⟩ := mem_generatePendingId hc
      exact unreserved_hexDigit n
  have hdot : '.' ∉ (generatePendingId bytes).toList := fun hm => by
    obtain ⟨n, hn⟩ := mem_generatePendingId hm
    exact hexDigit_ne_dot n hn.symm
  refine ⟨hplain, fun he => ?_, fun he => ?_⟩
  · rw [he] at hdot
    exact hdot (by decide)
  · rw [he] at hdot
    exact hdot (by decide)

theorem plain_generateCode (bytes : Bytes) : PlainText (generateCode bytes) := by
  have hall : ∀ c ∈ CROCKFORD32, isUnreserved c = true := by decide
  rw [generateCode_eq]
  refine ⟨?_, fun c hc => ?_⟩
  · rw [String.toList_ofList]
    exact List.append_ne_nil_of_right_ne_nil _ (List.cons_ne_nil _ _)
  · rw [String.toList_ofList, List.mem_append, List.mem_cons] at hc
    rcases hc with hc | rfl | hc
    · exact hall c (codeSymbols_mem (List.mem_of_mem_take hc))
    · decide
    · exact hall c (codeSymbols_mem (List.mem_of_mem_drop hc))

/-! ## URLs -/

/-- What follows the scheme of a URL that has nothing but an origin. -/
def isAuthorityChar (c : Char) : Bool :=
  c.isAlphanum || c == '-' || c == '.' || c == ':'

/-- The URL of a server: its scheme, its host and its port. -/
structure IsBase (cr : Crates) (base : String) : Prop where
  text : ∃ scheme authority, (scheme = "http" ∨ scheme = "https") ∧
    authority.toList ≠ [] ∧
    (∀ c ∈ authority.toList, isAuthorityChar c = true) ∧
    base = scheme ++ "://" ++ authority
  parses : ∃ u, cr.urlParse base = .ok u

def pathText (segments : List String) : String :=
  String.ofList (segments.flatMap fun s => '/' :: s.toList)

def queryText : Option (String × String) → String
  | none => ""
  | some p => "?" ++ p.1 ++ "=" ++ p.2

/-- A URL that is made of a base, plain segments and at most one plain pair
is taken apart as it was put together, and written as it stands. -/
structure LinkLaws (cr : Crates) (ax : AxumCrate) : Prop where
  uri : ∀ {base : String} {segments : List String}
    {query : Option (String × String)}, IsBase cr base → segments ≠ [] →
    (∀ s ∈ segments, IsSegment s) →
    (∀ p ∈ query, PlainText p.1 ∧ PlainText p.2) →
      cr.httpUri (base ++ pathText segments ++ queryText query) =
        .ok (base ++ pathText segments ++ queryText query)
  parse : ∀ {base : String} {segments : List String}
    {query : Option (String × String)}, IsBase cr base → segments ≠ [] →
    (∀ s ∈ segments, IsSegment s) →
    (∀ p ∈ query, PlainText p.1 ∧ PlainText p.2) → ∃ u,
      cr.urlParse (base ++ pathText segments ++ queryText query) = .ok u ∧
      u.path = pathText segments ∧
      u.query = query.map fun p => p.1 ++ "=" ++ p.2
  percentDecode : ∀ {s : String}, PlainText s → ax.percentDecode s = some s
  formPairs : ∀ {k v : String}, PlainText k → PlainText v →
    ax.formPairs (k ++ "=" ++ v) = [(k, v)]
  jsonContentType : ax.jsonContentType "application/json" = true

/-- The request is made for the URL. -/
structure Fetches (cr : Crates) (url : String) (req : ServerRequest) :
    Prop where
  target : ∃ u, cr.urlParse url = .ok u ∧ req.path = u.path ∧
    req.query = u.query

theorem Fetches.of_parts (laws : LinkLaws cr ax) (hb : IsBase cr base)
    {segments : List String} {query : Option (String × String)}
    (hne : segments ≠ []) (hs : ∀ s ∈ segments, IsSegment s)
    (hq : ∀ p ∈ query, PlainText p.1 ∧ PlainText p.2)
    (h : Fetches cr (base ++ pathText segments ++ queryText query) req) :
    req.path = pathText segments ∧
      req.query = query.map fun p => p.1 ++ "=" ++ p.2 := by
  obtain ⟨u, hu, hpath, hquery⟩ := h.target
  obtain ⟨u', hu', hpath', hquery'⟩ := laws.parse hb hne hs hq
  cases hu.symm.trans hu'
  exact ⟨hpath.trans hpath', hquery.trans hquery'⟩

theorem segments_of_two {segments : List String} {s : String}
    (h : ∀ s ∈ segments, IsSegment s) (hs : IsSegment s) :
    ∀ t ∈ segments ++ [s], IsSegment t := by
  intro t ht
  rcases List.mem_append.mp ht with ht | ht
  · exact h t ht
  · rw [List.mem_singleton.mp ht]
    exact hs

theorem no_pair : ∀ p ∈ (none : Option (String × String)),
    PlainText p.1 ∧ PlainText p.2 := by
  intro p hp
  cases hp

theorem pair_of_plain {k v : String} (hk : PlainText k) (hv : PlainText v) :
    ∀ p ∈ some (k, v), PlainText p.1 ∧ PlainText p.2 := by
  intro p hp
  cases hp
  exact ⟨hk, hv⟩

/-- Nothing is trimmed from a text that ends in another character. -/
theorem trimEndMatches_of_last {s : String} {c : Char} (front : List Char)
    (d : Char) (h : s.toList = front ++ [d]) (hd : d ≠ c) : trimEndMatches s c = s := by
  rw [trimEndMatches, trimEndL, dropWhile_of_not, List.reverse_reverse,
    String.ofList_toList]
  intro e he
  rw [h, List.reverse_append, List.reverse_singleton, List.singleton_append,
    List.head?_cons] at he
  cases he
  exact beq_false_of_ne hd

/-- A server is reached over HTTP. -/
theorem IsBase.absolute (h : IsBase cr base) (path : String) :
    (startsWith (base ++ path) "http://" ||
      startsWith (base ++ path) "https://") = true := by
  obtain ⟨scheme, authority, hs, -, -, rfl⟩ := h.text
  rw [Bool.or_eq_true]
  rcases hs with rfl | rfl
  · refine .inl (startsWith_iff.mpr ⟨authority ++ path, ?_⟩)
    simp only [← String.append_assoc]
    rfl
  · refine .inr (startsWith_iff.mpr ⟨authority ++ path, ?_⟩)
    simp only [← String.append_assoc]
    rfl

/-- The base of a server ends where its path begins. -/
theorem IsBase.trimEnd (h : IsBase cr base) :
    trimEndMatches base '/' = base := by
  obtain ⟨scheme, authority, -, hne, hall, rfl⟩ := h.text
  obtain ⟨front, c, hc⟩ : ∃ front c, authority.toList = front ++ [c] :=
    ⟨_, _, (List.dropLast_concat_getLast hne).symm⟩
  have hslash : isAuthorityChar c = true :=
    hall c (hc ▸ List.mem_append_right _ List.mem_cons_self)
  refine trimEndMatches_of_last ((scheme ++ "://").toList ++ front) c
    (by rw [String.toList_append, hc, List.append_assoc]) fun hn => ?_
  rw [hn] at hslash
  exact absurd hslash (by decide)

theorem pathText_append (a b : List String) :
    pathText (a ++ b) = pathText a ++ pathText b := by
  rw [pathText, List.flatMap_append, String.ofList_append]
  rfl

theorem pathText_one (s : String) : pathText [s] = "/" ++ s := by
  rw [← String.toList_inj, pathText, String.toList_ofList,
    String.toList_append]
  simp

theorem pathText_two (s t : String) :
    pathText [s, t] = "/" ++ s ++ ("/" ++ t) := by
  rw [← pathText_one, ← pathText_one, ← pathText_append]
  rfl

/-- The location of a pending record, as a path on the server. -/
theorem pendingLocation_eq {url path id : String} (segments : List String)
    (hbase : trimEndMatches url '/' = base)
    (hpath : "/" ++ trimStartMatches path '/' = pathText segments) :
    pendingLocation url path id =
      base ++ pathText (segments ++ [id]) ++ queryText none := by
  rw [pendingLocation, hbase, pathText_append, pathText_one, ← hpath,
    queryText, String.append_empty]
  simp only [String.append_assoc]

/-! ## The Person Server -/

/-- The server is mounted where its configuration says. -/
structure PersonServerState.Mounted (cr : Crates) (state : PersonServerState)
    (base : String) : Prop where
  isBase : IsBase cr base
  pendingBaseUrl : trimEndMatches state.config.pendingBaseUrl '/' = base
  pendingPath : "/" ++ trimStartMatches state.config.pendingPath '/' =
    "/pending"
  interactionUrl : state.config.interactionUrl = base ++ "/interact"

section Person

variable {state : PersonServerState} {id code : String}

/-- A path with a parameter is no other route's. -/
theorem personAsks_pending (h : pathParam "/pending/" req.path = some id) :
    personAsks cr ax env state req =
      if req.method = "POST" then do
        let id ← decodedId ax id
        let input ← pendingResumeInput cr req
        return .resumePending id input
      else asking "GET" req do
        let id ← decodedId ax id
        return .pollPending id := by
  have hne : ∀ path, pathParam "/pending/" path = none → req.path ≠ path := by
    intro path hp he
    rw [← he, h] at hp
    cases hp
  rw [personAsks, if_neg (hne _ (by decide)), if_neg (hne _ (by decide)),
    if_neg (hne _ (by decide)), if_neg (hne _ (by decide)),
    if_neg (hne _ (by decide)), h]

theorem pathParam_segment {before : String} (h : IsSegment id) :
    pathParam before (before ++ id) = some id := by
  have hempty : id.isEmpty = false := by
    rw [Bool.eq_false_iff]
    intro hn
    exact h.plain.some (by rw [String.isEmpty_iff.mp hn]; rfl)
  have hslash : containsChar id '/' = false := by
    rw [containsChar, Bool.eq_false_iff]
    intro hn
    exact h.plain.not_mem (by decide) (List.contains_iff_mem.mp hn)
  rw [pathParam, stripPrefix_append, Option.filter_some, hempty, hslash]
  rfl

section Mounted

variable (laws : LinkLaws cr ax) (hm : state.Mounted cr base)
include laws hm

/-- The location of a record is where the record is polled and posted to. -/
theorem PersonServerState.Mounted.asks_location (hid : IsSegment id)
    (h : Fetches cr (pendingLocation state.config.pendingBaseUrl
      state.config.pendingPath id) req) :
    personAsks cr ax env state req =
      if req.method = "POST" then
        (pendingResumeInput cr req).map (.resumePending id)
      else asking "GET" req (.ok (.pollPending id)) := by
  have one_segment : ∀ s ∈ ["pending"], IsSegment s := by decide
  rw [pendingLocation_eq ["pending"] hm.pendingBaseUrl hm.pendingPath] at h
  have hpath : req.path = "/pending/" ++ id := by
    rw [(h.of_parts laws hm.isBase (List.cons_ne_nil _ _)
      (segments_of_two one_segment hid) no_pair).1]
    show pathText ["pending", id] = _
    rw [pathText_two, ← String.append_assoc]
    rfl
  have hparam : pathParam "/pending/" req.path = some id := by
    rw [hpath, pathParam_segment hid]
  rw [personAsks_pending hparam, decodedId, laws.percentDecode hid.plain]
  split
  · show (pendingResumeInput cr req >>= _) = _
    cases pendingResumeInput cr req with
    | error e => rfl
    | ok input => rfl
  · rfl

/-- The token endpoint of the metadata takes exchanges. -/
theorem PersonServerState.Mounted.asks_endpoint
    (h : Fetches cr (base ++ "/aauth/token") req)
    (hmethod : req.method = "POST") :
    personAsks cr ax env state req =
      optionJson cr ax TokenExchangeRequest.fromJson req >>=
        exchangeAsks cr env state req := by
  have hurl : base ++ "/aauth/token" =
      base ++ pathText ["aauth", "token"] ++ queryText none := by
    rw [queryText, String.append_empty]
    rfl
  rw [hurl] at h
  obtain ⟨hpath, -⟩ := h.of_parts laws hm.isBase (List.cons_ne_nil _ _)
    (by decide) no_pair
  rw [personAsks, hpath, if_neg (by decide), if_neg (by decide),
    if_pos (by decide), asking, if_pos hmethod]

/-- The metadata is where it is looked for. -/
theorem PersonServerState.Mounted.asks_metadata
    (h : Fetches cr (base ++ "/.well-known/aauth-person.json") req)
    (hmethod : req.method = "GET") :
    personAsks cr ax env state req =
      .error (.response (personMetadataHandler cr state)) := by
  have hurl : base ++ "/.well-known/aauth-person.json" = base ++
      pathText [".well-known", "aauth-person.json"] ++ queryText none := by
    rw [queryText, String.append_empty]
    rfl
  rw [hurl] at h
  obtain ⟨hpath, -⟩ := h.of_parts laws hm.isBase (List.cons_ne_nil _ _)
    (by decide) no_pair
  rw [personAsks, hpath, if_pos (by decide), asking, if_pos hmethod]

/-- A code that is entered at the interaction page is tried. -/
theorem PersonServerState.Mounted.asks_visit (hcode : PlainText code)
    (h : Fetches cr (state.config.interactionUrl ++ "?code=" ++ code) req)
    (hmethod : req.method = "GET") :
    personAsks cr ax env state req = .ok (.beginInteraction code) := by
  have hurl : state.config.interactionUrl ++ "?code=" ++ code =
      base ++ pathText ["interact"] ++ queryText (some ("code", code)) := by
    rw [hm.interactionUrl, queryText, pathText_one]
    simp only [String.append_assoc]
    rfl
  rw [hurl] at h
  obtain ⟨hpath, hquery⟩ := h.of_parts laws hm.isBase
    (List.cons_ne_nil _ _) (by decide) (pair_of_plain (by decide) hcode)
  have hq : interactionStartQuery ax req = some code := by
    rw [interactionStartQuery, hquery]
    show (do
      let c ← queryField (ax.formPairs ("code" ++ "=" ++ code)) "code"
      c) = some code
    rw [laws.formPairs (by decide) hcode]
    rfl
  rw [personAsks, hpath, if_neg (by decide), if_neg (by decide),
    if_neg (by decide), if_pos (by decide), asking, if_pos hmethod, hq]
  rfl

/-- The callback of a record resolves it. -/
theorem PersonServerState.Mounted.asks_callback (hid : IsSegment id)
    (h : Fetches cr (trimEndMatches state.config.interactionUrl '/' ++
      "/callback?id=" ++ id) req) (hmethod : req.method = "GET") :
    personAsks cr ax env state req =
      .ok (.resolveInteractionCallback id none) := by
  have hurl : trimEndMatches state.config.interactionUrl '/' ++
      "/callback?id=" ++ id = base ++ pathText ["interact", "callback"] ++
        queryText (some ("id", id)) := by
    rw [hm.interactionUrl, trimEndMatches_of_last
      (base ++ "/interac").toList 't'
      (by rw [String.toList_append, String.toList_append,
        List.append_assoc]; rfl) (by decide), queryText, pathText_two]
    simp only [String.append_assoc]
    rfl
  rw [hurl] at h
  obtain ⟨hpath, hquery⟩ := h.of_parts laws hm.isBase
    (List.cons_ne_nil _ _) (by decide) (pair_of_plain (by decide) hid.plain)
  have hq : interactionCallbackQuery ax req = some (id, none) := by
    rw [interactionCallbackQuery, hquery]
    show (do
      let i ← queryField (ax.formPairs ("id" ++ "=" ++ id)) "id"
      let e ← queryField (ax.formPairs ("id" ++ "=" ++ id)) "error"
      return (← i, e)) = some (id, none)
    rw [laws.formPairs (by decide) hid.plain]
    rfl
  rw [personAsks, hpath, if_neg (by decide), if_neg (by decide),
    if_neg (by decide), if_neg (by decide), if_pos (by decide), asking,
    if_pos hmethod, hq]
  rfl

end Mounted

end Person

end Aauth
