import Aauth.Sample.Crates

/-!
# A parser of web URLs

The parts of `url` that decide on an origin: what the URL Standard takes
for the scheme and the host of a text, and how a reference is joined to a
URL. Ports, queries and fragments are left out.

A second parser takes `https` texts only, but takes them apart as a whole;
its hosts are names of letters, digits, hyphens and dots.
-/

namespace Aauth.Sample

open Except

/-- The end of a host. -/
def endsHost (c : Char) : Bool :=
  WebUrl.isSlash c || c == '?' || c == '#'

/-- Scheme, host and path, as the URL Standard finds them in a URL without
a port. -/
def webParse (text : String) : Except String Url :=
  match UriRef.takeScheme (WebUrl.clean text.toList) with
  | (none, _) => .error "relative URL without a base"
  | (some scheme, rest) =>
      let named := rest.dropWhile WebUrl.isSlash
      let host := named.takeWhile (!endsHost ·)
      if host = [] ∨ host.any WebUrl.isBlank = true then .error "empty host"
      else .ok
        { scheme := String.ofList (scheme.map Char.toLower), username := "",
          password := none, hostStr := some (String.ofList host),
          port := none, path := String.ofList (named.dropWhile (!endsHost ·)),
          query := none, fragment := none,
          origin := String.ofList (scheme.map Char.toLower) ++ "://" ++
            String.ofList host }

/-- A reference that stays is put behind the host. -/
def webJoin (base reference : String) : Except String String := do
  let b ← webParse base
  match WebUrl.read b.scheme.toList reference.toList with
  | .here => return b.origin ++ "/" ++
      String.ofList (UriRef.dropSlashes reference.toList)
  | .away text =>
      let _ ← webParse (String.ofList text)
      return String.ofList text

/-- The sample crates with these two. -/
def webCrates : Crates :=
  { crates with urlParse := webParse, urlJoin := webJoin }

theorem webCrates_urlJoin : webCrates.urlJoin = webJoin := rfl

theorem hasOrigin_web {url : String} {o : WebOrigin} :
    HasOrigin webCrates url o ↔ ∃ u, webParse url = .ok u ∧ u.webOrigin = o :=
  Iff.rfl

/-- A host that the parser takes. -/
structure IsHost (host : List Char) : Prop where
  named : host ≠ []
  plain : ∀ c ∈ host, endsHost c = false
  solid : ∀ c ∈ host, WebUrl.isBlank c = false

theorem webParse_eq_ok {text : String} {u : Url}
    (h : webParse text = .ok u) : ∃ host, IsHost host ∧
      u.hostStr = some (String.ofList host) ∧ u.port = none ∧
      u.origin = u.scheme ++ "://" ++ String.ofList host := by
  rw [webParse.eq_def] at h
  split at h
  · cases h
  · next scheme rest _ =>
    dsimp only at h
    split at h
    · cases h
    · next hn =>
      cases h
      rw [not_or] at hn
      refine ⟨_, ⟨hn.1, fun c hc => ?_, fun c hc => ?_⟩, rfl, rfl, rfl⟩
      · simpa using List.mem_takeWhile_imp hc
      · by_contra hb
        exact hn.2 (List.any_eq_true.mpr ⟨c, hc, by simpa using hb⟩)

theorem dropWhile_host {host : List Char} (h : IsHost host)
    (s : List Char) :
    (host ++ s).dropWhile WebUrl.isSlash = host ++ s := by
  cases host with
  | nil => exact absurd rfl h.named
  | cons c host =>
      have hc : WebUrl.isSlash c = false := by
        have := h.plain c List.mem_cons_self
        simp only [endsHost, Bool.or_eq_false_iff] at this
        exact this.1.1
      rw [List.cons_append, List.dropWhile_cons_of_neg (by simp [hc])]

theorem takeWhile_host {host : List Char} (h : IsHost host)
    (s : List Char) :
    (host ++ '/' :: s).takeWhile (!endsHost ·) = host := by
  rw [List.takeWhile_append_of_pos fun c hc => by simp [h.plain c hc],
    List.takeWhile_cons_of_neg (by decide), List.append_nil]

/-- What stands behind the host does not change the origin. -/
theorem webParse_behind {scheme : String} {host : List Char} (h : IsHost host)
    (hs : scheme = "http" ∨ scheme = "https") (s : List Char) :
    HasOrigin webCrates
      (scheme ++ "://" ++ String.ofList host ++ "/" ++ String.ofList s)
      ⟨scheme, some (String.ofList host), none⟩ := by
  have hsolid : ∀ c ∈ scheme.toList ++ "://".toList ++ host ++ ['/'],
      WebUrl.isBlank c = false := by
    intro c hc
    simp only [List.mem_append] at hc
    rcases hc with ((hc | hc) | hc) | hc
    · rcases hs with rfl | rfl
      · revert c
        decide
      · revert c
        decide
    · revert c
      decide
    · exact h.solid c hc
    · revert c
      decide
  obtain ⟨t, ht⟩ := WebUrl.clean_append hsolid s
  have htext : (scheme ++ "://" ++ String.ofList host ++ "/" ++
      String.ofList s).toList =
        scheme.toList ++ "://".toList ++ host ++ ['/'] ++ s := by
    simp
  have htake : UriRef.takeScheme
      (scheme.toList ++ "://".toList ++ host ++ ['/'] ++ t) =
        (some scheme.toList, "//".toList ++ (host ++ '/' :: t)) := by
    rw [List.append_assoc _ ['/'] t, List.append_assoc _ host]
    rcases hs with rfl | rfl
    · rfl
    · rfl
  have hnamed : ("//".toList ++ (host ++ '/' :: t)).dropWhile
      WebUrl.isSlash = host ++ '/' :: t := dropWhile_host h _
  have hlower : String.ofList (scheme.toList.map Char.toLower) = scheme := by
    rcases hs with rfl | rfl
    · rfl
    · rfl
  have hhost : ¬ (host = [] ∨ host.any WebUrl.isBlank = true) := by
    rw [not_or]
    refine ⟨h.named, fun hb => ?_⟩
    obtain ⟨c, hc, hb⟩ := List.any_eq_true.mp hb
    rw [h.solid c hc] at hb
    cases hb
  rw [hasOrigin_web, webParse, htext, ht, htake]
  dsimp only
  rw [hnamed, takeWhile_host h, if_neg hhost, hlower]
  exact ⟨_, rfl, rfl⟩

theorem webJoin_here {base reference : String} {u : Url}
    (hu : webParse base = .ok u)
    (h : WebUrl.read u.scheme.toList reference.toList = .here) :
    webJoin base reference = .ok (u.origin ++ "/" ++
      String.ofList (UriRef.dropSlashes reference.toList)) := by
  rw [webJoin, hu, ok_bind, h]
  rfl

theorem webJoin_away {base reference : String} {u : Url} {text : List Char}
    (hu : webParse base = .ok u)
    (h : WebUrl.read u.scheme.toList reference.toList = .away text) :
    webJoin base reference =
      webParse (String.ofList text) >>= fun _ => .ok (String.ofList text) := by
  rw [webJoin, hu, ok_bind, h]
  rfl

theorem webLaws : WebLaws webCrates where
  here {base reference o} hb hw hread := by
    obtain ⟨u, hu, rfl⟩ := hasOrigin_web.mp hb
    obtain ⟨host, hhost, hstr, hport, horigin⟩ := webParse_eq_ok hu
    have hbehind := webParse_behind hhost hw.1
      (UriRef.dropSlashes reference.toList)
    have ho : (⟨u.webOrigin.scheme, some (String.ofList host), none⟩ :
        WebOrigin) = u.webOrigin := by
      rw [Url.webOrigin, hstr, hport]
    have hjoin := webJoin_here hu hread
    rw [horigin] at hjoin
    rw [ho] at hbehind
    rw [webCrates_urlJoin]
    exact ⟨_, hjoin, hbehind⟩
  away {base reference o o' text} hb hw hread ho := by
    obtain ⟨u, hu, rfl⟩ := hasOrigin_web.mp hb
    obtain ⟨u', hu', -⟩ := hasOrigin_web.mp ho
    have hjoin := webJoin_away hu hread
    rw [hu', ok_bind] at hjoin
    rw [webCrates_urlJoin]
    exact ⟨_, hjoin, ho⟩
  unread {base reference o text} hb hw hread hn := by
    obtain ⟨u, hu, rfl⟩ := hasOrigin_web.mp hb
    have hjoin := webJoin_away hu hread
    cases hp : webParse (String.ofList text) with
    | ok u' =>
        have ho := hasOrigin_web.mpr ⟨u', hp, rfl⟩
        exact absurd ho (hn u'.webOrigin)
    | error e =>
        rw [hp, error_bind] at hjoin
        rw [webCrates_urlJoin]
        exact ⟨e, hjoin⟩
  relative {text o} h := by
    intro ho
    obtain ⟨u, hu, -⟩ := hasOrigin_web.mp ho
    rw [webParse.eq_def] at hu
    split at hu
    · cases hu
    · next htake =>
      rw [WebUrl.isAbsolute, htake] at h
      cases h

/-! ## All parts of an `https` URL -/

open WebUrl (Parts)

/-- A name in lower case. -/
def ldhHost (text : List Char) : Option (List Char) :=
  if text ≠ [] ∧ text.all (fun c => c.isLower || c.isDigit || c == '-' ||
      c == '.') = true then
    some text
  else none

def httpsUrl (h : List Char) (p : Parts) : Url where
  scheme := "https"
  username := String.ofList ((p.userinfo.map fun t =>
    (UriRef.cut ':' t).1).getD [])
  password := ((p.userinfo.bind fun t => (UriRef.cut ':' t).2).filter
    (· ≠ [])).map String.ofList
  hostStr := some (String.ofList h)
  port := p.port.bind fun t =>
    if t = [] ∨ WebUrl.decimal t = some 443 then none else WebUrl.decimal t
  path := String.ofList (UriRef.render p.stack)
  query := p.query.map String.ofList
  fragment := p.fragment.map String.ofList
  origin := "https://" ++ String.ofList h

def httpsParse (text : String) : Except String Url :=
  match UriRef.takeScheme (WebUrl.clean text.toList) with
  | (none, _) => .error "relative URL without a base"
  | (some scheme, rest) =>
      if scheme.map Char.toLower = "https".toList then
        match ldhHost (Parts.ofRest rest).host with
        | none => .error "invalid host"
        | some h =>
            if (Parts.ofRest rest).PortFits then
              .ok (httpsUrl h (.ofRest rest))
            else .error "invalid port number"
      else .error "another scheme"

def httpsCrates : Crates := { crates with urlParse := httpsParse }

theorem httpsCrates_urlParse : httpsCrates.urlParse = httpsParse := rfl

theorem cut_empty_iff {t : List Char} :
    ((UriRef.cut ':' t).1 = [] ∧ ∀ w ∈ (UriRef.cut ':' t).2, w = []) ↔
      t = [] ∨ t = [':'] := by
  cases t with
  | nil => exact iff_of_true ⟨rfl, nofun⟩ (.inl rfl)
  | cons c t =>
      rw [UriRef.cut]
      by_cases hc : c = ':'
      · rw [if_pos hc, hc]
        simp
      · rw [if_neg hc]
        simp [hc]

theorem httpsUrl_describes {h : List Char} {p : Parts}
    (hh : ldhHost p.host = some h) (hp : p.PortFits) :
    (httpsUrl h p).Describes ldhHost p where
  hostStr := ⟨h, hh, rfl⟩
  anonymous := by
    show String.ofList _ = "" ∧ Option.map _ _ = none ↔ _
    cases hu : p.userinfo with
    | none => simp [Parts.Anonymous, hu]
    | some t =>
        have hiff := @cut_empty_iff t
        cases hw : (UriRef.cut ':' t).2 <;>
          simp [Parts.Anonymous, hu, hw, ← hiff]
  port := by
    show Option.bind _ _ = none ↔ _
    cases ht : p.port with
    | none => simp [Parts.DefaultPort, ht]
    | some t =>
        obtain ⟨n, hn, -⟩ := hp t ht
        have hn : WebUrl.decimal t = some n := hn
        simp only [Parts.DefaultPort, ht, Option.bind_some, hn,
          Option.mem_def, Option.some.injEq, forall_eq']
        by_cases hd : t = [] ∨ n = 443
        · rw [if_pos hd]
          exact iff_of_true rfl hd
        · rw [if_neg hd]
          exact iff_of_false nofun hd
  path := by
    show String.ofList _ = "/" ↔ _
    rw [← String.toList_inj, String.toList_ofList, Parts.AtRoot,
      ← WebUrl.render_eq_slash]
    rfl
  rooted := by
    intro he
    have he : String.ofList (UriRef.render p.stack) = "" := he
    rw [← String.toList_inj, String.toList_ofList] at he
    exact p.stack_ne_nil (UriRef.render_eq_nil.mp he)
  query := by
    show Option.map _ _ = none ↔ _
    exact Option.map_eq_none_iff
  fragment := by
    show Option.map _ _ = none ↔ _
    exact Option.map_eq_none_iff

theorem not_isBlank_of_ldh {c : Char}
    (h : (c.isLower || c.isDigit || c == '-' || c == '.') = true) :
    WebUrl.isBlank c = false := by
  by_cases hc : c.toNat < 128
  · have hall : ∀ n < 128, ((Char.ofNat n).isLower || (Char.ofNat n).isDigit ||
        Char.ofNat n == '-' || Char.ofNat n == '.') = true →
        WebUrl.isBlank (Char.ofNat n) = false := by decide
    have hc := hall c.toNat hc
    rw [Char.ofNat_toNat] at hc
    exact hc h
  · rw [WebUrl.isBlank, decide_eq_false_iff_not]
    omega

theorem httpsLaws : HttpsLaws httpsCrates ldhHost where
  solid := by
    intro text h hh
    rw [ldhHost] at hh
    split at hh
    · next hok =>
        cases hh
        exact ⟨hok.1, fun c hc =>
          not_isBlank_of_ldh (List.all_eq_true.mp hok.2 c hc)⟩
    · cases hh
  parsed := by
    intro s u hu hs
    rw [httpsCrates_urlParse, httpsParse.eq_def] at hu
    split at hu
    · cases hu
    · next scheme rest htake =>
        split at hu
        · next hscheme =>
            refine ⟨rest, ⟨scheme, htake, hscheme⟩, ?_⟩
            split at hu
            · cases hu
            · next h hh =>
                split at hu
                · next hp =>
                    cases hu
                    exact httpsUrl_describes hh hp
                · cases hu
        · cases hu
  parses := by
    intro s rest hs hh hp
    obtain ⟨scheme, htake, hscheme⟩ := hs
    obtain ⟨h, hh⟩ := Option.isSome_iff_exists.mp hh
    refine ⟨httpsUrl h (.ofRest rest), ?_, rfl⟩
    rw [httpsCrates_urlParse, httpsParse, htake]
    simp only [hscheme, if_true, hh, if_pos hp]

end Aauth.Sample
