import Aauth.Lib.Base64url
import Aauth.Lib.Codec
import Aauth.Lib.Result
import Aauth.Ref.CrateLaws

/-!
# A sample of the crates

A `Crates` record that can be run and that keeps every promise of
`Aauth.Ref.CrateLaws`, for the examples that show a statement at a
concrete input. Base64url, URLs and case mapping are what the crates do on
ASCII text. JSON is replaced by a codec, SHA-256 by the identity, and a
signature by the public key in front of what was signed: it verifies under
that key and no other.
-/

namespace Aauth.Sample

open Text Except

/-! ## URLs -/

/-- `scheme://host[:port][/path][?query][#fragment]` -/
def urlParse (url : String) : Except String Url :=
  match splitOnce url "://" with
  | none => .error "relative URL without a base"
  | some (scheme, rest) =>
      let (rest, fragment) := match splitOnce rest "#" with
        | some (r, f) => (r, some f)
        | none => (rest, none)
      let (rest, query) := match splitOnce rest "?" with
        | some (r, q) => (r, some q)
        | none => (rest, none)
      let (authority, path) := match splitOnce rest "/" with
        | some (a, p) => (a, "/" ++ p)
        | none => (rest, "/")
      let (host, port) := match splitOnce authority ":" with
        | some (h, p) => (h, p.toNat?)
        | none => (authority, none)
      .ok { scheme, username := "", password := none, hostStr := some host,
            port, path, query, fragment,
            origin := scheme ++ "://" ++ authority }

def urlWithQueryPairs (url : Url) (pairs : List (String × String)) : String :=
  url.origin ++ url.path ++ "?" ++
    "&".intercalate (pairs.map fun p => p.1 ++ "=" ++ p.2)

/-! ## JSON -/

/-- A codec as a serializer; the whole input must be read. -/
def serde {α : Type} (c : Codec α) : Serde α where
  fromSlice bs := match c.dec bs with
    | some (a, []) => .ok a
    | _ => .error "invalid JSON"
  toVec := c.enc

theorem serde_toVec {α : Type} (c : Codec α) (a : α) :
    (serde c).toVec a = c.enc a := rfl

theorem serde_fromSlice {α : Type} (c : Codec α) (a : α) :
    (serde c).fromSlice (c.enc a) = .ok a := by
  have h := c.dec_enc a []
  rw [List.append_nil] at h
  simp only [serde, h]

def optString : Codec (Option String) := Codec.string.option

def publicJwk : Codec PublicJwk :=
  (Codec.string.pair <| Codec.string.pair <| Codec.string.pair <|
    optString.pair optString).iso
    (fun ⟨kty, crv, x, y, kid⟩ => ⟨kty, crv, x, y, kid⟩)
    (fun j => (j.kty, j.crv, j.x, j.y, j.kid)) fun _ => rfl

/-- A delegation chain as the list of its agents. -/
def actToList : ActClaim → List String
  | ⟨a, none⟩ => [a]
  | ⟨a, some act⟩ => a :: actToList act

def actOfList : List String → Option ActClaim
  | [] => none
  | a :: as => some ⟨a, actOfList as⟩

theorem actOfList_toList : ∀ act, actOfList (actToList act) = some act
  | ⟨_, none⟩ => rfl
  | ⟨_, some act⟩ => by rw [actToList, actOfList, actOfList_toList act]

def act : Codec (Option ActClaim) :=
  Codec.string.list.iso actOfList (fun o => (o.map actToList).getD []) fun o =>
    by cases o with
      | none => rfl
      | some act => exact actOfList_toList act

def mission : Codec (Option Mission) :=
  ((Codec.string.pair Codec.string).iso (fun ⟨a, s⟩ => Mission.mk a s)
    (fun m => (m.approver, m.s256)) fun _ => rfl).option

def interaction : Codec (Option ResourceInteractionClaim) :=
  ((Codec.string.pair Codec.string).iso
    (fun ⟨u, c⟩ => ResourceInteractionClaim.mk u c)
    (fun i => (i.url, i.code)) fun _ => rfl).option

/-- The members every kind of token has in one place: the key it is bound
to, if any, and when it expires. -/
def payload {α : Type} (c : Codec α) : Codec (Option PublicJwk × Int × α) :=
  publicJwk.option.pair (Codec.int.pair c)

def agentClaims : Codec AgentClaims :=
  (payload <| Codec.string.pair <| Codec.string.pair <| Codec.string.pair <|
    Codec.string.pair <| Codec.int.pair <| optString.pair optString).refine
    (fun ⟨jwk, exp, iss, dwk, sub, jti, iat, ps, parent⟩ => jwk.map fun jwk =>
      ⟨iss, dwk, sub, jti, ⟨jwk⟩, iat, exp, ps, parent⟩)
    (fun c => (some c.cnf.jwk, c.exp, c.iss, c.dwk, c.sub, c.jti, c.iat,
      c.ps, c.parentAgent)) fun _ => rfl

def authClaims : Codec AuthClaims :=
  (payload <| Codec.string.pair <| Codec.string.pair <| Codec.string.pair <|
    Codec.string.pair <| Codec.string.pair <| act.pair <| Codec.int.pair <|
    optString.pair <| optString.pair <| optString.pair mission).refine
    (fun ⟨jwk, exp, iss, dwk, aud, jti, agent, act, iat, sub, scope, tenant,
        mission⟩ => jwk.map fun jwk =>
      ⟨iss, dwk, aud, jti, agent, act, ⟨jwk⟩, iat, exp, sub, scope, tenant,
        mission⟩)
    (fun c => (some c.cnf.jwk, c.exp, c.iss, c.dwk, c.aud, c.jti, c.agent,
      c.act, c.iat, c.sub, c.scope, c.tenant, c.mission)) fun _ => rfl

def resourceClaims : Codec ResourceClaims :=
  (payload <| Codec.string.pair <| Codec.string.pair <| Codec.string.pair <|
    Codec.string.pair <| Codec.string.pair <| Codec.string.pair <|
    Codec.nat.pair <| optString.pair <| mission.pair interaction).refine
    (fun ⟨jwk, exp, iss, dwk, aud, jti, agent, agentJkt, iat, scope, mission,
        interaction⟩ => match jwk with
      | some _ => none
      | none => if exp < 0 then none
          else some ⟨iss, dwk, aud, jti, agent, agentJkt, iat, exp.toNat,
            scope, mission, interaction⟩)
    (fun c => (none, c.exp, c.iss, c.dwk, c.aud, c.jti, c.agent, c.agentJkt,
      c.iat, c.scope, c.mission, c.interaction)) fun _ => rfl

/-- The text of an object of strings. -/
def canonicalText (members : List (String × String)) : String :=
  Base64url.encode ((Codec.string.pair Codec.string).list.enc members)

/-- The key a payload is bound to and when it expires. -/
def registered : Codec (Option PublicJwk × Int) :=
  publicJwk.option.pair Codec.int

/-- The key of any payload, the rest unread. -/
def jwtPayload : Serde JwtPayload where
  fromSlice bs := match registered.dec bs with
    | some (q, _) => .ok { cnf := q.1.map some }
    | none => .error "invalid JSON"
  toVec p := registered.enc (p.cnf.bind id, 0)

/-! ## JWTs -/

def algorithms : List Algorithm :=
  [.hs256, .hs384, .hs512, .es256, .es384, .rs256, .rs384, .rs512, .ps256,
    .ps384, .ps512, .edDSA]

def header : Codec Header :=
  (optString.pair <| Codec.string.pair optString).refine
    (fun ⟨typ, alg, kid⟩ => (algorithms.find? (·.name == alg)).map fun alg =>
      ⟨typ, alg, kid⟩)
    (fun h => (h.typ, h.alg.name, h.kid)) fun ⟨typ, alg, kid⟩ => by
      cases alg <;> rfl

/-- A header read as a JSON object. -/
def headerJson : Serde Json where
  fromSlice bs := match header.dec bs with
    | some (h, []) => .ok (.obj [("alg", .str h.alg.name)])
    | _ => .error "invalid JSON"
  toVec _ := []

def base64Decode (s : String) : Except String Bytes :=
  (Base64url.decode s).okOr "invalid base64"

/-- The three segments of a JWT. -/
def segments (jwt : String) : Except String (String × String × String) :=
  match split jwt '.' with
  | [h, p, s] => .ok (h, p, s)
  | _ => .error "InvalidToken"

def decodeHeader (jwt : String) : Except String Header := do
  let (h, _, _) ← segments jwt
  let bytes ← base64Decode h
  (serde header).fromSlice bytes

def insecurePayload (jwt : String) : Except String Bytes := do
  let (_, p, _) ← segments jwt
  base64Decode p

/-- A signature by the holder of a public key. -/
def signature (der : Bytes) (message : String) : Bytes :=
  der ++ (Codec.string.enc message)

/-- The public key of a secret one. -/
def ed25519Public (secret : Bytes) : Bytes := secret.map (~~~ ·)

def encode (h : Header) (p : Bytes) (key : EncodingKey) :
    Except String String :=
  let message := Base64url.encode (header.enc h) ++ "." ++ Base64url.encode p
  .ok (message ++ "." ++
    Base64url.encode (signature (ed25519Public key.der) message))

def verifySignature (jwt : String) (key : DecodingKey) (alg : Algorithm) :
    Except String Bytes := do
  let (h, p, s) ← segments jwt
  let head ← decodeHeader jwt
  let sig ← base64Decode s
  failIf (head.alg ≠ alg) "InvalidAlgorithm"
  failIf (sig ≠ signature key.der (h ++ "." ++ p)) "InvalidSignature"
  insecurePayload jwt

def validate (p : Bytes) (v : Validation) (now : Nat) : Except String Unit :=
  match registered.dec p with
  | none => .error "InvalidToken"
  | some (q, _) => failIf (q.2 < now - v.leeway) "ExpiredSignature"

def jwkFromPublic (key : PublicJwk) : Except String Jwk :=
  .ok { keyId := key.kid, kty := key.kty, crv := some key.crv,
        x := some key.x, y := key.y }

def fromJwk (jwk : Jwk) : Except String DecodingKey := do
  let x ← jwk.x.okOr "InvalidKeyFormat"
  let der ← base64Decode x
  return { der }

def jsonwebtoken : Jsonwebtoken where
  decodeHeader := decodeHeader
  insecurePayload := insecurePayload
  verifySignature := verifySignature
  validate := validate
  encode := encode
  fromJwk := fromJwk

/-! ## HTTP message signatures -/

def params : Codec HttpSignatureParams :=
  (Codec.string.list.pair <| Codec.nat.option.pair Codec.string).iso
    (fun ⟨covered, created, others⟩ => ⟨covered, created, others⟩)
    (fun p => (p.coveredComponents, p.created, p.others)) fun _ => rfl

/-- The member of a dictionary header, which has this one label. -/
def member (header label : String) : Option Bytes :=
  (stripPrefix header (label ++ "=")).bind Base64url.decode

def httpsig : HttpsigCrate where
  tryParse signature signatureInput := .ok fun label => do
    let input ← member signatureInput label
    let (signatureParams, _) ← params.dec input
    let signature ← member signature label
    return { signatureParams, signature }
  componentId name := .ok ("\"" ++ name ++ "\"")
  component line := .ok line
  base lines p := .ok (unlines lines ++ Base64url.encode (params.enc p))
  params ids := .ok { coveredComponents := ids, created := none, others := "" }
  build base p key label := .ok
    (label ++ "=" ++ Base64url.encode (params.enc p),
      label ++ "=" ++ Base64url.encode
        (signature (ed25519Public key.bytes) base))
  verify base key headers := failIf
    (headers.signature ≠ signature key.bytes base) "verification failed"
  secretKeyFromBytes alg bytes := .ok { alg, bytes }
  publicKeyFromBytes alg bytes := .ok { alg, bytes }

/-! ## All of them -/

def crates : Crates where
  urlParse := urlParse
  urlJoin base reference := (urlParse base).map fun url =>
    url.origin ++ "/" ++ reference
  httpUri uri := failIf (uri.isEmpty = true) "empty string" >>= fun _ => .ok uri
  urlWithQueryPairs := urlWithQueryPairs
  base64Encode := Base64url.encode
  base64Decode := base64Decode
  base64DecodePadded s := base64Decode (trimEndMatches s '=')
  sha256 bytes := bytes
  json :=
    { value := headerJson
      agentClaims := serde agentClaims
      authClaims := serde authClaims
      resourceClaims := serde resourceClaims
      jwtPayload := jwtPayload
      mapToString := fun members => .ok (canonicalText members)
      jwkFromPublic := jwkFromPublic }
  jsonwebtoken := jsonwebtoken
  httpsig := httpsig
  ed25519Public := ed25519Public
  pkcs8Der := id
  toLowercase := asciiLower
  toUppercase := asciiUpper

theorem crates_agentClaims : crates.json.agentClaims = serde agentClaims := rfl
theorem crates_authClaims : crates.json.authClaims = serde authClaims := rfl
theorem crates_resourceClaims :
    crates.json.resourceClaims = serde resourceClaims := rfl
theorem crates_value : crates.json.value = headerJson := rfl
theorem crates_base64Decode : crates.base64Decode = base64Decode := rfl
theorem crates_jsonwebtoken : crates.jsonwebtoken = jsonwebtoken := rfl

end Aauth.Sample
