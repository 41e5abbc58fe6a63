import Mathlib.Algebra.Group.Int.Defs
import Aauth.Lib.Text
import Aauth.Lib.WebUrl
import Aauth.Ref.Http
import Aauth.Ref.Jwt
import Aauth.Ref.Wire

/-!
# What the crates promise

The documented behaviour the results rely on, stated of a `Crates` record
and named, so that a theorem can say exactly which promise it uses.
-/

namespace Aauth

open Text

/-- `jsonwebtoken` reads one payload out of a JWT, whether or not it
checks the signature over it. -/
structure JwtLaws (cr : Crates) : Prop where
  payload_of_verified : ∀ {jwt : String} {key : DecodingKey}
    {alg : Algorithm} {p : Bytes},
    cr.jsonwebtoken.verifySignature jwt key alg = .ok p →
      cr.jsonwebtoken.insecurePayload jwt = .ok p

/-- The characters of a compact JWT: base64url and the dots. -/
def isJwtChar (c : Char) : Bool :=
  c.isAlphanum || c == '-' || c == '_' || c == '.'

def IsCompact (jwt : String) : Prop :=
  ∀ c ∈ jwt.toList, isJwtChar c = true

/-- What `jsonwebtoken` writes is a compact JWT, and so is what it has
verified, since it decodes every segment. -/
structure CompactLaws (cr : Crates) : Prop where
  of_encode : ∀ {h : Header} {p : Bytes} {k : EncodingKey} {jwt : String},
    cr.jsonwebtoken.encode h p k = .ok jwt → IsCompact jwt
  of_verified : ∀ {jwt : String} {key : DecodingKey} {alg : Algorithm}
    {p : Bytes}, cr.jsonwebtoken.verifySignature jwt key alg = .ok p →
      IsCompact jwt

/-- The payload of a JWT is its second segment, in base64url, and the
claims of a token and `httpsig-key`'s reader find the same `cnf` in it. -/
structure CnfLaws (cr : Crates) : Prop where
  payload_segment : ∀ {jwt : String} {p : Bytes},
    cr.jsonwebtoken.insecurePayload jwt = .ok p →
      ∃ segment, (split jwt '.')[1]? = some segment ∧
        cr.base64Decode segment = .ok p
  cnf_of_agent : ∀ {p : Bytes} {c : AgentClaims},
    cr.json.agentClaims.fromSlice p = .ok c →
      cr.json.jwtPayload.fromSlice p = .ok ⟨some (some c.cnf.jwk)⟩
  cnf_of_auth : ∀ {p : Bytes} {c : AuthClaims},
    cr.json.authClaims.fromSlice p = .ok c →
      cr.json.jwtPayload.fromSlice p = .ok ⟨some (some c.cnf.jwk)⟩

/-- The text a thumbprint is taken of. -/
def IsCanonical (cr : Crates) (members : List (String × String))
    (text : String) : Prop :=
  ∃ jwk, thumbprintMembers jwk = .ok members ∧
    cr.json.mapToString members = .ok text

/-- Nothing is lost between the members of a key and its thumbprint: JSON
writes distinct members differently, SHA-256 does not collide on the
canonical texts, and base64url can be decoded. -/
structure ThumbprintLaws (cr : Crates) : Prop where
  mapToString_inj : ∀ {members members' : List (String × String)}
    {text : String}, IsCanonical cr members text →
      IsCanonical cr members' text → members = members'
  sha256_inj : ∀ {members members' : List (String × String)}
    {text text' : String}, IsCanonical cr members text →
      IsCanonical cr members' text' →
      cr.sha256 text.toUTF8.data.toList = cr.sha256 text'.toUTF8.data.toList →
        text = text'
  base64Encode_inj : ∀ {a b : Bytes},
    cr.base64Encode a = cr.base64Encode b → a = b

/-- A map of strings can be written. -/
structure ThumbprintTotal (cr : Crates) : Prop where
  mapToString : ∀ members : List (String × String),
    ∃ text, cr.json.mapToString members = .ok text

/-- A text of ASCII characters. -/
def IsAscii (s : String) : Prop := ∀ c ∈ s.toList, c.toNat < 128

/-- On ASCII text the Unicode case mapping is the one on letters. -/
structure CaseLaws (cr : Crates) : Prop where
  upper : ∀ {s : String}, IsAscii s → cr.toUppercase s = asciiUpper s

/-- The trees that some JSON text denotes. -/
def IsJson (cr : Crates) (v : Json) : Prop :=
  ∃ text, cr.json.value.fromSlice text = .ok v

/-- `serde_json` reads back what it writes, whatever was read before. No
text is blank; strings, the integers of its number type, and what is built
from values can all be written. -/
structure JsonLaws (cr : Crates) : Prop where
  written : ∀ {v : Json}, IsJson cr v →
    cr.json.value.fromSlice (cr.json.value.toVec v) = .ok v
  blank : ∀ {text : Bytes} {v : Json}, text.all isAsciiWhitespace = true →
    cr.json.value.fromSlice text ≠ .ok v
  emptyObject :
    cr.json.value.fromSlice "{}".toUTF8.data.toList = .ok (.obj [])
  str : ∀ s, IsJson cr (.str s)
  int : ∀ n : Int, -2 ^ 63 ≤ n → n < 2 ^ 64 → IsJson cr (.int n)
  arr : ∀ {items : List Json}, (∀ v ∈ items, IsJson cr v) →
    IsJson cr (.arr items)
  obj : ∀ {members : List (String × Json)},
    (∀ m ∈ members, IsJson cr m.2) → IsJson cr (.obj members)

/-- The components AAuth covers. -/
def coveredNames : List String :=
  ["@method", "@authority", "@path", "signature-key", "authorization",
    "aauth-mission"]

/-- `httpsig` writes a component identifier as its name in quotes and keeps
the components it is given. -/
structure HttpsigLaws (cr : Crates) : Prop where
  componentId : ∀ name ∈ coveredNames,
    cr.httpsig.componentId name = .ok ("\"" ++ name ++ "\"")
  params : ∀ {ids : List String} {p : HttpSignatureParams},
    cr.httpsig.params ids = .ok p → p.coveredComponents = ids

/-- A text a header value or a signature base may hold. -/
def IsVisible (s : String) : Prop := s.toList.all isVisibleAscii = true

/-- `httpsig` signs whatever is made of visible ASCII. -/
structure HttpsigTotal (cr : Crates) : Prop where
  params : ∀ ids : List String, ∃ p, cr.httpsig.params ids = .ok p
  component : ∀ name ∈ coveredNames, ∀ value : String, IsVisible value →
    ∃ line, cr.httpsig.component ("\"" ++ name ++ "\": " ++ value) = .ok line
  base : ∀ {entries : List (String × String)} {lines : List String}
    {p : HttpSignatureParams},
    List.Forall₂ (fun e line => cr.httpsig.component
      ("\"" ++ e.1 ++ "\": " ++ e.2) = .ok line) entries lines →
    p.coveredComponents = entries.map (fun e => "\"" ++ e.1 ++ "\"") →
      ∃ base, cr.httpsig.base lines p = .ok base
  build : ∀ (base : String) (p : HttpSignatureParams) (key : SecretKey)
    (label : String), IsVisible label → ∃ input signature,
      cr.httpsig.build base p key label = .ok (input, signature) ∧
        IsVisible input ∧ IsVisible signature
  uppercase : ∀ {s : String}, IsVisible s → IsVisible (cr.toUppercase s)

/-- A text without a newline and without surrounding whitespace, as the
`http` types guarantee of what a signature covers. -/
def IsPlain (s : String) : Prop := '\n' ∉ s.toList ∧ trim s = s

instance (s : String) : Decidable (IsPlain s) :=
  inferInstanceAs (Decidable (_ ∧ _))

/-- A signature base is the lines of its components, each followed by a
newline, and one line for the parameters; a line is the identifier of the
component and its value. A signature is accepted for one base. -/
structure SignatureBaseLaws (cr : Crates) : Prop where
  component_line : ∃ identifier : String → String,
    ∀ {name value line : String}, IsPlain value →
      cr.httpsig.component ("\"" ++ name ++ "\": " ++ value) = .ok line →
        line = identifier name ++ ": " ++ value
  base_lines : ∃ paramsLine : HttpSignatureParams → String,
    ∀ {lines : List String} {p : HttpSignatureParams} {base : String},
      cr.httpsig.base lines p = .ok base →
        base = unlines lines ++ paramsLine p
  uppercase : ∀ {s : String}, IsPlain s → IsPlain (cr.toUppercase s)
  one_base : ∀ {base base' : String} {key : PublicKey}
    {headers : SignatureHeaders},
    cr.httpsig.verify base key headers = .ok () →
      cr.httpsig.verify base' key headers = .ok () → base = base'

/-- The name of an algorithm in a JWT header. -/
def Algorithm.name : Algorithm → String
  | hs256 => "HS256"
  | hs384 => "HS384"
  | hs512 => "HS512"
  | es256 => "ES256"
  | es384 => "ES384"
  | rs256 => "RS256"
  | rs384 => "RS384"
  | rs512 => "RS512"
  | ps256 => "PS256"
  | ps384 => "PS384"
  | ps512 => "PS512"
  | edDSA => "EdDSA"

/-- What `jsonwebtoken` encodes is a compact JWT of the header and payload
it was given, and claims come back from JSON as they went in. -/
structure MintLaws (cr : Crates) : Prop where
  header_of_encode : ∀ {h : Header} {p : Bytes} {k : EncodingKey}
    {jwt : String}, cr.jsonwebtoken.encode h p k = .ok jwt →
      cr.jsonwebtoken.decodeHeader jwt = .ok h
  alg_of_encode : ∀ {h : Header} {p : Bytes} {k : EncodingKey}
    {jwt : String}, cr.jsonwebtoken.encode h p k = .ok jwt →
      ∃ segment bytes value, (split jwt '.').head? = some segment ∧
        cr.base64Decode segment = .ok bytes ∧
        cr.json.value.fromSlice bytes = .ok value ∧
        (value.get "alg").bind Json.asStr = some h.alg.name
  payload_of_encode : ∀ {h : Header} {p : Bytes} {k : EncodingKey}
    {jwt : String}, cr.jsonwebtoken.encode h p k = .ok jwt →
      cr.jsonwebtoken.insecurePayload jwt = .ok p
  agentClaims : ∀ c, cr.json.agentClaims.fromSlice
    (cr.json.agentClaims.toVec c) = .ok c
  authClaims : ∀ c, cr.json.authClaims.fromSlice
    (cr.json.authClaims.toVec c) = .ok c
  resourceClaims : ∀ c, cr.json.resourceClaims.fromSlice
    (cr.json.resourceClaims.toVec c) = .ok c

/-- What Ed25519 signs, the public key verifies; a token that is not
expired passes the validation of its registered claims. -/
structure SignLaws (cr : Crates) : Prop where
  jwk_of_public : ∀ key : Ed25519KeyPair, ∃ jwk dk,
    cr.json.jwkFromPublic (key.publicJwk cr) = .ok jwk ∧
      jwk.keyId = key.kid ∧ cr.jsonwebtoken.fromJwk jwk = .ok dk
  encode_ok : ∀ (h : Header) (p : Bytes) (key : Ed25519KeyPair),
    h.alg = .edDSA →
      ∃ jwt, cr.jsonwebtoken.encode h p (key.encodingKey cr) = .ok jwt
  verify_of_encode : ∀ {h : Header} {p : Bytes} {key : Ed25519KeyPair}
    {jwt : String} {jwk : Jwk} {dk : DecodingKey}, h.alg = .edDSA →
      cr.jsonwebtoken.encode h p (key.encodingKey cr) = .ok jwt →
      cr.json.jwkFromPublic (key.publicJwk cr) = .ok jwk →
      cr.jsonwebtoken.fromJwk jwk = .ok dk →
      cr.jsonwebtoken.verifySignature jwt dk .edDSA = .ok p
  validate_agent : ∀ {p : Bytes} {c : AgentClaims} {v : Validation}
    {now : Nat}, cr.json.agentClaims.fromSlice p = .ok c →
      v.validateAud = false → (now : Int) ≤ c.exp + v.leeway → 0 ≤ c.exp →
      cr.jsonwebtoken.validate p v now = .ok ()
  validate_auth : ∀ {p : Bytes} {c : AuthClaims} {v : Validation}
    {now : Nat}, cr.json.authClaims.fromSlice p = .ok c →
      v.validateAud = false → (now : Int) ≤ c.exp + v.leeway → 0 ≤ c.exp →
      cr.jsonwebtoken.validate p v now = .ok ()
  validate_resource : ∀ {p : Bytes} {c : ResourceClaims} {v : Validation}
    {now : Nat}, cr.json.resourceClaims.fromSlice p = .ok c →
      v.validateAud = false → now ≤ c.exp + v.leeway →
      cr.jsonwebtoken.validate p v now = .ok ()

/-! ## Origins -/

/-- Scheme, host and port; no port stands for the one of the scheme. -/
structure WebOrigin where
  scheme : String
  host : Option String
  port : Option Nat
deriving DecidableEq

def Url.webOrigin (u : Url) : WebOrigin := ⟨u.scheme, u.hostStr, u.port⟩

/-- The origin of a server that is reached over HTTP. -/
def WebOrigin.IsWeb (o : WebOrigin) : Prop :=
  (o.scheme = "http" ∨ o.scheme = "https") ∧ o.host ≠ none

/-- The text is a URL of this origin. -/
def HasOrigin (cr : Crates) (url : String) (o : WebOrigin) : Prop :=
  ∃ u, cr.urlParse url = .ok u ∧ u.webOrigin = o

theorem HasOrigin.unique {cr : Crates} {url : String} {o o' : WebOrigin}
    (h : HasOrigin cr url o) (h' : HasOrigin cr url o') : o = o' := by
  obtain ⟨u, hu, rfl⟩ := h
  obtain ⟨u', hu', rfl⟩ := h'
  cases hu.symm.trans hu'
  rfl

/-- `url` follows the URL Standard: a reference to a web server is read on
it or amounts to an absolute URL, and only an absolute text can be parsed on
its own. -/
structure WebLaws (cr : Crates) : Prop where
  here : ∀ {base reference : String} {o : WebOrigin},
    HasOrigin cr base o → o.IsWeb →
    WebUrl.read o.scheme.toList reference.toList = .here →
      ∃ url, cr.urlJoin base reference = .ok url ∧ HasOrigin cr url o
  away : ∀ {base reference : String} {o o' : WebOrigin} {text : List Char},
    HasOrigin cr base o → o.IsWeb →
    WebUrl.read o.scheme.toList reference.toList = .away text →
    HasOrigin cr (String.ofList text) o' →
      ∃ url, cr.urlJoin base reference = .ok url ∧ HasOrigin cr url o'
  unread : ∀ {base reference : String} {o : WebOrigin} {text : List Char},
    HasOrigin cr base o → o.IsWeb →
    WebUrl.read o.scheme.toList reference.toList = .away text →
    (∀ o', ¬ HasOrigin cr (String.ofList text) o') →
      ∃ e, cr.urlJoin base reference = .error e
  relative : ∀ {text : String} {o : WebOrigin},
    WebUrl.isAbsolute text.toList = false → ¬ HasOrigin cr text o

/-- What a parsed `https` URL shows of the parts of its text. The host is
what the standard's host parser makes of it. -/
structure Url.Describes (host : List Char → Option (List Char)) (u : Url)
    (p : WebUrl.Parts) : Prop where
  anonymous : (u.username = "" ∧ u.password = none) ↔ p.Anonymous
  hostStr : ∃ h, host p.host = some h ∧ u.hostStr = some (String.ofList h)
  port : u.port = none ↔ p.DefaultPort
  path : u.path = "/" ↔ p.AtRoot
  rooted : u.path ≠ ""
  query : u.query = none ↔ p.query = none
  fragment : u.fragment = none ↔ p.fragment = none

/-- `url` follows the URL Standard: it takes an `https` text apart as the
standard does, and accepts it when the host is accepted and the port is in
range. A host that is accepted is not empty and has no blanks. -/
structure HttpsLaws (cr : Crates) (host : List Char → Option (List Char)) :
    Prop where
  solid : ∀ {text h : List Char}, host text = some h →
    h ≠ [] ∧ ∀ c ∈ h, WebUrl.isBlank c = false
  parsed : ∀ {s : String} {u : Url}, cr.urlParse s = .ok u →
    u.scheme = "https" → ∃ rest, WebUrl.IsHttps s.toList rest ∧
      u.Describes host (.ofRest rest)
  parses : ∀ {s : String} {rest : List Char}, WebUrl.IsHttps s.toList rest →
    (host (WebUrl.Parts.ofRest rest).host).isSome = true →
    (WebUrl.Parts.ofRest rest).PortFits →
      ∃ u, cr.urlParse s = .ok u ∧ u.scheme = "https"

end Aauth
