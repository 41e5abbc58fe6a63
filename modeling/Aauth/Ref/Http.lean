import Aauth.Lib.Result
import Aauth.Ref.Error

/-!
# HTTP messages (`http`, `aauth/src/protocol/headers.rs`, `token68.rs`)

Header maps, the two request parts a signature covers, and the AAuth
headers. A header value is a text whose characters stand for its bytes;
`toStr` is the check that they are all visible ASCII, which is where the
code loses a value it cannot read.
-/

namespace Aauth

open Text Except

/-! ## Headers -/

/-- Header names are lowercase; several values of one name keep their
order. -/
structure HeaderMap where
  entries : List (String × String)
deriving DecidableEq, Repr

namespace HeaderMap

def empty : HeaderMap := ⟨[]⟩

/-- The first value of a name. -/
def get (h : HeaderMap) (name : String) : Option String :=
  (h.entries.find? (·.1 == name)).map (·.2)

def getAll (h : HeaderMap) (name : String) : List String :=
  (h.entries.filter (·.1 == name)).map (·.2)

/-- Replaces every value of a name by one. -/
def insert (h : HeaderMap) (name value : String) : HeaderMap :=
  ⟨h.entries.filter (·.1 != name) ++ [(name, value)]⟩

/-- Every header of another map takes the place of its namesakes. -/
def extend (h more : HeaderMap) : HeaderMap :=
  more.entries.foldl (fun h e => h.insert e.1 e.2) h

end HeaderMap

def isVisibleAscii (c : Char) : Bool :=
  (32 ≤ c.toNat && c.toNat < 127) || c == '\t'

/-- `HeaderValue::to_str` -/
def toStr (value : String) : Option String :=
  if value.toList.all isVisibleAscii then some value else none

/-- `HeaderValue::from_str` -/
def headerValueFromStr (value : String) : Except String String :=
  if value.toList.all isVisibleAscii then .ok value
  else .error "failed to parse header value"

/-- `header_value`: the first value of a name, when it is readable. -/
def headerValue (headers : HeaderMap) (name : String) : Option String :=
  (headers.get name).bind toStr

def isTokenChar (c : Char) : Bool :=
  c.isAlphanum || "!#$%&'*+-.^_`|~".toList.contains c

/-- `HeaderName::from_bytes`: a non-empty token, lowercased. -/
def headerNameFromBytes (name : String) : Option String :=
  if !name.isEmpty && name.toList.all isTokenChar then some (asciiLower name)
  else none

/-! ## Requests -/

structure Uri where
  host : Option String
  port : Option Nat
  path : String
deriving DecidableEq, Repr

structure Request where
  method : String
  uri : Uri
  headers : HeaderMap
deriving DecidableEq, Repr

/-- `@method`, `@authority` and `@path`; the authority prefers the `Host`
header (`http_util.rs`). -/
def signatureParts (req : Request) : String × String × String :=
  let authority := match headerValue req.headers "host" with
    | some host => host
    | none => match req.uri.host with
        | none => ""
        | some host => match req.uri.port with
            | some port => host ++ ":" ++ toString port
            | none => host
  (req.method, authority, req.uri.path)

/-! ## `AAuth-Requirement` -/

inductive AAuthChallenge where
  | agentToken
  | authToken (resourceToken : String)
  | approval
  | interaction (url code : String)
  | clarification
  | claims
deriving DecidableEq, Repr

namespace AAuthChallenge

def toHeader : AAuthChallenge → String
  | approval => "requirement=approval"
  | clarification => "requirement=clarification"
  | claims => "requirement=claims"
  | agentToken => "requirement=agent-token"
  | authToken resourceToken =>
      "requirement=auth-token; resource-token=\"" ++ resourceToken ++ "\""
  | interaction url code =>
      "requirement=interaction; url=\"" ++ url ++ "\"; code=\"" ++ code ++
        "\""

end AAuthChallenge

/-- The text between `key="` and the next quote. -/
def extractQuotedParam (input key : String) : Option String :=
  (splitOnce input (key ++ "=\"")).bind fun found =>
    (splitOnce found.2 "\"").map (·.1)

def AAuthChallenge.fromHeader (headerValue : String) :
    AAuthResult AAuthChallenge := do
  let trimmed := trim headerValue
  failIf (trimmed.isEmpty = true) (.header .emptyRequirement)
  let requirementMatch ← ((stripPrefix trimmed "requirement=").bind
    fun rest => (split rest ';').head?.map trim).okOr
      (.header .missingRequirementMember)
  let level ← (RequirementLevel.fromStr requirementMatch).okOr
    (.header (.unknownRequirement requirementMatch))
  match level with
  | .agentToken => return agentToken
  | .approval => return approval
  | .clarification => return clarification
  | .claims => return claims
  | .authToken => do
      let resourceToken ← (extractQuotedParam trimmed "resource-token").okOr
        (.header .missingResourceToken)
      return authToken resourceToken
  | .interaction => do
      let url ← (extractQuotedParam trimmed "url").okOr
        (.header .missingInteractionUrl)
      let code ← (extractQuotedParam trimmed "code").okOr
        (.header .missingInteractionCode)
      return interaction url code

example : AAuthChallenge.fromHeader
    (AAuthChallenge.toHeader (.authToken "a.b.c")) =
      .ok (.authToken "a.b.c") := rfl

/-! ## `AAuth-Mission` -/

namespace Mission

def toHeader (m : Mission) : String :=
  "approver=\"" ++ m.approver ++ "\"; s256=\"" ++ m.s256 ++ "\""

def fromHeader (headerValue : String) : AAuthResult Mission := do
  let approver ← (extractQuotedParam headerValue "approver").okOr
    (.header .missingApprover)
  let s256 ← (extractQuotedParam headerValue "s256").okOr
    (.header .missingS256)
  return { approver, s256 }

end Mission

/-! ## `Authorization: AAuth` -/

def isToken68Char (c : Char) : Bool :=
  c.isAlphanum || c == '-' || c == '.' || c == '_' || c == '~' ||
    c == '+' || c == '/'

def isToken68 (s : String) : Bool :=
  let body := trimEndMatches s '='
  !body.isEmpty && body.toList.all isToken68Char

def parseAauthCredential (authorizationValue : String) :
    AAuthResult String := do
  let token ← (stripPrefix (trim authorizationValue) "AAuth ").okOr
    (.header (.invalid "Authorization scheme must be AAuth"))
  failIf (isToken68 token = false)
    (.header (.invalid "AAuth credential is not token68"))
  return token

/-- The value of an `AAuth-Access` response header. -/
def parseAauthAccessHeader (value : String) : AAuthResult String := do
  let trimmed := trim value
  failIf (isToken68 trimmed = false)
    (.header (.invalid "AAuth-Access is not token68"))
  return trimmed

end Aauth
