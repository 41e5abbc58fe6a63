import Aauth.Ref.Crates

/-!
# Identifiers (`aauth/src/protocol/identifiers.rs`)

Server identifiers (an `https` origin, or a loopback `http` one for tests)
and agent identifiers (`aauth:local@domain`).
-/

namespace Aauth

open Text

def isLoopbackHttpIdentifier (cr : Crates) (url : String) : Bool :=
  if url.isEmpty || endsWithChar url '/' then false
  else match cr.urlParse url with
    | .error _ => false
    | .ok parsed =>
        if parsed.scheme != "http" then false
        else if parsed.query.isSome || parsed.fragment.isSome then false
        else if parsed.path != "/" && !parsed.path.isEmpty then false
        else if !parsed.username.isEmpty || parsed.password.isSome then false
        else parsed.hostStr == some "127.0.0.1" ||
          parsed.hostStr == some "localhost"

def isValidServerIdentifier (cr : Crates) (url : String) : Bool :=
  if isLoopbackHttpIdentifier cr url then true
  else if url.isEmpty || endsWithChar url '/' then false
  else if url.toList.any Char.isUpper then false
  else match cr.urlParse url with
    | .error _ => false
    | .ok parsed =>
        if parsed.scheme != "https" then false
        else if parsed.port.isSome then false
        else if !parsed.username.isEmpty || parsed.password.isSome then false
        else if parsed.query.isSome || parsed.fragment.isSome then false
        -- the crate normalises a host-only URL to the path "/"
        else if parsed.path != "/" && !parsed.path.isEmpty then false
        else match parsed.hostStr with
          | some host => !host.isEmpty
          | none => false

def isDomainLabelChar (c : Char) : Bool :=
  c.isLower || c.isDigit || c == '-'

def isValidDomainName (domain : String) : Bool :=
  if domain.isEmpty || domain.toList.any Char.isUpper then false
  else if contains domain "://" || containsChar domain '/' ||
      containsChar domain ':' then false
  else (split domain '.').all fun label =>
    !label.isEmpty && label.utf8ByteSize ≤ 63 &&
      label.toList.all isDomainLabelChar &&
      !startsWith label "-" && !endsWithChar label '-'

def isValidAgentIdentifier (id : String) : Bool :=
  match stripPrefix id "aauth:" with
  | none => false
  | some rest =>
      match splitOnce rest "@" with
      | none => false
      | some (localPart, domain) =>
          if localPart.isEmpty || 255 < localPart.utf8ByteSize then false
          else if !localPart.toList.all (fun c => isDomainLabelChar c ||
              c == '_' || c == '+' || c == '.') then false
          else isValidDomainName domain

example : isValidAgentIdentifier "aauth:planner.7f3c@vendor.example" = true
    ∧ isValidAgentIdentifier "aauth:@agent.example" = false := by decide

end Aauth
