import Aauth.Lib.Registry
import Aauth.Ref.Crates
import Aauth.Ref.Deferred

/-!
# Opaque tokens (`aauth-policy/src/resource/opaque.rs`)

The store behind the opaque tokens of a resource: who each of them was
issued to. One lock guards the map, so the calls on it, from whatever
thread, come one after the other.
-/

namespace Aauth

/-- `InMemoryOpaqueAccessStore` -/
structure InMemoryOpaqueAccessStore where
  tokens : AList fun _ : String => String

namespace InMemoryOpaqueAccessStore

def new : InMemoryOpaqueAccessStore := ⟨∅⟩

/-- The hexadecimal digits of the random bytes. -/
def digits (bytes : Bytes) : String :=
  String.ofList (bytes.flatMap fun b =>
    [hexDigit (b.toNat / 16), hexDigit (b.toNat % 16)])

/-- The token drawn with thirty-two random bytes: the text of their digits,
encoded once more. -/
def encoded (cr : Crates) (bytes : Bytes) : String :=
  cr.base64Encode (digits bytes).toUTF8.data.toList

def issue (cr : Crates) (store : InMemoryOpaqueAccessStore)
    (agentId : String) (bytes : Bytes) :
    String × InMemoryOpaqueAccessStore :=
  let token := encoded cr bytes
  (token, ⟨store.tokens.insert token agentId⟩)

def validate (store : InMemoryOpaqueAccessStore) (token agentId : String) :
    Bool :=
  match store.tokens.lookup token with
  | some id => id == agentId
  | none => false

def revoke (store : InMemoryOpaqueAccessStore) (token : String) :
    InMemoryOpaqueAccessStore :=
  ⟨store.tokens.erase token⟩

end InMemoryOpaqueAccessStore

end Aauth
