import Aauth.Lib.Base64url
import Aauth.Proofs.OpaqueTransport
import Aauth.Ref.OpaqueStore
import Aauth.Sample.Parties

/-!
# Who an opaque token is good for

Over any run of issues and revocations a token validates for one agent at
most: the one it was last issued to, and only until it is revoked. Tokens
drawn with different bytes are different texts, so none is ever issued
over another, and each is a `token68`, which the header that carries it
and every reader of that header accept.
-/

namespace Aauth

open Text

variable {cr : Crates}

namespace InMemoryOpaqueAccessStore

/-! ## Runs -/

/-- A call that changes the store. -/
inductive Change where
  | issue (agentId : String) (bytes : Bytes)
  | revoke (token : String)

/-- The store after a run, the last call in front. -/
def after (cr : Crates) : List Change → InMemoryOpaqueAccessStore
  | [] => new
  | .issue agentId bytes :: l => ((after cr l).issue cr agentId bytes).2
  | .revoke token :: l => (after cr l).revoke token

/-- What a call does to the map. -/
def Change.event (cr : Crates) : Change → Registry.Event String String
  | issue agentId bytes => .put (encoded cr bytes) agentId
  | revoke token => .strike token

/-- The token a call is about. -/
def Change.token (cr : Crates) : Change → String
  | issue _ bytes => encoded cr bytes
  | revoke token => token

theorem tokens_after (l : List Change) :
    (after cr l).tokens = Registry.run (l.map (Change.event cr)) := by
  induction l with
  | nil => rfl
  | cons c l ih =>
      cases c with
      | issue agentId bytes =>
          show (after cr l).tokens.insert _ _ = _
          rw [ih]
          rfl
      | revoke token =>
          show (after cr l).tokens.erase _ = _
          rw [ih]
          rfl

theorem key_event (c : Change) : (c.event cr).key = c.token cr := by
  cases c with
  | issue agentId bytes => rfl
  | revoke token => rfl

theorem validate_iff {store : InMemoryOpaqueAccessStore}
    {token agentId : String} : store.validate token agentId = true ↔
      store.tokens.lookup token = some agentId := by
  rw [validate]
  cases store.tokens.lookup token with
  | none => simp
  | some id => simp

/-- The last call about the token issued it to the agent. -/
def IssuedLast (cr : Crates) (l : List Change) (token agentId : String) :
    Prop :=
  ∃ later bytes earlier, l = later ++ .issue agentId bytes :: earlier ∧
    encoded cr bytes = token ∧ ∀ c ∈ later, c.token cr ≠ token

theorem validate_after {l : List Change} {token agentId : String} :
    (after cr l).validate token agentId = true ↔
      IssuedLast cr l token agentId := by
  rw [validate_iff, tokens_after, Registry.lookup_run_iff]
  constructor
  · intro h
    obtain ⟨later, earlier, hl, hother⟩ := h
    obtain ⟨l₁, l₂, rfl, rfl, hl₂⟩ := List.map_eq_append_iff.mp hl
    obtain ⟨c, l₃, rfl, hc, rfl⟩ := List.map_eq_cons_iff.mp hl₂
    cases c with
    | revoke t => cases hc
    | issue a bytes =>
        cases hc
        refine ⟨l₁, bytes, l₃, rfl, rfl, fun c hm => ?_⟩
        rw [← key_event]
        exact hother _ (List.mem_map_of_mem hm)
  · intro h
    obtain ⟨later, bytes, earlier, rfl, rfl, hother⟩ := h
    refine ⟨later.map (Change.event cr), earlier.map (Change.event cr), ?_,
      fun e he => ?_⟩
    · rw [List.map_append, List.map_cons]
      rfl
    · obtain ⟨c, hc, rfl⟩ := List.mem_map.mp he
      rw [key_event]
      exact hother c hc

/-! ## The texts of tokens -/

theorem hexDigit_inj {n m : Nat} (hn : n < 16) (hm : m < 16)
    (h : hexDigit n = hexDigit m) : n = m := by
  have hall : ∀ a < 16, ∀ b < 16, hexDigit a = hexDigit b → a = b := by
    decide
  exact hall n hn m hm h

def hexPair (b : UInt8) : List Char :=
  [hexDigit (b.toNat / 16), hexDigit (b.toNat % 16)]

theorem hexPairs_inj {b b' : Bytes}
    (h : b.flatMap hexPair = b'.flatMap hexPair) : b = b' := by
  induction b generalizing b' with
  | nil =>
      cases b' with
      | nil => rfl
      | cons y b' => cases h
  | cons x b ih =>
      cases b' with
      | nil => cases h
      | cons y b' =>
          simp only [List.flatMap_cons, hexPair, List.cons_append,
            List.nil_append, List.cons.injEq] at h
          obtain ⟨hhi, hlo, hrest⟩ := h
          have hx := UInt8.toNat_lt x
          have hy := UInt8.toNat_lt y
          have hhi := hexDigit_inj (by omega) (by omega) hhi
          have hlo := hexDigit_inj (by omega) (by omega) hlo
          have hxy : x = y := UInt8.toNat_inj.mp (by omega)
          rw [hxy, ih hrest]

theorem toList_digits (b : Bytes) : (digits b).toList = b.flatMap hexPair :=
  String.toList_ofList

theorem digits_inj {b b' : Bytes} (h : digits b = digits b') : b = b' := by
  have h := congrArg String.toList h
  rw [toList_digits, toList_digits] at h
  exact hexPairs_inj h

theorem utf8_inj {s t : String}
    (h : s.toUTF8.data.toList = t.toUTF8.data.toList) : s = t :=
  String.toByteArray_inj.mp (ByteArray.ext (Array.toList_inj.mp h))

/-- `base64`: the engine without padding encodes as it should. -/
structure Base64Laws (cr : Crates) : Prop where
  encode : ∀ bs, cr.base64Encode bs = Base64url.encode bs

theorem base64url_inj {a b : Bytes}
    (h : Base64url.encode a = Base64url.encode b) : a = b := by
  have hd := congrArg Base64url.decode h
  rw [Base64url.decode_encode, Base64url.decode_encode] at hd
  exact Option.some.inj hd

theorem encoded_inj (laws : Base64Laws cr) {b b' : Bytes}
    (h : encoded cr b = encoded cr b') : b = b' := by
  rw [encoded, encoded, laws.encode, laws.encode] at h
  exact digits_inj (utf8_inj (base64url_inj h))

theorem isToken68Char_of_alphabet {c : Char} (h : c ∈ Base64url.alphabet) :
    isToken68Char c = true := by
  have hall : ∀ c ∈ Base64url.alphabet, isToken68Char c = true := by decide
  exact hall c h

/-- What is issued is a `token68`. -/
theorem token68_encoded (laws : Base64Laws cr) {bytes : Bytes}
    (h : bytes ≠ []) : Token68 (encoded cr bytes) := by
  rw [encoded, laws.encode]
  refine ⟨Base64url.encodeL (digits bytes).toUTF8.data.toList, 0, ?_, ?_,
    fun c hc => isToken68Char_iff.mp
      (isToken68Char_of_alphabet (Base64url.mem_encodeL hc))⟩
  · rw [Base64url.encode, String.toList_ofList]
    exact (List.append_nil _).symm
  · -- no text would be encoded but the empty one
    intro he
    have hd := Base64url.decodeL_encodeL (digits bytes).toUTF8.data.toList
    rw [he] at hd
    have hempty : digits bytes = "" := utf8_inj (Option.some.inj hd).symm
    have hnil : bytes.flatMap hexPair = [] := by
      rw [← toList_digits, hempty]
      rfl
    cases bytes with
    | nil => exact h rfl
    | cons b bytes => cases hnil

/-! ## Holders -/

/-- The bytes that were drawn for tokens. -/
def draws (l : List Change) : List Bytes :=
  l.filterMap fun c => match c with
    | .issue _ bytes => some bytes
    | .revoke _ => none

theorem mem_draws {l : List Change} {bytes : Bytes} :
    bytes ∈ draws l ↔ ∃ agentId, Change.issue agentId bytes ∈ l := by
  rw [draws, List.mem_filterMap]
  constructor
  · intro h
    obtain ⟨c, hc, hb⟩ := h
    cases c with
    | issue agentId b =>
        cases hb
        exact ⟨agentId, hc⟩
    | revoke token => cases hb
  · intro h
    obtain ⟨agentId, hc⟩ := h
    exact ⟨_, hc, rfl⟩

theorem draws_split {later earlier : List Change} {agentId : String}
    {bytes : Bytes} : draws (later ++ .issue agentId bytes :: earlier) =
      draws later ++ bytes :: draws earlier := by
  rw [draws, List.filterMap_append]
  rfl

/-- With fresh bytes at every issue: only a revocation is about a token that
was issued. -/
theorem token_eq_of_fresh (laws : Base64Laws cr) {l : List Change}
    {bytes : Bytes} (h : bytes ∉ draws l) {c : Change} (hc : c ∈ l) :
    c.token cr = encoded cr bytes ↔ c = .revoke (encoded cr bytes) := by
  cases c with
  | issue agentId b =>
      refine ⟨fun he => ?_, fun he => by cases he⟩
      have hb : b = bytes := encoded_inj laws he
      exact absurd (mem_draws.mpr ⟨agentId, hb ▸ hc⟩) h
  | revoke token =>
      refine ⟨fun he => congrArg Change.revoke he, fun he => ?_⟩
      cases he
      rfl

/-- A token is good for the agent it was issued to, until it is revoked; no
other text is good for anybody. -/
theorem opaque_token_holders (laws : Base64Laws cr) {l : List Change}
    (hfresh : (draws l).Nodup) (hdrawn : ∀ bytes ∈ draws l, bytes ≠ []) :
    (∀ token a, (after cr l).validate token a = true →
      ∃ bytes, .issue a bytes ∈ l ∧ token = encoded cr bytes) ∧
    ∀ later agentId bytes earlier,
      l = later ++ .issue agentId bytes :: earlier →
        Token68 (encoded cr bytes) ∧
        ∀ a, (after cr l).validate (encoded cr bytes) a = true ↔
          a = agentId ∧ .revoke (encoded cr bytes) ∉ later := by
  constructor
  · intro token a h
    obtain ⟨later, bytes, earlier, rfl, rfl, -⟩ := validate_after.mp h
    exact ⟨bytes, List.mem_append_right _ List.mem_cons_self, rfl⟩
  · intro later agentId bytes earlier hl
    subst hl
    rw [draws_split] at hfresh hdrawn
    obtain ⟨-, hrest, hdisjoint⟩ := List.nodup_append.mp hfresh
    have hlater : bytes ∉ draws later := fun hm =>
      hdisjoint _ hm _ List.mem_cons_self rfl
    have hearlier : bytes ∉ draws earlier := (List.nodup_cons.mp hrest).1
    refine ⟨token68_encoded laws
      (hdrawn _ (List.mem_append_right _ List.mem_cons_self)), fun a => ?_⟩
    rw [validate_after]
    constructor
    · intro h
      obtain ⟨later', bytes', earlier', hl, he, hother⟩ := h
      cases encoded_inj laws he
      have hsame : later' = later ∧ Change.issue a bytes :: earlier' =
          .issue agentId bytes :: earlier := by
        rcases List.append_eq_append_iff.mp hl with ⟨cs, h₁, h₂⟩ |
          ⟨cs, h₁, h₂⟩
        · cases cs with
          | nil => exact ⟨by rw [h₁, List.append_nil], h₂.symm⟩
          | cons c cs =>
              -- the call that issued the token would be a later one
              obtain ⟨rfl, -⟩ := List.cons.inj h₂
              refine absurd rfl (hother (.issue agentId bytes) ?_)
              rw [h₁]
              exact List.mem_append_right _ List.mem_cons_self
        · cases cs with
          | nil => exact ⟨by rw [h₁, List.append_nil], h₂⟩
          | cons c cs =>
              -- it was issued again, with the same bytes
              obtain ⟨rfl, -⟩ := List.cons.inj h₂
              refine absurd (mem_draws.mpr ⟨a, ?_⟩) hlater
              rw [h₁]
              exact List.mem_append_right _ List.mem_cons_self
      obtain ⟨rfl, hissue⟩ := hsame
      cases hissue
      exact ⟨rfl, fun hr => hother _ hr rfl⟩
    · intro h
      obtain ⟨rfl, hnot⟩ := h
      refine ⟨later, bytes, earlier, rfl, rfl, fun c hc he => hnot ?_⟩
      rw [token_eq_of_fresh laws hlater hc] at he
      exact he ▸ hc

end InMemoryOpaqueAccessStore

namespace Sample

open InMemoryOpaqueAccessStore

theorem crates_base64 : Base64Laws crates := ⟨fun _ => rfl⟩

/-- One agent's token is revoked, another's is not, and stays its own. -/
theorem opaque_token_holders_bot :
    let store := after crates [.revoke (encoded crates [2]),
      .issue bot.sub [2], .issue "aauth:other@ap.example" [1]]
    store.validate (encoded crates [1]) "aauth:other@ap.example" = true ∧
      store.validate (encoded crates [1]) bot.sub ≠ true := by
  have h := ((opaque_token_holders crates_base64 (by decide)
    (by decide)).2 [.revoke (encoded crates [2]), .issue bot.sub [2]]
      "aauth:other@ap.example" [1] [] rfl).2
  have hne : encoded crates [1] ≠ encoded crates [2] := by decide
  refine ⟨(h _).mpr ⟨rfl, by simp [hne]⟩, fun hb => ?_⟩
  exact absurd ((h _).mp hb).1 (by decide)

end Sample

end Aauth
