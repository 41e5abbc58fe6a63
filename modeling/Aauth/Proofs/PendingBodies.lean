import Aauth.Proofs.Wire
import Aauth.Sample.Json

/-!
# What a pending body is read back as

A pending body has no discriminator. Each of its three kinds writes a
status, and the kind that is tried first is the one that has nothing else
and passes every other member over. So a clarification or a list of claims
is read back as the bare status it has (`pendingBody_read`); only what was
a bare status is read back as it was.
-/

namespace Aauth

open Json

variable {cr : Crates}

namespace PendingBody

/-- The status that every kind has. -/
def statusOf : PendingBody → PendingStatus
  | status s => s
  | clarification c => c.status
  | claims c => c.status

/-- A timeout is a `u64`. -/
def Fits : PendingBody → Prop
  | clarification c => c.Fits
  | _ => True

/-- Whatever else an object has, its status is read. -/
theorem fromJson_status {ms : List (String × Json)} {s : PendingStatus}
    (h : occurrences "status" ms = [s.toJson]) :
    fromJson (.obj ms) = some (.status s) := by
  have hfields : fields ["status"] (.obj ms) = some (member ms) := by
    rw [fields, if_pos]
    simp [h]
  have hread : pendingStatusBodyFromJson (.obj ms) = some s := by
    rw [pendingStatusBodyFromJson, hfields, Option.bind_eq_bind,
      Option.bind_some, member, h, List.head?_cons, required,
      Option.bind_some, PendingStatus.fromJson_toJson]
  rw [fromJson, hread]
  rfl

/-- The status stands in the body once. -/
theorem exists_members (b : PendingBody) : ∃ ms, b.toJson = .obj ms ∧
    occurrences "status" ms = [b.statusOf.toJson] := by
  cases b with
  | status s => exact ⟨_, rfl, rfl⟩
  | claims c => exact ⟨_, rfl, rfl⟩
  | clarification c =>
      refine ⟨_, rfl, ?_⟩
      simp only [occurrences_append, occurrences_written, occurrences_cons,
        occurrences_nil]
      rfl

theorem isJson (h : JsonLaws cr) {b : PendingBody} (hb : b.Fits) :
    IsJson cr b.toJson := by
  cases b with
  | status s => exact h.obj (isJson_cons (s.isJson h) isJson_nil)
  | clarification c => exact ClarificationChallenge.isJson h hb
  | claims c => exact c.isJson h

/-- Every body is read as its status. -/
theorem pendingBody_read (h : JsonLaws cr) {b : PendingBody} (hb : b.Fits) :
    fromSlice cr fromJson (jsonBytes cr b.toJson) =
      some (.status b.statusOf) := by
  obtain ⟨ms, hms, hs⟩ := b.exists_members
  refine fromSlice_of_tree h (isJson h hb) ?_
  rw [hms]
  exact fromJson_status hs

end PendingBody

namespace Sample

/-- A question with a timeout. -/
def questionBody : PendingBody :=
  .clarification { status := .pending, clarification := "why?",
                   timeout := some 60, options := none }

theorem questionBody_fits : questionBody.Fits := by
  intro n hn
  cases hn
  decide

end Sample

end Aauth
