import FormFlow.Proofs.Form.Built
import FormFlow.Proofs.Request.Overlay
import FormFlow.Proofs.Wiring.Registration

/-!
# The states of a request

A request is told by the calls that were made and by the answers that were given
(`RequestScope.Reachable`). A call that makes an iteration grows the overlay, and one that fails
leaves the request as it was (`RequestScope.materialize_cases`): it is cut back to the identifiers
that it had reached before. All this is without an end of identifiers.

Cutting back is exact because the overlay is anchored at every point of a request's life
(`RequestScope.Reachable.anchored`): nothing that is kept points above the mark, and nothing
below the mark was replaced.
-/

set_option autoImplicit false

namespace FormFlow

namespace RequestScope

/-- The states of a request over a wired form, after any attempts to make iterations and any
changes of its answers. -/
inductive Reachable (wired : WiredForm) : RequestScope → Prop where
  | start : Reachable wired (start wired)
  | materialize {request : RequestScope} (collection : NodeId) (index : Nat) :
    Reachable wired request → Reachable wired (request.materialize collection index).1
  | answer {request : RequestScope} (answers : AnswerHistory) :
    Reachable wired request → Reachable wired { request with answers }

section

variable {request : RequestScope} (coherent : request.wired.form.nodes.Coherent)
  (anchored : request.wired.form.nodes.Anchored request.overlay.nodes)
include coherent anchored

/-- What becomes of a request: it is as it was, or an iteration was made and its overlay has
grown. -/
theorem materialize_cases (collection : NodeId) (index : Nat) :
    ((request.materialize collection index).1 = request) ∨
      ∃ made, (build request.wired request.overlay collection index).result = .ok made ∧
        request.wired.form.nodes.Anchored
          (build request.wired request.overlay collection index).overlay.nodes ∧
        request.materialize collection index =
          ({ request with
              overlay := (build request.wired request.overlay collection index).overlay
              iterations := request.iterations ++ [made] }, .ok made) := by
  unfold materialize
  split
  · exact .inl rfl
  · obtain ⟨extends_, last⟩ := build_extends coherent anchored collection index
    dsimp only
    split
    · rename_i made succeeded
      exact .inr ⟨made, succeeded, last, rfl⟩
    · refine .inl ?_
      rw [extends_.rollBack coherent anchored]

end

/-- A call that succeeds on an iteration that was not made has made it. -/
theorem materialize_of_ok {request : RequestScope} {collection : NodeId} {index : Nat}
    {made : Iteration} (fresh : request.iteration? collection index = none)
    (succeeded : (request.materialize collection index).2 = .ok made) :
    (build request.wired request.overlay collection index).result = .ok made ∧
      (request.materialize collection index).1 = { request with
        overlay := (build request.wired request.overlay collection index).overlay
        iterations := request.iterations ++ [made] } := by
  rw [materialize, fresh] at succeeded ⊢
  dsimp only at succeeded ⊢
  split at succeeded
  · rename_i result same
    cases succeeded
    exact ⟨same, rfl⟩
  · cases succeeded

theorem Reachable.anchored {wired : WiredForm} (coherent : wired.form.nodes.Coherent)
    {request : RequestScope} (reached : Reachable wired request) :
    request.wired = wired ∧ wired.form.nodes.Anchored request.overlay.nodes := by
  induction reached with
  | start => exact ⟨rfl, NodeStore.anchored_startingAt _⟩
  | @materialize request collection index _ ih =>
    obtain ⟨rfl, anchored⟩ := ih
    rcases materialize_cases coherent anchored collection index with
      same | ⟨made, -, last, done⟩
    · rw [same]
      exact ⟨rfl, anchored⟩
    · rw [done]
      exact ⟨rfl, last⟩
  | answer answers _ ih => exact ih

end RequestScope

end FormFlow
