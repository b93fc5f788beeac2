import FormFlow.Proofs.Form.Placement
import FormFlow.Proofs.Request.Overlay
import FormFlow.Proofs.Wiring.Furnishing

/-!
# The layers of a request

The store of a form is seen through that of a request (`Layered.shows_base`), and what the two
show stays when the upper one grows (`Layered.shows_of_grows`). Pseudo-nodes are looked up in
both and made in the upper one (`Layered.locates`).
-/

set_option autoImplicit false

namespace FormFlow

open NodeSource

namespace Layered

variable {base overlay : NodeStore} (coherent : base.Coherent) (anchored : base.Anchored overlay)
include coherent anchored

theorem shows_base : Shows base (⟨base, overlay⟩ : Layered) := by
  refine ⟨fun id node found => anchored.node?_base coherent found, fun identity id found => ?_⟩
  change base.pseudo? identity = some id at found
  change ((base.pseudo? identity).orElse fun _ => overlay.pseudo? identity) = some id
  rw [found]
  rfl

theorem shows_of_grows {later : NodeStore} (grows : NodeStore.Grows overlay.nextId overlay later) :
    Shows (⟨base, overlay⟩ : Layered) (⟨base, later⟩ : Layered) := by
  refine ⟨fun id node found => node?_of_grows coherent anchored.above grows found, ?_⟩
  intro identity id found
  change ((base.pseudo? identity).orElse fun _ => overlay.pseudo? identity) = some id at found
  change ((base.pseudo? identity).orElse fun _ => later.pseudo? identity) = some id
  cases lower : base.pseudo? identity with
  | some other =>
    rw [lower] at found
    exact found
  | none =>
    rw [lower] at found
    exact grows.pseudo?_of_found found

omit coherent anchored in
theorem hasPseudo_iff {identity : PseudoKey} : HasPseudo (⟨base, overlay⟩ : Layered) identity ↔
    HasPseudo base identity ∨ HasPseudo overlay identity := by
  change (∃ id, ((base.pseudo? identity).orElse fun _ => overlay.pseudo? identity) = some id) ↔
    (∃ id, base.pseudo? identity = some id) ∨ ∃ id, overlay.pseudo? identity = some id
  cases base.pseudo? identity with
  | some id => simp
  | none => simp

/-- From every node of the layers there is a walk to the top, if there is one in the lower
store: every other node stands under an earlier one. -/
theorem upright (lower : Upright base) : Upright (⟨base, overlay⟩ : Layered) := by
  have fromBase : ∀ id node, base.node? id = some node →
      ∃ path, Rooted (⟨base, overlay⟩ : Layered) (some id) path := by
    intro id node found
    obtain ⟨path, rooted⟩ := lower id node found
    exact ⟨path, rooted.transfer (shows_base coherent anchored)⟩
  have fromOverlay : ∀ node ∈ overlay.nodes,
      ∃ path, Rooted (⟨base, overlay⟩ : Layered) (some node.id) path := by
    refine anchored.contained.induction ?_
    intro node member parent contained place
    have above : ∃ path, Rooted (⟨base, overlay⟩ : Layered) (some parent) path := by
      rcases place with ⟨outer, found⟩ | ⟨outer, _, rfl, ih⟩
      · exact fromBase parent outer found
      · exact ih
    obtain ⟨path, rooted⟩ := above
    have found : Layered.node? ⟨base, overlay⟩ node.id = some node :=
      node?_eq_some_iff.2 (.inl (NodeStore.node?_of_mem anchored.coherent member))
    exact ⟨node :: path, .step found (contained ▸ rooted)⟩
  intro id node found
  rcases node?_eq_some_iff.1 found with own | ⟨_, known⟩
  · obtain ⟨member, rfl⟩ := (NodeStore.node?_eq_some_iff anchored.coherent).1 own
    exact fromOverlay node member
  · exact fromBase id node known

omit anchored in
/-- Layers look pseudo-nodes up as they should. -/
theorem locates (step : NodeId) : Synthesis.Locates
    (fun layers : Layered => layers.base = base ∧ base.Anchored layers.overlay ∧ layers.Has step)
    step where
  creates := by
    rintro layers identity origin ⟨rfl, anchored, _⟩
    exact findOrCreate_eq anchored.coherent identity origin
  keeps := by
    rintro ⟨_, overlay⟩ identity origin rfl ⟨rfl, anchored, has⟩
    obtain ⟨later, same, last, grows⟩ := locate_anchored coherent anchored has origin
    have made : (PseudoSink.locate (⟨_, overlay⟩ : Layered) identity origin).nodes = _ := same
    rw [made]
    exact ⟨rfl, last, has_of_grows coherent anchored.above grows has⟩
  shows := by
    rintro ⟨_, overlay⟩ identity origin rfl ⟨rfl, anchored, has⟩
    obtain ⟨later, same, _, grows⟩ := locate_anchored coherent anchored has origin
    have made : (PseudoSink.locate (⟨_, overlay⟩ : Layered) identity origin).nodes = _ := same
    rw [made]
    exact shows_of_grows coherent anchored grows
  present := by
    rintro ⟨_, overlay⟩ identity origin rfl ⟨rfl, anchored, _⟩
    change HasPseudo (locate _ identity origin).nodes identity
    rcases locate_cases ⟨_, overlay⟩ identity origin with ⟨id, present, same⟩ | ⟨_, absent, same⟩
    · rw [same]
      exact ⟨id, present⟩
    · have free := anchored.coherent.conflict?_fresh absent origin
      rw [same, hasPseudo_iff, NodeStore.hasPseudo_push anchored.coherent free]
      exact .inr (.inr rfl)
  only := by
    rintro ⟨_, overlay⟩ identity origin rfl ⟨rfl, anchored, _⟩ other has
    change HasPseudo (locate _ identity origin).nodes other at has
    rcases locate_cases ⟨_, overlay⟩ identity origin with ⟨_, _, same⟩ | ⟨_, absent, same⟩
    · rw [same] at has
      exact .inl has
    · rw [same, hasPseudo_iff, NodeStore.hasPseudo_push anchored.coherent
        (anchored.coherent.conflict?_fresh absent origin)] at has
      rcases has with lower | upper | new
      · exact .inl (hasPseudo_iff.2 (.inl lower))
      · exact .inl (hasPseudo_iff.2 (.inr upper))
      · cases new
        exact .inr rfl

end Layered

end FormFlow
