import FormFlow.Proofs.Form.Placement

/-!
# Renumbering

A source is renumbered in another one if each of its nodes, pseudo-nodes apart, is found there
under a new identifier, with its parent and its links renumbered in the same way
(`NodeSource.Renumbering`). What stands around a node is then renumbered with it
(`Renumbering.enclosingAbove?`), so the same nodes wait for an iteration.

Wiring follows the links of collections and fields only (`NodeKind.followedIds`). The arguments of
functions and the effects of transitions may be anything.
-/

set_option autoImplicit false

namespace FormFlow

open NodeSource

/-- The links of a kind that wiring follows. -/
def NodeKind.followedIds : NodeKind → List NodeId
  | .function _ _ => []
  | .transition _ => []
  | kind => kind.linkedIds

/-- A kind that is no pseudo-node, and the same kind with the links renumbered that wiring
follows. -/
inductive NodeKind.Renumbered (place : NodeId → NodeId) : NodeKind → NodeKind → Prop where
  | journey (code : String) : Renumbered place (.journey code) (.journey code)
  | step (path : String) : Renumbered place (.step path) (.step path)
  | block (variant : String) : Renumbered place (.block variant) (.block variant)
  | collection (definition : Collection) : Renumbered place (.collection definition)
      (.collection { definition with source := definition.source.map place })
  | field (definition : Field) : Renumbered place (.field definition)
      (.field { definition with
        formatters := definition.formatters.map place
        defaultValue := definition.defaultValue.map place })
  | reference (expression : Reference) :
      Renumbered place (.reference expression) (.reference expression)
  | function (name : String) (arguments others : List NodeId) :
      Renumbered place (.function name arguments) (.function name others)
  | literal (value : Json) : Renumbered place (.literal value) (.literal value)
  | transition (trigger : Trigger) (effects others : List NodeId) :
      Renumbered place (.transition ⟨trigger, effects⟩) (.transition ⟨trigger, others⟩)
  | iteration (collection : NodeId) (index : Nat) :
      Renumbered place (.iteration collection index) (.iteration (place collection) index)

namespace NodeKind.Renumbered

variable {place : NodeId → NodeId} {kind other : NodeKind}

/-- Two ways to map links, the second of which renumbers what comes of the first. -/
theorem ofRemap {first second : NodeId → NodeId} (plain : kind.pseudo? = none)
    (agree : ∀ id ∈ kind.followedIds, place (first id) = second id) :
    Renumbered place (kind.remapIds first) (kind.remapIds second) := by
  cases kind with
  | journey code => exact .journey code
  | step path => exact .step path
  | block variant => exact .block variant
  | collection definition =>
    have source : (definition.source.map first).map place = definition.source.map second := by
      rw [Option.map_map]
      exact Option.map_congr fun id known => agree id (by
        simp [followedIds, linkedIds, known])
    have whole : Renumbered place _ _ :=
      .collection { definition with source := definition.source.map first }
    rw [source] at whole
    exact whole
  | field definition =>
    have formatters : (definition.formatters.map first).map place =
        definition.formatters.map second := by
      rw [List.map_map]
      exact List.map_congr_left fun id known => agree id (List.mem_append_left _ known)
    have defaultValue : (definition.defaultValue.map first).map place =
        definition.defaultValue.map second := by
      rw [Option.map_map]
      exact Option.map_congr fun id known => agree id (List.mem_append_right _ (by simp [known]))
    have whole : Renumbered place _ _ := .field { definition with
      formatters := definition.formatters.map first
      defaultValue := definition.defaultValue.map first }
    rw [formatters, defaultValue] at whole
    exact whole
  | reference expression => exact .reference expression
  | function name arguments => exact .function name _ _
  | literal value => exact .literal value
  | transition definition => exact .transition definition.trigger _ _
  | pseudo definition => cases plain
  | iteration collection index =>
    have same : place (first collection) = second collection :=
      agree collection (List.mem_singleton_self _)
    have whole : Renumbered place _ _ := .iteration (first collection) index
    rw [same] at whole
    exact whole

/-- A kind of which all links that wiring follows keep their numbers. -/
theorem ofFixed (plain : kind.pseudo? = none) (fixed : ∀ id ∈ kind.followedIds, place id = id) :
    Renumbered place kind kind := by
  have same : ∀ kind : NodeKind, kind.remapIds id = kind := by
    intro kind
    cases kind <;> simp [remapIds]
  have whole : Renumbered place (kind.remapIds id) (kind.remapIds id) := ofRemap plain fixed
  rw [same] at whole
  exact whole

variable (renumbered : Renumbered place kind other)
include renumbered

theorem pseudo?_eq : kind.pseudo? = none ∧ other.pseudo? = none := by
  cases renumbered <;> exact ⟨rfl, rfl⟩

theorem isRepeated_eq : other.isRepeated = kind.isRepeated := by cases renumbered <;> rfl

theorem isCollection_eq : other.isCollection = kind.isCollection := by cases renumbered <;> rfl

theorem isField_eq : other.isField = kind.isField := by cases renumbered <;> rfl

theorem isReference_eq : other.isReference = kind.isReference := by cases renumbered <;> rfl

theorem isDeferred_eq : isDeferred other = isDeferred kind := by cases renumbered <;> rfl

theorem reference?_eq : other.reference? = kind.reference? := by cases renumbered <;> rfl

end NodeKind.Renumbered

/-- A node that is no pseudo-node, and the node with its identifiers renumbered. -/
structure Node.Renumbered (place : NodeId → NodeId) (node other : Node) : Prop where
  id : other.id = place node.id
  parent : other.parent = node.parent.map place
  kind : node.kind.Renumbered place other.kind

namespace NodeSource

variable {σ τ : Type} [NodeSource σ] [NodeSource τ]

/-- Every node that is no pseudo-node is found under a new identifier. Nothing but pseudo-nodes
stands in a pseudo-node. -/
structure Renumbering (earlier : σ) (later : τ) (place : NodeId → NodeId) : Prop where
  node : ∀ id node, node? earlier id = some node → node.kind.pseudo? = none →
    ∃ other, node? later (place id) = some other ∧ node.Renumbered place other
  plain : ∀ id node parent outer, node? earlier id = some node → node.kind.pseudo? = none →
    node.parent = some parent → node? earlier parent = some outer → outer.kind.pseudo? = none

/-- What is shown later keeps its identifiers. -/
theorem Shows.renumbering {earlier : σ} {later : τ} (shown : Shows earlier later)
    (plain : ∀ id node parent outer, node? earlier id = some node → node.kind.pseudo? = none →
      node.parent = some parent → node? earlier parent = some outer → outer.kind.pseudo? = none) :
    Renumbering earlier later id :=
  ⟨fun id node found noPseudo => ⟨node, shown.node id node found, rfl, by simp,
    .ofFixed noPseudo fun _ _ => rfl⟩, plain⟩

namespace Renumbering

variable {earlier : σ} {later : τ} {place : NodeId → NodeId}
  (renumbers : Renumbering earlier later place) {id : NodeId} {node other : Node}
include renumbers

theorem of_found (found : node? earlier id = some node) (plain : node.kind.pseudo? = none)
    (there : node? later (place id) = some other) : node.Renumbered place other := by
  obtain ⟨image, present, renumbered⟩ := renumbers.node id node found plain
  cases present.symm.trans there
  exact renumbered

variable [LawfulSource σ] [LawfulSource τ] (before : Upright earlier) (after : Upright later)
  (found : node? earlier id = some node) (plain : node.kind.pseudo? = none)
  (there : node? later (place id) = some other)
include before after found plain there

/-- What is around a node is renumbered with it. -/
theorem enclosingAbove? {test : NodeKind → Bool}
    (broad : ∀ kind image : NodeKind, kind.Renumbered place image → test image = test kind) :
    Option.Rel (Node.Renumbered place) (enclosingAbove? earlier node test)
      (enclosingAbove? later other test) := by
  revert plain there
  refine before.induction (P := fun id node => ∀ other, node.kind.pseudo? = none →
    node? later (place id) = some other → Option.Rel (Node.Renumbered place)
      (NodeSource.enclosingAbove? earlier node test)
      (NodeSource.enclosingAbove? later other test)) ?_ found other
  intro id node found ih other plain there
  have renumbered := renumbers.of_found found plain there
  cases contained : node.parent with
  | none =>
    have top : other.parent = none := by rw [renumbered.parent, contained, Option.map_none]
    rw [enclosingAbove?_top contained, enclosingAbove?_top top]
    exact .none
  | some parent =>
    have within : other.parent = some (place parent) := by
      rw [renumbered.parent, contained, Option.map_some]
    obtain ⟨outer, present⟩ := before.exists_parent found contained
    have plainOuter := renumbers.plain id node parent outer found plain contained present
    obtain ⟨image, seen, same⟩ := renumbers.node parent outer present plainOuter
    cases passes : test outer.kind with
    | true =>
      rw [before.enclosingAbove?_parent contained present passes,
        after.enclosingAbove?_parent within seen ((broad _ _ same.kind).trans passes)]
      exact .some same
    | false =>
      rw [before.enclosingAbove?_up contained present passes,
        after.enclosingAbove?_up within seen ((broad _ _ same.kind).trans passes)]
      exact ih parent outer contained present image plainOuter seen

theorem repeatedAbove? : Option.Rel (Node.Renumbered place) (repeatedAbove? earlier node)
    (repeatedAbove? later other) :=
  renumbers.enclosingAbove? before after found plain there fun _ _ same => same.isRepeated_eq

/-- A node belongs to an open template if it does under its new identifier. -/
theorem inOpenTemplate_eq : inOpenTemplate later other = inOpenTemplate earlier node := by
  have around := renumbers.repeatedAbove? before after found plain there
  simp only [inOpenTemplate]
  generalize NodeSource.repeatedAbove? earlier node = one at around ⊢
  generalize NodeSource.repeatedAbove? later other = two at around ⊢
  cases around with
  | none => rfl
  | some same => exact same.kind.isCollection_eq

theorem awaitsIteration_eq : awaitsIteration later other = awaitsIteration earlier node := by
  have renumbered := renumbers.of_found found plain there
  rw [awaitsIteration, awaitsIteration, renumbered.kind.isDeferred_eq,
    renumbers.inOpenTemplate_eq before after found plain there]

end Renumbering

end NodeSource

end FormFlow
