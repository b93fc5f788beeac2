import Mathlib
import FormFlow.Proofs.Form.Built
import FormFlow.Proofs.Wiring.Whole

/-!
# Wiring in batches agrees with wiring a form

A form may be wired at once or batch by batch, its nodes in any order and divided in any way:
the connections are the same (`WiredForm.wireBatches_agrees`). Both ways ask single nodes, and
a node asks for the same in both.

They may disagree about a node whose parent is missing. If a pseudo-node is given the
identifier of the missing parent, then the node belongs to the step of that pseudo-node
afterwards, but was not a member of it when the form was wired (`Captured.wireBatches_differs`).
-/

set_option autoImplicit false

namespace FormFlow

open NodeSource

namespace WiredForm

/-- **However the nodes of the steps are divided into batches, wiring the batches one after the
other succeeds and makes the connections that wiring the form made**, with the same metadata.
Nodes may be repeated. -/
theorem wireBatches_agrees {form : Form} {config : WiringConfig} {wired : WiredForm}
    (built : form.Built) (acyclic : Acyclic form.nodes)
    (plain : ∀ node ∈ form.nodes.nodes, node.kind.isIteration = false)
    (wiring : wire form config = .ok wired) (uncaptured : Uncaptured form.nodes wired.form.nodes)
    (batches : List (List NodeId))
    (covers : ∀ id, id ∈ batches.flatten ↔
      ∃ step, Pass.Placed wired.form.nodes wired.scopes step id) :
    ∃ last, Pass.wireBatches wired.form.nodes wired.scopes wired.config batches .empty = .ok last ∧
      ∀ connection, connection ∈ last.connections ↔ connection ∈ wired.graph.connections := by
  have coherent := built.coherent
  have registered := wire_spec wiring
  have unchanged := unchanged_of_grows coherent acyclic (registered.grows coherent) uncaptured
  obtain rfl : wired.config = config := registered.configured
  have wirable : ∀ batch ∈ batches, ∀ id ∈ batch,
      Pass.Wirable wired.form.nodes wired.scopes wired.config id := by
    intro batch known id member ready
    have placed := (covers id).1 (List.mem_flatten.2 ⟨batch, known, member⟩)
    exact ⟨placed, registered.solo_succeeds coherent unchanged plain ⟨ready, placed⟩⟩
  have unused : DependencyGraph.empty.triples.Nodup := List.nodup_nil
  obtain ⟨last, ran, distinct, found⟩ := Pass.wireBatches_spec unused wirable
  refine ⟨last, ran, ?_⟩
  rintro ⟨triple, metadata⟩
  rw [DependencyGraph.mem_connections_iff distinct,
    DependencyGraph.mem_connections_iff registered.nodup_triples, found,
    registered.metadata?_eq coherent unchanged plain]
  -- The batches ask exactly the nodes that the pass over the form asked.
  have asked : triple.consumer ∈ batches.flatten ∧
      Pass.isReady wired.form.nodes triple.consumer = true ↔
        Registered.Wired wired triple.consumer := by
    rw [covers, Registered.Wired]
    exact And.comm
  change (none : Option EdgeMetadata).or _ = _ ↔ _
  rw [Option.none_or, Pass.batchOffer?]
  by_cases within : Registered.Wired wired triple.consumer
  · rw [if_pos (asked.2 within), if_pos within]
  · rw [if_neg fun both => within (asked.1 both), if_neg within]

/-! ### A reference whose parent is missing

The reference stands in the step, or under an identifier that no node has. Making pseudo-nodes
begins with the identifier 4. -/

namespace Captured

def form (outer : NodeId) : Form :=
  ⟨"form", {
    nodes := [
      ⟨⟨0⟩, none, .journey "survey"⟩,
      ⟨⟨1⟩, some ⟨0⟩, .step "/s"⟩,
      ⟨⟨2⟩, some ⟨1⟩, .field ⟨"name", "text", [], none⟩⟩,
      ⟨⟨3⟩, some outer, .reference ⟨["answers", "name"]⟩⟩]
    containment := [(⟨0⟩, ⟨1⟩), (⟨1⟩, ⟨2⟩), (outer, ⟨3⟩)]
    references := [⟨3⟩]
    identities := []
    nextId := 4 }⟩

theorem acyclic (outer : NodeId) (other : outer.val % 4 < 3) : Acyclic (form outer).nodes := by
  refine NodeStore.acyclic_of_descends (fun id => id.val % 4) ?_
  intro node member parent contained
  simp only [form, List.mem_cons, List.not_mem_nil, or_false] at member
  rcases member with rfl | rfl | rfl | rfl <;> cases contained
  · decide
  · decide
  · exact other

/-- The form as it is wired. -/
def wired (outer : NodeId) : WiredForm := (wire (form outer) .default).toOption.getD default

/-- The nodes of the step, in two batches. -/
def batches : List (List NodeId) := [[⟨3⟩, ⟨2⟩], [⟨5⟩, ⟨4⟩, ⟨3⟩, ⟨1⟩]]

theorem built : (form ⟨1⟩).Built := by
  have journey := Form.Built.addJourney (.empty "form")
    (rfl : Form.addJourney _ none "survey" = .ok (_, ⟨0⟩))
  have step := journey.addStep (rfl : Form.addStep _ ⟨0⟩ "/s" = .ok (_, ⟨1⟩))
  have field := step.addField (rfl : Form.addField _ ⟨1⟩ "name" "text" = .ok (_, ⟨2⟩))
  exact field.addReference (rfl : Form.addReference _ ⟨1⟩ ["answers", "name"] = .ok (_, ⟨3⟩))

/-- The text of the form with the parent missing. -/
def text : String :=
  "[\"form\",[[[0,null,[\"journey\",\"survey\"]],[1,0,[\"step\",\"/s\"]]," ++
    "[2,1,[\"field\",\"name\",\"text\"]],[3,4,[\"reference\",[\"answers\",\"name\"]]]],4]]"

theorem read : (form ⟨4⟩).Built := .ofText (by cbv : Form.ofText text = .ok (form ⟨4⟩))

theorem covers (outer : NodeId) (either : outer = ⟨1⟩ ∨ outer = ⟨4⟩) (id : NodeId) :
    id ∈ batches.flatten ↔
      ∃ step, Pass.Placed (wired outer).form.nodes (wired outer).scopes step id := by
  have ids : (wired outer).form.nodes.nodes.map Node.id = [⟨0⟩, ⟨1⟩, ⟨2⟩, ⟨3⟩, ⟨4⟩, ⟨5⟩] := by
    rcases either with rfl | rfl <;> rfl
  have journey : owningStep? (wired outer).form.nodes ⟨0⟩ = none := by
    rcases either with rfl | rfl <;> rfl
  constructor
  · intro member
    simp only [batches, List.flatten_cons, List.flatten_nil, List.mem_append, List.mem_cons,
      List.not_mem_nil, or_false] at member
    refine ⟨⟨1⟩, ?_⟩
    rcases either with rfl | rfl <;>
      rcases member with (rfl | rfl) | rfl | rfl | rfl | rfl <;> exact ⟨⟨_, rfl⟩, rfl, rfl⟩
  · rintro ⟨step, ⟨node, found⟩, owned, -⟩
    change (wired outer).form.nodes.node? id = some node at found
    obtain rfl := NodeStore.id_eq_of_node? found
    have member := List.mem_map_of_mem (f := Node.id) (List.mem_of_find?_eq_some found)
    rw [ids] at member
    rcases List.mem_cons.1 member with isJourney | later
    · rw [isJourney, journey] at owned
      cases owned
    · exact (by decide : ∀ known ∈ ([⟨1⟩, ⟨2⟩, ⟨3⟩, ⟨4⟩, ⟨5⟩] : List NodeId),
        known ∈ batches.flatten) _ later

theorem uncaptured : Uncaptured (form ⟨1⟩).nodes (wired ⟨1⟩).form.nodes := by
  intro node member parent contained missing
  simp only [form, List.mem_cons, List.not_mem_nil, or_false] at member
  rcases member with rfl | rfl | rfl | rfl <;> cases contained <;> cases missing

theorem wireBatches_present :
    ∃ last, Pass.wireBatches (wired ⟨1⟩).form.nodes (wired ⟨1⟩).scopes (wired ⟨1⟩).config batches
        .empty = .ok last ∧
      ∀ connection, connection ∈ last.connections ↔ connection ∈ (wired ⟨1⟩).graph.connections :=
  wireBatches_agrees built (acyclic ⟨1⟩ (by decide)) (by decide) rfl uncaptured batches
    (covers ⟨1⟩ (.inl rfl))

/-- If a pseudo-node takes the place of the missing parent, wiring in batches connects the
reference as well. -/
theorem wireBatches_differs : ¬∀ (form : Form) (config : WiringConfig) (wired : WiredForm),
    form.Built → Acyclic form.nodes →
      (∀ node ∈ form.nodes.nodes, node.kind.isIteration = false) →
      wire form config = .ok wired →
      ∀ batches : List (List NodeId),
        (∀ id, id ∈ batches.flatten ↔
          ∃ step, Pass.Placed wired.form.nodes wired.scopes step id) →
        ∃ last,
          Pass.wireBatches wired.form.nodes wired.scopes wired.config batches .empty = .ok last ∧
            ∀ connection,
              connection ∈ last.connections ↔ connection ∈ wired.graph.connections := by
  intro agrees
  obtain ⟨last, ran, same⟩ := agrees (form ⟨4⟩) .default (wired ⟨4⟩) read
    (acyclic ⟨4⟩ (by decide)) (by decide) rfl batches (covers ⟨4⟩ (.inr rfl))
  have final : last = ⟨[
      ⟨⟨0⟩, ⟨5⟩, ⟨3⟩, .dataFlow, ⟨some "name", none, some .answers⟩⟩,
      ⟨⟨1⟩, ⟨4⟩, ⟨5⟩, .dataFlow, ⟨some "name", some "post", none⟩⟩], 0⟩ :=
    Except.ok.inj (ran.symm.trans rfl)
  have wiredOnce : (wired ⟨4⟩).graph.connections =
      [(⟨⟨4⟩, ⟨5⟩, .dataFlow⟩, ⟨some "name", some "post", none⟩)] := rfl
  have connects := (same (⟨⟨5⟩, ⟨3⟩, .dataFlow⟩, ⟨some "name", none, some .answers⟩)).1
    (by rw [final]; exact List.mem_cons_self ..)
  rw [wiredOnce] at connects
  exact absurd connects (by decide)

end Captured

end WiredForm

end FormFlow
