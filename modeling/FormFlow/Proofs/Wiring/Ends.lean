import Mathlib
import FormFlow.Proofs.Request.Isolation
import FormFlow.Proofs.Wiring.Carried
import FormFlow.Proofs.Wiring.Producers

/-!
# The ends of edges

Every edge of a wired form leads into one of its nodes. It also comes from one, with one exception:
the formatters and the default value of a field and the source of a collection are connected
whether they are there or not. A missing origin makes wiring fail; a missing formatter leaves an
edge that comes from no node (`WiredForm.Loose.edge_from_nowhere`).

So every edge has both its ends exactly if everything is there that the pseudo-nodes of the steps
take values from. If every link of this sort in the form leads to a node of the form, then all edges
have their ends, and nothing that a request makes later can be taken for one of them
(`WiredForm.edges_closed_iff`).
-/

set_option autoImplicit false

namespace FormFlow

open NodeSource

/-- The nodes that a field or a collection takes values from. -/
def NodeKind.valueIds : NodeKind → List NodeId
  | .collection definition => definition.source.toList
  | .field definition => definition.formatters ++ definition.defaultValue.toList
  | _ => []

theorem NodeStore.contains_of_mem {store : NodeStore} (coherent : store.Coherent) {node : Node}
    (member : node ∈ store.nodes) {id : NodeId} (named : node.id = id) :
    store.contains id = true :=
  Option.isSome_iff_exists.2 ⟨node, named ▸ node?_of_mem coherent member⟩

namespace WiredForm

/-- A pseudo-node takes a value from a node to which the field or the collection links that it was
made for. -/
inductive Draws (nodes : NodeStore) (definition : Pseudo) (id : NodeId) : Prop where
  | field (isLocal : definition.kind = .answerLocal) (field : Field)
      (made : originField? nodes definition = some field)
      (linked : id ∈ (NodeKind.field field).valueIds)
  | collection (isItem : definition.kind = .item) (found : Collection)
      (made : originCollection? nodes definition = some found)
      (linked : id ∈ (NodeKind.collection found).valueIds)

section

variable {nodes : NodeStore} {definition : Pseudo}

/-- What feeds a pseudo-node is what it takes a value from, or the load-transition that serves the
step, or the submitted value of the same key. -/
theorem mem_suppliers_cases {load : Option NodeId} {producer : NodeId} {role : Role}
    (supplies : (producer, role) ∈ suppliers nodes load definition) :
    Draws nodes definition producer ∨ load = some producer ∨
      nodes.pseudo? ⟨.post, definition.scope, definition.key⟩ = some producer := by
  cases kind : definition.kind with
  | post | query | params =>
    simp only [suppliers, kind] at supplies
    cases supplies
  | data | answerRemote =>
    simp only [suppliers, kind] at supplies
    obtain ⟨_, loaded, same⟩ := List.mem_map.1 supplies
    cases same
    exact .inr (.inl (Option.mem_toList.1 loaded))
  | answerLocal =>
    simp only [suppliers, kind] at supplies
    split at supplies
    · rename_i field made
      simp only [List.mem_append, List.mem_map, Prod.mk.injEq, Option.mem_toList] at supplies
      rcases supplies with ⟨_, (submitted | formatter) | default, rfl, _⟩ | ⟨_, loaded, rfl, _⟩
      · exact .inr (.inr submitted)
      · exact .inl (.field kind field made (List.mem_append_left _ formatter))
      · exact .inl (.field kind field made
          (List.mem_append_right _ (Option.mem_toList.2 default)))
      · exact .inr (.inl loaded)
    · cases supplies
  | item =>
    simp only [suppliers, kind] at supplies
    split at supplies
    · rename_i found made
      obtain ⟨_, source, same⟩ := List.mem_map.1 supplies
      cases same
      exact .inl (.collection kind found made source)
    · cases supplies

/-- What a pseudo-node takes a value from feeds it. -/
theorem Draws.mem_suppliers {id : NodeId} (draws : Draws nodes definition id)
    (load : Option NodeId) : (id, .dataFlow) ∈ suppliers nodes load definition := by
  cases draws with
  | field isLocal field made linked =>
    simp only [suppliers, isLocal, made, List.append_assoc]
    exact List.mem_append_left _ (List.mem_map.2 ⟨id, List.mem_append_right _ linked, rfl⟩)
  | collection isItem found made linked =>
    simp only [suppliers, isItem, made]
    exact List.mem_map.2 ⟨id, linked, rfl⟩

/-- What a pseudo-node takes a value from is linked to a field or a collection. -/
theorem Draws.exists_owner {id : NodeId} (draws : Draws nodes definition id) :
    ∃ owner ∈ nodes.nodes, id ∈ owner.kind.valueIds := by
  cases draws with
  | field isLocal field made linked =>
    obtain ⟨owner, found, isField⟩ := Option.bind_eq_some_iff.1 made
    obtain ⟨_, _, found⟩ := Option.bind_eq_some_iff.1 found
    refine ⟨owner, List.mem_of_find?_eq_some found, ?_⟩
    rwa [NodeKind.field?_eq_some_iff.1 isField]
  | collection isItem collection made linked =>
    obtain ⟨node, found, origin⟩ := Option.bind_eq_some_iff.1 made
    obtain ⟨_, _, found⟩ := Option.bind_eq_some_iff.1 found
    split at origin
    · rename_i own isCollection
      cases origin
      exact ⟨node, List.mem_of_find?_eq_some found, by rwa [isCollection]⟩
    · obtain ⟨owner, inner, isCollection⟩ := Option.bind_eq_some_iff.1 origin
      refine ⟨owner, List.mem_of_find?_eq_some inner, ?_⟩
      rwa [NodeKind.collection?_eq_some_iff.1 isCollection]
    · cases origin

end

namespace Registered

variable {form : Form} {config : WiringConfig} {wired : WiredForm}
  (registered : Registered form config wired) (coherent : form.nodes.Coherent)
include registered coherent

theorem contains_of_form {id : NodeId} (there : form.nodes.contains id = true) :
    wired.form.nodes.contains id = true := by
  obtain ⟨node, found⟩ := Option.isSome_iff_exists.1 there
  exact Option.isSome_iff_exists.2 ⟨node, (registered.grows coherent).node?_of_found found⟩

/-- What a step connects is a pseudo-node of the step, a node of the form, or something that a
pseudo-node of the step takes a value from. -/
theorem producer_of_asked {step : NodeId} {c : Connection}
    (asked : .ok c ∈ Pass.stepDraft (context wired config step)) :
    (∃ definition, (context wired config step).Holds c.producer definition) ∨
      form.nodes.contains c.producer = true ∨
      ∃ source definition, (context wired config step).Holds source definition ∧
        Draws wired.form.nodes definition c.producer := by
  have made := registered.coherent coherent
  obtain ⟨metadata, offered⟩ := Draft.exists_offer? asked
  have carries : (Pass.stepDraft (context wired config step)).Offering _ :=
    WiringContext.carried_of_offer? made
  cases carries _ _ offered with
  | reads definition expression space holds known within same => exact .inl ⟨definition, holds⟩
  | fills definition holds filled =>
    obtain ⟨other, inside, sameTriple, _⟩ := Draft.exists_of_offer? filled
    obtain ⟨producer, -, role⟩ := Triple.mk.inj sameTriple
    have supplied := Draft.mem_sources_iff.2 ⟨other, inside, rfl, rfl⟩
    rw [sources_producers _ _ definition holds.2, producer] at supplied
    rcases mem_suppliers_cases supplied with draws | loaded | submitted
    · exact .inr (.inr ⟨c.consumer, definition, holds, draws⟩)
    · obtain ⟨load, inForm, named⟩ :=
        List.mem_map.1 (ScopeTree.mem_of_lastLoadFrom? registered.scopes loaded)
      exact .inr (.inl (NodeStore.contains_of_mem coherent inForm named))
    · obtain ⟨node, found, identified⟩ := (NodeStore.pseudo?_eq_some_iff made).1 submitted
      obtain ⟨own, isPseudo, same⟩ := Option.map_eq_some_iff.1 identified
      exact .inl ⟨own, Option.bind_eq_some_iff.2 ⟨node, found, isPseudo⟩,
        (congrArg PseudoKey.scope same).trans holds.2⟩

/-- An edge comes from a node of the form or from something that a pseudo-node of a step takes a
value from. -/
theorem producer_of_edge {edge : Edge} (member : edge ∈ wired.graph.edges) :
    wired.form.nodes.contains edge.producer = true ∨
      ∃ source ∈ wired.form.nodes.nodes, ∃ definition, source.kind = .pseudo definition ∧
        definition.scope ∈ wired.scopes.steps ∧
        Draws wired.form.nodes definition edge.producer := by
  obtain ⟨step, listed, c, asked, same, _⟩ := registered.exists_asked member
  rw [← (Triple.mk.inj same).1]
  rcases registered.producer_of_asked coherent asked with
    ⟨_, holds⟩ | inForm | ⟨source, definition, holds, draws⟩
  · obtain ⟨node, found, _⟩ := Option.bind_eq_some_iff.1 holds.1
    exact .inl (Option.isSome_iff_exists.2 ⟨node, found⟩)
  · exact .inl (registered.contains_of_form coherent inForm)
  · obtain ⟨node, found, read⟩ := Option.bind_eq_some_iff.1 holds.1
    exact .inr ⟨node, List.mem_of_find?_eq_some found, definition,
      NodeKind.pseudo?_eq_some_iff.1 read, holds.2 ▸ listed, draws⟩

end Registered

/-- **Every edge of a form has both its ends exactly if everything is there that the pseudo-nodes of
its steps take values from.** The consumer is there in any case. If whatever a field or a collection
of the form takes values from is a node of the form, no edge comes from nowhere, and no node of a
request over the form is taken for the producer of an edge. -/
theorem edges_closed_iff {form : Form} {config : WiringConfig} {wired : WiredForm}
    (built : form.Built) (wiring : wire form config = .ok wired) :
    (∀ edge ∈ wired.graph.edges, wired.form.nodes.contains edge.consumer = true) ∧
    ((∀ edge ∈ wired.graph.edges, wired.form.nodes.contains edge.producer = true) ↔
      ∀ source ∈ wired.form.nodes.nodes, ∀ definition, source.kind = .pseudo definition →
        (∃ step ∈ wired.form.nodes.nodes, step.kind.isStep = true ∧ step.id = definition.scope) →
          ∀ id, Draws wired.form.nodes definition id → wired.form.nodes.contains id = true) ∧
    ((∀ node ∈ form.nodes.nodes, ∀ id ∈ node.kind.valueIds, form.nodes.contains id = true) →
      ∀ edge ∈ wired.graph.edges, wired.form.nodes.contains edge.producer = true ∧
        ∀ request, RequestScope.Reachable wired request →
          ∀ node ∈ request.overlay.nodes.nodes, node.id ≠ edge.producer) := by
  have registered := wire_spec wiring
  have coherent := built.coherent
  have made := registered.coherent coherent
  refine ⟨fun edge member => ?_, ⟨?_, ?_⟩, ?_⟩
  · obtain ⟨node, there, named, -⟩ := registered.consumer_of_edge coherent member
    exact NodeStore.contains_of_mem made there named
  · intro closed source member definition isPseudo inStep id draws
    obtain ⟨edge, into, rfl, -⟩ := registered.exists_edge_of_supplier coherent member isPseudo
      ((registered.mem_steps_iff coherent).2 inStep) (draws.mem_suppliers _)
    exact closed edge (List.mem_of_mem_filter into)
  · intro linked edge member
    rcases registered.producer_of_edge coherent member with there |
      ⟨source, inside, definition, isPseudo, listed, draws⟩
    · exact there
    · exact linked source inside definition isPseudo
        ((registered.mem_steps_iff coherent).1 listed) _ draws
  · intro linked edge member
    have there : wired.form.nodes.contains edge.producer = true := by
      rcases registered.producer_of_edge coherent member with
        there | ⟨_, _, definition, _, _, draws⟩
      · exact there
      · obtain ⟨owner, inside, link⟩ := draws.exists_owner
        rcases registered.mem_or_pseudo inside with own | ⟨other, isPseudo, _⟩
        · exact registered.contains_of_form coherent (linked owner own _ link)
        · rw [isPseudo] at link
          cases link
    refine ⟨there, fun request reached node above same => ?_⟩
    obtain ⟨producer, found⟩ := Option.isSome_iff_exists.1 there
    have low := NodeStore.id_lt_nextId made found
    obtain ⟨rfl, stacked⟩ := reached.stacked made
    have high := stacked.anchored.high node above
    rw [same] at high
    omega

/-- The formatter of the form is there, so its edges have both their ends and keep them. -/
theorem Inherited.edges_closed :
    (∃ edge ∈ Inherited.wired.graph.edges, edge.producer = ⟨5⟩) ∧
    ∀ edge ∈ Inherited.wired.graph.edges,
      Inherited.wired.form.nodes.contains edge.producer = true ∧
        ∀ request, RequestScope.Reachable Inherited.wired request →
          ∀ node ∈ request.overlay.nodes.nodes, node.id ≠ edge.producer :=
  ⟨by decide, (edges_closed_iff Inherited.built
    (rfl : wire Inherited.form .default = .ok Inherited.wired)).2.2 (by decide)⟩

/-! ### A formatter that is missing

The field names as its formatter a node that the form does not have. Wiring succeeds, with an edge
from there to the answer; the first iteration then gives the number to a copy of another field. -/

namespace Loose

def form : Form :=
  ⟨"trip", {
    nodes := [
      ⟨⟨0⟩, none, .journey "trip"⟩,
      ⟨⟨1⟩, some ⟨0⟩, .step "/who"⟩,
      ⟨⟨2⟩, some ⟨1⟩, .field ⟨"name", "text", [⟨9⟩], none⟩⟩,
      ⟨⟨3⟩, some ⟨1⟩, .collection ⟨"leg", none⟩⟩,
      ⟨⟨4⟩, some ⟨3⟩, .field ⟨"city", "text", [], none⟩⟩]
    containment := [(⟨0⟩, ⟨1⟩), (⟨1⟩, ⟨2⟩), (⟨1⟩, ⟨3⟩), (⟨3⟩, ⟨4⟩)]
    references := []
    identities := []
    nextId := 5 }⟩

def text : String :=
  "[\"trip\",[[[0,null,[\"journey\",\"trip\"]],[1,0,[\"step\",\"/who\"]]," ++
    "[2,1,[\"field\",\"name\",\"text\",[9]]],[3,1,[\"collection\",\"leg\"]]," ++
    "[4,3,[\"field\",\"city\",\"text\"]]],5]]"

theorem read : form.Built := .ofText (by cbv : Form.ofText text = .ok form)

theorem acyclic : Acyclic form.nodes :=
  NodeStore.acyclic_of_descends NodeId.val (by decide)

def wired : WiredForm := (wire form .default).toOption.getD default

/-- Wiring does not fail, and an edge comes from where there is no node at first, and the copy of a
field after an iteration. -/
theorem edge_from_nowhere :
    (form.Built ∧ Acyclic form.nodes ∧ wire form .default = .ok wired) ∧
      ∃ edge ∈ wired.graph.edges, wired.form.nodes.contains edge.producer = false ∧
        ∃ request, RequestScope.Reachable wired request ∧
          ∃ node ∈ request.overlay.nodes.nodes, node.id = edge.producer := by
  refine ⟨⟨read, acyclic, rfl⟩,
    ⟨⟨1⟩, ⟨9⟩, ⟨6⟩, .dataFlow, ⟨some "name", some "formatters[0]", none⟩⟩,
    by decide, rfl, _, .materialize ⟨3⟩ 0 .start, ?_⟩
  exact ⟨⟨⟨9⟩, some ⟨8⟩, .field ⟨"leg_0_city", "text", [], none⟩⟩,
    List.mem_of_getElem? (i := 1) rfl, rfl⟩

end Loose

end WiredForm

end FormFlow
