import Mathlib
import FormFlow.Proofs.Request.Reordering

/-!
# The order of iterations

Two requests over a wired plain form that make the same iterations in two orders correspond to each
other (`RequestScope.perm_corresponds`): under new identifiers they have the same nodes and the same
edges. What tells the orders apart is said by `RequestScope.Corresponds`.

- A reference to a code reads the remote answer if no field has the code yet. If a later iteration
  gives the code to a field, then in another order the reference reads the local answer, and the
  remote one may never be made (`RequestScope.OnlyIn`).
- The item of a copied collection is named by the number of the copy, and so is an edge from it to a
  reference.
- Links to nodes that the form does not have keep their numbers, which a node of the request may
  happen to get. This is ruled out by `RequestScope.Unlinked`.

In `RequestScope.Ledger` each of the three happens.
-/

set_option autoImplicit false

namespace FormFlow

open NodeSource

namespace RequestScope

/-- An edge of one request and what it is in another one, under new identifiers. An answer that it
leads from may be the remote one to a code in one request and the local one in the other. -/
structure EdgesCorrespond (one other : RequestScope) (place : NodeId → NodeId)
    (edge image : Edge) : Prop where
  producer : image.producer = place edge.producer ∨ Swapped one other edge.producer image.producer
  consumer : image.consumer = place edge.consumer
  role : image.role = edge.role
  metadata : edge.metadata.Renumbered place image.metadata

/-- One request is another one under new identifiers: nodes of the form keep theirs, iterations go
by collection and index, copies by their place in the iteration, and pseudo-nodes by identity. Only
contested answers may be missing in one of the two. All other nodes have the same edges into them.
-/
structure Corresponds (one other : RequestScope) (place : NodeId → NodeId) : Prop where
  form : ∀ id, id.val < one.wired.nodeMark → place id = id
  nodes : Set.BijOn place
    {id | id ∈ one.overlay.nodes.nodes.map Node.id ∧ ¬OnlyIn one other id}
    {id | id ∈ other.overlay.nodes.nodes.map Node.id ∧ ¬OnlyIn other one id}
  contested : (∀ id, OnlyIn one other id → one.Contested id) ∧
    ∀ id, OnlyIn other one id → other.Contested id
  renumbers : Renumbering one.layers other.layers place
  iterations : ∀ record ∈ one.iterations, ∃ image,
    other.iteration? record.collection record.index = some image ∧
      place record.node = image.node ∧ record.nodes.map place = image.nodes
  pseudos : ∀ node ∈ one.overlay.nodes.nodes, ∀ definition, node.kind = .pseudo definition →
    ¬OnlyIn one other node.id → ∃ identity, definition.toPseudoKey.Renumbered place identity ∧
      other.layers.pseudo? identity = some (place node.id)
  edges : ∀ edge ∈ one.overlay.graph.edges, ¬OnlyIn one other edge.consumer →
    ∃ image ∈ other.overlay.graph.edges, EdgesCorrespond one other place edge image
  back : ∀ image ∈ other.overlay.graph.edges, ¬OnlyIn other one image.consumer →
    ∃ edge ∈ one.overlay.graph.edges, EdgesCorrespond one other place edge image

namespace Rearranged

variable {form : Form} {config : WiringConfig} {wired : WiredForm}
  {calls reordered : List (NodeId × Nat)}
  (rearranged : Rearranged form config wired calls reordered)
include rearranged

/-- Rivals are told from either order. -/
theorem swapped {id rival : NodeId}
    (swap : Swapped (run wired reordered) (run wired calls) id rival) :
    Swapped (run wired calls) (run wired reordered) rival id := by
  obtain ⟨identity, image, ⟨step, code, claimed, either⟩, found, known⟩ := swap
  exact ⟨image, identity,
    ⟨step, code, rearranged.symm.claims claimed, either.symm.imp And.symm And.symm⟩, known, found⟩

/-- Edges lead into nodes of the request. -/
theorem consumer_mem {edge : Edge} (member : edge ∈ (run wired calls).overlay.graph.edges) :
    edge.consumer ∈ (run wired calls).overlay.nodes.nodes.map Node.id :=
  ((reachable_run wired calls).stacked rearranged.grounded.coherent).2.consumers edge member

/-- An edge is there in the other order. -/
theorem edge_counterpart {edge : Edge} (member : edge ∈ (run wired calls).overlay.graph.edges)
    (shared : ¬OnlyIn (run wired calls) (run wired reordered) edge.consumer) :
    ∃ image ∈ (run wired reordered).overlay.graph.edges,
      EdgesCorrespond (run wired calls) (run wired reordered)
        (counterpart (run wired calls) (run wired reordered)) edge image := by
  have found := DependencyGraph.metadata?_of_mem rearranged.settled.distinct member
  rcases rearranged.metadata?_counterpart found (rearranged.consumer_mem member) shared with
    ⟨_, metadata, same, carried⟩ | ⟨keyed, rival, swap, carried⟩
  · obtain ⟨image, inside, isImage, rfl⟩ := DependencyGraph.exists_of_metadata? carried
    obtain ⟨producer, consumer, role⟩ := Triple.mk.inj isImage
    exact ⟨image, inside, .inl producer, consumer, role, same⟩
  · obtain ⟨image, inside, isImage, metadata⟩ := DependencyGraph.exists_of_metadata? carried
    obtain ⟨producer, consumer, role⟩ := Triple.mk.inj isImage
    refine ⟨image, inside, .inr (producer ▸ swap), consumer, role, ?_⟩
    rw [metadata]
    exact .ofKeyed keyed

/-- An edge of the other order is the counterpart of one that is here. -/
theorem exists_edge_of_image {image : Edge}
    (inside : image ∈ (run wired reordered).overlay.graph.edges)
    (shared : ¬OnlyIn (run wired reordered) (run wired calls) image.consumer) :
    ∃ edge ∈ (run wired calls).overlay.graph.edges,
      EdgesCorrespond (run wired calls) (run wired reordered)
        (counterpart (run wired calls) (run wired reordered)) edge image := by
  have found := DependencyGraph.metadata?_of_mem rearranged.symm.settled.distinct inside
  have isNode := rearranged.symm.consumer_mem inside
  obtain ⟨_, sharedHere, returns⟩ := rearranged.symm.counterpart_spec isNode shared
  rcases rearranged.symm.metadata?_counterpart found isNode shared with
    ⟨back, metadata, same, carried⟩ | ⟨keyed, rival, swap, carried⟩
  · obtain ⟨edge, member, isEdge, rfl⟩ := DependencyGraph.exists_of_metadata? carried
    obtain ⟨producer, consumer, role⟩ := Triple.mk.inj isEdge
    rw [← producer] at back
    have home : edge.consumer = counterpart (run wired reordered) (run wired calls)
      image.consumer := consumer
    rw [← home] at sharedHere returns
    refine ⟨edge, member, .inl back.symm, returns.symm, role.symm, ?_⟩
    -- Carried over again, the edge is the one it came from.
    rcases rearranged.metadata?_counterpart
        (DependencyGraph.metadata?_of_mem rearranged.settled.distinct member)
        (rearranged.consumer_mem member) sharedHere with
      ⟨_, again, renumbered, present⟩ | ⟨keyed, _⟩
    · have triple : (⟨counterpart (run wired calls) (run wired reordered) edge.producer,
          counterpart (run wired calls) (run wired reordered) edge.consumer, edge.role⟩ : Triple) =
          image.triple := by
        rw [back, returns, role]
        rfl
      cases found.symm.trans (triple ▸ present)
      exact renumbered
    · exact same.symm_of_keyed keyed
  · obtain ⟨edge, member, isEdge, metadata⟩ := DependencyGraph.exists_of_metadata? carried
    obtain ⟨rfl, consumer, role⟩ := Triple.mk.inj isEdge
    have home : edge.consumer = counterpart (run wired reordered) (run wired calls)
      image.consumer := consumer
    rw [← home] at returns
    refine ⟨edge, member, .inr (rearranged.swapped swap), returns.symm, role.symm, ?_⟩
    rw [metadata]
    exact .ofKeyed keyed

theorem corresponds : Corresponds (run wired calls) (run wired reordered)
    (counterpart (run wired calls) (run wired reordered)) where
  form := fun id low => rearranged.counterpart_low (by rwa [wired_run] at low)
  nodes := rearranged.bijOn_counterpart
  contested := ⟨fun _ => rearranged.contested_of_onlyIn,
    fun _ => rearranged.symm.contested_of_onlyIn⟩
  renumbers := rearranged.renumbering
  iterations := by
    intro record known
    obtain ⟨image, template, first, second, twins⟩ := rearranged.exists_twins known
    obtain ⟨node, nodes⟩ := List.cons.inj (rearranged.map_counterpart twins)
    exact ⟨image, twins.paired, node, nodes⟩
  pseudos := fun node member definition isPseudo shared =>
    rearranged.exists_counterpart member isPseudo shared
  edges := fun _ => rearranged.edge_counterpart
  back := fun _ => rearranged.exists_edge_of_image

end Rearranged

/-- **The order in which iterations of a form are made does not change their wiring.** If all calls
for collections of a plain form succeed in two orders, then one request is the other one under new
identifiers, but for which of two answers to a code is read. No node of the requests may happen to
have the number of a node that the form links to but does not have. -/
theorem perm_corresponds {form : Form} {config : WiringConfig} {wired : WiredForm}
    (built : form.Built) (plain : form.Plain) (wiring : WiredForm.wire form config = .ok wired)
    {calls reordered : List (NodeId × Nat)} (reorders : Reorders form wired calls reordered)
    (clear : Unlinked form (run wired calls)) (clearAgain : Unlinked form (run wired reordered)) :
    ∃ place, Corresponds (run wired calls) (run wired reordered) place :=
  have rearranged : Rearranged form config wired calls reordered :=
    { toReorders := reorders
      registered := WiredForm.wire_spec wiring
      coherent := built.coherent
      plain := plain
      clear := clear
      clearAgain := clearAgain }
  ⟨_, rearranged.corresponds⟩

/-! ### An order with notes

A row has a name, and a part in it refers to its item. A note refers to the name of the first row,
by the code that this gets. The source of a lot is a node that the form does not have. -/

/-- One request is another one under new identifiers without exception: all nodes are in both, and
pseudo-nodes and edges say the same in both. -/
structure CorrespondsExactly (one other : RequestScope) (place : NodeId → NodeId) : Prop where
  form : ∀ id, id.val < one.wired.nodeMark → place id = id
  nodes : Set.BijOn place {id | id ∈ one.overlay.nodes.nodes.map Node.id}
    {id | id ∈ other.overlay.nodes.nodes.map Node.id}
  iterations : ∀ record ∈ one.iterations, ∃ image,
    other.iteration? record.collection record.index = some image ∧
      place record.node = image.node ∧ record.nodes.map place = image.nodes
  pseudos : ∀ node ∈ one.overlay.nodes.nodes, ∀ definition, node.kind = .pseudo definition →
    other.layers.pseudo? definition.toPseudoKey = some (place node.id)
  edges : ∀ edge ∈ one.overlay.graph.edges, ∃ image ∈ other.overlay.graph.edges,
    image.triple = ⟨place edge.producer, place edge.consumer, edge.role⟩ ∧
      image.metadata = edge.metadata
  back : ∀ image ∈ other.overlay.graph.edges, ∃ edge ∈ one.overlay.graph.edges,
    image.triple = ⟨place edge.producer, place edge.consumer, edge.role⟩ ∧
      image.metadata = edge.metadata

namespace Ledger

def form : Form :=
  ⟨"order", {
    nodes := [
      ⟨⟨0⟩, none, .journey "order"⟩,
      ⟨⟨1⟩, some ⟨0⟩, .step "/rows"⟩,
      ⟨⟨2⟩, some ⟨1⟩, .collection ⟨"lot", some ⟨28⟩⟩⟩,
      ⟨⟨3⟩, some ⟨1⟩, .collection ⟨"row", none⟩⟩,
      ⟨⟨4⟩, some ⟨3⟩, .field ⟨"name", "text", [], none⟩⟩,
      ⟨⟨5⟩, some ⟨3⟩, .collection ⟨"part", none⟩⟩,
      ⟨⟨6⟩, some ⟨5⟩, .reference ⟨["@item", "size"]⟩⟩,
      ⟨⟨7⟩, some ⟨1⟩, .collection ⟨"note", none⟩⟩,
      ⟨⟨8⟩, some ⟨7⟩, .reference ⟨["answers", "row_0_name"]⟩⟩]
    containment := [(⟨0⟩, ⟨1⟩), (⟨1⟩, ⟨2⟩), (⟨1⟩, ⟨3⟩), (⟨3⟩, ⟨4⟩), (⟨3⟩, ⟨5⟩), (⟨5⟩, ⟨6⟩),
      (⟨1⟩, ⟨7⟩), (⟨7⟩, ⟨8⟩)]
    references := [⟨6⟩, ⟨8⟩]
    identities := []
    nextId := 9 }⟩

/-- The form before the calls that add the rows and the notes. -/
def opening : Form :=
  ⟨"order", {
    nodes := form.nodes.nodes.take 3
    containment := [(⟨0⟩, ⟨1⟩), (⟨1⟩, ⟨2⟩)]
    references := []
    identities := []
    nextId := 3 }⟩

def text : String :=
  "[\"order\",[[[0,null,[\"journey\",\"order\"]],[1,0,[\"step\",\"/rows\"]]," ++
    "[2,1,[\"collection\",\"lot\",28]]],3]]"

theorem built : form.Built := by
  have lot := Form.Built.ofText (by cbv : Form.ofText text = .ok opening)
  have row := lot.addCollection (rfl : Form.addCollection _ ⟨1⟩ "row" none = .ok (_, ⟨3⟩))
  have name := row.addField (rfl : Form.addField _ ⟨3⟩ "name" "text" = .ok (_, ⟨4⟩))
  have part := name.addCollection (rfl : Form.addCollection _ ⟨3⟩ "part" none = .ok (_, ⟨5⟩))
  have toItem := part.addReference
    (rfl : Form.addReference _ ⟨5⟩ ["@item", "size"] = .ok (_, ⟨6⟩))
  have note := toItem.addCollection (rfl : Form.addCollection _ ⟨1⟩ "note" none = .ok (_, ⟨7⟩))
  exact note.addReference
    (rfl : Form.addReference _ ⟨7⟩ ["answers", "row_0_name"] = .ok (_, ⟨8⟩))

theorem plain : form.Plain :=
  .ofNodes NodeId.val (by decide) (by decide) (by decide) (by decide) (by decide)

def wired : WiredForm := (WiredForm.wire form .default).toOption.getD default

theorem wiring : WiredForm.wire form .default = .ok wired :=
  rfl

/-- A row and a note. -/
def mixed : List (NodeId × Nat) := [(⟨3⟩, 0), (⟨7⟩, 0)]

/-- Two rows. -/
def rows : List (NodeId × Nat) := [(⟨3⟩, 0), (⟨3⟩, 1)]

/-- Two rows and a lot. -/
def lots : List (NodeId × Nat) := [(⟨3⟩, 0), (⟨3⟩, 1), (⟨2⟩, 0)]

theorem reorders_mixed : Reorders form wired mixed mixed.reverse where
  base := by decide
  distinct := by decide
  perm := (List.reverse_perm mixed).symm
  first := (succeeds_nil.concat (⟨3⟩, 0) rfl).concat (⟨7⟩, 0) rfl
  second := (succeeds_nil.concat (⟨7⟩, 0) rfl).concat (⟨3⟩, 0) rfl

theorem reorders_rows : Reorders form wired rows rows.reverse where
  base := by decide
  distinct := by decide
  perm := (List.reverse_perm rows).symm
  first := (succeeds_nil.concat (⟨3⟩, 0) rfl).concat (⟨3⟩, 1) rfl
  second := (succeeds_nil.concat (⟨3⟩, 1) rfl).concat (⟨3⟩, 0) rfl

theorem reorders_lots : Reorders form wired lots lots.reverse where
  base := by decide
  distinct := by decide
  perm := (List.reverse_perm lots).symm
  first := reorders_rows.first.concat (⟨2⟩, 0) rfl
  second := ((succeeds_nil.concat (⟨2⟩, 0) rfl).concat (⟨3⟩, 1) rfl).concat
    (⟨3⟩, 0) rfl

/-- Whether the row or the note is made first, the requests are the same, but for the remote answer
that the note makes when it is first. -/
theorem mixed_corresponds : Reorders form wired mixed mixed.reverse ∧
    Unlinked form (run wired mixed) ∧ Unlinked form (run wired mixed.reverse) ∧
      ∃ place, Corresponds (run wired mixed) (run wired mixed.reverse) place := by
  have clear : Unlinked form (run wired mixed) := by
    unfold Unlinked
    decide
  have clearAgain : Unlinked form (run wired mixed.reverse) := by
    unfold Unlinked
    decide
  exact ⟨reorders_mixed, clear, clearAgain,
    perm_corresponds built plain wiring reorders_mixed clear clearAgain⟩

/-- A note that is made before the row reads a remote answer, and goes on to read it. -/
theorem mixed_differ (place : NodeId → NodeId) :
    ¬CorrespondsExactly (run wired mixed) (run wired mixed.reverse) place := by
  intro same
  have note : (run wired mixed).iteration? ⟨7⟩ 0 = some _ := rfl
  obtain ⟨image, found, -, nodes⟩ := same.iterations _ (List.mem_of_find?_eq_some note)
  cases (rfl : (run wired mixed.reverse).iteration? ⟨7⟩ 0 = some _).symm.trans found
  have reference : place ⟨21⟩ = ⟨13⟩ := (List.cons.inj nodes).1
  have known : (run wired mixed).overlay.nodes.node? ⟨17⟩ = some _ := rfl
  have answered : some (⟨21⟩ : NodeId) = some (place ⟨17⟩) :=
    same.pseudos _ (List.mem_of_find?_eq_some known) _ rfl
  obtain ⟨edge, member, reads⟩ : ∃ edge ∈ (run wired mixed).overlay.graph.edges,
      edge.triple = ⟨⟨17⟩, ⟨21⟩, .dataFlow⟩ := by decide
  obtain ⟨producer, consumer, role⟩ := Triple.mk.inj reads
  obtain ⟨image, inside, triple, -⟩ := same.edges edge member
  rw [producer, consumer, role, ← Option.some.inj answered, reference] at triple
  have absent : ∀ edge ∈ (run wired mixed.reverse).overlay.graph.edges,
      edge.triple ≠ ⟨⟨21⟩, ⟨13⟩, .dataFlow⟩ := by decide
  exact absent image inside triple

/-- An edge from the item of a part names the part by its number. -/
theorem rows_differ (place : NodeId → NodeId) :
    ¬CorrespondsExactly (run wired rows) (run wired rows.reverse) place := by
  intro same
  have row : (run wired rows).iteration? ⟨3⟩ 0 = some _ := rfl
  obtain ⟨image, found, -, nodes⟩ := same.iterations _ (List.mem_of_find?_eq_some row)
  cases (rfl : (run wired rows.reverse).iteration? ⟨3⟩ 0 = some _).symm.trans found
  have reference : place ⟨15⟩ = ⟨23⟩ := (List.cons.inj (List.cons.inj (List.cons.inj nodes).2).2).1
  obtain ⟨edge, member, into, named⟩ : ∃ edge ∈ (run wired rows).overlay.graph.edges,
      edge.consumer = ⟨15⟩ ∧ edge.metadata.fieldCode = some "14" := by decide
  obtain ⟨image, inside, triple, metadata⟩ := same.edges edge member
  have absent : ∀ edge ∈ (run wired rows.reverse).overlay.graph.edges, edge.consumer = ⟨23⟩ →
      edge.metadata.fieldCode ≠ some "14" := by decide
  refine absent image inside ?_ (by rw [metadata, named])
  rw [← reference, ← into]
  exact congrArg Triple.consumer triple

/-- The missing source of the lots is the lot itself in one order, and in the other a row. -/
theorem lots_differ (place : NodeId → NodeId) :
    ¬Corresponds (run wired lots) (run wired lots.reverse) place := by
  intro same
  have lot : (run wired lots).iteration? ⟨2⟩ 0 = some _ := rfl
  obtain ⟨image, found, node, -⟩ := same.iterations _ (List.mem_of_find?_eq_some lot)
  cases (rfl : (run wired lots.reverse).iteration? ⟨2⟩ 0 = some _).symm.trans found
  have moved : place ⟨28⟩ = ⟨12⟩ := node
  have noRemote : ∀ step code,
      (run wired lots).layers.pseudo? ⟨.answerRemote, step, code⟩ = none := fun _ _ => rfl
  have noneThere : ∀ step code,
      (run wired lots.reverse).layers.pseudo? ⟨.answerRemote, step, code⟩ = none := fun _ _ => rfl
  have shared : ¬OnlyIn (run wired lots) (run wired lots.reverse) ⟨29⟩ := by
    rintro ⟨step, code, remote, -⟩
    cases (noRemote step code).symm.trans remote
  obtain ⟨edge, member, fills, into⟩ : ∃ edge ∈ (run wired lots).overlay.graph.edges,
      edge.producer = ⟨28⟩ ∧ edge.consumer = ⟨29⟩ := by decide
  obtain ⟨image, inside, corresponds⟩ := same.edges edge member (into ▸ shared)
  rcases corresponds.producer with producer | ⟨_, _, ⟨step, code, _, reads⟩, found, known⟩
  · rw [fills, moved] at producer
    have absent : ∀ edge ∈ (run wired lots.reverse).overlay.graph.edges, edge.producer ≠ ⟨12⟩ := by
      decide
    exact absent image inside producer
  · obtain ⟨rfl, rfl⟩ | ⟨rfl, rfl⟩ := reads
    · cases (noRemote step code).symm.trans found
    · cases (noneThere step code).symm.trans known

/-- **The order can still be told.** It decides which answer is read where one iteration declares the
code that another one refers to; it shows in the numbers by which items of copied collections go;
and if a link to a missing node happens to be to a node of the request, it decides to which one. -/
theorem order_shows :
    (form.Built ∧ form.Plain ∧ WiredForm.wire form .default = .ok wired) ∧
    (Reorders form wired mixed mixed.reverse ∧
      ∀ place, ¬CorrespondsExactly (run wired mixed) (run wired mixed.reverse) place) ∧
    (Reorders form wired rows rows.reverse ∧
      ∀ place, ¬CorrespondsExactly (run wired rows) (run wired rows.reverse) place) ∧
    Reorders form wired lots lots.reverse ∧
      ∀ place, ¬Corresponds (run wired lots) (run wired lots.reverse) place :=
  ⟨⟨built, plain, wiring⟩, ⟨reorders_mixed, mixed_differ⟩, ⟨reorders_rows, rows_differ⟩,
    reorders_lots, lots_differ⟩

end Ledger

end RequestScope

end FormFlow
