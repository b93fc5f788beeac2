import FormFlow.Proofs.Graph.Numbering
import FormFlow.Proofs.Serial.Node
import FormFlow.Serial.Graph

/-!
# Graphs in JSON are read back

An edge is read back with the identifier that it had (`Edge.reader_ofJson`), but the reader of a
graph does not rely on it: it adds the edges one by one, and numbers them as it goes. A graph is
therefore read back as itself because its edges are numbered in order and repeat no connection
(`DependencyGraph.ofText_write`).

What stands in the text is the first number and the list of edges, and whatever is made of these
two is what the text is read as (`DependencyGraph.ofText_stored`).
-/

set_option autoImplicit false

namespace FormFlow

open Reader (Shape)

/-- An edge everything in which fits. -/
structure Edge.Storable (edge : Edge) : Prop where
  own : edge.id.val < identBound
  producer : edge.producer.val < identBound
  consumer : edge.consumer.val < identBound

theorem Role.reader_ofJson (role : Role) (stage : Stage) :
    reader stage (Document.ofJson (.str role.text)) = .ok role :=
  Reader.choice_ofJson (by cases role <;> rfl) stage

theorem Namespace.reader_ofJson (space : Namespace) (stage : Stage) :
    reader stage (Document.ofJson (.str space.text)) = .ok space :=
  Reader.choice_ofJson (by cases space <;> rfl) stage

theorem EdgeMetadata.reader_ofJson (metadata : EdgeMetadata) {stage inner : Stage}
    (entered : stage.enter = .ok inner) :
    reader stage (Document.ofJson metadata.toJson) = .ok metadata := by
  have fieldCode : (Shape.fieldOpt "field_code" Reader.string).Reads inner
      (Json.member? "field_code" (metadata.fieldCode.map Json.str)) metadata.fieldCode :=
    Shape.reads_fieldOpt _ _ fun _ _ => rfl
  have property : (Shape.fieldOpt "property" Reader.string).Reads inner
      (Json.member? "property" (metadata.property.map Json.str)) metadata.property :=
    Shape.reads_fieldOpt _ _ fun _ _ => rfl
  have reference : (Shape.fieldOpt "reference" Namespace.reader).Reads inner
      (Json.member? "reference" (metadata.reference.map fun space => .str space.text))
      metadata.reference := by
    refine Shape.reads_fieldOpt _ _ fun space _ => ?_
    change some <$> Namespace.reader inner _ = _
    rw [Namespace.reader_ofJson]
    rfl
  have members := fieldCode.and (property.and reference (by decide)) (by decide)
  rw [toJson, List.append_assoc]
  exact (members.map rfl).structured entered

theorem Edge.reader_ofJson {edge : Edge} (storable : edge.Storable) {stage inner inmost : Stage}
    (entered : stage.enter = .ok inner) (opened : inner.enter = .ok inmost) :
    reader stage (Document.ofJson edge.toJson) = .ok edge := by
  have id := Shape.reads_field "id" (Reader.natBelow_ofJson storable.own inner)
  have producer := Shape.reads_field "producer" (NodeId.reader_ofJson storable.producer inner)
  have consumer := Shape.reads_field "consumer" (NodeId.reader_ofJson storable.consumer inner)
  have role := Shape.reads_field "role" (Role.reader_ofJson edge.role inner)
  have metadata : (Shape.fieldOr "metadata" EdgeMetadata.reader .empty).Reads inner
      [("metadata", edge.metadata.toJson)] edge.metadata :=
    Shape.reads_fieldOr _ (edge.metadata.reader_ofJson opened)
  have members := id.and ((producer.and consumer (by decide)).and (role.and metadata (by decide))
    (by decide)) (by decide)
  exact (members.map rfl).structured entered

/-! ## Texts -/

/-- A member that may be left out fits if what it would hold does. -/
theorem Json.fits_optional {name : String} {value : Option Json} {bound : Nat}
    (fits : ∀ present, value = some present → present.Fits bound) :
    ∀ member ∈ member? name value, member.2.Fits bound := by
  cases value with
  | none => nofun
  | some present => exact List.forall_mem_singleton.2 (fits present rfl)

theorem EdgeMetadata.fits_toJson (metadata : EdgeMetadata) (bound : Nat) :
    metadata.toJson.Fits (bound + 1) := by
  have texts : ∀ texts : Option String, ∀ present,
      texts.map Json.str = some present → present.Fits bound := by
    rintro texts present found
    obtain ⟨text, -, rfl⟩ := Option.map_eq_some_iff.1 found
    exact Json.fits_str text bound
  have names : ∀ present, (metadata.reference.map fun space => Json.str space.text) = some present →
      present.Fits bound := by
    intro present found
    obtain ⟨space, -, rfl⟩ := Option.map_eq_some_iff.1 found
    exact Json.fits_str space.text bound
  refine .obj (List.forall_mem_append.2 ⟨List.forall_mem_append.2 ⟨?_, ?_⟩, ?_⟩)
  · exact Json.fits_optional (texts metadata.fieldCode)
  · exact Json.fits_optional (texts metadata.property)
  · exact Json.fits_optional names

theorem Edge.fits_toJson {edge : Edge} (storable : edge.Storable) : edge.toJson.Fits 2 := by
  refine .obj ?_
  simp only [List.forall_mem_cons, List.not_mem_nil, false_implies, implies_true, and_true]
  exact ⟨Json.fits_nat (Nat.lt_trans storable.own (by decide)) 1,
    Json.fits_ident storable.producer 1, Json.fits_ident storable.consumer 1,
    Json.fits_str edge.role.text 1, edge.metadata.fits_toJson 0⟩

namespace DependencyGraph

/-- A graph everything in which fits. -/
structure Storable (graph : DependencyGraph) : Prop where
  first : graph.firstId < identBound
  edges : ∀ edge ∈ graph.edges, edge.Storable

/-- The shape of the first number and the edges of a graph. -/
def stored : Shape (Nat × List Edge) :=
  (Shape.fieldOr "first_edge_id" (Reader.natBelow identBound) 0).and
    (Shape.field "edges" (Reader.list Edge.reader))

theorem fits_toJson {graph : DependencyGraph} (storable : graph.Storable) :
    graph.toJson.Fits 4 := by
  have edges : ∀ item ∈ graph.edges.map Edge.toJson, item.Fits 2 := by
    intro item member
    obtain ⟨edge, belongs, rfl⟩ := List.mem_map.1 member
    exact Edge.fits_toJson (storable.edges edge belongs)
  have number : (Json.nat graph.firstId).Fits 3 :=
    Json.fits_nat (Nat.lt_trans storable.first (by decide)) 3
  exact .obj (List.forall_mem_cons.2 ⟨number, List.forall_mem_singleton.2 (.arr edges)⟩)

/-- Whatever is made of the first number and the edges of a graph is read from its text, in any
layout. -/
theorem ofText_stored {α : Type} {graph : DependencyGraph} (storable : graph.Storable)
    (conversion : Nat × List Edge → α) {layout : Json.Layout} (airy : Scanner.Airy layout) :
    Reader.ofText (Reader.structured (stored.map conversion))
        (String.ofList (graph.toJson.write layout 0)) =
      .ok (conversion (graph.firstId, graph.edges)) := by
  have holds : Stage.ofText.Holds 4 := (by decide : 4 < 128)
  obtain ⟨inner, entered, holds⟩ := holds.enter
  obtain ⟨listed, opened, holds⟩ := holds.enter
  obtain ⟨outer, edgeEntered, holds⟩ := holds.enter
  obtain ⟨inmost, metadataEntered, -⟩ := holds.enter
  have edges : Reader.list Edge.reader inner
      (Document.ofJson (.arr (graph.edges.map Edge.toJson))) = .ok graph.edges :=
    Reader.list_ofItems opened fun edge member =>
      Edge.reader_ofJson (storable.edges edge member) edgeEntered metadataEntered
  have number : (Shape.fieldOr "first_edge_id" (Reader.natBelow identBound) 0).Reads inner
      [("first_edge_id", .nat graph.firstId)] graph.firstId :=
    Shape.reads_fieldOr _ (Reader.natBelow_ofJson storable.first inner)
  have members := number.and (Shape.reads_field "edges" edges) (by decide)
  have read : Reader.structured (stored.map conversion) .ofText (Document.ofJson graph.toJson) =
      .ok (conversion (graph.firstId, graph.edges)) :=
    (members.map rfl).structured entered
  rw [Reader.ofText, Scanner.ofText_write airy (fits_toJson storable).exact]
  change (Reader.structured (stored.map conversion) .ofText _ >>= _) = _
  rw [read]
  rfl

/-- A numbered graph without repeated connections is read back from its text. -/
theorem ofText_write {graph : DependencyGraph} (storable : graph.Storable)
    (numbered : graph.Numbered) (distinct : graph.triples.Nodup) {layout : Json.Layout}
    (airy : Scanner.Airy layout) :
    ofText (String.ofList (graph.toJson.write layout 0)) = .ok graph := by
  have rebuilt : ofEdges graph.edges graph.firstId = graph :=
    foldl_addEdge numbered distinct fun _ _ => List.not_mem_nil
  exact (ofText_stored storable (fun entry => ofEdges entry.2 entry.1) airy).trans
    (congrArg Except.ok rebuilt)

end DependencyGraph

end FormFlow
