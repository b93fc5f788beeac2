import FormFlow.Proofs.Json.Reading
import FormFlow.Proofs.Json.Scanning
import FormFlow.Serial.Node

/-!
# Nodes in JSON are read back

What is written of a node is read back as the node (`Node.reader_ofJson`), and its text is
scanned without loss (`Node.exact_toJson`), if everything in the node fits what it is written
as (`Node.Storable`): identifiers and indices are below their bounds, and a literal value is
exact, in normal form, and not nested deeper than what the rest of a form leaves room for.
-/

set_option autoImplicit false

namespace FormFlow

/-- How deep a literal value may be nested: a text may have 127 containers open at once, and
five are opened around the value of a literal. -/
def literalDepth : Nat := 122

/-- A value that is scanned without loss and is not nested deeper than a bound. -/
structure Json.Fits (bound : Nat) (value : Json) : Prop where
  exact : Scanner.Exact value
  shallow : value.depth ≤ bound

/-- A value that can be the value of a literal in a text. -/
structure Json.Storable (value : Json) : Prop extends value.Fits literalDepth where
  normal : value.normalize = value

/-- A kind everything in which fits. -/
structure NodeKind.Storable (kind : NodeKind) : Prop where
  links : ∀ id ∈ kind.linkedIds, id.val < identBound
  scope : ∀ definition, kind = .pseudo definition → definition.scope.val < identBound
  index : ∀ owner index, kind = .iteration owner index → index < indexBound
  literal : ∀ value, kind = .literal value → value.Storable

/-- A node everything in which fits, and behind which another one can be numbered. -/
structure Node.Storable (node : Node) : Prop where
  own : node.id.val + 1 < identBound
  parent : ∀ outer, node.parent = some outer → outer.val < identBound
  kind : node.kind.Storable

/-! ## Identifiers and names -/

namespace NodeId

theorem reader_ofJson {id : NodeId} (below : id.val < identBound) (stage : Stage) :
    reader stage (Document.ofJson id.toJson) = .ok id := by
  rw [reader, toJson, Reader.natBelow_ofJson below]
  rfl

theorem optional_ofJson {id : NodeId} (below : id.val < identBound) (stage : Stage) :
    reader.optional stage (Document.ofJson id.toJson) = .ok (some id) := by
  change some <$> reader stage (Document.ofJson id.toJson) = _
  rw [reader_ofJson below]
  rfl

end NodeId

theorem identsReader_ofJson (ids : List NodeId) (below : ∀ id ∈ ids, id.val < identBound)
    {stage inner : Stage} (entered : stage.enter = .ok inner) :
    identsReader stage (Document.ofJson (identsToJson ids)) = .ok ids :=
  Reader.list_ofItems entered fun id member => NodeId.reader_ofJson (below id member) inner

theorem PseudoKind.reader_ofJson (kind : PseudoKind) (stage : Stage) :
    reader stage (Document.ofJson (.str kind.text)) = .ok kind :=
  Reader.choice_ofJson (by cases kind <;> rfl) stage

theorem Trigger.reader_ofJson (trigger : Trigger) (stage : Stage) :
    reader stage (Document.ofJson (.str trigger.text)) = .ok trigger :=
  Reader.choice_ofJson (by cases trigger <;> rfl) stage

/-! ## Kinds -/

namespace NodeKind

/-- The name of a kind. -/
def tagOf : NodeKind → Tag
  | .journey _ => .journey
  | .step _ => .step
  | .block _ => .block
  | .collection _ => .collection
  | .field _ => .field
  | .reference _ => .reference
  | .function _ _ => .function
  | .literal _ => .literal
  | .transition _ => .transition
  | .pseudo _ => .pseudo
  | .iteration _ _ => .iteration

open Reader Shape in
/-- The fields of a kind are read back. -/
theorem members_reads {kind : NodeKind} (storable : kind.Storable) :
    (shape kind.tagOf).Reads .tagged kind.members kind := by
  have entered : Stage.tagged.enter = .ok .tagged := rfl
  cases kind with
  | journey code => exact (reads_field "code" (string_ofJson code _)).map rfl
  | step path => exact (reads_field "path" (string_ofJson path _)).map rfl
  | block variant => exact (reads_field "variant" (string_ofJson variant _)).map rfl
  | collection definition =>
    have source := reads_fieldOpt "source" definition.source fun id present =>
      NodeId.optional_ofJson (storable.links id (by simp [linkedIds, present])) .tagged
    exact ((reads_field "code" (string_ofJson definition.code _)).and source (by decide)).map rfl
  | field definition =>
    have formatters := identsReader_ofJson definition.formatters
      (fun id member => storable.links id (List.mem_append_left _ member)) entered
    have defaultValue := reads_fieldOpt "default_value" definition.defaultValue
      fun id present => NodeId.optional_ofJson (storable.links id (by simp [linkedIds, present]))
        .tagged
    have texts := (reads_field "code" (string_ofJson definition.code .tagged)).and
      (reads_field "variant" (string_ofJson definition.variant .tagged)) (by decide)
    exact (texts.and ((reads_fieldOr "formatters" formatters).and defaultValue (by decide)) (by decide)).map rfl
  | reference expression =>
    exact (reads_field "path" (list_ofItems entered fun text _ => string_ofJson text _)).map rfl
  | function name arguments =>
    have idents := identsReader_ofJson arguments storable.links entered
    exact ((reads_field "name" (string_ofJson name _)).and (reads_fieldOr "arguments" idents)
      (by decide)).map rfl
  | literal value =>
    have read : Reader.json .tagged (Document.ofJson value) = .ok value := by
      rw [Reader.json, Document.read_ofJson value (show Stage.tagged.Holds value.depth from trivial)]
      exact congrArg Except.ok ((storable.literal value rfl).normal)
    exact (reads_field "value" read).map rfl
  | transition definition =>
    have effects := identsReader_ofJson definition.effects storable.links entered
    exact ((reads_field "trigger" (Trigger.reader_ofJson definition.trigger _)).and
      (reads_fieldOr "effects" effects) (by decide)).map rfl
  | pseudo definition =>
    have scope := NodeId.reader_ofJson (storable.scope definition rfl) .tagged
    have origin := reads_fieldOpt "origin" definition.origin fun id present =>
      NodeId.optional_ofJson (storable.links id (by simp [linkedIds, present])) .tagged
    have place := (reads_field "kind" (PseudoKind.reader_ofJson definition.kind .tagged)).and
      (reads_field "scope" scope) (by decide)
    have rest := (reads_field "key" (string_ofJson definition.key .tagged)).and origin
      (by decide)
    exact ((place.and rest (by decide)).map rfl).map rfl
  | iteration owner index =>
    have collection := NodeId.reader_ofJson (storable.links owner (List.mem_singleton_self owner))
      .tagged
    have number := natBelow_ofJson (storable.index owner index rfl) .tagged
    exact ((reads_field "collection" collection).and (reads_field "index" number) (by decide)).map rfl

theorem mem_fields_ne (tag : Tag) : ∀ name ∈ (shape tag).fields, name ≠ "type" := by
  cases tag <;> decide

theorem alternative_tag (kind : NodeKind) : Reader.alternative tags kind.tag = .ok kind.tagOf := by
  cases kind <;> rfl

/-- A kind is read back. -/
theorem reader_ofJson {kind : NodeKind} (storable : kind.Storable) {stage : Stage}
    (holds : stage.Holds kind.toJson.depth) :
    reader stage (Document.ofJson kind.toJson) = .ok kind := by
  obtain ⟨inner, entered, fits⟩ := Stage.Holds.enter holds
  have reads := members_reads storable
  have untagged : ∀ member ∈ kind.members, member.1 ≠ "type" := fun member belongs =>
    mem_fields_ne _ _ (reads.known member belongs)
  rw [toJson, reader, Reader.tagged_ofJson (alternative_tag kind) untagged entered
    (fits.mono (Nat.le_max_right ..)), Reader.Content.structured, reads.ofMembers]
  rfl

end NodeKind

/-! ## Nodes -/

namespace Node

/-- **A node is read back.** -/
theorem reader_ofJson {node : Node} (storable : node.Storable) {stage : Stage}
    (holds : stage.Holds node.toJson.depth) :
    reader stage (Document.ofJson node.toJson) = .ok node := by
  obtain ⟨inner, entered, fits⟩ := Stage.Holds.enter holds
  have kind := NodeKind.reader_ofJson storable.kind
    (fits.mono (Json.depth_le_of_mem_members (List.mem_append_right _ (List.mem_singleton_self _))))
  have parent := Reader.Shape.reads_fieldOpt "parent" node.parent fun id present =>
    NodeId.optional_ofJson (storable.parent id present) inner
  have own := NodeId.reader_ofJson (Nat.lt_of_succ_lt storable.own) inner
  have rest := parent.and (Reader.Shape.reads_field "kind" kind) (by decide)
  rw [toJson, List.append_assoc]
  exact (((Reader.Shape.reads_field "id" own).and rest (by decide)).map rfl).structured entered

end Node

/-! ## Texts -/

namespace Json

theorem Fits.mono {bound more : Nat} {value : Json} (fits : value.Fits bound) (le : bound ≤ more) :
    value.Fits more :=
  ⟨fits.exact, Nat.le_trans fits.shallow le⟩

theorem fits_str (text : String) (bound : Nat) : (Json.str text).Fits bound :=
  ⟨.str text, Nat.zero_le bound⟩

theorem fits_nat {value : Nat} (below : value < Numeral.wordBound) (bound : Nat) :
    (Json.nat value).Fits bound :=
  ⟨.int (by omega) (by omega), Nat.zero_le bound⟩

theorem fits_ident {id : NodeId} (below : id.val < identBound) (bound : Nat) :
    id.toJson.Fits bound :=
  fits_nat (Nat.lt_trans below (by decide)) bound

theorem Fits.arr {bound : Nat} {items : List Json} (each : ∀ item ∈ items, item.Fits bound) :
    (Json.arr items).Fits (bound + 1) :=
  ⟨.arr fun item member => (each item member).exact,
    Nat.succ_le_succ (depthItems_le fun item member => (each item member).shallow)⟩

theorem Fits.obj {bound : Nat} {members : List (String × Json)}
    (each : ∀ member ∈ members, member.2.Fits bound) : (Json.obj members).Fits (bound + 1) :=
  ⟨.obj fun member belongs => (each member belongs).exact,
    Nat.succ_le_succ (depthMembers_le fun member belongs => (each member belongs).shallow)⟩

theorem fits_idents {ids : List NodeId} (below : ∀ id ∈ ids, id.val < identBound) (bound : Nat) :
    (identsToJson ids).Fits (bound + 1) := by
  refine .arr fun item member => ?_
  obtain ⟨id, belongs, rfl⟩ := List.mem_map.1 member
  exact fits_ident (below id belongs) bound

theorem fits_texts (texts : List String) (bound : Nat) : (textsToJson texts).Fits (bound + 1) := by
  refine .arr fun item member => ?_
  obtain ⟨text, -, rfl⟩ := List.mem_map.1 member
  exact fits_str text bound

theorem fits_member? {name : String} {id : Option NodeId}
    (below : ∀ present, id = some present → present.val < identBound) (bound : Nat) :
    ∀ member ∈ member? name (id.map NodeId.toJson), member.2.Fits bound := by
  cases id with
  | none => nofun
  | some present => exact List.forall_mem_singleton.2 (fits_ident (below present rfl) bound)

end Json

open Json

theorem NodeKind.fits_members {kind : NodeKind} (storable : kind.Storable) :
    ∀ member ∈ kind.members, member.2.Fits literalDepth := by
  have text (value : String) := fits_str value literalDepth
  have idents (ids : List NodeId) (below : ∀ id ∈ ids, id.val < identBound) :
      (identsToJson ids).Fits literalDepth := (fits_idents below 0).mono (by decide)
  cases kind with
  | journey code => exact List.forall_mem_singleton.2 (text code)
  | step path => exact List.forall_mem_singleton.2 (text path)
  | block variant => exact List.forall_mem_singleton.2 (text variant)
  | collection definition =>
    refine List.forall_mem_cons.2 ⟨text definition.code, fits_member? (fun id present => ?_) _⟩
    exact storable.links id (by simp [linkedIds, present])
  | field definition =>
    have formatters := idents definition.formatters fun id member =>
      storable.links id (List.mem_append_left _ member)
    refine List.forall_mem_cons.2 ⟨text definition.code, List.forall_mem_cons.2
      ⟨text definition.variant, List.forall_mem_cons.2 ⟨formatters, ?_⟩⟩⟩
    exact fits_member? (fun id present => storable.links id (by simp [linkedIds, present])) _
  | reference expression =>
    exact List.forall_mem_singleton.2 ((fits_texts expression.path 0).mono (by decide))
  | function name arguments =>
    exact List.forall_mem_cons.2 ⟨text name,
      List.forall_mem_singleton.2 (idents _ storable.links)⟩
  | literal value => exact List.forall_mem_singleton.2 (storable.literal value rfl).toFits
  | transition definition =>
    exact List.forall_mem_cons.2 ⟨text definition.trigger.text,
      List.forall_mem_singleton.2 (idents _ storable.links)⟩
  | pseudo definition =>
    refine List.forall_mem_cons.2 ⟨text definition.kind.text, List.forall_mem_cons.2
      ⟨fits_ident (storable.scope definition rfl) _, List.forall_mem_cons.2
        ⟨text definition.key, fits_member? (fun id present => ?_) _⟩⟩⟩
    exact storable.links id (by simp [linkedIds, present])
  | iteration owner index =>
    have collection := storable.links owner (List.mem_singleton_self owner)
    exact List.forall_mem_cons.2 ⟨fits_ident collection _,
      List.forall_mem_singleton.2 (fits_nat (storable.index owner index rfl) _)⟩

theorem NodeKind.fits_toJson {kind : NodeKind} (storable : kind.Storable) :
    kind.toJson.Fits (literalDepth + 1) :=
  .obj (List.forall_mem_cons.2 ⟨fits_str kind.tag _, fits_members storable⟩)

/-- The text of a node is scanned without loss, and what it opens is known. -/
theorem Node.fits_toJson {node : Node} (storable : node.Storable) :
    node.toJson.Fits (literalDepth + 2) := by
  refine .obj (List.forall_mem_append.2 ⟨List.forall_mem_append.2 ⟨?_, ?_⟩, ?_⟩)
  · exact List.forall_mem_singleton.2 (fits_ident (Nat.lt_of_succ_lt storable.own) _)
  · exact fits_member? storable.parent _
  · exact List.forall_mem_singleton.2 (NodeKind.fits_toJson storable.kind)

end FormFlow
