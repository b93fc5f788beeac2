import FormFlow.Proofs.Form.Coherence
import FormFlow.Proofs.Json.Spelling
import FormFlow.Serial.Form

/-!
# What the canonical text of a form says

Nodes are the same in JSON only if they are the same (`Node.toJson_inj`), and JSON values with
the same text are the same up to the spelling of real numbers. Real numbers occur in the
values of literals only, so a canonical text determines the code of a form, its next identifier
and its nodes, of which the literal values are spelled out (`Form.contents_of_canonicalText`).

The order in which the nodes were inserted is not in the text.
-/

set_option autoImplicit false

namespace FormFlow

/-! ## Nodes as JSON -/

theorem NodeId.toJson_inj {id other : NodeId} (same : id.toJson = other.toJson) : id = other := by
  obtain ⟨id⟩ := id
  obtain ⟨other⟩ := other
  simpa [toJson, Json.nat] using same

theorem identsToJson_inj {ids others : List NodeId}
    (same : identsToJson ids = identsToJson others) : ids = others :=
  List.map_injective_iff.2 (fun _ _ => NodeId.toJson_inj) (Json.arr.inj same)

theorem textsToJson_inj {texts others : List String}
    (same : textsToJson texts = textsToJson others) : texts = others :=
  List.map_injective_iff.2 (fun _ _ => Json.str.inj) (Json.arr.inj same)

theorem Json.member?_inj {name : String} {id other : Option NodeId}
    (same : member? name (id.map NodeId.toJson) = member? name (other.map NodeId.toJson)) :
    id = other := by
  cases id with
  | none =>
    cases other with
    | none => rfl
    | some other => cases same
  | some id =>
    cases other with
    | none => cases same
    | some other =>
      simp only [member?, Option.map_some, List.cons.injEq, Prod.mk.injEq, true_and,
        and_true] at same
      rw [NodeId.toJson_inj same]

theorem PseudoKind.text_inj {kind other : PseudoKind} (same : kind.text = other.text) :
    kind = other := by
  cases kind <;> cases other <;> first | rfl | exact absurd same (by decide)

theorem Trigger.text_inj {trigger other : Trigger} (same : trigger.text = other.text) :
    trigger = other := by
  cases trigger <;> cases other <;> first | rfl | exact absurd same (by decide)

theorem Pseudo.members_inj {definition other : Pseudo}
    (same : definition.members = other.members) : definition = other := by
  obtain ⟨⟨kind, scope, key⟩, origin⟩ := definition
  obtain ⟨⟨otherKind, otherScope, otherKey⟩, otherOrigin⟩ := other
  obtain ⟨kinds, rest⟩ := List.cons.inj same
  obtain ⟨scopes, rest⟩ := List.cons.inj rest
  obtain ⟨keys, origins⟩ := List.cons.inj rest
  cases PseudoKind.text_inj (Json.str.inj (Prod.mk.inj kinds).2)
  cases NodeId.toJson_inj (Prod.mk.inj scopes).2
  cases Json.str.inj (Prod.mk.inj keys).2
  cases Json.member?_inj origins
  rfl

theorem NodeKind.toJson_inj {kind other : NodeKind} (same : kind.toJson = other.toJson) :
    kind = other := by
  obtain ⟨tags, members⟩ : kind.tag = other.tag ∧ kind.members = other.members := by
    simpa [toJson] using same
  cases kind <;> cases other <;> first | (exfalso; simp [tag] at tags; done) | skip
  case journey.journey => simpa [NodeKind.members] using members
  case step.step => simpa [NodeKind.members] using members
  case block.block => simpa [NodeKind.members] using members
  case collection.collection definition other =>
    obtain ⟨code, source⟩ := List.cons.inj members
    obtain ⟨ownCode, ownSource⟩ := definition
    obtain ⟨otherCode, otherSource⟩ := other
    cases Json.str.inj (Prod.mk.inj code).2
    cases Json.member?_inj source
    rfl
  case field.field definition other =>
    obtain ⟨code, rest⟩ := List.cons.inj members
    obtain ⟨variant, rest⟩ := List.cons.inj rest
    obtain ⟨formatters, value⟩ := List.cons.inj rest
    obtain ⟨ownCode, ownVariant, ownFormatters, ownValue⟩ := definition
    obtain ⟨otherCode, otherVariant, otherFormatters, otherValue⟩ := other
    cases identsToJson_inj (Prod.mk.inj formatters).2
    cases Json.member?_inj value
    cases Json.str.inj (Prod.mk.inj code).2
    cases Json.str.inj (Prod.mk.inj variant).2
    rfl
  case reference.reference expression other =>
    obtain ⟨path⟩ := expression
    obtain ⟨other⟩ := other
    cases textsToJson_inj (Prod.mk.inj (List.cons.inj members).1).2
    rfl
  case function.function name arguments otherName others =>
    obtain ⟨name, rest⟩ := List.cons.inj members
    cases identsToJson_inj (Prod.mk.inj (List.cons.inj rest).1).2
    simpa using name
  case literal.literal => simpa [NodeKind.members] using members
  case transition.transition definition other =>
    obtain ⟨trigger, rest⟩ := List.cons.inj members
    obtain ⟨ownTrigger, effects⟩ := definition
    obtain ⟨otherTrigger, others⟩ := other
    cases identsToJson_inj (Prod.mk.inj (List.cons.inj rest).1).2
    cases Trigger.text_inj (Json.str.inj (Prod.mk.inj trigger).2)
    rfl
  case pseudo.pseudo definition other => exact congrArg pseudo (Pseudo.members_inj members)
  case iteration.iteration owner index other number =>
    obtain ⟨owner, rest⟩ := List.cons.inj members
    cases NodeId.toJson_inj (Prod.mk.inj owner).2
    simpa [Json.nat] using rest

theorem Node.toJson_inj {node other : Node} (same : node.toJson = other.toJson) : node = other := by
  obtain ⟨id, parent, kind⟩ := node
  obtain ⟨otherId, otherParent, otherKind⟩ := other
  obtain ⟨ids, rest⟩ := List.cons.inj (Json.obj.inj same)
  obtain ⟨parents, kinds⟩ := List.append_inj' rest rfl
  cases NodeId.toJson_inj (Prod.mk.inj ids).2
  cases Json.member?_inj parents
  cases NodeKind.toJson_inj (Prod.mk.inj (List.cons.inj kinds).1).2
  rfl

/-! ## Outlines -/

/-- A kind with real numbers spelled out. -/
def NodeKind.outline : NodeKind → NodeKind
  | .literal value => .literal value.spelled
  | kind => kind

/-- A node with real numbers spelled out. -/
def Node.outline (node : Node) : Node := { node with kind := node.kind.outline }

theorem Node.id_of_outline {node other : Node} (same : node.outline = other.outline) :
    node.id = other.id :=
  (Node.mk.inj same).1

theorem Node.parent_of_outline {node other : Node} (same : node.outline = other.outline) :
    node.parent = other.parent :=
  (Node.mk.inj same).2.1

/-- Something that is read off a kind without looking at the values of literals. -/
def NodeKind.Blind {α : Sort*} (view : NodeKind → α) : Prop :=
  ∀ value other, view (.literal value) = view (.literal other)

namespace NodeKind.Blind

variable {α : Type*} {view : NodeKind → α} (blind : Blind view)
include blind

theorem outline (kind : NodeKind) : view kind.outline = view kind := by
  cases kind with
  | literal value => exact blind _ _
  | _ => rfl

theorem comp_outline : (fun node : Node => view node.kind) ∘ Node.outline =
    fun node => view node.kind :=
  funext fun node => blind.outline node.kind

/-- What is read off is the same for nodes with the same outline. -/
theorem eq {node other : Node} (same : node.outline = other.outline) :
    view node.kind = view other.kind :=
  (blind.outline node.kind).symm.trans
    ((congrArg (fun node => view node.kind) same).trans (blind.outline other.kind))

end NodeKind.Blind

theorem NodeKind.Blind.bind_eq {α : Type*} {view : NodeKind → Option α} (blind : Blind view)
    {found other : Option Node} (same : found.map Node.outline = other.map Node.outline) :
    (found.bind fun node => view node.kind) = other.bind fun node => view node.kind := by
  have seen : ∀ found : Option Node, (found.bind fun node => view node.kind) =
      (found.map Node.outline).bind fun node => view node.kind := by
    intro found
    cases found with
    | none => rfl
    | some node => exact (blind.outline node.kind).symm
  rw [seen found, same, ← seen other]

namespace Json

mutual
/-- Nothing is left to be spelled out. -/
theorem spelled_spelled (value : Json) : value.spelled.spelled = value.spelled := by
  match value with
  | .arr items => rw [spelled, spelled, spelledItems_spelledItems items]
  | .obj members => rw [spelled, spelled, spelledMembers_spelledMembers members]
  | .null => rfl
  | .bool _ => rfl
  | .int _ => rfl
  | .real _ => rfl
  | .str _ => rfl

theorem spelledItems_spelledItems (items : List Json) :
    spelledItems (spelledItems items) = spelledItems items := by
  match items with
  | [] => rfl
  | item :: rest =>
    rw [spelledItems, spelledItems, spelled_spelled item, spelledItems_spelledItems rest]

theorem spelledMembers_spelledMembers (members : List (String × Json)) :
    spelledMembers (spelledMembers members) = spelledMembers members := by
  match members with
  | [] => rfl
  | (key, value) :: rest =>
    rw [spelledMembers, spelledMembers, spelled_spelled value, spelledMembers_spelledMembers rest]
end

theorem spelledItems_eq_map (items : List Json) : spelledItems items = items.map spelled := by
  induction items with
  | nil => rfl
  | cons item rest ih => rw [spelledItems, ih, List.map_cons]

theorem spelledMembers_append (members others : List (String × Json)) :
    spelledMembers (members ++ others) = spelledMembers members ++ spelledMembers others := by
  induction members with
  | nil => rfl
  | cons member rest ih =>
    rw [List.cons_append, spelledMembers, ih, spelledMembers, List.cons_append]

theorem spelled_ident (id : NodeId) : id.toJson.spelled = id.toJson := rfl

theorem spelled_idents (ids : List NodeId) : (identsToJson ids).spelled = identsToJson ids := by
  rw [identsToJson, spelled, spelledItems_eq_map, List.map_map]
  rfl

theorem spelled_texts (texts : List String) : (textsToJson texts).spelled = textsToJson texts := by
  rw [textsToJson, spelled, spelledItems_eq_map, List.map_map]
  rfl

theorem spelledMembers_member? (name : String) (id : Option NodeId) :
    spelledMembers (member? name (id.map NodeId.toJson)) = member? name (id.map NodeId.toJson) := by
  cases id <;> rfl

end Json

theorem Node.outline_outline (node : Node) : node.outline.outline = node.outline := by
  obtain ⟨id, parent, kind⟩ := node
  cases kind <;> simp [outline, NodeKind.outline, Json.spelled_spelled]

/-- Spelling out real numbers changes nothing in a node but the value of a literal. -/
theorem NodeKind.spelled_toJson (kind : NodeKind) : kind.toJson.spelled = kind.outline.toJson := by
  cases kind <;> simp only [toJson, members, Pseudo.members, outline, tag, Json.spelled,
    Json.spelledMembers, Json.spelled_ident, Json.spelled_idents, Json.spelled_texts,
    Json.spelledMembers_member?, Json.nat, List.cons_append, List.nil_append]

theorem Node.spelled_toJson (node : Node) : node.toJson.spelled = node.outline.toJson := by
  simp only [toJson, outline, Json.spelled, Json.spelledMembers, Json.spelledMembers_append,
    Json.spelled_ident, Json.spelledMembers_member?, NodeKind.spelled_toJson, List.cons_append,
    List.nil_append]

/-! ## Forms -/

theorem NodeStore.spelled_toJson (store : NodeStore) : store.toJson.spelled =
    .obj [("nodes", .arr ((store.nodesById.map Node.outline).map Node.toJson)),
      ("next_id", .nat store.nextId)] := by
  have listed : Json.spelledItems (store.nodesById.map Node.toJson) =
      (store.nodesById.map Node.outline).map Node.toJson := by
    rw [Json.spelledItems_eq_map, List.map_map, List.map_map]
    exact List.map_congr_left fun node _ => node.spelled_toJson
  simp only [toJson, Json.spelled, Json.spelledMembers, listed, Json.nat]

/-- **The canonical text of a form determines its code, its next identifier and its nodes**, the
nodes up to how they were ordered and to real numbers that are spelled alike. -/
theorem Form.contents_of_canonicalText {form other : Form}
    (same : form.canonicalText = other.canonicalText) :
    form.code = other.code ∧ form.nodes.nextId = other.nodes.nextId ∧
      form.nodes.nodesById.map Node.outline = other.nodes.nodesById.map Node.outline := by
  have spelled := Json.spelled_eq_of_compact same
  have content : ∀ form : Form, form.toJson.spelled =
      .obj [("code", .str form.code), ("nodes", form.nodes.toJson.spelled)] := fun form => by
    simp only [toJson, Json.spelled, Json.spelledMembers]
  simp only [content, NodeStore.spelled_toJson, Json.obj.injEq, List.cons.injEq, Prod.mk.injEq,
    Json.str.injEq, Json.arr.injEq, Json.nat, Json.int.injEq, true_and, and_true] at spelled
  obtain ⟨code, listed, next⟩ := spelled
  exact ⟨code, by omega, List.map_injective_iff.2 (fun _ _ => Node.toJson_inj) listed⟩

end FormFlow
