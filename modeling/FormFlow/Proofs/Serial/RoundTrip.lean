import FormFlow.Proofs.Form.Composed
import FormFlow.Proofs.Serial.Node

/-!
# Forms in JSON are read back

The text of a form lists its nodes in the order of their identifiers, and reading inserts
them in the order of the text. What is read back is therefore a form with the nodes of the one
that was written, inserted in the order of their identifiers (`NodeStore.reread`). Everything
that a store derives from its nodes is derived from that order.

`Form.ofText_texts` goes through the layers: the text is scanned to the tree of the form
(`FormFlow.Proofs.Json.Scanning`), the tree is read node by node
(`FormFlow.Proofs.Serial.Node`), and the nodes can be inserted, since in a coherent store no
identifier and no identity is taken twice. The text of a form thus says exactly what its code,
its nodes and its next identifier are (`Form.composed_readBack`).
-/

set_option autoImplicit false

namespace FormFlow

namespace NodeStore

variable {store other : NodeStore}

/-! ## Nodes by identifier -/

theorem perm_nodesById (store : NodeStore) : store.nodesById.Perm store.nodes :=
  List.mergeSort_perm _ _

theorem mem_nodesById {node : Node} : node ∈ store.nodesById ↔ node ∈ store.nodes :=
  (perm_nodesById store).mem_iff

/-- The identifiers of a coherent store increase strictly. -/
theorem Coherent.increasing (coherent : store.Coherent) :
    store.nodesById.Pairwise fun first second => first.id.val < second.id.val := by
  have sorted : store.nodesById.Pairwise fun first second =>
      decide (first.id.val ≤ second.id.val) = true := by
    refine List.pairwise_mergeSort ?_ ?_ store.nodes
    · intro first second third
      simp only [decide_eq_true_eq]
      exact Nat.le_trans
    · intro first second
      simp only [Bool.or_eq_true, decide_eq_true_eq]
      exact Nat.le_total ..
  have distinct : (store.nodesById.map Node.id).Nodup :=
    ((perm_nodesById store).map Node.id).nodup_iff.2 coherent.nodup
  rw [List.Nodup, List.pairwise_map] at distinct
  refine (sorted.and distinct).imp fun ⟨le, ne⟩ => ?_
  refine Nat.lt_of_le_of_ne (of_decide_eq_true le) fun same => ne ?_
  exact congrArg NodeId.mk same

/-- Nodes whose identifiers increase are listed as they are. -/
theorem nodesById_of_increasing
    (increasing : store.nodes.Pairwise fun first second => first.id.val < second.id.val) :
    store.nodesById = store.nodes :=
  List.mergeSort_of_pairwise (increasing.imp fun less => decide_eq_true (Nat.le_of_lt less))

/-- The list is a matter of which node stands under which identifier. -/
theorem Coherent.nodesById_eq (coherent : store.Coherent) (otherCoherent : other.Coherent)
    (same : ∀ id, store.node? id = other.node? id) : store.nodesById = other.nodesById := by
  have known : ∀ node, node ∈ store.nodesById ↔ node ∈ other.nodesById := by
    intro node
    have here : store.node? node.id = some node ↔ node ∈ store.nodes := by
      simp [node?_eq_some_iff coherent]
    have there : other.node? node.id = some node ↔ node ∈ other.nodes := by
      simp [node?_eq_some_iff otherCoherent]
    rw [mem_nodesById, mem_nodesById, ← here, ← there, same]
  have nodup : ∀ {found : NodeStore}, found.Coherent → found.nodesById.Nodup := by
    intro found coherent
    refine coherent.increasing.imp fun less same => ?_
    rw [same] at less
    exact Nat.lt_irrefl _ less
  have perm := (List.perm_ext_iff_of_nodup (nodup coherent) (nodup otherCoherent)).2 known
  refine perm.eq_of_pairwise ?_ coherent.increasing otherCoherent.increasing
  intro first second _ _ less greater
  exact absurd less (Nat.lt_asymm greater)

/-! ## The store that is read back -/

/-- The store with its nodes inserted in the order of their identifiers. -/
def reread (store : NodeStore) : NodeStore :=
  { store.nodesById.foldl push empty with nextId := store.nextId }

theorem nodes_foldl_push (start : NodeStore) (nodes : List Node) :
    (nodes.foldl push start).nodes = start.nodes ++ nodes := by
  induction nodes generalizing start with
  | nil => exact (List.append_nil _).symm
  | cons node rest ih =>
    rw [List.foldl_cons, ih]
    exact List.append_assoc _ [node] rest

theorem nodes_reread (store : NodeStore) : store.reread.nodes = store.nodesById :=
  nodes_foldl_push empty store.nodesById

theorem nextId_foldl_push_le {start : NodeStore} {nodes : List Node} {bound : Nat}
    (low : start.nextId ≤ bound) (below : ∀ node ∈ nodes, node.id.val < bound) :
    (nodes.foldl push start).nextId ≤ bound := by
  induction nodes generalizing start with
  | nil => exact low
  | cons node rest ih =>
    refine ih (Nat.max_le.2 ⟨low, below node (List.mem_cons_self ..)⟩) fun other member => ?_
    exact below other (List.mem_cons_of_mem _ member)

theorem Coherent.ofNodes_nodesById (coherent : store.Coherent) :
    NodeStore.ofNodes store.nodesById store.nextId = .ok store.reread := by
  have perm := perm_nodesById store
  refine ofNodes_eq_ok_iff.2 ⟨⟨?_, ?_⟩, ?_⟩
  · exact (perm.map Node.id).nodup_iff.2 coherent.nodup
  · exact (perm.filterMap Node.identity?).nodup_iff.2 coherent.distinct
  · have low : (store.nodesById.foldl NodeStore.push empty).nextId ≤ store.nextId :=
      nextId_foldl_push_le (Nat.zero_le _) fun node member =>
        coherent.below node (mem_nodesById.1 member)
    rw [NodeStore.reread, Nat.max_eq_right low]

theorem Coherent.reread (coherent : store.Coherent) : store.reread.Coherent :=
  .ofNodes coherent.ofNodes_nodesById

theorem Coherent.node?_reread (coherent : store.Coherent) (id : NodeId) :
    store.reread.node? id = store.node? id := by
  refine Option.ext fun node => ?_
  rw [node?_eq_some_iff coherent.reread, node?_eq_some_iff coherent, nodes_reread, mem_nodesById]

theorem Coherent.nodesById_reread (coherent : store.Coherent) :
    store.reread.nodesById = store.nodesById := by
  rw [nodesById_of_increasing, nodes_reread]
  rw [nodes_reread]
  exact coherent.increasing

theorem Coherent.toJson_reread (coherent : store.Coherent) : store.reread.toJson = store.toJson := by
  rw [toJson, toJson, coherent.nodesById_reread]
  rfl

/-! ## Reading -/

/-- A store is read back as the store with its nodes in order. -/
theorem Coherent.reader_ofJson (coherent : store.Coherent)
    (storable : ∀ node ∈ store.nodes, node.Storable) (counted : store.nextId < identBound)
    {stage : Stage} (holds : stage.Holds (literalDepth + 4)) :
    reader stage (Document.ofJson store.toJson) = .ok store.reread := by
  obtain ⟨inner, entered, holds⟩ := holds.enter
  obtain ⟨listed, opened, holds⟩ := holds.enter
  have nodes : Reader.list Node.reader inner
      (Document.ofJson (.arr (store.nodesById.map Node.toJson))) = .ok store.nodesById := by
    refine Reader.list_ofItems opened fun node member => ?_
    have fits := storable node (mem_nodesById.1 member)
    exact Node.reader_ofJson fits (holds.mono (Node.fits_toJson fits).shallow)
  have number := Reader.natBelow_ofJson counted inner
  have members := (Reader.Shape.reads_field "nodes" nodes).and
    (Reader.Shape.reads_field "next_id" number) (by decide)
  refine (members.convert ?_).structured entered
  exact Except.mapError_eq_ok_iff.2 coherent.ofNodes_nodesById

theorem fits_toJson (storable : ∀ node ∈ store.nodes, node.Storable)
    (counted : store.nextId < identBound) : store.toJson.Fits (literalDepth + 4) := by
  have nodes : ∀ item ∈ store.nodesById.map Node.toJson, item.Fits (literalDepth + 2) := by
    intro item member
    obtain ⟨node, belongs, rfl⟩ := List.mem_map.1 member
    exact Node.fits_toJson (storable node (mem_nodesById.1 belongs))
  have number : (Json.nat store.nextId).Fits (literalDepth + 3) :=
    Json.fits_nat (Nat.lt_trans counted (by decide)) _
  exact .obj (List.forall_mem_cons.2 ⟨.arr nodes, List.forall_mem_singleton.2 number⟩)

end NodeStore

namespace Form

/-- A form everything in which fits. -/
def Storable (form : Form) : Prop := ∀ node ∈ form.nodes.nodes, node.Storable

/-- The form with its nodes inserted in the order of their identifiers. -/
def reread (form : Form) : Form := { form with nodes := form.nodes.reread }

/-- The identifier behind a node of a form that fits can be written, too. -/
theorem Storable.nextId_lt {form : Form} (storable : form.Storable) (counted : form.nodes.Counted) :
    form.nodes.nextId < identBound := by
  rcases counted with low | ⟨node, member, behind⟩
  · exact low
  · exact behind ▸ (storable node member).own

/-- A form is read back from its text in any layout. -/
theorem ofText_write {form : Form} (coherent : form.nodes.Coherent) (storable : form.Storable)
    (counted : form.nodes.Counted) {layout : Json.Layout} (airy : Scanner.Airy layout) :
    ofText (String.ofList (form.toJson.write layout 0)) = .ok form.reread := by
  have next := storable.nextId_lt counted
  have fits : form.toJson.Fits (literalDepth + 5) :=
    .obj (List.forall_mem_cons.2 ⟨Json.fits_str _ _,
      List.forall_mem_singleton.2 (NodeStore.fits_toJson storable next)⟩)
  obtain ⟨inner, entered, holds⟩ :=
    Stage.Holds.enter (show Stage.ofText.Holds (literalDepth + 5) from Nat.lt_succ_self 127)
  have members := (Reader.Shape.reads_field "code" (Reader.string_ofJson form.code inner)).and
    (Reader.Shape.reads_field "nodes" (coherent.reader_ofJson storable next holds)) (by decide)
  have read : reader .ofText (Document.ofJson form.toJson) = .ok form.reread :=
    (members.map rfl).structured entered
  rw [ofText, Reader.ofText, Scanner.ofText_write airy fits.exact]
  change (reader .ofText _ >>= _) = _
  rw [read]
  rfl

/-- What reading the text of a form gives: the same nodes, inserted in the order of their
identifiers, with the indices that follow from that order. -/
structure ReadBack (form back : Form) : Prop where
  code : back.code = form.code
  node? : ∀ id, back.nodes.node? id = form.nodes.node? id
  nextId : back.nodes.nextId = form.nodes.nextId
  increasing : back.nodes.nodes.Pairwise fun first second => first.id.val < second.id.val
  indexed : back.nodes.Indexed
  canonicalText : back.canonicalText = form.canonicalText
  prettyText : back.prettyText = form.prettyText

theorem readBack_reread {form : Form} (coherent : form.nodes.Coherent) :
    form.ReadBack form.reread := by
  have json : form.reread.toJson = form.toJson := by
    rw [toJson, toJson]
    change Json.obj [_, ("nodes", form.nodes.reread.toJson)] = _
    rw [coherent.toJson_reread]
    rfl
  exact {
    code := rfl
    node? := coherent.node?_reread
    nextId := rfl
    increasing := NodeStore.nodes_reread form.nodes ▸ coherent.increasing
    indexed := coherent.reread.indexed
    canonicalText := congrArg Json.compact json
    prettyText := congrArg Json.pretty json }

/-- Forms with the same code, nodes and next identifier have the same text. -/
theorem canonicalText_congr {form other : Form} (coherent : form.nodes.Coherent)
    (otherCoherent : other.nodes.Coherent) (code : form.code = other.code)
    (node? : ∀ id, form.nodes.node? id = other.nodes.node? id)
    (nextId : form.nodes.nextId = other.nodes.nextId) :
    form.canonicalText = other.canonicalText := by
  have listed := coherent.nodesById_eq otherCoherent node?
  rw [canonicalText, canonicalText, toJson, toJson, NodeStore.toJson, NodeStore.toJson, code,
    listed, nextId]

/-- **Forms survive their texts.** Whatever calls a form went through, both of its texts are
read, as one form that has the same nodes in order and is written as the same texts. Hence
the canonical text of a form stands for its code, its nodes and its next identifier. -/
theorem composed_readBack {form : Form} (composed : form.Composed) (storable : form.Storable) :
    (∃ back, ofText form.canonicalText = .ok back ∧ ofText form.prettyText = .ok back ∧
      form.ReadBack back) ∧
    ∀ other : Form, other.Composed → other.Storable →
      (form.canonicalText = other.canonicalText ↔
        form.code = other.code ∧ (∀ id, form.nodes.node? id = other.nodes.node? id) ∧
          form.nodes.nextId = other.nodes.nextId) := by
  obtain ⟨coherent, counted⟩ := composed.spec
  have read := ofText_write coherent storable counted Scanner.airy_compact
  refine ⟨⟨form.reread, read, ofText_write coherent storable counted Scanner.airy_pretty,
    readBack_reread coherent⟩, ?_⟩
  intro other otherComposed otherStorable
  obtain ⟨otherCoherent, otherCounted⟩ := otherComposed.spec
  constructor
  · intro same
    have otherRead := ofText_write otherCoherent otherStorable otherCounted Scanner.airy_compact
    change ofText form.canonicalText = _ at read
    change ofText other.canonicalText = _ at otherRead
    rw [same, otherRead, Except.ok.injEq] at read
    have here := readBack_reread coherent
    have there := readBack_reread otherCoherent
    rw [read] at there
    exact ⟨here.code.symm.trans there.code,
      fun id => (here.node? id).symm.trans (there.node? id),
      here.nextId.symm.trans there.nextId⟩
  · rintro ⟨code, node?, nextId⟩
    exact canonicalText_congr coherent otherCoherent code node? nextId

/-! ### A form whose nodes were not inserted in order -/

namespace Excursion

def value : Json :=
  .obj [("", .arr [.int (-3), .null, .str "\n\"é😀"]), ("a", .obj [])]

/-- The form after its calls, of which the last one finds the identifier taken. -/
def form : Form :=
  [Call.addJourney none "Ausflug ü",
    .onStore (.insertNode ⟨⟨9⟩, some ⟨0⟩, .literal value⟩),
    .onStore (.insertNode ⟨⟨4⟩, some ⟨7⟩, .field ⟨"tag", "text", [⟨9⟩], none⟩⟩),
    .onStore (.locate ⟨.query, ⟨4⟩, "ort"⟩ (some ⟨9⟩)),
    .onStore (.insertNode ⟨⟨4⟩, none, .step "/"⟩)].foldl Call.applyTo (.empty "ausflug")

def nodes : List Node := [
  ⟨⟨0⟩, none, .journey "Ausflug ü"⟩,
  ⟨⟨9⟩, some ⟨0⟩, .literal value⟩,
  ⟨⟨4⟩, some ⟨7⟩, .field ⟨"tag", "text", [⟨9⟩], none⟩⟩,
  ⟨⟨10⟩, some ⟨4⟩, .pseudo ⟨⟨.query, ⟨4⟩, "ort"⟩, some ⟨9⟩⟩⟩]

theorem composed : form.Composed := (Composed.empty "ausflug").calls _

theorem value_storable : value.Storable where
  exact := by
    have items : ∀ item ∈ [Json.int (-3), .null, .str "\n\"é😀"], Scanner.Exact item := by
      simp only [List.forall_mem_cons, List.not_mem_nil, false_implies, implies_true, and_true]
      exact ⟨.int (by decide) (by decide), .null, .str _⟩
    refine .obj (List.forall_mem_cons.2 ⟨.arr items, List.forall_mem_singleton.2 (.obj nofun)⟩)
  shallow := by decide
  normal := by cbv

theorem storable : form.Storable := by
  have listed : form.nodes.nodes = nodes := by rfl
  rw [Storable, listed, nodes]
  simp only [List.forall_mem_cons, List.not_mem_nil, false_implies, implies_true, and_true]
  refine ⟨⟨by decide, nofun, ?_⟩, ⟨by decide, by decide, ?_⟩, ⟨by decide, by decide, ?_⟩,
    by decide, by decide, ?_⟩
  · exact ⟨by decide, nofun, nofun, nofun⟩
  · exact ⟨by decide, nofun, nofun, fun _ same => NodeKind.literal.inj same ▸ value_storable⟩
  · exact ⟨by decide, nofun, nofun, nofun⟩
  · exact ⟨by decide, fun _ same => NodeKind.pseudo.inj same ▸ by decide, nofun, nofun⟩

theorem readBack :
    (∃ back, ofText form.canonicalText = .ok back ∧ ofText form.prettyText = .ok back ∧
      form.ReadBack back) ∧
    ∀ other : Form, other.Composed → other.Storable →
      (form.canonicalText = other.canonicalText ↔
        form.code = other.code ∧ (∀ id, form.nodes.node? id = other.nodes.node? id) ∧
          form.nodes.nextId = other.nodes.nextId) :=
  composed_readBack composed storable

end Excursion

end Form

end FormFlow
