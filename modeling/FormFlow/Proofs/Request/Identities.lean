import FormFlow.Proofs.Request.Counterpart
import Mathlib.Data.Set.Function

/-!
# Pseudo-nodes in another order

If the same iterations were made in two orders, then the same pseudo-nodes are there, but for
remote answers to codes that iterations gave to fields: whether these are there depends on what came
first (`RequestScope.Rearranged.contested_of_onlyIn`). Every other pseudo-node has its counterpart,
under the identity that it has by the new numbers (`RequestScope.Rearranged.pseudo?_counterpart`),
so counterparts are told one for one (`RequestScope.Rearranged.bijOn_counterpart`).
-/

set_option autoImplicit false

namespace FormFlow

open NodeSource

namespace Synthesis

/-- A local answer is wanted for the first field that has its code. -/
theorem lookup_wants_answer {step : NodeId} {isLocal : String → Bool}
    {fields references repeated : List Node} {key : String} :
    (wants step isLocal fields references repeated).lookup ⟨.answerLocal, step, key⟩ =
      (fields.find? fun node => node.kind.field?.map Field.code = some key).map
        fun node => some node.id := by
  have others : ∀ entry ∈ references.flatMap (referenceWants isLocal step) ++
      repeated.flatMap (repeatedWants step), (⟨.answerLocal, step, key⟩ : PseudoKey) ≠ entry.1 := by
    intro entry member same
    rcases List.mem_append.1 member with wanted | wanted
    · obtain ⟨_, _, inside⟩ := List.mem_flatMap.1 wanted
      exact (scope_of_referenceWants inside).2 (by rw [← same])
    · obtain ⟨_, _, inside⟩ := List.mem_flatMap.1 wanted
      obtain ⟨_, _, rfl⟩ := mem_repeatedWants.1 inside
      cases congrArg PseudoKey.kind same
  have rest : (references.flatMap (referenceWants isLocal step) ++
      repeated.flatMap (repeatedWants step)).lookup ⟨.answerLocal, step, key⟩ = none := by
    rw [List.lookup_eq_none_iff]
    exact fun entry member => bne_iff_ne.2 (others entry member)
  rw [wants, List.append_assoc, List.lookup_append, rest, Option.or_none, lookup_fieldWants]
  exact if_pos ⟨rfl, .inr rfl⟩

end Synthesis

/-- Of the nodes that are ready for wiring the renumbered ones are ready, in the same order. -/
theorem NodeSource.Renumbering.forall₂_ready {σ τ : Type} [NodeSource σ] [NodeSource τ]
    [LawfulSource σ] [LawfulSource τ] {earlier : σ} {later : τ} {place : NodeId → NodeId}
    (renumbers : Renumbering earlier later place) (before : Upright earlier)
    (after : Upright later) {test : NodeKind → Bool}
    (broad : ∀ kind image : NodeKind, kind.Renumbered place image → test image = test kind)
    {ids : List NodeId}
    (found : ∀ id ∈ ids, ∃ node, node? earlier id = some node ∧ node.kind.pseudo? = none) :
    List.Forall₂ (Node.Renumbered place)
      ((ids.filterMap (node? earlier)).filter fun node =>
        test node.kind && !awaitsIteration earlier node)
      (((ids.map place).filterMap (node? later)).filter fun node =>
        test node.kind && !awaitsIteration later node) := by
  induction ids with
  | nil => exact .nil
  | cons id rest ih =>
    obtain ⟨node, present, plain⟩ := found id (List.mem_cons_self ..)
    obtain ⟨other, there, renumbered⟩ := renumbers.node id node present plain
    have later := ih fun inner member => found inner (List.mem_cons_of_mem _ member)
    have same := renumbers.awaitsIteration_eq before after present plain there
    rw [List.filterMap_cons_some present, List.map_cons, List.filterMap_cons_some there,
      List.filter_cons, List.filter_cons, broad _ _ renumbered.kind, same]
    split
    · exact .cons renumbered later
    · exact later

namespace RequestScope

/-- A remote answer that another request does not have. -/
def OnlyIn (one other : RequestScope) (id : NodeId) : Prop :=
  ∃ step code, one.layers.pseudo? ⟨.answerRemote, step, code⟩ = some id ∧
    ¬HasPseudo other.layers ⟨.answerRemote, step, code⟩

namespace Rearranged

variable {form : Form} {config : WiringConfig} {wired : WiredForm}
  {calls reordered : List (NodeId × Nat)}
  (rearranged : Rearranged form config wired calls reordered)
include rearranged

/-! ## Items of the form -/

/-- An item of the form has the key of a collection of the form. -/
theorem exists_collection_of_item {step : NodeId} {key : String}
    (has : HasPseudo wired.form.nodes ⟨.item, step, key⟩) :
    ∃ collection : NodeId, collection.val < wired.nodeMark ∧ key = itemKey collection none := by
  obtain ⟨node, member, identified⟩ :=
    (NodeStore.hasPseudo_iff rearranged.grounded.coherent).1 has
  obtain ⟨definition, isPseudo, same⟩ := Option.map_eq_some_iff.1 identified
  have kind := NodeKind.pseudo?_eq_some_iff.1 isPseudo
  rcases rearranged.registered.keyed member with own | ⟨other, known, keyed⟩
  · rw [rearranged.plain.pseudos node own] at isPseudo
    cases isPseudo
  · cases kind.symm.trans known
    obtain ⟨outer, inside, found⟩ := keyed (congrArg PseudoKey.kind same)
    refine ⟨outer.id, rearranged.low_of_mem inside, ?_⟩
    rw [congrArg PseudoKey.key same] at found
    have single := rearranged.plain.iterations outer inside
    cases shape : outer.kind with
    | collection inner =>
      rw [shape] at found
      exact (Option.some.inj found).symm
    | iteration collection index =>
      rw [shape] at single
      cases single
    | _ =>
      rw [shape] at found
      cases found

/-! ## Nodes other than pseudo-nodes -/

/-- The iteration of a twin is that of the twin's twin. -/
theorem twins_symm {record image : Iteration} {template : Template}
    {first second : List (NodeId × NodeId)}
    (twins : Twins (run wired calls) (run wired reordered) record image template first second) :
    ∃ template first second,
      Twins (run wired reordered) (run wired calls) image record template first second := by
  obtain ⟨known, collection, index⟩ := twins.image_known
  obtain ⟨again, template, first, second, back⟩ := rearranged.symm.exists_twins known
  obtain ⟨inside, sameCollection, sameIndex⟩ := back.image_known
  have asked := rearranged.first.asked rearranged.grounded rearranged.started rearranged.distinct
  have distinct : ((run wired calls).iterations.map
      fun record => (record.collection, record.index)).Nodup := asked.symm ▸ rearranged.distinct
  obtain rfl : again = record := List.inj_on_of_nodup_map distinct inside twins.known
    (Prod.ext (sameCollection.trans collection) (sameIndex.trans index))
  exact ⟨template, first, second, back⟩

/-- A node that stands in an iteration has a counterpart there, and is the counterpart of that. -/
theorem counterpart_batch {record : Iteration} (known : record ∈ (run wired calls).iterations)
    {id : NodeId} (member : id ∈ batch record) :
    (∃ image ∈ (run wired reordered).iterations,
      counterpart (run wired calls) (run wired reordered) id ∈ batch image) ∧
    counterpart (run wired reordered) (run wired calls)
      (counterpart (run wired calls) (run wired reordered) id) = id := by
  obtain ⟨image, template, first, second, twins⟩ := rearranged.exists_twins known
  obtain ⟨_, _, _, back⟩ := rearranged.twins_symm twins
  have mapped := rearranged.map_counterpart twins
  have inside : counterpart (run wired calls) (run wired reordered) id ∈ batch image := by
    rw [← mapped]
    exact List.mem_map_of_mem member
  refine ⟨⟨image, twins.image_known.1, inside⟩, rearranged.symm.counterpart_of_mem back ?_⟩
  rw [← mapped, ← List.map_id (batch record), List.map_map, List.zip_map']
  exact List.mem_map.2 ⟨id, member, rfl⟩

/-- A node other than a pseudo-node is the counterpart of its counterpart. The latter is in the
form only if the node is. -/
theorem counterpart_plain {id : NodeId} {node : Node}
    (found : node? (run wired calls).layers id = some node) (plain : node.kind.pseudo? = none) :
    counterpart (run wired calls) (run wired reordered) id =
        copyOf (places (run wired calls) (run wired reordered)) id ∧
      counterpart (run wired reordered) (run wired calls)
        (counterpart (run wired calls) (run wired reordered) id) = id ∧
      ((counterpart (run wired calls) (run wired reordered) id).val < wired.nodeMark →
        id.val < wired.nodeMark) := by
  have grounded := rearranged.grounded
  have started := rearranged.started
  refine ⟨?_, ?_⟩
  · have own : ((run wired calls).overlay.nodes.node? id).bind (fun node => node.kind.pseudo?) =
        none := by
      cases upper : (run wired calls).overlay.nodes.node? id with
      | none => rfl
      | some other =>
        cases found.symm.trans (Layered.node?_eq_some_iff.2 (.inl upper))
        exact plain
    rw [counterpart, own]
  · rcases run_node_cases grounded started calls found plain with lower | ⟨record, known, inside⟩
    · have low : id.val < wired.nodeMark := NodeStore.id_lt_nextId grounded.coherent lower
      rw [rearranged.counterpart_low low, rearranged.symm.counterpart_low low]
      exact ⟨rfl, fun _ => low⟩
    · obtain ⟨⟨image, reached, there⟩, back⟩ := rearranged.counterpart_batch known inside
      refine ⟨back, fun low => ?_⟩
      have absent := run_node?_low grounded started reordered low
      have stored := (run_batches grounded started reordered).subset
        (List.mem_flatMap.2 ⟨image, reached, there⟩)
      obtain ⟨other, member, same⟩ := List.mem_map.1 stored
      rw [← same, NodeStore.node?_of_mem rearranged.symm.anchored.coherent member] at absent
      cases absent

/-- Identities under new numbers are those under the old numbers again. -/
theorem renumbered_symm {identity other : PseudoKey}
    (renumbered : identity.Renumbered (counterpart (run wired calls) (run wired reordered)) other)
    (keyed : identity.kind = .item → ∃ collection index top, identity.key =
      itemKey collection index ∧ node? (run wired calls).layers collection = some top ∧
        top.kind.pseudo? = none) :
    other.Renumbered (counterpart (run wired reordered) (run wired calls)) identity ∧
      (HasPseudo wired.form.nodes other → other = identity) := by
  by_cases isItem : identity.kind = .item
  · obtain ⟨collection, index, top, key, found, plain⟩ := keyed isItem
    obtain ⟨known, position, first, second⟩ := renumbered.item isItem
    obtain ⟨rfl, rfl⟩ := itemKey_inj (key.symm.trans first)
    obtain ⟨_, back, low⟩ := rearranged.counterpart_plain found plain
    refine ⟨⟨renumbered.kind.symm, renumbered.scope.symm, ?_, fun _ => ?_⟩, fun has => ?_⟩
    · exact fun keyed => absurd (renumbered.kind.trans isItem) keyed
    · exact ⟨_, index, second, by rw [back]; exact first⟩
    · -- The form has items of its own collections only, and these have not moved.
      obtain ⟨kind, step, key⟩ := other
      obtain rfl : kind = .item := renumbered.kind.trans isItem
      obtain ⟨own, below, named⟩ := rearranged.exists_collection_of_item has
      obtain ⟨same, rfl⟩ := itemKey_inj (second.symm.trans named)
      rw [same] at low
      have stays := rearranged.counterpart_low (low below)
      rw [stays] at second
      obtain ⟨_, _, _⟩ := identity
      cases isItem
      cases renumbered.scope
      cases first
      cases second
      rfl
  · have same := renumbered.eq_of_keyed isItem
    subst same
    exact ⟨.ofKeyed isItem, fun _ => rfl⟩

/-! ## What iterations want -/

/-- The same codes were given to fields. -/
theorem claims {step : NodeId} {code : String} (claimed : (run wired calls).Claims step code) :
    (run wired reordered).Claims step code := by
  obtain ⟨record, known, within, named⟩ := claimed
  obtain ⟨image, template, first, second, twins⟩ := rearranged.exists_twins known
  obtain ⟨inside, _, index⟩ := twins.image_known
  refine ⟨image, inside, ?_, ?_⟩
  · rw [twins.again.step, ← twins.made.step, within]
  · rw [twins.again.renamed, index, ← twins.made.renamed]
    exact named

section

variable {record image : Iteration} {template : Template} {first second : List (NodeId × NodeId)}
  (twins : Twins (run wired calls) (run wired reordered) record image template first second)
include twins

/-- The nodes of an iteration that are ready for wiring are the same in both orders. -/
theorem forall₂_ready {test : NodeKind → Bool}
    (broad : ∀ kind image : NodeKind,
      kind.Renumbered (counterpart (run wired calls) (run wired reordered)) image →
        test image = test kind) :
    List.Forall₂ (Node.Renumbered (counterpart (run wired calls) (run wired reordered)))
      (readyNodes (run wired calls).layers record test)
      (readyNodes (run wired reordered).layers image test) := by
  rw [readyNodes, readyNodes, ← rearranged.map_counterpart twins]
  exact rearranged.renumbering.forall₂_ready rearranged.settled.placed.upright
    rearranged.symm.settled.placed.upright broad fun id member => twins.made.found member

theorem exists_ready {test : NodeKind → Bool}
    (broad : ∀ kind image : NodeKind,
      kind.Renumbered (counterpart (run wired calls) (run wired reordered)) image →
        test image = test kind) {node : Node}
    (ready : node ∈ readyNodes (run wired calls).layers record test) :
    ∃ other ∈ readyNodes (run wired reordered).layers image test,
      node.Renumbered (counterpart (run wired calls) (run wired reordered)) other := by
  have related := rearranged.forall₂_ready twins broad
  generalize readyNodes (run wired calls).layers record test = nodes at related ready
  generalize readyNodes (run wired reordered).layers image test = others at related
  induction related with
  | nil => cases ready
  | cons same _ ih =>
    rcases List.mem_cons.1 ready with rfl | later
    · exact ⟨_, List.mem_cons_self .., same⟩
    · obtain ⟨other, member, renumbered⟩ := ih later
      exact ⟨other, List.mem_cons_of_mem _ member, renumbered⟩

section

variable {isLocal isThere : String → Bool}
  (again : Supplied (run wired reordered) image isThere)
include again

/-- What a field of an iteration wants is there in the other order too. -/
theorem hasPseudo_of_fieldWants {node : Node} {entry : PseudoKey × Option NodeId}
    (ready : node ∈ readyNodes (run wired calls).layers record NodeKind.isField)
    (wants : entry ∈ Synthesis.fieldWants record.step node) :
    entry.1.kind ≠ .item ∧ HasPseudo (run wired reordered).layers entry.1 := by
  have step : image.step = record.step := twins.again.step.trans twins.made.step.symm
  obtain ⟨other, there, renumbered⟩ := rearranged.exists_ready twins
    (fun _ _ same => same.isField_eq) ready
  obtain ⟨field, isField, either⟩ := Synthesis.mem_fieldWants.1 wants
  have kind := renumbered.kind
  rw [isField] at kind
  generalize shape : other.kind = copied at kind
  cases kind
  have needs : ∀ entry, entry ∈ Synthesis.fieldWants image.step other →
      HasPseudo (run wired reordered).layers entry.1 := fun entry member =>
    again.has entry (Synthesis.mem_wants.2 (.inl ⟨other, there, member⟩))
  rcases either with rfl | rfl
  · refine ⟨nofun, ?_⟩
    rw [← step]
    exact needs (⟨.post, image.step, field.code⟩, some other.id)
      (Synthesis.mem_fieldWants.2 ⟨_, shape, .inl rfl⟩)
  · refine ⟨nofun, ?_⟩
    rw [← step]
    exact needs (⟨.answerLocal, image.step, field.code⟩, some other.id)
      (Synthesis.mem_fieldWants.2 ⟨_, shape, .inr rfl⟩)

/-- What a reference of an iteration wants is there in the other order too, unless that is a remote
answer to a code that was given to a field. -/
theorem hasPseudo_of_referenceWants (supplied : Supplied (run wired calls) record isLocal)
    {node : Node} {entry : PseudoKey × Option NodeId}
    (ready : node ∈ readyNodes (run wired calls).layers record NodeKind.isReference)
    (wants : entry ∈ Synthesis.referenceWants isLocal record.step node)
    (unclaimed : entry.1.kind = .answerRemote →
      ¬(run wired calls).Claims entry.1.scope entry.1.key) :
    entry.1.kind ≠ .item ∧ HasPseudo (run wired reordered).layers entry.1 := by
  have step : image.step = record.step := twins.again.step.trans twins.made.step.symm
  obtain ⟨other, there, renumbered⟩ := rearranged.exists_ready twins
    (fun _ _ same => same.isReference_eq) ready
  obtain ⟨expression, space, key, kind, isReference, keyed, needed, rfl⟩ :=
    Synthesis.mem_referenceWants.1 wants
  have shape := renumbered.kind
  rw [isReference] at shape
  generalize read : other.kind = copied at shape
  cases shape
  refine ⟨(Synthesis.of_needed? needed).2.2.1, ?_⟩
  rw [← step]
  refine again.has (⟨kind, image.step, key⟩, none) (Synthesis.mem_wants.2 (.inr (.inl
    ⟨other, there, Synthesis.mem_referenceWants.2
      ⟨expression, space, key, kind, read, keyed, ?_, rfl⟩⟩)))
  cases space with
  | answers =>
    simp only [Synthesis.needed?] at needed ⊢
    split at needed
    · cases needed
    · rename_i remote
      cases needed
      -- A local answer has come to the code only if a field was given the code.
      rw [if_neg]
      intro known
      have seen := again.seen key known
      rw [step] at seen
      rcases (run_local_iff rearranged.grounded rearranged.started reordered _ _).1 seen with
        lower | claimed
      · exact remote (supplied.known key (by rw [wired_run]; exact lower))
      · exact unclaimed rfl (rearranged.symm.claims claimed)
  | _ => exact needed

/-- The item of an iteration or of a copied collection is there in the other order too, under the
key that it has by the new numbers. -/
theorem hasPseudo_of_repeatedWants {node : Node} {entry : PseudoKey × Option NodeId}
    (ready : node ∈ readyNodes (run wired calls).layers record NodeKind.isRepeated)
    (wants : entry ∈ Synthesis.repeatedWants record.step node) :
    ∃ other, entry.1.Renumbered (counterpart (run wired calls) (run wired reordered)) other ∧
      HasPseudo (run wired reordered).layers other := by
  have step : image.step = record.step := twins.again.step.trans twins.made.step.symm
  obtain ⟨other, there, renumbered⟩ := rearranged.exists_ready twins
    (fun _ _ same => same.isRepeated_eq) ready
  obtain ⟨key, keyed, rfl⟩ := Synthesis.mem_repeatedWants.1 wants
  have related := Item.keyOfKind?_renumbered renumbered record.step
  rw [keyed] at related
  generalize found : Item.keyOfKind? other.id other.kind = image? at related
  cases image? with
  | none => cases related
  | some key =>
    cases related with
    | some same =>
      refine ⟨_, same, ?_⟩
      rw [← step]
      exact again.has _ (Synthesis.mem_wants.2 (.inr (.inr
        ⟨other, there, Synthesis.mem_repeatedWants.2 ⟨key, found, rfl⟩⟩)))

end

/-- **What an iteration wants is there in the other order too**, but for remote answers to codes
that were given to fields. -/
theorem hasPseudo_of_wanted {isLocal : String → Bool}
    (supplied : Supplied (run wired calls) record isLocal) {identity : PseudoKey}
    {origin : Option NodeId}
    (wanted : (identity, origin) ∈ wantedBy (run wired calls).layers isLocal record)
    (unclaimed : identity.kind = .answerRemote →
      ¬(run wired calls).Claims identity.scope identity.key) :
    ∃ other, identity.Renumbered (counterpart (run wired calls) (run wired reordered)) other ∧
      HasPseudo (run wired reordered).layers other := by
  obtain ⟨_, again⟩ :=
    run_supplied rearranged.grounded rearranged.started twins.image_known.1
  rcases Synthesis.mem_wants.1 wanted with
    ⟨node, ready, wants⟩ | ⟨node, ready, wants⟩ | ⟨node, ready, wants⟩
  · obtain ⟨keyed, has⟩ := rearranged.hasPseudo_of_fieldWants twins again ready wants
    exact ⟨_, .ofKeyed keyed, has⟩
  · obtain ⟨keyed, has⟩ :=
      rearranged.hasPseudo_of_referenceWants twins again supplied ready wants unclaimed
    exact ⟨_, .ofKeyed keyed, has⟩
  · exact rearranged.hasPseudo_of_repeatedWants twins again ready wants

end

/-! ## Counterparts of pseudo-nodes -/

section

variable {node : Node} (member : node ∈ (run wired calls).overlay.nodes.nodes)
  {definition : Pseudo} (isPseudo : node.kind = .pseudo definition)
include member isPseudo

/-- An item has the key of a collection that is there. -/
theorem exists_collection (isItem : definition.kind = .item) : ∃ collection index top,
    definition.key = itemKey collection index ∧
      node? (run wired calls).layers collection = some top ∧ top.kind.pseudo? = none := by
  have fillable := run_fillable rearranged.grounded rearranged.started calls member isPseudo
  obtain ⟨collection, index, top, inner, _, key, found, shape⟩ := fillable.exists_collection
    ((run wired calls).context definition.scope) node.id rearranged.settled.placed isItem
  exact ⟨collection, index, top, key, found, by rw [shape]; rfl⟩

theorem identityIn_renumbered : definition.toPseudoKey.Renumbered
    (counterpart (run wired calls) (run wired reordered))
    (definition.identityIn (run wired calls).layers
      (copyOf (places (run wired calls) (run wired reordered)))) := by
  have placed := rearranged.settled.placed
  rw [Pseudo.identityIn]
  split
  · rename_i isItem
    have fillable := run_fillable rearranged.grounded rearranged.started calls member isPseudo
    obtain ⟨origin, outer, made, there, keyed⟩ := fillable.item isItem
    refine ⟨rfl, rfl, fun other => absurd isItem other, fun _ => ?_⟩
    dsimp only
    rw [made, Option.bind_some, there, Option.bind_some, LawfulSource.id_of_node? _ _ _ there]
    cases shape : outer.kind with
    | collection inner =>
      rw [shape] at keyed
      have plain : outer.kind.pseudo? = none := by rw [shape]; rfl
      refine ⟨origin, none, (Option.some.inj keyed).symm, ?_⟩
      rw [(rearranged.counterpart_plain there plain).1]
      rfl
    | iteration collection index =>
      rw [shape] at keyed
      obtain ⟨_, top, known, isCollection, _⟩ :=
        (placed.stands origin outer there).iteration collection index shape
      have plain : top.kind.pseudo? = none := by
        obtain ⟨inner, kind⟩ := NodeKind.isCollection_iff.1 isCollection
        rw [kind]
        rfl
      refine ⟨collection, some index, (Option.some.inj keyed).symm, ?_⟩
      rw [(rearranged.counterpart_plain known plain).1]
      rfl
    | _ =>
      rw [shape] at keyed
      cases keyed
  · rename_i keyed
    exact .ofKeyed keyed

/-- A pseudo-node that both requests have has a counterpart with its identity. -/
theorem exists_counterpart
    (shared : ¬OnlyIn (run wired calls) (run wired reordered) node.id) :
    ∃ identity, definition.toPseudoKey.Renumbered
        (counterpart (run wired calls) (run wired reordered)) identity ∧
      (run wired reordered).layers.pseudo? identity =
        some (counterpart (run wired calls) (run wired reordered) node.id) := by
  have grounded := rearranged.grounded
  have started := rearranged.started
  have renumbered := rearranged.identityIn_renumbered member isPseudo
  have own := NodeStore.node?_of_mem rearranged.anchored.coherent member
  have found := run_pseudo?_of_mem grounded started calls member isPseudo
  obtain ⟨other, same, id, present⟩ : ∃ other, definition.toPseudoKey.Renumbered
      (counterpart (run wired calls) (run wired reordered)) other ∧
        HasPseudo (run wired reordered).layers other := by
    by_cases remote : definition.kind = .answerRemote
    · refine ⟨_, .ofKeyed (by rw [remote]; exact nofun), ?_⟩
      by_contra absent
      obtain ⟨⟨kind, step, code⟩, origin⟩ := definition
      cases remote
      exact shared ⟨step, code, found, absent⟩
    · obtain ⟨_, record, known, isLocal, supplied, wanted⟩ :=
        run_wanted grounded started member isPseudo
      obtain ⟨first, last, split, _⟩ := List.lookup_eq_some_iff.1 wanted
      obtain ⟨image, _, _, _, twins⟩ := rearranged.exists_twins known
      have listed : (definition.toPseudoKey, definition.origin) ∈
          wantedBy (run wired calls).layers isLocal record := by simp [split]
      exact rearranged.hasPseudo_of_wanted twins supplied listed
        fun isRemote => absurd isRemote remote
  have seen : (run wired reordered).layers.pseudo? other = some id := present
  refine ⟨other, same, ?_⟩
  rw [seen, counterpart, own, Option.bind_some, isPseudo]
  dsimp only [NodeKind.pseudo?]
  rw [renumbered.unique same, seen]
  rfl

end

/-- **An answer that only one of the requests has is contested.** -/
theorem contested_of_onlyIn {id : NodeId}
    (only : OnlyIn (run wired calls) (run wired reordered) id) :
    (run wired calls).Contested id := by
  have grounded := rearranged.grounded
  have started := rearranged.started
  obtain ⟨step, code, found, absent⟩ := only
  refine ⟨step, code, found, ?_⟩
  rcases run_pseudo?_cases grounded started calls found with
    lower | ⟨node, member, rfl, definition, isPseudo, same⟩
  · exact absurd ((shows_form grounded started reordered).hasPseudo ⟨id, lower⟩) absent
  · by_contra unclaimed
    obtain ⟨_, record, known, isLocal, supplied, wanted⟩ :=
      run_wanted grounded started member isPseudo
    rw [same] at wanted
    obtain ⟨first, last, split, _⟩ := List.lookup_eq_some_iff.1 wanted
    obtain ⟨image, _, _, _, twins⟩ := rearranged.exists_twins known
    have listed : (⟨.answerRemote, step, code⟩, definition.origin) ∈
        wantedBy (run wired calls).layers isLocal record := by simp [split]
    obtain ⟨other, renumbered, has⟩ :=
      rearranged.hasPseudo_of_wanted twins supplied listed fun _ => unclaimed
    rw [renumbered.eq_of_keyed nofun] at has
    exact absent has

/-- **A pseudo-node that both requests have is found under its identity in the other one.** -/
theorem pseudo?_counterpart {identity other : PseudoKey} {id : NodeId}
    (found : (run wired calls).layers.pseudo? identity = some id)
    (shared : ¬OnlyIn (run wired calls) (run wired reordered) id)
    (renumbered : identity.Renumbered (counterpart (run wired calls) (run wired reordered)) other) :
    (run wired reordered).layers.pseudo? other =
      some (counterpart (run wired calls) (run wired reordered) id) := by
  have grounded := rearranged.grounded
  have started := rearranged.started
  rcases run_pseudo?_cases grounded started calls found with
    lower | ⟨node, member, rfl, definition, isPseudo, rfl⟩
  · have same : other = identity := by
      by_cases isItem : identity.kind = .item
      · obtain ⟨kind, step, key⟩ := identity
        cases isItem
        obtain ⟨collection, low, rfl⟩ := rearranged.exists_collection_of_item ⟨id, lower⟩
        refine renumbered.unique ⟨rfl, rfl, fun _ => rfl, fun _ => ⟨collection, none, rfl, ?_⟩⟩
        rw [rearranged.counterpart_low low]
      · exact renumbered.eq_of_keyed isItem
    obtain ⟨node, present, _⟩ :=
      (NodeStore.pseudo?_eq_some_iff grounded.coherent).1 lower
    have low : id.val < wired.nodeMark := NodeStore.id_lt_nextId grounded.coherent present
    rw [same, rearranged.counterpart_low low]
    exact (shows_form grounded started reordered).pseudo identity id lower
  · obtain ⟨again, same, there⟩ := rearranged.exists_counterpart member isPseudo shared
    rw [renumbered.unique same]
    exact there

/-- A node that both requests have is the counterpart of its counterpart. -/
theorem counterpart_spec {id : NodeId}
    (member : id ∈ (run wired calls).overlay.nodes.nodes.map Node.id)
    (shared : ¬OnlyIn (run wired calls) (run wired reordered) id) :
    counterpart (run wired calls) (run wired reordered) id ∈
        (run wired reordered).overlay.nodes.nodes.map Node.id ∧
      ¬OnlyIn (run wired reordered) (run wired calls)
        (counterpart (run wired calls) (run wired reordered) id) ∧
      counterpart (run wired reordered) (run wired calls)
        (counterpart (run wired calls) (run wired reordered) id) = id := by
  have grounded := rearranged.grounded
  have started := rearranged.started
  obtain ⟨node, known, rfl⟩ := List.mem_map.1 member
  cases isPseudo : node.kind.pseudo? with
  | none =>
    have found := run_node?_of_mem grounded started calls known
    obtain ⟨_, back, low⟩ := rearranged.counterpart_plain found isPseudo
    have high : ¬node.id.val < wired.nodeMark :=
      Nat.not_lt.2 (rearranged.anchored.high node known)
    obtain ⟨other, present, renumbered⟩ := rearranged.renumbering.node _ _ found isPseudo
    refine ⟨?_, ?_, back⟩
    · have seen := present
      rw [layers_run_eq] at seen
      rcases Layered.node?_eq_some_iff.1 seen with own | ⟨_, lower⟩
      · obtain ⟨inside, same⟩ :=
          (NodeStore.node?_eq_some_iff rearranged.symm.anchored.coherent).1 own
        exact same ▸ List.mem_map_of_mem inside
      · exact absurd (low (NodeStore.id_lt_nextId grounded.coherent lower)) high
    · rintro ⟨step, code, remote, _⟩
      obtain ⟨same, there, identified⟩ := Layered.node?_of_pseudo?
        (grounded_run grounded reordered).coherent rearranged.symm.settled.anchored remote
      cases present.symm.trans there
      rw [Node.identity?, renumbered.kind.pseudo?_eq.2] at identified
      cases identified
  | some definition =>
    have kind := NodeKind.pseudo?_eq_some_iff.1 isPseudo
    have found := run_pseudo?_of_mem grounded started calls known kind
    obtain ⟨other, renumbered, there⟩ := rearranged.exists_counterpart known kind shared
    obtain ⟨back, inForm⟩ := rearranged.renumbered_symm renumbered
      (rearranged.exists_collection known kind)
    have sharedToo : ¬OnlyIn (run wired reordered) (run wired calls)
        (counterpart (run wired calls) (run wired reordered) node.id) := by
      rintro ⟨step, code, remote, absent⟩
      have same := run_pseudo?_inj grounded started reordered there remote
      have keyed : definition.toPseudoKey.kind ≠ .item := by
        rw [← renumbered.kind, same]
        rintro ⟨⟩
      rw [renumbered.eq_of_keyed keyed] at same
      rw [same] at found
      exact absent ⟨_, found⟩
    refine ⟨?_, sharedToo, ?_⟩
    · rcases run_pseudo?_cases grounded started reordered there with
        lower | ⟨image, inside, same, _⟩
      · obtain rfl := inForm ⟨_, lower⟩
        exact absurd ⟨_, lower⟩ (run_wanted grounded started known kind).1
      · exact same ▸ List.mem_map_of_mem inside
    · have again := rearranged.symm.pseudo?_counterpart there sharedToo back
      exact Option.some.inj (again.symm.trans found)

/-- A pseudo-node that both requests have is the counterpart of its counterpart, in the form or
not. -/
theorem counterpart_pseudo? {identity : PseudoKey} {id : NodeId}
    (found : (run wired calls).layers.pseudo? identity = some id)
    (shared : ¬OnlyIn (run wired calls) (run wired reordered) id) :
    counterpart (run wired reordered) (run wired calls)
      (counterpart (run wired calls) (run wired reordered) id) = id := by
  have coherent := rearranged.grounded.coherent
  rcases run_pseudo?_cases rearranged.grounded rearranged.started calls found with
    lower | ⟨node, member, rfl, _⟩
  · obtain ⟨node, present, _⟩ := (NodeStore.pseudo?_eq_some_iff coherent).1 lower
    have low : id.val < wired.nodeMark := NodeStore.id_lt_nextId coherent present
    rw [rearranged.counterpart_low low, rearranged.symm.counterpart_low low]
  · exact (rearranged.counterpart_spec (List.mem_map_of_mem member) shared).2.2

/-- **The nodes that both requests have are told one for one.** -/
theorem bijOn_counterpart : Set.BijOn (counterpart (run wired calls) (run wired reordered))
    {id | id ∈ (run wired calls).overlay.nodes.nodes.map Node.id ∧
      ¬OnlyIn (run wired calls) (run wired reordered) id}
    {id | id ∈ (run wired reordered).overlay.nodes.nodes.map Node.id ∧
      ¬OnlyIn (run wired reordered) (run wired calls) id} := by
  refine @Set.InvOn.bijOn _ _ _ _ _ (counterpart (run wired reordered) (run wired calls))
    ⟨?_, ?_⟩ ?_ ?_
  · rintro id ⟨member, shared⟩
    exact (rearranged.counterpart_spec member shared).2.2
  · rintro id ⟨member, shared⟩
    exact (rearranged.symm.counterpart_spec member shared).2.2
  · rintro id ⟨member, shared⟩
    obtain ⟨there, sharedToo, _⟩ := rearranged.counterpart_spec member shared
    exact ⟨there, sharedToo⟩
  · rintro id ⟨member, shared⟩
    obtain ⟨there, sharedToo, _⟩ := rearranged.symm.counterpart_spec member shared
    exact ⟨there, sharedToo⟩

end Rearranged

end RequestScope

end FormFlow
