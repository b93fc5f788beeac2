import FormFlow.Proofs.Request.Unrolled

/-!
# Keys in nested iterations

A reference to an answer or a submitted value follows the codes that iterations give to fields. If
its own collection declares a field with the code, it reads that field of the same iteration
(`RequestScope.keyAt`). Otherwise it reads the field of the innermost collection around it that
declares one, but only if no template nested in that collection declares the code as well
(`RequestScope.keyThrough`). Whether the reference stands in the nested template that does is not
asked, so a field of a sibling is enough for it to keep its key
(`RequestScope.Survey.sibling_keeps_key`).

This is what the copies come to, however deep the collections are nested
(`RequestScope.unrolled_reference`).
-/

set_option autoImplicit false

namespace FormFlow

open NodeSource

/-! ## Declared codes -/

namespace Renaming

/-- Every code of a field has a new code, and nothing else has one. -/
theorem lookup_fields (opening : String) (codes : List String) (code : String) :
    (codes.foldl (addField opening) []).lookup code =
      if code ∈ codes then some (join opening code) else none := by
  have along : ∀ (codes : List String) (fields : List (String × String)),
      (codes.foldl (addField opening) fields).lookup code =
        (fields.lookup code).or (if code ∈ codes then some (join opening code) else none) := by
    intro codes
    induction codes with
    | nil => simp
    | cons first rest ih =>
      intro fields
      rw [List.foldl_cons, ih]
      by_cases same : code = first
      · subst same
        cases known : fields.lookup code <;> simp [addField, known, List.lookup_append]
      · have other : (addField opening fields first).lookup code = fields.lookup code := by
          unfold addField
          split
          · rfl
          · simp [List.lookup_append, List.lookup_cons, beq_eq_false_iff_ne.2 same]
        rw [other]
        simp [same]
  exact along codes []

/-- New codes have the opening in front. -/
theorem eq_join_of_mem_fields (opening : String) (codes : List String) :
    ∀ pair ∈ codes.foldl (addField opening) [], pair.2 = join opening pair.1 := by
  have along : ∀ (codes : List String) (fields : List (String × String)),
      (∀ pair ∈ fields, pair.2 = join opening pair.1) →
        ∀ pair ∈ codes.foldl (addField opening) fields, pair.2 = join opening pair.1 := by
    intro codes
    induction codes with
    | nil => exact fun fields renamed => renamed
    | cons code rest ih =>
      intro fields renamed
      refine ih _ ?_
      unfold addField
      split
      · exact renamed
      · intro pair member
        rcases List.mem_append.1 member with old | new
        · exact renamed pair old
        · cases List.mem_singleton.1 new
          rfl
  exact along codes [] nofun

end Renaming

namespace NodeStore

/-- Whether a field with a code stands below a collection and belongs to it, or, unless it is to be
its own, to one that is nested in it. -/
def declaresAs (store : NodeStore) (own : Bool) (collection : NodeId) (code : String) : Bool :=
  store.nodes.any fun node => node.kind.field?.map Field.code = some code &&
    ((above store node).any fun outer => outer.id = collection) &&
    decide ((repeatedAbove? store node).map Node.id = some collection) == own

/-- Whether a collection has a field of its own with a code. -/
def declares (store : NodeStore) : NodeId → String → Bool := store.declaresAs true

/-- Whether a collection that is nested in another one has a field with a code. -/
def declaresNested (store : NodeStore) : NodeId → String → Bool := store.declaresAs false

theorem declaresAs_iff {store : NodeStore} (coherent : store.Coherent) (upright : Upright store)
    (single : Uniterated store) {own : Bool} {collection : NodeId} {code : String} :
    store.declaresAs own collection code = true ↔ ∃ id node,
      NodeSource.node? store id = some node ∧ Beneath store id collection ∧
        node.kind.field?.map Field.code = some code ∧
        decide ((repeatedAbove? store node).map Node.id = some collection) = own := by
  have below : ∀ id node, NodeSource.node? store id = some node →
      (((above store node).any fun outer => outer.id = collection) = true ↔
        Beneath store id collection) := by
    intro id node found
    rw [beneath_iff single, ← upright.mem_above_iff found, List.any_eq_true]
    constructor
    · rintro ⟨outer, member, named⟩
      refine ⟨outer, ?_, member⟩
      rw [← of_decide_eq_true named]
      exact node?_of_mem_climb member
    · rintro ⟨outer, there, member⟩
      exact ⟨outer, member, decide_eq_true (NodeStore.id_of_node? coherent there)⟩
  rw [declaresAs, List.any_eq_true]
  constructor
  · rintro ⟨node, member, holds⟩
    have found : NodeSource.node? store node.id = some node := node?_of_mem coherent member
    simp only [Bool.and_eq_true, beq_iff_eq, decide_eq_true_eq] at holds
    obtain ⟨⟨isField, around⟩, near⟩ := holds
    exact ⟨node.id, node, found, (below _ _ found).1 around, isField, near⟩
  · rintro ⟨id, node, found, beneath, isField, near⟩
    refine ⟨node, ((node?_eq_some_iff coherent).1 found).1, ?_⟩
    simp only [Bool.and_eq_true, beq_iff_eq, decide_eq_true_eq]
    exact ⟨⟨isField, (below _ _ found).2 beneath⟩, near⟩

end NodeStore

namespace RequestScope

/-! ## The key of a reference -/

/-- The key that a code has behind iterations, the innermost first, for a reference that stands in a
further collection: the new code of the innermost field that it names, unless a field of a nested
template has the code too. -/
def keyThrough (store : NodeStore) : List (NodeId × Iteration) → String → Option String
  | [], code => some code
  | (collection, made) :: outer, code =>
    if store.declares collection code then
      if store.declaresNested collection code then some code else made.renamed.lookup code
    else keyThrough store outer code

/-- The key that a code has for a reference of the innermost collection: the new code of its own
field, and otherwise the key that it has further out. -/
def keyAt (store : NodeStore) : List (NodeId × Iteration) → String → Option String
  | [], code => some code
  | (collection, made) :: outer, code =>
    if store.declares collection code then made.renamed.lookup code
    else keyThrough store outer code

/-- No field of the form has a new code of one of the iterations. -/
def FreshCodes (store : NodeStore) (chain : List (NodeId × Iteration)) : Prop :=
  ∀ link ∈ chain, ∀ node ∈ store.nodes, ∀ field ∈ node.kind.field?,
    field.code ∉ link.2.renamed.map Prod.snd

/-- No field of the form has a code that an iteration could give. -/
def PlainCodes (store : NodeStore) : Prop :=
  ∀ node ∈ store.nodes, ∀ field ∈ node.kind.field?, ∀ collection index code,
    field.code ≠ Renaming.join (Renaming.openingOf collection index) code

/-- A key is the code itself, or a new code that no collection declares. -/
theorem eq_or_undeclared {store : NodeStore} {chain : List (NodeId × Iteration)}
    (fresh : FreshCodes store chain) {code key : String}
    (through : keyThrough store chain code = some key) :
    key = code ∨ ∀ own collection, store.declaresAs own collection key = false := by
  induction chain with
  | nil => exact .inl (Option.some.inj through).symm
  | cons link outer ih =>
    obtain ⟨collection, made⟩ := link
    rw [keyThrough] at through
    split at through
    · split at through
      · exact .inl (Option.some.inj through).symm
      · refine .inr fun own other => Bool.eq_false_iff.2 fun declared => ?_
        obtain ⟨before, after, pairs, _⟩ := List.lookup_eq_some_iff.1 through
        obtain ⟨node, member, holds⟩ := List.any_eq_true.1 declared
        simp only [Bool.and_eq_true, decide_eq_true_eq] at holds
        obtain ⟨field, isField, same⟩ := Option.map_eq_some_iff.1 holds.1.1
        refine fresh (collection, made) (List.mem_cons_self ..) node member field isField ?_
        rw [same, pairs]
        simp
    · exact ih (fun link member => fresh link (List.mem_cons_of_mem _ member)) through

/-- Collections that declare a code only where a nested one does leave it as it is. -/
theorem keyThrough_of_nested {store : NodeStore} {chain : List (NodeId × Iteration)} {code : String}
    (nested : ∀ link ∈ chain, store.declares link.1 code = true →
      store.declaresNested link.1 code = true) : keyThrough store chain code = some code := by
  induction chain with
  | nil => rfl
  | cons link outer ih =>
    rw [keyThrough, ih fun link member => nested link (List.mem_cons_of_mem _ member)]
    split
    · rename_i own
      rw [if_pos (nested link (List.mem_cons_self ..) own)]
    · rfl

/-! ## One iteration -/

/-- An iteration of the copy of a collection, as it is seen later on. -/
structure Stage (wired : WiredForm) (layers : Layered) (collection : NodeId)
    (place : NodeId → NodeId) (template : Template) (index : Nat) (made : Iteration) : Prop where
  upright : Upright layers
  like : Likeness wired.form.nodes layers collection place
  outer : ∃ node, node? wired.form.nodes collection = some node ∧ node.kind.isRepeated = true
  image : ∃ node, node? layers (place collection) = some node ∧ node.kind.isRepeated = true
  named : template.collection = place collection
  renamed : made.renamed = (Renaming.ofTemplate template index).fields
  copied : ∃ iteration, Copied layers template (.ofTemplate template index)
    ((Template.ids template.nodes).zip made.nodes) iteration
  listed : ∀ id, id ∈ Template.ids template.nodes ↔ Beneath layers id template.collection

namespace Stage

variable {wired : WiredForm} {layers : Layered} {collection : NodeId} {place : NodeId → NodeId}
  {template : Template} {index : Nat} {made : Iteration}
  (stage : Stage wired layers collection place template index made) (grounded : Grounded wired)
include stage grounded

/-- What stands below the collection of the form is listed in the template by its copy. -/
theorem exists_entry {id : NodeId} {node : Node} (found : node? wired.form.nodes id = some node)
    (beneath : Beneath wired.form.nodes id collection) : ∃ entry ∈ template.nodes,
      entry.node.id = place id ∧ node.kind.Alike entry.node.kind ∧
        entry.direct =
          decide ((repeatedAbove? wired.form.nodes node).map Node.id = some collection) := by
  obtain ⟨outer, present, repeated⟩ := stage.outer
  obtain ⟨image, there, same⟩ := stage.image
  obtain ⟨iteration, copied⟩ := stage.copied
  have below := stage.like.beneath beneath
  obtain ⟨entry, member, named⟩ := List.mem_map.1
    ((stage.listed (place id)).2 (by rw [stage.named]; exact below))
  have shown := copied.found entry member
  rw [named] at shown
  refine ⟨entry, member, named, stage.like.alike _ _ _ beneath found shown, ?_⟩
  rw [copied.direct entry member, stage.named, decide_eq_decide]
  exact stage.like.repeatedAbove?_iff grounded.upright stage.upright present there repeated same
    beneath found shown

/-- What the template lists stands below the collection of the form. -/
theorem exists_node {entry : TemplateNode} (member : entry ∈ template.nodes) : ∃ id node,
    node? wired.form.nodes id = some node ∧ Beneath wired.form.nodes id collection ∧
      entry.node.id = place id ∧ node.kind.Alike entry.node.kind ∧
        entry.direct =
          decide ((repeatedAbove? wired.form.nodes node).map Node.id = some collection) := by
  have below := (stage.listed _).1 (List.mem_map_of_mem member)
  rw [stage.named] at below
  obtain ⟨id, beneath, same⟩ := stage.like.exists_origin below
  obtain ⟨node, found, _⟩ := beneath.exists_node
  obtain ⟨other, inside, named, alike, direct⟩ := stage.exists_entry grounded found beneath
  obtain ⟨iteration, copied⟩ := stage.copied
  have entries : other.node = entry.node := by
    have shown := copied.found entry member
    rw [← same, ← named, copied.found other inside] at shown
    exact Option.some.inj shown
  refine ⟨id, node, found, beneath, same.symm, entries ▸ alike, ?_⟩
  rw [← direct, copied.direct other inside, copied.direct entry member, entries]

variable (single : Uniterated wired.form.nodes)
include single

/-- The codes in the template are those of the fields of the form. -/
theorem mem_fieldCodes_iff (own : Bool) (code : String) :
    code ∈ Renaming.fieldCodes (template.nodes.filter fun entry => entry.direct == own) ↔
      wired.form.nodes.declaresAs own collection code = true := by
  rw [NodeStore.declaresAs_iff grounded.coherent grounded.upright single, Renaming.fieldCodes,
    List.mem_filterMap]
  constructor
  · rintro ⟨entry, member, isField⟩
    obtain ⟨member, own⟩ := List.mem_filter.1 member
    obtain ⟨id, node, found, beneath, _, alike, direct⟩ := stage.exists_node grounded member
    exact ⟨id, node, found, beneath, alike.code.symm.trans isField,
      direct.symm.trans (beq_iff_eq.1 own)⟩
  · rintro ⟨id, node, found, beneath, isField, near⟩
    obtain ⟨entry, member, _, alike, direct⟩ := stage.exists_entry grounded found beneath
    exact ⟨entry, List.mem_filter.2 ⟨member, beq_iff_eq.2 (direct.trans near)⟩,
      alike.code.trans isField⟩

/-- The codes that have a new one are those that the collection declares. -/
theorem isSome_lookup (code : String) :
    (made.renamed.lookup code).isSome = wired.form.nodes.declares collection code := by
  have codes := stage.mem_fieldCodes_iff grounded single true code
  rw [stage.renamed, Renaming.ofTemplate]
  dsimp only
  rw [Renaming.lookup_fields]
  simp only [beq_true] at codes
  rw [NodeStore.declares, Bool.eq_iff_iff, ← codes]
  split
  · rename_i known
    simpa using known
  · rename_i unknown
    simpa using unknown

/-- The codes that references in nested templates keep are those that nested collections
declare. -/
theorem contains_shadowed (code : String) :
    (Renaming.ofTemplate template index).shadowed.contains code =
      wired.form.nodes.declaresNested collection code := by
  have codes := stage.mem_fieldCodes_iff grounded single false code
  simp only [beq_false] at codes
  rw [Bool.eq_iff_iff, List.contains_iff_mem]
  exact codes

/-- Of a key that nobody declares, or that is the code itself, an iteration makes the new code if
its collection declares the code. -/
theorem getD_lookup {code key : String}
    (settled : wired.form.nodes.declares collection code = true → key = code)
    (undeclared : key = code ∨ wired.form.nodes.declares collection key = false) :
    some ((made.renamed.lookup key).getD key) =
      if wired.form.nodes.declares collection code then made.renamed.lookup code else some key := by
  have known := stage.isSome_lookup grounded single
  cases own : wired.form.nodes.declares collection code with
  | true =>
    rw [settled own, if_pos rfl]
    have there := known code
    rw [own] at there
    rw [← Option.some_get there]
    rfl
  | false =>
    have absent : made.renamed.lookup key = none := by
      rw [← Option.not_isSome_iff_eq_none, known key]
      rcases undeclared with rfl | none
      · simp [own]
      · simp [none]
    rw [absent]
    rfl

/-- An iteration makes of the key that a reference has further out the one that it has there. -/
theorem key_eq {chain : List (NodeId × Iteration)} (fresh : FreshCodes wired.form.nodes chain)
    {code key : String} (through : keyThrough wired.form.nodes chain code = some key)
    (around : wired.form.nodes.declares collection code = true →
      ∀ link ∈ chain, wired.form.nodes.declaresNested link.1 code = true) :
    keyAt wired.form.nodes ((collection, made) :: chain) code =
        some ((Renaming.ofTemplate template index).key true key) ∧
      keyThrough wired.form.nodes ((collection, made) :: chain) code =
        some ((Renaming.ofTemplate template index).key false key) := by
  have undeclared := eq_or_undeclared fresh through
  have own : wired.form.nodes.declares collection code = true → key = code := by
    intro declares
    have same := keyThrough_of_nested fun link member _ => around declares link member
    exact Option.some.inj (through.symm.trans same)
  have looked := stage.getD_lookup grounded single own
    (undeclared.imp_right fun none => none true collection)
  rw [keyAt, keyThrough, through, Renaming.key, Renaming.key,
    stage.contains_shadowed grounded single, ← stage.renamed]
  refine ⟨looked.symm, ?_⟩
  cases shadowed : wired.form.nodes.declaresNested collection key with
  | true =>
    -- A new code is declared nowhere, so the key is the code itself.
    have same : key = code := undeclared.resolve_right fun none => by
      have absent := none false collection
      rw [← NodeStore.declaresNested, shadowed] at absent
      cases absent
    subst same
    simp [shadowed]
  | false =>
    simp only [Bool.not_false, Bool.true_and, Bool.false_eq_true, if_false]
    rw [looked]
    cases declares : wired.form.nodes.declares collection code with
    | true =>
      rw [← own declares, shadowed]
      rfl
    | false => rfl

omit single in
/-- What becomes of the key of a reference when it is copied. -/
theorem reference {id : NodeId} {node copy : Node} (found : node? wired.form.nodes id = some node)
    (beneath : Beneath wired.form.nodes id collection) (shown : node? layers (place id) = some copy)
    {first old : String} {rest : List String}
    (isReference : copy.kind = .reference ⟨first :: old :: rest⟩)
    (keyed : first = Namespace.answers.text ∨ first = Namespace.post.text) :
    copyOf ((Template.ids template.nodes).zip made.nodes) (place id) ∈ made.nodes ∧ ∃ later,
      node? layers (copyOf ((Template.ids template.nodes).zip made.nodes) (place id)) =
        some later ∧
      later.kind = .reference ⟨first :: (Renaming.ofTemplate template index).key
        (decide ((repeatedAbove? wired.form.nodes node).map Node.id = some collection)) old ::
          rest⟩ := by
  obtain ⟨entry, member, named, _, direct⟩ := stage.exists_entry grounded found beneath
  obtain ⟨iteration, copied⟩ := stage.copied
  have same := copied.found entry member
  rw [named, shown] at same
  have after := copied.copy entry member
  rw [named] at after
  have listed := copied.named entry member
  rw [named] at listed
  obtain ⟨pair, known, last⟩ := List.mem_map.1 listed
  refine ⟨last ▸ (List.of_mem_zip known).2, _, after, ?_⟩
  rw [copyNode, ← Option.some.inj same, isReference, direct]
  rcases keyed with rfl | rfl <;> rfl

end Stage

/-! ## Iterations in iterations -/

section

variable {wired : WiredForm} (grounded : Grounded wired) (started : Settled (start wired))
  (single : Uniterated wired.form.nodes)
include grounded single

/-- The collections of a chain stand around what stands in the innermost one. -/
theorem Unrolled.beneath {calls : List (NodeId × Nat)} {chain : List (NodeId × Iteration)}
    {place : NodeId → NodeId} (unrolled : Unrolled wired calls chain place) {id : NodeId}
    {node : Node} (found : node? wired.form.nodes id = some node)
    (nearest : (repeatedAbove? wired.form.nodes node).map Node.id = chain.head?.map Prod.fst) :
    ∀ link ∈ chain, Beneath wired.form.nodes id link.1 := by
  induction unrolled generalizing id node with
  | whole => exact nofun
  | @into chain place collection outer index before template made unrolled present _ around makes
      ih =>
    obtain ⟨inside, _⟩ := beneath_of_repeatedAbove? grounded single found nearest
    intro link member
    rcases List.mem_cons.1 member with rfl | later
    · exact inside
    · exact inside.trans_among (ih present around link later).among

/-- What a collection declares, the collections around it have in a nested one. -/
theorem Unrolled.declaresNested {calls : List (NodeId × Nat)} {chain : List (NodeId × Iteration)}
    {place : NodeId → NodeId} (unrolled : Unrolled wired calls chain place) {collection : NodeId}
    {outer : Node} (present : node? wired.form.nodes collection = some outer)
    (nearest : (repeatedAbove? wired.form.nodes outer).map Node.id = chain.head?.map Prod.fst)
    {code : String} (declares : wired.form.nodes.declares collection code = true) :
    ∀ link ∈ chain, wired.form.nodes.declaresNested link.1 code = true := by
  intro link member
  have around := unrolled.beneath grounded single present nearest link member
  obtain ⟨id, node, found, beneath, isField, near⟩ :=
    (NodeStore.declaresAs_iff grounded.coherent grounded.upright single).1 declares
  refine (NodeStore.declaresAs_iff grounded.coherent grounded.upright single).2
    ⟨id, node, found, beneath.trans_among around.among, isField, ?_⟩
  rw [of_decide_eq_true near, decide_eq_false_iff_not]
  rintro ⟨⟩
  exact grounded.upright.acyclic _ around.inside

include started

/-- An iteration of a chain, as it is seen at the end. -/
theorem Unrolled.stage {calls before : List (NodeId × Nat)}
    {chain : List (NodeId × Iteration)} {place : NodeId → NodeId} {collection : NodeId}
    {node : Node} {index : Nat} {template : Template} {made : Iteration}
    (outer : Unrolled wired calls chain place)
    (found : node? wired.form.nodes collection = some node)
    (isCollection : node.kind.isCollection = true)
    (nearest : (repeatedAbove? wired.form.nodes node).map Node.id = chain.head?.map Prod.fst)
    (makes : Makes wired calls before (place collection) index template made) :
    Stage wired (run wired calls).layers collection place template index made := by
  have repeated := NodeKind.isRepeated_of_isCollection isCollection
  obtain ⟨like, image⟩ := outer.likeness grounded started single found repeated nearest
  obtain ⟨named, renamed, copied, listed⟩ := makes.copied grounded started
  exact
    { upright := (settled_run grounded started calls).placed.upright
      like := like
      outer := ⟨node, found, repeated⟩
      image := image
      named := named
      renamed := renamed
      copied := copied
      listed := listed }

omit single in
/-- If no field has a code that an iteration could give, none has one that these iterations give. -/
theorem Unrolled.freshCodes {calls : List (NodeId × Nat)} {chain : List (NodeId × Iteration)}
    {place : NodeId → NodeId} (unrolled : Unrolled wired calls chain place)
    (plainCodes : PlainCodes wired.form.nodes) : FreshCodes wired.form.nodes chain := by
  induction unrolled with
  | whole => exact nofun
  | @into chain place collection outer index before template made unrolled _ _ _ makes ih =>
    intro link member node known field isField new
    rcases List.mem_cons.1 member with rfl | later
    · rw [(makes.copied grounded started).2.1] at new
      obtain ⟨pair, renamed, same⟩ := List.mem_map.1 new
      refine plainCodes node known field isField template.code index pair.1 ?_
      rw [← same]
      exact Renaming.eq_join_of_mem_fields _ _ pair renamed
    · exact ih link later node known field isField new

/-- The key of a reference that stands in a collection whose copy is in the innermost iteration. -/
theorem Unrolled.reference_through {calls : List (NodeId × Nat)}
    {chain : List (NodeId × Iteration)} {place : NodeId → NodeId}
    (unrolled : Unrolled wired calls chain place) (fresh : FreshCodes wired.form.nodes chain)
    {nested : NodeId} {top : Node} (present : node? wired.form.nodes nested = some top)
    (repeated : top.kind.isRepeated = true)
    (nearest : (repeatedAbove? wired.form.nodes top).map Node.id = chain.head?.map Prod.fst)
    {id : NodeId} {node : Node} (found : node? wired.form.nodes id = some node)
    (beneath : Beneath wired.form.nodes id nested) {first code : String} {rest : List String}
    (isReference : node.kind = .reference ⟨first :: code :: rest⟩)
    (keyed : first = Namespace.answers.text ∨ first = Namespace.post.text) :
    ∃ copy key, node? (run wired calls).layers (place id) = some copy ∧
      copy.kind = .reference ⟨first :: key :: rest⟩ ∧
      keyThrough wired.form.nodes chain code = some key := by
  induction unrolled generalizing nested top with
  | whole =>
    exact ⟨node, code, (run_shows grounded started [] calls).node _ _ found, isReference, rfl⟩
  | @into chain place collection outer index before template made unrolled there isCollection
      around makes ih =>
    obtain ⟨inside, _⟩ := beneath_of_repeatedAbove? grounded single present nearest
    have within := beneath.trans_among inside.among
    obtain ⟨copy, key, shown, kind, through⟩ := ih
      (fun link member => fresh link (List.mem_cons_of_mem _ member)) there
      (NodeKind.isRepeated_of_isCollection isCollection) around within
    have stage := unrolled.stage grounded started single there isCollection around makes
    obtain ⟨_, later, after, renamed⟩ := stage.reference grounded found within shown kind keyed
    refine ⟨later, _, after, renamed, ?_⟩
    have deep := grounded.upright.repeatedAbove?_ne found present repeated beneath inside
    rw [decide_eq_false deep]
    exact (stage.key_eq grounded single
      (fun link member => fresh link (List.mem_cons_of_mem _ member)) through fun declares =>
        unrolled.declaresNested grounded single there around declares).2

end

/-- **After any calls, the copy of a reference in nested iterations has the key that its collection
and those around it give to the code.** The reference stands in the innermost collection of the
chain. No field of the form has one of the new codes, as is the case if none has a code that an
iteration could give (`RequestScope.Unrolled.freshCodes`). -/
theorem unrolled_reference {form : Form} {config : WiringConfig} {wired : WiredForm}
    (built : form.Built) (plain : form.Plain) (wiring : WiredForm.wire form config = .ok wired)
    {calls : List (NodeId × Nat)} {chain : List (NodeId × Iteration)} {place : NodeId → NodeId}
    (unrolled : Unrolled wired calls chain place) (fresh : FreshCodes wired.form.nodes chain)
    {id : NodeId} {node : Node} (found : wired.form.nodes.node? id = some node)
    (nearest : (repeatedAbove? wired.form.nodes node).map Node.id = chain.head?.map Prod.fst)
    {first code : String} {rest : List String}
    (isReference : node.kind = .reference ⟨first :: code :: rest⟩)
    (keyed : first = Namespace.answers.text ∨ first = Namespace.post.text) :
    (∀ link ∈ chain.head?, place id ∈ link.2.nodes) ∧
      ∃ copy key, (run wired calls).layers.node? (place id) = some copy ∧
        copy.kind = .reference ⟨first :: key :: rest⟩ ∧
        keyAt wired.form.nodes chain code = some key := by
  have registered := WiredForm.wire_spec wiring
  have grounded := grounded_of_registered registered built.coherent plain
  have started := settled_start registered built.coherent plain
  have single : Uniterated wired.form.nodes := by
    intro id node found
    rcases registered.form_or_pseudo built.coherent found with lower | ⟨definition, isPseudo, _⟩
    · exact plain.iterations node ((NodeStore.node?_eq_some_iff built.coherent).1 lower).1
    · rw [isPseudo]
      rfl
  cases unrolled with
  | whole =>
    exact ⟨nofun, node, code, (run_shows grounded started [] calls).node _ _ found, isReference,
      rfl⟩
  | @into chain place collection outer index before template made unrolled there isCollection
      around makes =>
    have inside := (beneath_of_repeatedAbove? grounded single found nearest).1
    have repeated := NodeKind.isRepeated_of_isCollection isCollection
    have freshRest : FreshCodes wired.form.nodes chain := fun link member =>
      fresh link (List.mem_cons_of_mem _ member)
    obtain ⟨copy, key, shown, kind, through⟩ := unrolled.reference_through grounded started single
      freshRest there repeated around found inside isReference keyed
    have stage := unrolled.stage grounded started single there isCollection around makes
    obtain ⟨member, later, after, renamed⟩ :=
      stage.reference grounded found inside shown kind keyed
    have near : (repeatedAbove? wired.form.nodes node).map Node.id = some collection := nearest
    rw [decide_eq_true near] at renamed
    refine ⟨?_, later, _, after, renamed,
      (stage.key_eq grounded single freshRest through ?_).1⟩
    · rintro _ ⟨⟩
      exact member
    · exact fun declares => unrolled.declaresNested grounded single there around declares

/-! ### A sibling that has the code too

A row has a name and a total, to which the notes in the row refer. The items in it have a name as
well. -/

namespace Survey

def form : Form :=
  ⟨"survey", {
    nodes := [
      ⟨⟨0⟩, none, .journey "survey"⟩,
      ⟨⟨1⟩, some ⟨0⟩, .step "/rows"⟩,
      ⟨⟨2⟩, some ⟨1⟩, .collection ⟨"row", none⟩⟩,
      ⟨⟨3⟩, some ⟨2⟩, .field ⟨"name", "text", [], none⟩⟩,
      ⟨⟨4⟩, some ⟨2⟩, .field ⟨"total", "text", [], none⟩⟩,
      ⟨⟨5⟩, some ⟨2⟩, .collection ⟨"note", none⟩⟩,
      ⟨⟨6⟩, some ⟨5⟩, .reference ⟨["answers", "name"]⟩⟩,
      ⟨⟨7⟩, some ⟨5⟩, .reference ⟨["answers", "total"]⟩⟩,
      ⟨⟨8⟩, some ⟨2⟩, .collection ⟨"item", none⟩⟩,
      ⟨⟨9⟩, some ⟨8⟩, .field ⟨"name", "text", [], none⟩⟩]
    containment := [(⟨0⟩, ⟨1⟩), (⟨1⟩, ⟨2⟩), (⟨2⟩, ⟨3⟩), (⟨2⟩, ⟨4⟩), (⟨2⟩, ⟨5⟩), (⟨5⟩, ⟨6⟩),
      (⟨5⟩, ⟨7⟩), (⟨2⟩, ⟨8⟩), (⟨8⟩, ⟨9⟩)]
    references := [⟨6⟩, ⟨7⟩]
    identities := []
    nextId := 10 }⟩

theorem built : form.Built := by
  have journey := Form.Built.addJourney (.empty "survey")
    (rfl : Form.addJourney _ none "survey" = .ok (_, ⟨0⟩))
  have step := journey.addStep (rfl : Form.addStep _ ⟨0⟩ "/rows" = .ok (_, ⟨1⟩))
  have row := step.addCollection (rfl : Form.addCollection _ ⟨1⟩ "row" none = .ok (_, ⟨2⟩))
  have name := row.addField (rfl : Form.addField _ ⟨2⟩ "name" "text" = .ok (_, ⟨3⟩))
  have total := name.addField (rfl : Form.addField _ ⟨2⟩ "total" "text" = .ok (_, ⟨4⟩))
  have note := total.addCollection (rfl : Form.addCollection _ ⟨2⟩ "note" none = .ok (_, ⟨5⟩))
  have toName := note.addReference
    (rfl : Form.addReference _ ⟨5⟩ ["answers", "name"] = .ok (_, ⟨6⟩))
  have toTotal := toName.addReference
    (rfl : Form.addReference _ ⟨5⟩ ["answers", "total"] = .ok (_, ⟨7⟩))
  have item := toTotal.addCollection (rfl : Form.addCollection _ ⟨2⟩ "item" none = .ok (_, ⟨8⟩))
  exact item.addField (rfl : Form.addField _ ⟨8⟩ "name" "text" = .ok (_, ⟨9⟩))

theorem plain : form.Plain :=
  .ofNodes NodeId.val (by decide) (by decide) (by decide) (by decide) (by decide)

def wired : WiredForm := (WiredForm.wire form .default).toOption.getD default

theorem wiring : WiredForm.wire form .default = .ok wired :=
  rfl

/-- A row, and a note in it. -/
def calls : List (NodeId × Nat) := [(⟨2⟩, 0), (⟨14⟩, 0)]

def rowTemplate : Template :=
  (Template.read (run wired []).layers wired.scopes ⟨2⟩).toOption.getD default

def row : Iteration := ((run wired []).materialize ⟨2⟩ 0).2.toOption.getD default

def noteTemplate : Template :=
  (Template.read (run wired [(⟨2⟩, 0)]).layers wired.scopes ⟨14⟩).toOption.getD default

def note : Iteration := ((run wired [(⟨2⟩, 0)]).materialize ⟨14⟩ 0).2.toOption.getD default

/-- Where something in a note is found. -/
def place : NodeId → NodeId :=
  copyOf ((Template.ids noteTemplate.nodes).zip note.nodes) ∘
    copyOf ((Template.ids rowTemplate.nodes).zip row.nodes) ∘ id

theorem unrolled : Unrolled wired calls [(⟨5⟩, note), (⟨2⟩, row)] place := by
  have first : calls = [] ++ (id ⟨2⟩, 0) :: [(⟨14⟩, 0)] := rfl
  have outer : Unrolled wired calls [(⟨2⟩, row)]
      (copyOf ((Template.ids rowTemplate.nodes).zip row.nodes) ∘ id) :=
    .into .whole (rfl : node? wired.form.nodes ⟨2⟩ = some _) rfl rfl ⟨⟨_, first⟩, rfl, rfl, rfl⟩
  have second : calls = [(⟨2⟩, 0)] ++
      ((copyOf ((Template.ids rowTemplate.nodes).zip row.nodes) ∘ id) ⟨5⟩, 0) :: [] := rfl
  exact .into outer (rfl : node? wired.form.nodes ⟨5⟩ = some _) rfl rfl
    ⟨⟨_, second⟩, rfl, rfl, rfl⟩

/-- Every new code has a separator in it. -/
theorem plainCodes : PlainCodes wired.form.nodes := by
  intro node member field isField collection index code same
  have separated : '_' ∈ field.code.toList := by
    rw [same, Renaming.join]
    simp
  have single : ∀ node ∈ wired.form.nodes.nodes, ∀ field ∈ node.kind.field?,
      '_' ∉ field.code.toList := by decide
  exact single node member field isField separated

theorem freshCodes : FreshCodes wired.form.nodes [(⟨5⟩, note), (⟨2⟩, row)] := by
  have registered := WiredForm.wire_spec wiring
  exact unrolled.freshCodes (grounded_of_registered registered built.coherent plain)
    (settled_start registered built.coherent plain) plainCodes

/-- The note refers to the total of its row. -/
theorem total_renamed : place ⟨7⟩ ∈ note.nodes ∧
    ∃ copy, (run wired calls).layers.node? (place ⟨7⟩) = some copy ∧
      copy.kind = .reference ⟨["answers", "row_0_total"]⟩ := by
  obtain ⟨member, copy, key, shown, kind, same⟩ :=
    unrolled_reference built plain wiring unrolled freshCodes
      (rfl : wired.form.nodes.node? ⟨7⟩ = some _) rfl rfl (.inl rfl)
  cases (rfl : keyAt wired.form.nodes [(⟨5⟩, note), (⟨2⟩, row)] "total" =
    some "row_0_total").symm.trans same
  exact ⟨member _ rfl, copy, shown, kind⟩

/-- The note keeps the key to the name, which the items have too, although the row is the innermost
collection around the note that declares a name. -/
theorem sibling_keeps_key : ¬∀ (form : Form) (config : WiringConfig) (wired : WiredForm),
    form.Built → form.Plain → WiredForm.wire form config = .ok wired →
      PlainCodes wired.form.nodes → ∀ calls chain place, Unrolled wired calls chain place →
        ∀ id node, wired.form.nodes.node? id = some node →
          (repeatedAbove? wired.form.nodes node).map Node.id = chain.head?.map Prod.fst →
        ∀ first code rest, node.kind = .reference ⟨first :: code :: rest⟩ →
          first = Namespace.answers.text ∨ first = Namespace.post.text →
          ∃ copy key, (run wired calls).layers.node? (place id) = some copy ∧
            copy.kind = .reference ⟨first :: key :: rest⟩ ∧
            (match chain.find? fun link => wired.form.nodes.declares link.1 code with
              | some link => link.2.renamed.lookup code
              | none => some code) = some key := by
  intro follows
  obtain ⟨copy, key, shown, kind, same⟩ := follows form .default wired built plain wiring
    plainCodes calls _ place unrolled ⟨6⟩ _ rfl rfl "answers" "name" [] rfl (.inl rfl)
  cases shown.symm.trans (rfl : (run wired calls).layers.node? (place ⟨6⟩) =
    some ⟨⟨27⟩, some ⟨26⟩, .reference ⟨["answers", "name"]⟩⟩)
  cases kind
  exact absurd same (by decide)

end Survey

end RequestScope

end FormFlow
