import FormFlow.Proofs.Form.Composed
import FormFlow.Proofs.Form.Likeness
import FormFlow.Proofs.Wiring.Result

/-!
# The pseudo-nodes that are needed

Which pseudo-nodes the nodes of a form call for can be said without making any
(`NodeStore.Needs`). A field calls for its submitted value and its local answer, and they are made
for the first field of the step with that code. A reference by key calls for the pseudo-node that it
names, but not for a remote answer where a field of the step has the code. A collection calls for
its item. Whatever is below a collection waits for the iterations and calls for nothing.

Wiring makes exactly these (`WiredForm.wire_exact`), although the members of a step are gone through
kind by kind while the store grows: what is looked up first is what the step wants first
(`Synthesis.wantedIn`), and only fields of one code want the same pseudo-node for different nodes.
-/

set_option autoImplicit false

namespace FormFlow

open NodeSource
open Relation (TransGen)

/-- Among pairs in which a key has one value at most, what is looked up is what is there. -/
theorem lookup_eq_some_iff_of_single {α β : Type} [BEq α] [LawfulBEq α] {pairs : List (α × β)}
    {key : α} (single : ∀ value other, (key, value) ∈ pairs → (key, other) ∈ pairs → value = other)
    {value : β} : pairs.lookup key = some value ↔ (key, value) ∈ pairs := by
  have listed : ∀ {value : β}, pairs.lookup key = some value → (key, value) ∈ pairs := by
    intro value found
    obtain ⟨front, rest, rfl, -⟩ := List.lookup_eq_some_iff.1 found
    simp
  refine ⟨listed, fun member => ?_⟩
  obtain ⟨other, found⟩ := Option.isSome_iff_exists.1
    (isSome_lookup_iff.2 (List.mem_map_of_mem member : (key, value).1 ∈ pairs.map Prod.fst))
  rw [found, single value other member (listed found)]

/-- The first of a list that passes a test. -/
theorem find?_eq_some_iff_first {α : Type} {P : α → Prop} {test : α → Bool} {list : List α}
    (tests : ∀ a ∈ list, test a = true ↔ P a) {first : α} : list.find? test = some first ↔
      ∃ before after, list = before ++ first :: after ∧ P first ∧ ∀ a ∈ before, ¬P a := by
  rw [List.find?_eq_some_iff_append]
  constructor
  · rintro ⟨passes, before, after, rfl, fails⟩
    refine ⟨before, after, rfl, (tests first (by simp)).1 passes, fun a earlier holds => ?_⟩
    have failed := fails a earlier
    rw [(tests a (by simp [earlier])).2 holds] at failed
    cases failed
  · rintro ⟨before, after, rfl, holds, others⟩
    refine ⟨(tests first (by simp)).2 holds, before, after, rfl, fun a earlier => ?_⟩
    rw [Bool.not_eq_true', Bool.eq_false_iff]
    exact fun passes => others a earlier ((tests a (by simp [earlier])).1 passes)

/-- A reference by key has the name of the namespace and the key in front. -/
theorem Reference.keyedTarget?_eq_some_iff_path {expression : Reference} {space : Namespace}
    {key : String} : expression.keyedTarget? = some (space, key) ↔
      space.isKeyed = true ∧ ∃ nested, expression.path = space.text :: key :: nested := by
  rw [keyedTarget?_eq_some_iff, ← isIn_iff, lookupKey?, isIn]
  constructor
  · rintro ⟨inside, found, keyed⟩
    rw [if_pos inside] at found
    refine ⟨keyed, ?_⟩
    cases path : expression.path with
    | nil => simp [path] at found
    | cons first rest =>
      cases rest with
      | nil => simp [path] at found
      | cons second rest =>
        simp only [path, List.head?_cons, Option.some.injEq, decide_eq_true_eq] at inside
        simp only [path, List.getElem?_cons_succ, List.getElem?_cons_zero,
          Option.some.injEq] at found
        exact ⟨rest, by rw [inside, found]⟩
  · rintro ⟨keyed, nested, path⟩
    simp [path, keyed]

namespace NodeStore

/-! ## What nodes call for -/

/-- A node that belongs to a step and is below no collection. -/
structure Closed (store : NodeStore) (step : NodeId) (node : Node) : Prop where
  member : node ∈ store.nodes
  owned : owningStep? store node.id = some step
  outside : ∀ outer ∈ store.nodes, outer.kind.isCollection = true →
    ¬TransGen (Inside store) node.id outer.id

/-- A closed field of a step with a code. -/
def Declares (store : NodeStore) (step : NodeId) (code : String) (node : Node) : Prop :=
  store.Closed step node ∧ ∃ field, node.kind = .field field ∧ field.code = code

/-- The first of the closed fields of a step with a code. -/
def DeclaresFirst (store : NodeStore) (step : NodeId) (code : String) (first : NodeId) : Prop :=
  ∃ before node after, store.nodes = before ++ node :: after ∧ node.id = first ∧
    store.Declares step code node ∧ ∀ earlier ∈ before, ¬store.Declares step code earlier

/-- A closed reference of a step names a key in a namespace. -/
def Names (store : NodeStore) (step : NodeId) (space : Namespace) (key : String) : Prop :=
  ∃ node expression nested, store.Closed step node ∧ node.kind = .reference expression ∧
    expression.path = space.text :: key :: nested

/-- A pseudo-node that the nodes of a store call for. -/
inductive Needs (store : NodeStore) : Pseudo → Prop where
  | submitted {step first : NodeId} {code : String}
    (declares : store.DeclaresFirst step code first) :
    Needs store ⟨⟨.post, step, code⟩, some first⟩
  | answer {step first : NodeId} {code : String}
    (declares : store.DeclaresFirst step code first) :
    Needs store ⟨⟨.answerLocal, step, code⟩, some first⟩
  /-- Submitted values and answers that no field of the step provides. -/
  | foreign {step : NodeId} {key : String} (kind : PseudoKind)
    (isForeign : kind = .post ∨ kind = .answerRemote) (names : store.Names step kind.reads key)
    (undeclared : ∀ node, ¬store.Declares step key node) : Needs store ⟨⟨kind, step, key⟩, none⟩
  | named {step : NodeId} {key : String} (kind : PseudoKind)
    (isNamed : kind = .query ∨ kind = .params ∨ kind = .data)
    (names : store.Names step kind.reads key) : Needs store ⟨⟨kind, step, key⟩, none⟩
  | item {step : NodeId} {node : Node} (definition : Collection) (closed : store.Closed step node)
    (isCollection : node.kind = .collection definition) :
    Needs store ⟨⟨.item, step, itemKey node.id none⟩, some node.id⟩

/-! ## Members of steps are closed -/

section

variable {store : NodeStore}

theorem mem_nodesIn_iff {step : NodeId} {role : MemberRole} {node : Node} :
    node ∈ StepMembership.nodesIn store step role ↔ node ∈ store.nodes ∧
      StepMembership.roleOf? node.kind (inTemplate store node) = some role ∧
        owningStep? store node.id = some step := by
  simp only [StepMembership.nodesIn]
  simp only [List.mem_filter, Option.any_eq_true, StepMembership.place?, Option.bind_eq_bind,
    Option.bind_eq_some_iff, Bool.and_eq_true, decide_eq_true_eq]
  refine and_congr_right fun _ => ⟨?_, ?_⟩
  · rintro ⟨member, ⟨own, isRole, other, owned, same⟩, rfl, rfl⟩
    cases same
    exact ⟨isRole, owned⟩
  · rintro ⟨isRole, owned⟩
    exact ⟨_, ⟨role, isRole, step, owned, rfl⟩, rfl, rfl⟩

variable (coherent : store.Coherent)
include coherent

theorem pseudo?_eq_none_of_bare (bare : ∀ node ∈ store.nodes, node.kind.pseudo? = none)
    (identity : PseudoKey) : store.pseudo? identity = none := by
  rw [Option.eq_none_iff_forall_ne_some]
  intro id present
  obtain ⟨node, found, own⟩ := (pseudo?_eq_some_iff coherent).1 present
  rw [Node.identity?, bare node ((node?_eq_some_iff coherent).1 found).1] at own
  cases own

variable (upright : Upright store)
  (single : ∀ node ∈ store.nodes, node.kind.isIteration = false)
include upright single

/-- Without iterations a template is what is below a collection. -/
theorem inTemplate_eq_false_iff {node : Node} (member : node ∈ store.nodes) :
    inTemplate store node = false ↔ ∀ outer ∈ store.nodes, outer.kind.isCollection = true →
      ¬TransGen (Inside store) node.id outer.id := by
  have inside : ∀ {top}, (∃ outer, node? store top = some outer ∧ outer ∈ above store node) ↔
      TransGen (Inside store) node.id top :=
    fun {top} => upright.mem_above_iff (node?_of_mem coherent member)
  rw [inTemplate, repeatedAbove?, enclosingAbove?, Option.isSome_eq_false_iff,
    Option.isNone_iff_eq_none, List.find?_eq_none]
  constructor
  · intro outside outer there isCollection within
    obtain ⟨same, found, onWay⟩ := inside.2 within
    cases (node?_of_mem coherent there : node? store outer.id = some outer).symm.trans found
    exact outside outer onWay (NodeKind.isRepeated_of_isCollection isCollection)
  · intro outside outer onWay isRepeated
    have found : node? store outer.id = some outer := node?_of_mem_climb onWay
    have there := List.mem_of_find?_eq_some (found : store.node? outer.id = some outer)
    rw [NodeKind.isRepeated, single outer there, Bool.or_false] at isRepeated
    exact outside outer there isRepeated (inside.1 ⟨outer, found, onWay⟩)

/-- The members of a step outside templates are the closed nodes of their kind. -/
theorem mem_nodesIn_iff_closed {step : NodeId} {role : MemberRole}
    (outside : role ≠ .templateReference) {node : Node} :
    node ∈ StepMembership.nodesIn store step role ↔
      store.Closed step node ∧ StepMembership.roleOf? node.kind false = some role := by
  rw [mem_nodesIn_iff]
  constructor
  · rintro ⟨member, isRole, owned⟩
    cases templated : inTemplate store node with
    | false =>
      rw [templated] at isRole
      exact ⟨⟨member, owned, (inTemplate_eq_false_iff coherent upright single member).1 templated⟩,
        isRole⟩
    | true =>
      rw [templated] at isRole
      cases kind : node.kind <;> rw [kind] at isRole <;> cases isRole
      exact absurd rfl outside
  · rintro ⟨⟨member, owned, below⟩, isRole⟩
    refine ⟨member, ?_, owned⟩
    rw [(inTemplate_eq_false_iff coherent upright single member).2 below]
    exact isRole

theorem declares_iff {step : NodeId} {code : String} {node : Node} :
    store.Declares step code node ↔ node ∈ StepMembership.nodesIn store step .field ∧
      node.kind.field?.map Field.code = some code := by
  rw [mem_nodesIn_iff_closed coherent upright single (by decide), Declares, and_assoc]
  refine and_congr_right fun _ => ?_
  cases kind : node.kind <;> simp [NodeKind.field?, StepMembership.roleOf?]

theorem firstField?_eq_some_iff {step : NodeId} {code : String} {first : NodeId} :
    store.firstField? step code = some first ↔ store.DeclaresFirst step code first := by
  rw [firstField?, StepMembership.nodesIn, List.find?_filter, Option.map_eq_some_iff]
  refine (exists_congr fun node => and_congr_left' (find?_eq_some_iff_first
    (P := store.Declares step code) fun node member => ?_)).trans ⟨?_, ?_⟩
  · rw [declares_iff coherent upright single, StepMembership.nodesIn, List.mem_filter,
      and_iff_right member, decide_eq_true_eq, decide_eq_true_eq]
  · rintro ⟨node, ⟨before, after, split, own, earlier⟩, rfl⟩
    exact ⟨before, node, after, split, rfl, own, earlier⟩
  · rintro ⟨before, node, after, split, rfl, own, earlier⟩
    exact ⟨node, ⟨before, after, split, own, earlier⟩, rfl⟩

theorem firstField?_eq_none_iff {step : NodeId} {code : String} :
    store.firstField? step code = none ↔ ∀ node, ¬store.Declares step code node := by
  rw [firstField?, Option.map_eq_none_iff, List.find?_eq_none]
  simp only [declares_iff coherent upright single, decide_eq_true_eq, not_and]

end

end NodeStore

/-! ## What steps want is what is needed -/

namespace Synthesis

theorem needed?_eq_some_iff {isLocal : String → Bool} {space : Namespace} {key : String}
    {kind : PseudoKind} : needed? isLocal space key = some kind ↔ kind.reads = space ∧
      kind ≠ .answerLocal ∧ kind ≠ .item ∧ (kind = .answerRemote → isLocal key = false) := by
  refine ⟨of_needed?, ?_⟩
  rintro ⟨rfl, noAnswer, noItem, foreign⟩
  cases kind with
  | answerLocal => exact absurd rfl noAnswer
  | item => exact absurd rfl noItem
  | answerRemote => simp [PseudoKind.reads, needed?, foreign rfl]
  | _ => rfl

section

variable {store : NodeStore} (coherent : store.Coherent) (upright : Upright store)
  (single : ∀ node ∈ store.nodes, node.kind.isIteration = false)
include coherent upright single

theorem lookup_fields_eq_some_iff {step : NodeId} {identity : PseudoKey} {origin : Option NodeId} :
    ((StepMembership.nodesIn store step .field).flatMap (fieldWants step)).lookup identity =
        some origin ↔ identity.scope = step ∧
      (identity.kind = .post ∨ identity.kind = .answerLocal) ∧
        ∃ first, store.DeclaresFirst step identity.key first ∧ origin = some first := by
  have firsts := @NodeStore.firstField?_eq_some_iff store coherent upright single step identity.key
  rw [lookup_fieldWants, Option.ite_none_right_eq_some, and_assoc]
  simp only [← firsts, NodeStore.firstField?, Option.map_eq_some_iff]
  refine and_congr_right fun _ => and_congr_right fun _ => ⟨?_, ?_⟩
  · rintro ⟨node, found, rfl⟩
    exact ⟨_, ⟨node, found, rfl⟩, rfl⟩
  · rintro ⟨_, ⟨node, found, rfl⟩, rfl⟩
    exact ⟨node, found, rfl⟩

theorem lookup_fields_eq_none_iff {step : NodeId} {identity : PseudoKey} :
    ((StepMembership.nodesIn store step .field).flatMap (fieldWants step)).lookup identity = none ↔
      (identity.scope = step → identity.kind = .post ∨ identity.kind = .answerLocal →
        ∀ node, ¬store.Declares step identity.key node) := by
  rw [lookup_fieldWants, ← NodeStore.firstField?_eq_none_iff coherent upright single,
    NodeStore.firstField?]
  simp only [ite_eq_right_iff, Option.map_eq_none_iff, and_imp]

variable (bare : ∀ node ∈ store.nodes, node.kind.pseudo? = none)
include bare

theorem localIn_eq_false_iff {step : NodeId} {code : String} :
    localIn store step code = false ↔ ∀ node, ¬store.Declares step code node := by
  rw [localIn, NodeStore.pseudo?_eq_none_of_bare coherent bare, Option.isSome_none,
    Bool.false_or, Option.isSome_eq_false_iff, Option.isNone_iff_eq_none,
    NodeStore.firstField?_eq_none_iff coherent upright single]

/-- References want the pseudo-nodes that they name, without an origin. -/
theorem mem_references_iff {step : NodeId} {identity : PseudoKey} {origin : Option NodeId} :
    (identity, origin) ∈ (StepMembership.nodesIn store step .reference).flatMap
        (referenceWants (localIn store step) step) ↔
      identity.scope = step ∧ origin = none ∧ store.Names step identity.kind.reads identity.key ∧
        identity.kind ≠ .answerLocal ∧ identity.kind ≠ .item ∧
        (identity.kind = .answerRemote → ∀ node, ¬store.Declares step identity.key node) := by
  have closed := @NodeStore.mem_nodesIn_iff_closed store coherent upright single step .reference
    (by decide)
  obtain ⟨kind, scope, key⟩ := identity
  simp only [List.mem_flatMap, closed, mem_referenceWants,
    Reference.keyedTarget?_eq_some_iff_path, needed?_eq_some_iff,
    localIn_eq_false_iff coherent upright single bare]
  constructor
  · rintro ⟨node, ⟨own, -⟩, expression, space, key, kind, isReference, ⟨-, nested, path⟩,
      ⟨rfl, noAnswer, noItem, foreign⟩, same⟩
    cases same
    exact ⟨rfl, rfl, ⟨node, expression, nested, own, isReference, path⟩, noAnswer, noItem, foreign⟩
  · rintro ⟨rfl, rfl, ⟨node, expression, nested, own, isReference, path⟩, noAnswer, noItem, foreign⟩
    have keyed : kind.reads.isKeyed = true := by
      cases kind <;> first | rfl | exact absurd rfl noItem
    exact ⟨node, ⟨own, by rw [isReference]; rfl⟩, expression, kind.reads, key, kind, isReference,
      ⟨keyed, nested, path⟩, ⟨rfl, noAnswer, noItem, foreign⟩, rfl⟩

omit bare in
/-- Collections want their items. -/
theorem mem_collections_iff {step : NodeId} {identity : PseudoKey} {origin : Option NodeId} :
    (identity, origin) ∈ (StepMembership.nodesIn store step .collection).flatMap
        (repeatedWants step) ↔
      ∃ node definition, store.Closed step node ∧ node.kind = .collection definition ∧
        identity = ⟨.item, step, itemKey node.id none⟩ ∧ origin = some node.id := by
  have closed := @NodeStore.mem_nodesIn_iff_closed store coherent upright single step .collection
    (by decide)
  simp only [List.mem_flatMap, closed, mem_repeatedWants, Prod.mk.injEq]
  constructor
  · rintro ⟨node, ⟨own, isRole⟩, key, keyed, rfl, rfl⟩
    cases kind : node.kind <;> rw [kind] at isRole keyed <;> cases isRole
    cases keyed
    exact ⟨node, _, own, kind, rfl, rfl⟩
  · rintro ⟨node, definition, own, isCollection, rfl, rfl⟩
    exact ⟨node, ⟨own, by rw [isCollection]; rfl⟩, _, by rw [isCollection]; rfl, rfl, rfl⟩

/-- **A step wants first what it needs.** -/
theorem lookup_wantedIn_iff {step : NodeId} {identity : PseudoKey} {origin : Option NodeId} :
    (wantedIn store step).lookup identity = some origin ↔
      identity.scope = step ∧ store.Needs ⟨identity, origin⟩ := by
  have fields := @lookup_fields_eq_some_iff store coherent upright single step identity origin
  have noFields := @lookup_fields_eq_none_iff store coherent upright single step identity
  have references := fun origin =>
    @mem_references_iff store coherent upright single bare step identity origin
  have collections := fun origin =>
    @mem_collections_iff store coherent upright single step identity origin
  -- Behind the fields an identity is wanted with one origin only.
  have rest : ∀ one other,
      (identity, one) ∈ (StepMembership.nodesIn store step .reference).flatMap
        (referenceWants (localIn store step) step) ++
          (StepMembership.nodesIn store step .collection).flatMap (repeatedWants step) →
      (identity, other) ∈ (StepMembership.nodesIn store step .reference).flatMap
        (referenceWants (localIn store step) step) ++
          (StepMembership.nodesIn store step .collection).flatMap (repeatedWants step) →
      one = other := by
    intro one other
    rw [List.mem_append, List.mem_append, references, references, collections, collections]
    rintro (⟨-, rfl, -, -, noItem, -⟩ | ⟨node, _, -, -, rfl, rfl⟩)
      (⟨-, rfl, -, -, otherNoItem, -⟩ | ⟨again, _, -, -, same, rfl⟩)
    · rfl
    · exact absurd (congrArg PseudoKey.kind same) noItem
    · exact absurd rfl otherNoItem
    · have keys : itemKey node.id none = itemKey again.id none := congrArg PseudoKey.key same
      rw [(itemKey_eq_none keys).1]
  rw [wantedIn, wants, List.append_assoc, List.lookup_append, Option.or_eq_some_iff, fields,
    noFields, lookup_eq_some_iff_of_single rest, List.mem_append, references, collections]
  obtain ⟨kind, scope, key⟩ := identity
  constructor
  · rintro (⟨rfl, rfl | rfl, first, declares, rfl⟩ |
      ⟨undeclared, ⟨rfl, rfl, names, noAnswer, noItem, foreign⟩ |
        ⟨node, definition, closed, isCollection, same, rfl⟩⟩)
    · exact ⟨rfl, .submitted declares⟩
    · exact ⟨rfl, .answer declares⟩
    · refine ⟨rfl, ?_⟩
      cases kind with
      | post => exact .foreign .post (.inl rfl) names (undeclared rfl (.inl rfl))
      | answerRemote => exact .foreign .answerRemote (.inr rfl) names (foreign rfl)
      | query => exact .named .query (.inl rfl) names
      | params => exact .named .params (.inr (.inl rfl)) names
      | data => exact .named .data (.inr (.inr rfl)) names
      | answerLocal => exact absurd rfl noAnswer
      | item => exact absurd rfl noItem
    · cases same
      exact ⟨rfl, .item definition closed isCollection⟩
  · rintro ⟨rfl, needs⟩
    cases needs with
    | submitted declares => exact .inl ⟨rfl, .inl rfl, _, declares, rfl⟩
    | answer declares => exact .inl ⟨rfl, .inr rfl, _, declares, rfl⟩
    | foreign kind isForeign names undeclared =>
      refine .inr ⟨fun _ _ => undeclared, .inl ⟨rfl, rfl, names, ?_, ?_, fun _ => undeclared⟩⟩ <;>
        rcases isForeign with rfl | rfl <;> intro same <;> cases same
    | named kind isNamed names =>
      obtain ⟨noPost, noLocal, noRemote, noItem⟩ :
          kind ≠ .post ∧ kind ≠ .answerLocal ∧ kind ≠ .answerRemote ∧ kind ≠ .item := by
        rcases isNamed with rfl | rfl | rfl <;> decide
      exact .inr ⟨fun _ either => absurd either (not_or.2 ⟨noPost, noLocal⟩),
        .inl ⟨rfl, rfl, names, noLocal, noItem, fun remote => absurd remote noRemote⟩⟩
    | item definition closed isCollection =>
      refine .inr ⟨fun _ either => ?_, .inr ⟨_, definition, closed, isCollection, rfl, rfl⟩⟩
      rcases either with same | same <;> cases same

end

end Synthesis

/-- Nodes call for pseudo-nodes of steps that are there. -/
theorem NodeStore.Needs.scope_mem_steps {form : Form} (coherent : form.nodes.Coherent)
    {definition : Pseudo} (needs : form.nodes.Needs definition) :
    definition.scope ∈ form.steps := by
  have listed : ∀ {step node}, form.nodes.Closed step node → node.kind.pseudo? = none →
      step ∈ form.steps := by
    intro step node closed other
    obtain ⟨outer, found, isStep⟩ :=
      node?_of_owningStep? (NodeStore.node?_of_mem coherent closed.member) other closed.owned
    obtain ⟨member, rfl⟩ := (NodeStore.node?_eq_some_iff coherent).1 found
    exact Form.mem_steps.2 ⟨outer, member, isStep, rfl⟩
  have declared : ∀ {step code first}, form.nodes.DeclaresFirst step code first →
      step ∈ form.steps := by
    rintro step code first ⟨_, node, _, _, _, ⟨closed, field, isField, -⟩, -⟩
    exact listed closed (by rw [isField]; rfl)
  have named : ∀ {step space key}, form.nodes.Names step space key → step ∈ form.steps := by
    rintro step space key ⟨node, expression, _, closed, isReference, -⟩
    exact listed closed (by rw [isReference]; rfl)
  cases needs with
  | submitted declares => exact declared declares
  | answer declares => exact declared declares
  | foreign _ _ names _ => exact named names
  | named _ _ names => exact named names
  | item _ closed isCollection => exact listed closed (by rw [isCollection]; rfl)

/-- A form without pseudo-nodes has those that its nodes call for after all steps. -/
theorem Form.pseudo_furnished_iff {form : Form} (coherent : form.nodes.Coherent)
    (upright : Upright form.nodes)
    (bare : ∀ node ∈ form.nodes.nodes, node.kind.pseudo? = none)
    (single : ∀ node ∈ form.nodes.nodes, node.kind.isIteration = false) {definition : Pseudo} :
    (∃ node ∈ form.furnished.nodes, node.kind = .pseudo definition) ↔
      form.nodes.Needs definition := by
  have before : form.nodes.definition? definition.toPseudoKey = none :=
    (NodeStore.definition?_eq_none_iff coherent).2
      (NodeStore.pseudo?_eq_none_of_bare coherent bare _)
  have shown := @NodeStore.definition?_eq_some_iff form.furnished
    (furnished_coherent coherent) definition.toPseudoKey definition
  rw [and_iff_right rfl, definition?_furnished coherent, before, Option.none_or,
    Option.ite_none_right_eq_some, Option.map_eq_some_iff] at shown
  refine shown.symm.trans ⟨?_, fun needs => ?_⟩
  · rintro ⟨-, origin, first, same⟩
    have needs := ((Synthesis.lookup_wantedIn_iff coherent upright single bare).1 first).2
    rwa [same] at needs
  · exact ⟨needs.scope_mem_steps coherent, definition.origin,
      (Synthesis.lookup_wantedIn_iff coherent upright single bare).2 ⟨rfl, needs⟩, rfl⟩

namespace WiredForm

/-- **Wiring makes exactly the pseudo-nodes that are needed.** A form without pseudo-nodes and
iterations, in which no node contains itself and every parent is there, has the pseudo-nodes that
its nodes call for once it is wired, each once and for the node that it is needed for. As many are
reported, and they stand behind the nodes of the form, which are as they were. -/
theorem wire_exact {form : Form} {config : WiringConfig} {wired : WiredForm}
    (composed : form.Composed) (acyclic : Acyclic form.nodes)
    (contained : ∀ node ∈ form.nodes.nodes, ∀ parent, node.parent = some parent →
      form.nodes.contains parent = true)
    (bare : ∀ node ∈ form.nodes.nodes, node.kind.pseudo? = none)
    (single : ∀ node ∈ form.nodes.nodes, node.kind.isIteration = false)
    (wiring : wire form config = .ok wired) :
    (∀ definition, (∃ node ∈ wired.form.nodes.nodes, node.kind = .pseudo definition) ↔
      form.nodes.Needs definition) ∧
    (wired.form.nodes.nodes.filterMap Node.identity?).Nodup ∧
    wired.report.pseudoNodes = (wired.form.nodes.nodes.filterMap Node.identity?).length ∧
    ∃ made, wired.form.nodes.nodes = form.nodes.nodes ++ made ∧
      ∀ node ∈ made, node.kind.pseudo?.isSome = true := by
  have coherent := composed.spec.1
  have upright := NodeStore.upright_of_contained acyclic contained
  obtain ⟨scopes, -, -, rfl⟩ := (wire_eq_ok_iff coherent).1 wiring
  obtain ⟨made, appends, counted⟩ := form.furnished_appends
  have pseudos : ∀ node ∈ made, node.kind.pseudo?.isSome = true := by
    intro node member
    obtain ⟨definition, isPseudo, -⟩ := appends.pseudos node member
    rw [isPseudo]
    rfl
  refine ⟨fun definition => Form.pseudo_furnished_iff coherent upright bare single,
    (Form.furnished_coherent coherent).distinct, ?_, made, appends.nodes, pseudos⟩
  have first : form.nodes.nodes.filterMap Node.identity? = [] :=
    List.filterMap_eq_nil_iff.2 fun node member => by rw [Node.identity?, bare node member]; rfl
  have all : (made.filterMap Node.identity?).length = made.length := by
    rw [List.filterMap_length_eq_length]
    intro node member
    rw [Node.identity?, Option.isSome_map]
    exact pseudos node member
  change form.madeCount = (form.furnished.nodes.filterMap Node.identity?).length
  rw [appends.nodes, List.filterMap_append, first, List.nil_append, all, counted]

/-! A reference in front of the field that it names, two fields of one code, and a template. -/

namespace Invitation

def form : Form :=
  ⟨"guests", {
    nodes := [
      ⟨⟨0⟩, none, .journey "guests"⟩,
      ⟨⟨1⟩, some ⟨0⟩, .step "/names"⟩,
      ⟨⟨2⟩, some ⟨1⟩, .reference ⟨["answers", "name"]⟩⟩,
      ⟨⟨3⟩, some ⟨1⟩, .field ⟨"name", "text", [], none⟩⟩,
      ⟨⟨4⟩, some ⟨1⟩, .field ⟨"name", "text", [], none⟩⟩,
      ⟨⟨5⟩, some ⟨1⟩, .reference ⟨["answers", "mail"]⟩⟩,
      ⟨⟨6⟩, some ⟨1⟩, .collection ⟨"guest", none⟩⟩,
      ⟨⟨7⟩, some ⟨6⟩, .field ⟨"mail", "text", [], none⟩⟩,
      ⟨⟨8⟩, some ⟨6⟩, .reference ⟨["query", "page"]⟩⟩]
    containment := [(⟨0⟩, ⟨1⟩), (⟨1⟩, ⟨2⟩), (⟨1⟩, ⟨3⟩), (⟨1⟩, ⟨4⟩), (⟨1⟩, ⟨5⟩), (⟨1⟩, ⟨6⟩),
      (⟨6⟩, ⟨7⟩), (⟨6⟩, ⟨8⟩)]
    references := [⟨2⟩, ⟨5⟩, ⟨8⟩]
    identities := []
    nextId := 9 }⟩

theorem composed : form.Composed :=
  (Form.Composed.empty "guests").calls [.addJourney none "guests", .addStep ⟨0⟩ "/names",
    .addReference ⟨1⟩ ["answers", "name"], .addField ⟨1⟩ "name" "text",
    .addField ⟨1⟩ "name" "text", .addReference ⟨1⟩ ["answers", "mail"],
    .addCollection ⟨1⟩ "guest" none, .addField ⟨6⟩ "mail" "text",
    .addReference ⟨6⟩ ["query", "page"]]

theorem acyclic : Acyclic form.nodes :=
  NodeStore.acyclic_of_descends NodeId.val (by decide)

def wired : WiredForm := (wire form .default).toOption.getD default

/-- The answer of the template counts for nothing outside, and of two fields the first one does. -/
theorem needs_iff : (∀ definition, form.nodes.Needs definition ↔ definition ∈ ([
      ⟨⟨.post, ⟨1⟩, "name"⟩, some ⟨3⟩⟩, ⟨⟨.answerLocal, ⟨1⟩, "name"⟩, some ⟨3⟩⟩,
      ⟨⟨.answerRemote, ⟨1⟩, "mail"⟩, none⟩, ⟨⟨.item, ⟨1⟩, "6"⟩, some ⟨6⟩⟩] : List Pseudo)) ∧
    wired.report.pseudoNodes = 4 := by
  have exact := wire_exact composed acyclic (by decide) (by decide) (by decide)
    (rfl : wire form .default = .ok wired)
  refine ⟨fun definition => (exact.1 definition).symm.trans ?_, exact.2.2.1.trans rfl⟩
  have listed : wired.form.nodes.nodes.filterMap (fun node => node.kind.pseudo?) = [
      ⟨⟨.post, ⟨1⟩, "name"⟩, some ⟨3⟩⟩, ⟨⟨.answerLocal, ⟨1⟩, "name"⟩, some ⟨3⟩⟩,
      ⟨⟨.answerRemote, ⟨1⟩, "mail"⟩, none⟩, ⟨⟨.item, ⟨1⟩, "6"⟩, some ⟨6⟩⟩] := rfl
  rw [← listed, List.mem_filterMap]
  exact exists_congr fun node => and_congr_right fun _ => NodeKind.pseudo?_eq_some_iff.symm

end Invitation

end WiredForm

end FormFlow
