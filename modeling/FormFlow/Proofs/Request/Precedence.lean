import FormFlow.Proofs.Request.Reordering
import FormFlow.Proofs.Wiring.Ends
import Mathlib.Data.Nat.Find

/-!
# Which of two answers is read

A step may have two answers to one code: a remote one, which was made for a reference that found
no local answer, and a local one, which came when an iteration gave the code to a field. A closed
reference reads the local answer if that was there when the reference was made, and goes on to read
the remote one otherwise (`RequestScope.run_answer_precedence`): no call wires a reference again that
an earlier one, or the wiring of the form, has wired.

So the local answer wins among everything that is made with it or after it, and the remote answer
keeps the readers that it had.
-/

set_option autoImplicit false

namespace FormFlow

open NodeSource

theorem NodeKind.mem_followedIds_of_valueIds {kind : NodeKind} {id : NodeId}
    (member : id ∈ kind.valueIds) : id ∈ kind.followedIds := by
  cases kind with
  | collection definition => exact member
  | field definition => exact member
  | _ => cases member

/-- What is connected to a pseudo-node that it fills is the submitted value of its key if that is a
local answer, the load-transition that serves the step, or what a field or collection takes values
from. -/
theorem WiringContext.producer_cases {σ : Type} [NodeSource σ] {ctx : WiringContext σ} {id : NodeId}
    {definition : Pseudo} {c : Connection} (member : .ok c ∈ ctx.producers id definition) :
    (definition.kind = .answerLocal ∧ ctx.find? .post definition.key = some c.producer) ∨
      ctx.scopes.lastLoadFrom? ctx.step = some c.producer ∨
      ∃ owner node, node? ctx.nodes owner = some node ∧ c.producer ∈ node.kind.valueIds := by
  have loaded : ∀ family key, .ok c ∈ ctx.load family id key →
      ctx.scopes.lastLoadFrom? ctx.step = some c.producer := by
    intro family key inside
    rw [load] at inside
    split at inside
    · rename_i transition serves
      cases List.mem_singleton.1 inside
      exact serves
    · cases inside
  have formatted : ∀ code ids position, .ok c ∈ Answer.formatters ctx id code position ids →
      c.producer ∈ ids := by
    intro code ids
    induction ids with
    | nil => exact fun _ inside => absurd inside List.not_mem_nil
    | cons formatter rest ih =>
      intro position inside
      rcases List.mem_append.1 inside with first | later
      · cases List.mem_singleton.1 first
        exact List.mem_cons_self ..
      · exact List.mem_cons_of_mem _ (ih _ later)
  rw [producers] at member
  split at member
  · rename_i isLocal
    obtain ⟨field, origin, inside⟩ := Draft.ok_mem_after.1 member
    obtain ⟨owner, node, found, isField⟩ : ∃ owner node, node? ctx.nodes owner = some node ∧
        node.kind = .field field := by
      rw [Answer.originField] at origin
      split at origin
      · cases origin
      · rename_i owner _
        split at origin
        · cases origin
        · rename_i node found
          split at origin
          · rename_i other isField
            cases origin
            exact ⟨owner, node, found, NodeKind.field?_eq_some_iff.1 isField⟩
          · cases origin
    have links : node.kind.valueIds = field.formatters ++ field.defaultValue.toList := by
      rw [isField]
      rfl
    simp only [Answer.fieldProducers, List.mem_append] at inside
    rcases inside with ((submitted | formatter) | default) | transition
    · split at submitted
      · rename_i post posted
        cases List.mem_singleton.1 submitted
        exact .inl ⟨isLocal, posted⟩
      · cases submitted
    · exact .inr (.inr ⟨owner, node, found,
        links ▸ List.mem_append_left _ (formatted _ _ _ formatter)⟩)
    · split at default
      · rename_i expression declared
        cases List.mem_singleton.1 default
        exact .inr (.inr ⟨owner, node, found, links ▸ List.mem_append_right _ (by simp [declared])⟩)
      · cases default
    · exact .inr (.inl (loaded _ _ transition))
  · exact .inr (.inl (loaded _ _ member))
  · cases member
  · cases member
  · cases member
  · exact .inr (.inl (loaded _ _ member))
  · obtain ⟨⟨collection, index⟩, _, inside⟩ := Draft.ok_mem_after.1 member
    obtain ⟨definition, defined, supplied⟩ := Draft.ok_mem_after.1 inside
    split at supplied
    · rename_i source given
      cases List.mem_singleton.1 supplied
      obtain ⟨node, found, isCollection⟩ : ∃ node, node? ctx.nodes collection = some node ∧
          node.kind = .collection definition := by
        obtain ⟨node, got, same⟩ := Except.bind_eq_ok_iff.1 defined
        split at same
        · rename_i other isCollection
          cases same
          exact ⟨node, node?_of_get (Except.mapError_eq_ok_iff.1 got),
            NodeKind.collection?_eq_some_iff.1 isCollection⟩
        · cases same
      refine .inr (.inr ⟨collection, node, found, ?_⟩)
      rw [isCollection]
      simp [NodeKind.valueIds, given]
    · cases supplied

/-- A submitted value is filled by nothing. -/
theorem WiringContext.kind_of_producers {σ : Type} [NodeSource σ] {ctx : WiringContext σ}
    {id : NodeId} {definition : Pseudo} {c : Connection}
    (member : .ok c ∈ ctx.producers id definition) : definition.kind ≠ .post := by
  intro isPost
  rw [producers, isPost] at member
  cases member

/-- A remote answer is read by a closed reference with its code that found no local one. -/
theorem Pass.of_readOf?_eq_remote {σ τ : Type} [NodeSource σ] [NodeSource τ] {made : σ} {nodes : τ}
    {step scope : NodeId} {node : Node} {expression : Reference} {code : String}
    (reads : readOf? made nodes step node expression = some ⟨.answerRemote, scope, code⟩) :
    scope = step ∧ expression.lookupKey? .answers = some code ∧ inOpenTemplate nodes node = false ∧
      ¬HasPseudo made ⟨.answerLocal, step, code⟩ := by
  simp only [readOf?] at reads
  split at reads
  case h_1 => cases reads
  case h_2 => cases kind_of_itemOf? reads
  case h_3 =>
    split at reads
    · cases reads
    · cases kind_of_selfOf? reads
  case h_4 space _ _ selected =>
    split at reads
    · cases reads
    · rename_i closed
      obtain ⟨key, keyed, stands⟩ := Option.bind_eq_some_iff.1 reads
      cases space with
      | answers =>
        simp only [identityOf?] at stands
        split at stands
        · cases stands
        · rename_i absent
          cases stands
          exact ⟨rfl, keyed, Bool.eq_false_iff.2 closed,
            fun has => absent (Option.isSome_iff_exists.2 has)⟩
      | post | query | params | data | selfValue | item => cases stands

namespace RequestScope

/-! ## When a node was made -/

section

variable {wired : WiredForm}

/-- Whatever is there was made by one of the calls, or by the wiring of the form. -/
theorem exists_born {calls : List (NodeId × Nat)} {id : NodeId}
    (there : (run wired calls).layers.Has id) : ∃ birth, Born wired calls birth id := by
  classical
  have some : ∃ birth, (run wired (calls.take birth)).layers.Has id :=
    ⟨calls.length, by rwa [List.take_length]⟩
  refine ⟨Nat.find some, Nat.find_min' some (by rwa [List.take_length]), Nat.find_spec some, ?_⟩
  exact fun earlier before => Nat.find_min some before

variable (grounded : Grounded wired) (started : Settled (start wired))
include grounded started

/-- What fewer calls show is shown after more of them. -/
theorem take_shows (calls : List (NodeId × Nat)) {fewer more : Nat} (le : fewer ≤ more) :
    Shows (run wired (calls.take fewer)).layers (run wired (calls.take more)).layers := by
  have shown := run_shows grounded started (calls.take fewer) ((calls.take more).drop fewer)
  have whole : calls.take fewer ++ (calls.take more).drop fewer = calls.take more := by
    have cut := List.take_append_drop fewer (calls.take more)
    rwa [List.take_take, Nat.min_eq_left le] at cut
  rwa [whole] at shown

/-- A pseudo-node is seen from the call on that made it. -/
theorem hasPseudo_take_iff {calls : List (NodeId × Nat)} {identity : PseudoKey} {id : NodeId}
    (found : (run wired calls).layers.pseudo? identity = some id) {birth : Nat}
    (born : Born wired calls birth id) (count : Nat) :
    HasPseudo (run wired (calls.take count)).layers identity ↔ birth ≤ count := by
  have ground := grounded_run grounded
  have settled := settled_run grounded started
  have shown := run_shows grounded started (calls.take count) (calls.drop count)
  rw [List.take_append_drop] at shown
  constructor
  · rintro ⟨other, seen⟩
    cases (shown.pseudo _ _ seen).symm.trans found
    obtain ⟨node, there, _⟩ :=
      Layered.node?_of_pseudo? (ground _).coherent (settled _).anchored seen
    exact Nat.le_of_not_lt fun before => born.first count before ⟨node, there⟩
  · intro le
    obtain ⟨node, early⟩ := born.there
    have there := (take_shows grounded started calls le).node id node early
    obtain ⟨same, present, identified⟩ :=
      Layered.node?_of_pseudo? (ground calls).coherent (settled calls).anchored found
    cases (shown.node id node there).symm.trans present
    rw [layers_run_eq] at there ⊢
    rw [Layered.hasPseudo_iff]
    rcases Layered.node?_eq_some_iff.1 there with upper | ⟨_, lower⟩
    · exact .inr ⟨id, (NodeStore.pseudo?_eq_some_iff (settled _).anchored.coherent).2
        ⟨node, upper, identified⟩⟩
    · exact .inl ⟨id, (NodeStore.pseudo?_eq_some_iff grounded.coherent).2
        ⟨node, lower, identified⟩⟩

end

/-! ## Readers of an answer -/

/-- A closed reference of a step to the answer with a code. -/
def AsksAnswer (request : RequestScope) (step : NodeId) (code : String) (id : NodeId) : Prop :=
  ∃ node expression, request.layers.node? id = some node ∧ node.kind = .reference expression ∧
    expression.lookupKey? .answers = some code ∧ inOpenTemplate request.layers node = false ∧
    owningStep? request.layers id = some step

/-- A reference with one edge only, by which it reads an answer with a code. -/
def ReadsAnswer (request : RequestScope) (code : String) (answer id : NodeId) : Prop :=
  ∃ edge, request.edgesTo id = [edge] ∧ edge.producer = answer ∧ edge.role = .dataFlow ∧
    edge.metadata = ⟨some code, none, some .answers⟩

/-- A field or a collection names a node as its formatter, default value or source. -/
def Linked (request : RequestScope) (id : NodeId) : Prop :=
  ∃ owner node, request.layers.node? owner = some node ∧ id ∈ node.kind.followedIds

/-- A field or a collection takes values from a node: it is a formatter, a default value or a
source. -/
def IsValue (request : RequestScope) (id : NodeId) : Prop :=
  ∃ owner node, request.layers.node? owner = some node ∧ id ∈ node.kind.valueIds

/-- What may fill a pseudo-node: the submitted value of its key if that is a local answer, the
load-transition that serves its step, or what a field or a collection takes values from. -/
def Fills (request : RequestScope) (definition : Pseudo) (producer : NodeId) : Prop :=
  (definition.kind = .answerLocal ∧
      request.layers.pseudo? ⟨.post, definition.scope, definition.key⟩ = some producer) ∨
    request.wired.scopes.lastLoadFrom? definition.scope = some producer ∨ request.IsValue producer

/-- Where an edge leads: into a pseudo-node that it fills, or into a reference of a step. -/
inductive Enters (request : RequestScope) (edge : Edge) : Prop where
  | fills (node : Node) (definition : Pseudo)
      (found : request.layers.node? edge.consumer = some node)
      (isPseudo : node.kind = .pseudo definition) (produced : definition.kind ≠ .post)
      (filled : request.Fills definition edge.producer) (silent : edge.metadata.reference = none)
  | reads (node : Node) (expression : Reference) (step : NodeId)
      (found : request.layers.node? edge.consumer = some node)
      (isReference : node.kind = .reference expression)
      (owned : owningStep? request.layers edge.consumer = some step)

theorem Bound.readsAnswer {request : RequestScope} {id answer : NodeId} {expression : Reference}
    {identity : PseudoKey} (bound : request.Bound id expression (some identity))
    (selected : expression.selected? = some .answers)
    (found : request.layers.pseudo? identity = some answer) :
    request.ReadsAnswer identity.key answer id := by
  obtain ⟨edge, source, edges, known, _, _, role, metadata⟩ := bound
  refine ⟨edge, edges, Option.some.inj (known.symm.trans found), role, ?_⟩
  rw [metadata, selected]

section

variable {form : Form} {config : WiringConfig} {wired : WiredForm}
  (registered : WiredForm.Registered form config wired) (coherent : form.nodes.Coherent)
  (plain : form.Plain) (calls : List (NodeId × Nat)) {step : NodeId} {code : String}
include registered coherent plain

/-- A reference is bound to what it reads. An answer counts as local if it was there when the
reference was made. -/
theorem run_bound {id : NodeId} {node : Node} {expression : Reference}
    (found : (run wired calls).layers.node? id = some node)
    (isReference : node.kind = .reference expression)
    (owned : owningStep? (run wired calls).layers id = some step) :
    ∃ made, Born wired calls made id ∧ (run wired calls).Bound id expression
      (Pass.readOf? (run wired (calls.take made)).layers (run wired calls).layers step node
        expression) := by
  have grounded := grounded_of_registered registered coherent plain
  have started := settled_start registered coherent plain
  obtain ⟨made, born, connected⟩ := run_connected grounded started
    (fun _ _ _ _ => connected_start registered coherent plain) calls found isReference owned
  exact ⟨made, born, connected.bound (grounded_run grounded calls)
    (settled_run grounded started calls)⟩

/-- A closed reference reads the local answer if that is not younger, and the remote answer
otherwise. -/
theorem readsAnswer_of_asks {answer id : NodeId} {birth : Nat}
    (found : (run wired calls).layers.pseudo? ⟨.answerLocal, step, code⟩ = some answer)
    (born : Born wired calls birth answer) (asks : (run wired calls).AsksAnswer step code id) :
    ∃ made, Born wired calls made id ∧
      (birth ≤ made → (run wired calls).ReadsAnswer code answer id) ∧
      (made < birth → ∃ remote,
        (run wired calls).layers.pseudo? ⟨.answerRemote, step, code⟩ = some remote ∧
          (run wired calls).ReadsAnswer code remote id) := by
  have grounded := grounded_of_registered registered coherent plain
  have started := settled_start registered coherent plain
  obtain ⟨node, expression, there, isReference, key, closed, owned⟩ := asks
  obtain ⟨made, bornReference, bound⟩ :=
    run_bound registered coherent plain calls there isReference owned
  have selected := Reference.isIn_iff.1 (Reference.isIn_of_lookupKey? key)
  have reads : Pass.readOf? (run wired (calls.take made)).layers (run wired calls).layers step node
      expression = Pass.identityOf? (run wired (calls.take made)).layers step .answers code := by
    simp only [Pass.readOf?, selected, closed, key, Option.bind_some]
    rfl
  have seen := hasPseudo_take_iff grounded started found born made
  rw [reads, Pass.identityOf?] at bound
  refine ⟨made, bornReference, fun le => ?_, fun before => ?_⟩
  · rw [if_pos (Option.isSome_iff_exists.2 (seen.2 le))] at bound
    exact bound.readsAnswer selected found
  · rw [if_neg fun known => Nat.not_le_of_lt before
      (seen.1 (Option.isSome_iff_exists.1 known))] at bound
    have same := bound
    obtain ⟨edge, _, _, known, _⟩ := same
    exact ⟨edge.producer, known, bound.readsAnswer selected known⟩

/-- An edge of the form leads into a pseudo-node that it fills, or into a reference of a step. -/
theorem form_enters {edge : Edge} (member : edge ∈ wired.graph.edges) :
    (run wired calls).Enters edge := by
  have grounded := grounded_of_registered registered coherent plain
  have started := settled_start registered coherent plain
  have shown := shows_form grounded started calls
  obtain ⟨step, _, c, asked, same, carried⟩ := registered.exists_asked member
  obtain ⟨producer, consumer, _⟩ := Triple.mk.inj same
  have listed : ∀ role expression, c.consumer ∈ wired.membership.within step role →
      (WiredForm.Registered.context wired config step).expression? c.consumer = some expression →
      (run wired calls).Enters edge := by
    intro role expression member known
    obtain ⟨node, found, read⟩ := Option.bind_eq_some_iff.1 known
    obtain ⟨_, _, _, owned⟩ := (registered.mem_members_iff coherent
      (registered.unchanged coherent plain)).1 member
    rw [consumer] at found owned
    exact .reads node expression step (shown.node _ _ found) (NodeKind.reference?_eq_some_iff.1 read)
      ((shown.owningStep?_eq grounded.upright found).trans owned)
  cases WiringContext.asked_of_mem (registered.coherent coherent) asked with
  | fills id definition held filled =>
    obtain ⟨known, scope⟩ := held
    obtain ⟨node, found, read⟩ := Option.bind_eq_some_iff.1 known
    have leads : c.consumer = id := WiringContext.producers_into _ id definition c filled
    rw [← leads, consumer] at found
    refine .fills node definition (shown.node _ _ found) (NodeKind.pseudo?_eq_some_iff.1 read)
      (WiringContext.kind_of_producers filled) ?_
      (carried ▸ WiringContext.reference_of_producers filled)
    rw [Fills, wired_run, ← producer, scope]
    refine (WiringContext.producer_cases filled).imp (And.imp_right (shown.pseudo _ _))
      (Or.imp_right ?_)
    rintro ⟨owner, node, found, linked⟩
    exact ⟨owner, node, shown.node _ _ found, linked⟩
  | reads definition held found role metadata =>
    obtain ⟨expression, isOne, _⟩ := found.asks
    obtain ⟨inside, known, _⟩ := WiringContext.mem_selecting_iff.1 isOne
    exact listed _ expression inside known
  | placed space expression unkeyed inside known within =>
    exact (List.mem_append.1 inside).elim (listed _ expression · known) (listed _ expression · known)

/-- Every edge leads into a pseudo-node that it fills, or into a reference of a step. -/
theorem run_enters {edge : Edge} (member : edge ∈ (run wired calls).joined.edges) :
    (run wired calls).Enters edge := by
  have grounded := grounded_of_registered registered coherent plain
  have started := settled_start registered coherent plain
  have settled := settled_run grounded started calls
  rcases List.mem_append.1 member with lower | upper
  · rw [wired_run] at lower
    exact form_enters registered coherent plain calls lower
  have found := DependencyGraph.metadata?_of_mem settled.distinct upper
  obtain ⟨node, own, named⟩ := List.mem_map.1
    (((reachable_run wired calls).stacked grounded.coherent).2.consumers edge upper)
  have seen := run_node?_of_mem grounded started calls own
  cases isPseudo : node.kind.pseudo? with
  | some definition =>
    rw [run_fills registered coherent plain calls own (NodeKind.pseudo?_eq_some_iff.1 isPseudo)
      (show edge.triple.consumer = node.id from named.symm)] at found
    obtain ⟨c, filled, same, carried⟩ := Draft.exists_of_offer? found
    have producer : c.producer = edge.producer := congrArg Triple.producer same
    exact .fills node definition (named ▸ seen) (NodeKind.pseudo?_eq_some_iff.1 isPseudo)
      (WiringContext.kind_of_producers filled) (producer ▸ WiringContext.producer_cases filled)
      (carried ▸ WiringContext.reference_of_producers filled)
  | none =>
    cases isReference : node.kind.reference? with
    | none =>
      rw [run_metadata?_eq_none grounded started calls own isPseudo isReference
        (show edge.triple.consumer = node.id from named.symm)] at found
      cases found
    | some expression =>
      rcases run_node_cases grounded started calls seen isPseudo with lower | ⟨record, known, inside⟩
      · have low := NodeStore.id_lt_nextId grounded.coherent lower
        have high := settled.anchored.high node own
        rw [wired_run] at high
        omega
      · rw [named] at seen inside
        exact .reads node expression record.step seen (NodeKind.reference?_eq_some_iff.1 isReference)
          (run_owned grounded started known inside)

/-- Whatever is connected to a remote answer reads it, or the form links to its number by
mistake. -/
theorem consumer_of_remote {remote : NodeId}
    (found : (run wired calls).layers.pseudo? ⟨.answerRemote, step, code⟩ = some remote) {edge : Edge}
    (member : edge ∈ (run wired calls).edgesFrom remote) :
    ((run wired calls).AsksAnswer step code edge.consumer ∧
      ∃ made, Born wired calls made edge.consumer ∧
        ¬HasPseudo (run wired (calls.take made)).layers ⟨.answerLocal, step, code⟩) ∨
      (form.nodes.contains remote = false ∧ (run wired calls).Linked remote) := by
  have grounded := grounded_of_registered registered coherent plain
  have started := settled_start registered coherent plain
  obtain ⟨source, present, identified⟩ := Layered.node?_of_pseudo?
    (grounded_run grounded calls).coherent (settled_run grounded started calls).anchored found
  have made : form.nodes.contains remote = false := by
    refine Bool.eq_false_iff.2 fun contained => ?_
    obtain ⟨node, known⟩ := Option.isSome_iff_exists.1 contained
    have lower := (registered.grows coherent).node?_of_found known
    cases ((shows_form grounded started calls).node _ _ lower).symm.trans present
    rw [Node.identity?, plain.pseudos source (List.mem_of_find?_eq_some known)] at identified
    cases identified
  obtain ⟨inside, leaves⟩ : edge ∈ (run wired calls).joined.edges ∧ edge.producer = remote := by
    rw [edgesFrom, DependencyGraph.edgesFrom, DependencyGraph.edgesFrom, ← List.filter_append]
      at member
    obtain ⟨inside, leaves⟩ := List.mem_filter.1 member
    exact ⟨inside, of_decide_eq_true leaves⟩
  cases run_enters registered coherent plain calls inside with
  | fills _ definition _ _ _ filled _ =>
    rw [leaves, Fills, wired_run] at filled
    rcases filled with ⟨_, submitted⟩ | transition | ⟨owner, holder, present, linked⟩
    · cases run_pseudo?_inj grounded started calls submitted found
    · obtain ⟨load, known, named⟩ := List.mem_map.1
        (ScopeTree.mem_of_lastLoadFrom? registered.scopes transition)
      rw [NodeStore.contains, ← named, NodeStore.node?_of_mem coherent known] at made
      cases made
    · exact .inr ⟨made, owner, holder, present, NodeKind.mem_followedIds_of_valueIds linked⟩
  | reads node expression other there isReference owned =>
    left
    obtain ⟨birth, born, bound⟩ :=
      run_bound registered coherent plain calls there isReference owned
    have into : edge ∈ (run wired calls).edgesTo edge.consumer := by
      rw [← edgesTo_joined]
      exact List.mem_filter.2 ⟨inside, decide_eq_true rfl⟩
    cases reads : Pass.readOf? (run wired (calls.take birth)).layers (run wired calls).layers other
        node expression with
    | none =>
      rw [reads, Bound] at bound
      rw [bound] at into
      cases into
    | some identity =>
      rw [reads] at bound
      obtain ⟨only, _, edges, known, _⟩ := bound
      rw [edges] at into
      cases List.mem_singleton.1 into
      rw [leaves] at known
      cases run_pseudo?_inj grounded started calls known found
      obtain ⟨rfl, key, closed, absent⟩ := Pass.of_readOf?_eq_remote reads
      exact ⟨⟨node, expression, there, isReference, key, closed, owned⟩, birth, born, absent⟩

end

/-- **A local answer is read by every closed reference with its code that was made with it or after
it.** The references that were made before it go on to read the remote answer to the code, and they
are all that reads that one. (Besides, the form may name the number of the remote answer, without
having such a node, as a formatter, a default value or a source.) -/
theorem run_answer_precedence {form : Form} {config : WiringConfig} {wired : WiredForm}
    (built : form.Built) (plain : form.Plain) (wiring : WiredForm.wire form config = .ok wired)
    (calls : List (NodeId × Nat)) {step answer : NodeId} {code : String}
    (found : (run wired calls).layers.pseudo? ⟨.answerLocal, step, code⟩ = some answer) :
    ∃ birth, Born wired calls birth answer ∧
      (∀ id, (run wired calls).AsksAnswer step code id → ∃ made, Born wired calls made id ∧
        (birth ≤ made → (run wired calls).ReadsAnswer code answer id) ∧
        (made < birth → ∃ remote,
          (run wired calls).layers.pseudo? ⟨.answerRemote, step, code⟩ = some remote ∧
            (run wired calls).ReadsAnswer code remote id)) ∧
      ∀ remote, (run wired calls).layers.pseudo? ⟨.answerRemote, step, code⟩ = some remote →
        ∀ edge ∈ (run wired calls).edgesFrom remote,
          ((run wired calls).AsksAnswer step code edge.consumer ∧
            ∃ made < birth, Born wired calls made edge.consumer) ∨
          (form.nodes.contains remote = false ∧ (run wired calls).Linked remote) := by
  have registered := WiredForm.wire_spec wiring
  have coherent := built.coherent
  have grounded := grounded_of_registered registered coherent plain
  have started := settled_start registered coherent plain
  obtain ⟨node, there, _⟩ := Layered.node?_of_pseudo? (grounded_run grounded calls).coherent
    (settled_run grounded started calls).anchored found
  obtain ⟨birth, born⟩ := exists_born ⟨node, there⟩
  refine ⟨birth, born, fun id asks => readsAnswer_of_asks registered coherent plain calls found born
    asks, fun remote known edge member => ?_⟩
  refine (consumer_of_remote registered coherent plain calls known member).imp_left ?_
  rintro ⟨asks, made, bornConsumer, absent⟩
  refine ⟨asks, made, Nat.lt_of_not_le fun le => ?_, bornConsumer⟩
  exact absent ((hasPseudo_take_iff grounded started found born made).2 le)

/-! ### A reference that is older than the answer -/

namespace Rooms

/-- The reference in the step is made before the first room, the one in the room with it. -/
def form : Form :=
  ⟨"hotel", {
    nodes := [
      ⟨⟨0⟩, none, .journey "hotel"⟩,
      ⟨⟨1⟩, some ⟨0⟩, .step "/rooms"⟩,
      ⟨⟨2⟩, some ⟨1⟩, .collection ⟨"room", none⟩⟩,
      ⟨⟨3⟩, some ⟨2⟩, .field ⟨"name", "text", [], none⟩⟩,
      ⟨⟨4⟩, some ⟨2⟩, .reference ⟨["answers", "name"]⟩⟩,
      ⟨⟨5⟩, some ⟨1⟩, .reference ⟨["answers", "room_0_name"]⟩⟩]
    containment := [(⟨0⟩, ⟨1⟩), (⟨1⟩, ⟨2⟩), (⟨2⟩, ⟨3⟩), (⟨2⟩, ⟨4⟩), (⟨1⟩, ⟨5⟩)]
    references := [⟨4⟩, ⟨5⟩]
    identities := []
    nextId := 6 }⟩

theorem built : form.Built := by
  have journey := Form.Built.addJourney (.empty "hotel")
    (rfl : Form.addJourney _ none "hotel" = .ok (_, ⟨0⟩))
  have step := journey.addStep (rfl : Form.addStep _ ⟨0⟩ "/rooms" = .ok (_, ⟨1⟩))
  have collection := step.addCollection
    (rfl : Form.addCollection _ ⟨1⟩ "room" none = .ok (_, ⟨2⟩))
  have field := collection.addField (rfl : Form.addField _ ⟨2⟩ "name" "text" = .ok (_, ⟨3⟩))
  have inner := field.addReference
    (rfl : Form.addReference _ ⟨2⟩ ["answers", "name"] = .ok (_, ⟨4⟩))
  exact inner.addReference
    (rfl : Form.addReference _ ⟨1⟩ ["answers", "room_0_name"] = .ok (_, ⟨5⟩))

theorem plain : form.Plain :=
  .ofNodes NodeId.val (by decide) (by decide) (by decide) (by decide) (by decide)

def wired : WiredForm := (WiredForm.wire form .default).toOption.getD default

theorem wiring : WiredForm.wire form .default = .ok wired := rfl

/-- One call, for the first room. -/
def calls : List (NodeId × Nat) := [(⟨2⟩, 0)]

theorem asks_step : (run wired calls).AsksAnswer ⟨1⟩ "room_0_name" ⟨5⟩ :=
  ⟨_, _, rfl, rfl, rfl, rfl, rfl⟩

theorem asks_copy : (run wired calls).AsksAnswer ⟨1⟩ "room_0_name" ⟨10⟩ :=
  ⟨_, _, rfl, rfl, rfl, rfl, rfl⟩

/-- The copy in the room reads the answer of the room, the reference in the step the remote one. -/
theorem copy_reads_local :
    (run wired calls).layers.pseudo? ⟨.answerLocal, ⟨1⟩, "room_0_name"⟩ = some ⟨12⟩ ∧
      (run wired calls).ReadsAnswer "room_0_name" ⟨12⟩ ⟨10⟩ ∧
      ∃ remote, (run wired calls).layers.pseudo? ⟨.answerRemote, ⟨1⟩, "room_0_name"⟩ = some remote ∧
        (run wired calls).ReadsAnswer "room_0_name" remote ⟨5⟩ := by
  obtain ⟨birth, born, reads, -⟩ := run_answer_precedence built plain wiring calls
    (rfl : (run wired calls).layers.pseudo? ⟨.answerLocal, ⟨1⟩, "room_0_name"⟩ = some ⟨12⟩)
  have unmade : ∀ id : NodeId, 8 ≤ id.val → ∀ count, Born wired calls count id → count = 1 := by
    intro id high count made
    rcases Nat.eq_zero_or_pos count with rfl | positive
    · obtain ⟨node, there⟩ := made.there
      have low := NodeStore.id_lt_nextId
        ((WiredForm.wire_spec wiring).coherent built.coherent)
        ((node?_start id).symm.trans there)
      exact absurd low (Nat.not_lt_of_le high)
    · exact Nat.le_antisymm made.within positive
  obtain rfl := unmade ⟨12⟩ (by decide) birth born
  obtain ⟨made, bornCopy, nearer, -⟩ := reads ⟨10⟩ asks_copy
  obtain rfl := unmade ⟨10⟩ (by decide) made bornCopy
  obtain ⟨earlier, bornStep, -, older⟩ := reads ⟨5⟩ asks_step
  refine ⟨rfl, nearer (Nat.le_refl _), older (Nat.lt_of_not_le fun le => ?_)⟩
  exact bornStep.first 0 le ⟨_, rfl⟩

/-- **An older reference does not change over to the local answer**, and the remote answer keeps its
reader. -/
theorem older_reads_remote :
    (form.Built ∧ form.Plain ∧ WiredForm.wire form .default = .ok wired ∧ Succeeds wired calls) ∧
      (run wired calls).layers.pseudo? ⟨.answerLocal, ⟨1⟩, "room_0_name"⟩ = some ⟨12⟩ ∧
      (run wired calls).AsksAnswer ⟨1⟩ "room_0_name" ⟨5⟩ ∧
      (∀ edge ∈ (run wired calls).edgesTo ⟨5⟩, edge.producer ≠ ⟨12⟩) ∧
      (run wired calls).layers.pseudo? ⟨.answerRemote, ⟨1⟩, "room_0_name"⟩ = some ⟨6⟩ ∧
      ∃ edge ∈ (run wired calls).edgesFrom ⟨6⟩, edge.consumer = ⟨5⟩ := by
  refine ⟨⟨built, plain, wiring, succeeds_nil.concat (⟨2⟩, 0) rfl⟩, rfl, asks_step, ?_, rfl, ?_⟩
  · decide
  · decide

end Rooms

end RequestScope

end FormFlow
