import FormFlow.Proofs.Request.Identities

/-!
# Wiring in another order

The edges into a node are told from the request as it stands (`RequestScope.run_fills`,
`RequestScope.run_reads`), and what stands there is the same in both orders of some calls, under new
identifiers. So a pseudo-node that both requests have is filled in the same way
(`RequestScope.Rearranged.producers_counterpart`).

A reference may read the remote answer to a code in one order and the local one in the other, if it
was made before the code was given to a field in one of them only
(`RequestScope.Rearranged.reads_counterpart`). Otherwise it reads the same in both, and an edge into
it is there in both (`RequestScope.Rearranged.metadata?_counterpart`).
-/

set_option autoImplicit false

namespace FormFlow

open NodeSource

/-- Of related lists the first elements that pass related tests are related. -/
theorem forall₂_find? {α β : Type} {R : α → β → Prop} {nodes : List α} {others : List β}
    (related : List.Forall₂ R nodes others) (test : α → Bool) (check : β → Bool)
    (same : ∀ node other, R node other → check other = test node) :
    Option.Rel R (nodes.find? test) (others.find? check) := by
  induction related with
  | nil => exact .none
  | cons first _ ih =>
    rw [List.find?_cons, List.find?_cons, same _ _ first]
    split
    · exact .some first
    · exact ih

namespace RequestScope

/-- What stands in an iteration belongs to its step. -/
theorem run_owned {wired : WiredForm} (grounded : Grounded wired) (started : Settled (start wired))
    {calls : List (NodeId × Nat)} {record : Iteration}
    (member : record ∈ (run wired calls).iterations) {id : NodeId} (inside : id ∈ batch record) :
    owningStep? (run wired calls).layers id = some record.step := by
  obtain ⟨before, after, template, complete, state, turn⟩ := exists_turn grounded started member
  have ground := grounded_run grounded before
  have settled := settled_run grounded started before
  obtain ⟨node, new, rfl, found⟩ := turn.turn.exists_node inside
  have shown := (turn.turn.shows_complete ground settled).trans (turn.shown grounded started)
  rw [shown.owningStep?_eq (turn.turn.upright_complete ground settled) found,
    turn.turn.recorded.step]
  exact turn.turn.made.owned ground.coherent settled.anchored settled.placed ground.upright new

/-- Two answers to a code that an iteration gave to a field, a remote one and a local one. -/
def Rivals (request : RequestScope) (identity other : PseudoKey) : Prop :=
  ∃ step code, request.Claims step code ∧
    (identity = ⟨.answerRemote, step, code⟩ ∧ other = ⟨.answerLocal, step, code⟩ ∨
      identity = ⟨.answerLocal, step, code⟩ ∧ other = ⟨.answerRemote, step, code⟩)

/-- An answer of one request and its rival in another one. -/
def Swapped (one other : RequestScope) (id rival : NodeId) : Prop :=
  ∃ identity image, one.Rivals identity image ∧ one.layers.pseudo? identity = some id ∧
    other.layers.pseudo? image = some rival

/-- A connection of one request is in another one too, under new identifiers from which the producer
is told again, or there the rival of the producer has it. -/
def Endures (one other : RequestScope) (triple : Triple) (metadata : EdgeMetadata) : Prop :=
  (counterpart other one (counterpart one other triple.producer) = triple.producer ∧
    ∃ image, metadata.Renumbered (counterpart one other) image ∧
      other.overlay.graph.metadata? ⟨counterpart one other triple.producer,
        counterpart one other triple.consumer, triple.role⟩ = some image) ∨
  metadata.reference ≠ some .item ∧ ∃ rival, Swapped one other triple.producer rival ∧
    other.overlay.graph.metadata? ⟨rival, counterpart one other triple.consumer, triple.role⟩ =
      some metadata

namespace Rearranged

variable {form : Form} {config : WiringConfig} {wired : WiredForm}
  {calls reordered : List (NodeId × Nat)}
  (rearranged : Rearranged form config wired calls reordered)
include rearranged

/-! ## Edges into pseudo-nodes -/

/-- **A local answer is made for the same field in both orders.** -/
theorem origin_counterpart {node : Node} (member : node ∈ (run wired calls).overlay.nodes.nodes)
    {definition : Pseudo} (isPseudo : node.kind = .pseudo definition)
    (isLocal : definition.kind = .answerLocal) {image : Node}
    (inside : image ∈ (run wired reordered).overlay.nodes.nodes) {other : Pseudo}
    (isImage : image.kind = .pseudo other) (same : other.toPseudoKey = definition.toPseudoKey) :
    other.origin =
      definition.origin.map (counterpart (run wired calls) (run wired reordered)) := by
  have grounded := rearranged.grounded
  have started := rearranged.started
  obtain ⟨_, record, known, local₁, _, wanted⟩ := run_wanted grounded started member isPseudo
  obtain ⟨_, reached, there, local₂, _, again⟩ := run_wanted grounded started inside isImage
  rw [same] at again
  obtain ⟨⟨kind, step, code⟩, origin⟩ := definition
  obtain rfl : kind = .answerLocal := isLocal
  -- The code is one that the iteration gave to a field, so the other one is its twin.
  have scope : ∀ {layers isLocal record origin}, (wantedBy layers isLocal record).lookup
      ⟨.answerLocal, step, code⟩ = some origin → step = record.step ∧
        (∃ node ∈ readyNodes layers record NodeKind.isField, ∃ field, node.kind = .field field ∧
          field.code = code) := by
    intro layers isLocal record origin found
    obtain ⟨first, last, split, _⟩ := List.lookup_eq_some_iff.1 found
    have listed : (⟨.answerLocal, step, code⟩, origin) ∈ wantedBy layers isLocal record := by
      simp [split]
    obtain ⟨node, ready, field, isField, coded, _⟩ := exists_field_of_wantedBy listed
    exact ⟨Synthesis.scope_of_wants listed, node, ready, field, isField, coded⟩
  obtain ⟨within, claimed⟩ := scope wanted
  obtain ⟨inStep, declared⟩ := scope again
  obtain ⟨twin, template, first, second, twins⟩ := rearranged.exists_twins known
  obtain ⟨isKnown, _, index⟩ := twins.image_known
  have named : code ∈ twin.renamed.map Prod.snd := by
    rw [twins.again.renamed, index, ← twins.made.renamed]
    exact (run_codes grounded started known code).2 claimed
  obtain rfl : reached = twin := run_claimed grounded started there isKnown
    (by rw [← inStep, within, twins.made.step, twins.again.step])
    ((run_codes grounded started there code).2 declared) named
  -- Both are made for the first field with the code.
  have fields : List.Forall₂ _ (readyNodes (run wired calls).layers record NodeKind.isField) _ :=
    rearranged.forall₂_ready twins fun _ _ same => same.isField_eq
  have related := forall₂_find? fields
    (fun node => node.kind.field?.map Field.code = some code)
    (fun node => node.kind.field?.map Field.code = some code) fun one two same => by
      have kind := same.kind
      generalize one.kind = first at kind
      generalize two.kind = second at kind
      cases kind <;> rfl
  rw [wantedBy, within, Synthesis.lookup_wants_answer] at wanted
  rw [wantedBy, inStep, Synthesis.lookup_wants_answer] at again
  generalize List.find? _ _ = one at related wanted
  generalize List.find? _ _ = two at related again
  cases related with
  | none => cases wanted
  | some renumbered =>
    obtain rfl := Option.some.inj wanted
    exact (Option.some.inj again).symm.trans (congrArg some renumbered.id)

/-- **A pseudo-node that both requests have is filled by the counterparts of what fills it.** -/
theorem producers_counterpart {node : Node} (member : node ∈ (run wired calls).overlay.nodes.nodes)
    {definition : Pseudo} (isPseudo : node.kind = .pseudo definition)
    (shared : ¬OnlyIn (run wired calls) (run wired reordered) node.id) :
    ∃ image ∈ (run wired reordered).overlay.nodes.nodes, ∃ other,
      image.id = counterpart (run wired calls) (run wired reordered) node.id ∧
      image.kind = .pseudo other ∧
      definition.toPseudoKey.Renumbered (counterpart (run wired calls) (run wired reordered))
        other.toPseudoKey ∧
      ((run wired reordered).context other.scope).producers image.id other =
        (((run wired calls).context definition.scope).producers node.id definition).renumber
          (counterpart (run wired calls) (run wired reordered)) := by
  have grounded := rearranged.grounded
  have started := rearranged.started
  obtain ⟨identity, renumbered, there⟩ := rearranged.exists_counterpart member isPseudo shared
  obtain ⟨image, inside, named⟩ := List.mem_map.1
    (rearranged.counterpart_spec (List.mem_map_of_mem member) shared).1
  rw [← named] at there
  obtain ⟨other, isImage, rfl⟩ : ∃ other, image.kind = .pseudo other ∧
      other.toPseudoKey = identity := by
    have found := run_node?_of_mem grounded started reordered inside
    obtain ⟨same, present, identified⟩ := Layered.node?_of_pseudo?
      (grounded_run grounded reordered).coherent rearranged.symm.settled.anchored there
    cases found.symm.trans present
    obtain ⟨other, isImage, same⟩ := Option.map_eq_some_iff.1 identified
    exact ⟨other, NodeKind.pseudo?_eq_some_iff.1 isImage, same⟩
  refine ⟨image, inside, other, named, isImage, renumbered, ?_⟩
  have scope : other.scope = definition.scope := renumbered.scope
  rw [named, scope]
  refine @WiringContext.producers_renumbered _ _ ((run wired calls).context definition.scope)
    ((run wired reordered).context definition.scope) _ ?_ rfl ?_ node.id _ _
    rearranged.renumbering _ _ renumbered rfl
    (run_fillable grounded started calls member isPseudo)
    (run_fillable grounded started reordered inside isImage) rearranged.settled.placed
    rearranged.symm.settled.placed ?_ ?_
  · simp only [context, wired_run]
  · intro transition serves
    simp only [context, wired_run] at serves
    obtain ⟨load, known, rfl⟩ := List.mem_map.1
      (ScopeTree.mem_of_lastLoadFrom? rearranged.registered.scopes serves)
    exact rearranged.counterpart_low (rearranged.low_of_mem known)
  · intro isLocal
    exact rearranged.origin_counterpart member isPseudo isLocal inside isImage
      (renumbered.eq_of_keyed (by rw [isLocal]; decide))
  · intro submitted posted
    refine rearranged.pseudo?_counterpart posted ?_ (.ofKeyed fun isItem => by cases isItem)
    rintro ⟨step, code, remote, _⟩
    cases run_pseudo?_inj grounded started calls posted remote

/-- An edge into a pseudo-node is there in the other order. -/
theorem metadata?_pseudo {node : Node} (member : node ∈ (run wired calls).overlay.nodes.nodes)
    {definition : Pseudo} (isPseudo : node.kind = .pseudo definition)
    (shared : ¬OnlyIn (run wired calls) (run wired reordered) node.id) {triple : Triple}
    {metadata : EdgeMetadata} (into : triple.consumer = node.id)
    (found : (run wired calls).overlay.graph.metadata? triple = some metadata) :
    counterpart (run wired reordered) (run wired calls)
        (counterpart (run wired calls) (run wired reordered) triple.producer) = triple.producer ∧
      metadata.reference = none ∧ (run wired reordered).overlay.graph.metadata?
        ⟨counterpart (run wired calls) (run wired reordered) triple.producer,
          counterpart (run wired calls) (run wired reordered) triple.consumer, triple.role⟩ =
        some metadata := by
  obtain ⟨image, inside, other, named, isImage, _, filled⟩ :=
    rearranged.producers_counterpart member isPseudo shared
  obtain ⟨_, sharedToo, returns⟩ :=
    rearranged.counterpart_spec (List.mem_map_of_mem member) shared
  obtain ⟨again, present, known, same, isNode, _, refilled⟩ :=
    rearranged.symm.producers_counterpart inside isImage (named ▸ sharedToo)
  -- Under the old numbers the pseudo-node is the one that it was.
  rw [named, returns] at same
  obtain rfl : again = node := List.inj_on_of_nodup_map rearranged.anchored.coherent.nodup
    present member same
  cases isPseudo.symm.trans isNode
  rw [filled] at refilled
  have restored := fun c => Draft.restored (c := c) refilled.symm
  rw [run_fills rearranged.registered rearranged.coherent rearranged.plain calls member isPseudo
    into] at found
  obtain ⟨c, asked, rfl, rfl⟩ := Draft.exists_of_offer? found
  refine ⟨restored c asked, WiringContext.reference_of_producers asked, ?_⟩
  rw [run_fills rearranged.registered rearranged.coherent rearranged.plain reordered inside isImage
    (by rw [into, named]), filled]
  refine (Draft.offer?_renumber ?_ fun d other same => ?_).trans found
  · rw [into]
    exact WiringContext.producers_into _ _ _
  · rw [← restored d other, same]
    exact restored c asked

/-! ## Edges into references -/

/-- A copy stands in the batch of an iteration. -/
theorem exists_batch {node : Node} (member : node ∈ (run wired calls).overlay.nodes.nodes)
    (plain : node.kind.pseudo? = none) :
    ∃ record ∈ (run wired calls).iterations, node.id ∈ batch record := by
  have found := run_node?_of_mem rearranged.grounded rearranged.started calls member
  refine (run_node_cases rearranged.grounded rearranged.started calls found plain).resolve_left ?_
  intro lower
  exact absurd (NodeStore.id_lt_nextId rearranged.grounded.coherent lower)
    (Nat.not_lt.2 (rearranged.anchored.high node member))

/-- A copy is made in the other order too. -/
theorem exists_image {node : Node} (member : node ∈ (run wired calls).overlay.nodes.nodes)
    (plain : node.kind.pseudo? = none) :
    ∃ image ∈ (run wired reordered).overlay.nodes.nodes,
      node.Renumbered (counterpart (run wired calls) (run wired reordered)) image := by
  have grounded := rearranged.grounded
  have started := rearranged.started
  obtain ⟨record, known, inside⟩ := rearranged.exists_batch member plain
  obtain ⟨twin, template, first, second, twins⟩ := rearranged.exists_twins known
  obtain ⟨image, present, renumbered⟩ := rearranged.renumbering.node _ _
    (run_node?_of_mem grounded started calls member) plain
  have there : counterpart (run wired calls) (run wired reordered) node.id ∈ batch twin := by
    rw [← rearranged.map_counterpart twins]
    exact List.mem_map_of_mem inside
  obtain ⟨copy, stored, same⟩ := List.mem_map.1 ((run_batches grounded started reordered).subset
    (List.mem_flatMap.2 ⟨twin, twins.image_known.1, there⟩))
  have seen := run_node?_of_mem grounded started reordered stored
  rw [same] at seen
  cases present.symm.trans seen
  exact ⟨image, stored, renumbered⟩

/-- If the same would be read now in both orders, then the same was read, or the remote answer to a
code in one order and the local one in the other. -/
theorem renumbered_or_rivals {place : NodeId → NodeId} {step : NodeId}
    {now later identity? other? : Option PseudoKey}
    (same : Option.Rel (PseudoKey.Renumbered place) now later)
    (reads : identity? = now ∨ ∃ code, identity? = some ⟨.answerRemote, step, code⟩ ∧
      now = some ⟨.answerLocal, step, code⟩ ∧ (run wired calls).Claims step code)
    (readsThere : other? = later ∨ ∃ code, other? = some ⟨.answerRemote, step, code⟩ ∧
      later = some ⟨.answerLocal, step, code⟩ ∧ (run wired reordered).Claims step code) :
    Option.Rel (fun identity other => identity.Renumbered place other ∨
      (run wired calls).Rivals identity other) identity? other? := by
  rcases reads with rfl | ⟨code, rfl, rfl, claimed⟩ <;>
    rcases readsThere with rfl | ⟨codeThere, rfl, rfl, claimedThere⟩ <;> cases same
  case inl.inl.none => exact .none
  case inl.inl.some moved => exact .some (.inl moved)
  case inl.inr.some moved =>
    cases moved.eq_of_keyed (by rw [← moved.kind]; exact nofun)
    exact .some (.inr ⟨_, _, rearranged.symm.claims claimedThere, .inr ⟨rfl, rfl⟩⟩)
  case inr.inl.some moved =>
    cases moved.eq_of_keyed nofun
    exact .some (.inr ⟨_, _, claimed, .inl ⟨rfl, rfl⟩⟩)
  case inr.inr.some moved =>
    -- Both read the remote answer to the code of which both would now read the local one.
    cases moved.eq_of_keyed nofun
    exact .some (.inl (.ofKeyed nofun))

/-- What a reference reads is renumbered, or it reads the remote answer to a code in one order and
the local one in the other. -/
theorem reads_counterpart {node : Node} (member : node ∈ (run wired calls).overlay.nodes.nodes)
    {expression : Reference} (isReference : node.kind = .reference expression) :
    ∃ identity? other?,
      Option.Rel (fun identity other => identity.Renumbered
          (counterpart (run wired calls) (run wired reordered)) other ∨
        (run wired calls).Rivals identity other) identity? other? ∧
      (∀ identity, identity? = some identity →
        (identity.kind = .item ↔ expression.selected? = some .item)) ∧
      Reads (run wired calls) node.id expression identity? ∧
      Reads (run wired reordered) (counterpart (run wired calls) (run wired reordered) node.id)
        expression other? := by
  have grounded := rearranged.grounded
  have started := rearranged.started
  have plain : node.kind.pseudo? = none := by
    rw [isReference]
    rfl
  obtain ⟨record, known, inside⟩ := rearranged.exists_batch member plain
  obtain ⟨image, stored, renumbered⟩ := rearranged.exists_image member plain
  have shape : image.kind = .reference expression := by
    refine NodeKind.reference?_eq_some_iff.1 (renumbered.kind.reference?_eq.trans ?_)
    rw [isReference]
    rfl
  have owned := run_owned grounded started known inside
  have ownedThere : owningStep? (run wired reordered).layers image.id = some record.step := by
    obtain ⟨twin, _, _, _, twins⟩ := rearranged.exists_twins known
    have there := List.mem_map_of_mem
      (f := counterpart (run wired calls) (run wired reordered)) inside
    rw [rearranged.map_counterpart twins] at there
    rw [renumbered.id, run_owned grounded started twins.image_known.1 there, twins.again.step,
      ← twins.made.step]
  -- What would be read now is the same in both orders, under the new numbers.
  have now := Pass.readOf?_renumbered rearranged.renumbering rearranged.settled.placed.upright
    rearranged.symm.settled.placed.upright (run_node?_of_mem grounded started calls member) plain
    (renumbered.id ▸ run_node?_of_mem grounded started reordered stored) record.step expression
    fun key => by
      rw [run_local_iff grounded started reordered, run_local_iff grounded started calls]
      exact or_congr_right ⟨rearranged.symm.claims, rearranged.claims⟩
  obtain ⟨identity?, reads, when⟩ := run_reads rearranged.registered rearranged.coherent
    rearranged.plain calls member isReference owned
  obtain ⟨other?, readsThere, whenThere⟩ := run_reads rearranged.registered rearranged.coherent
    rearranged.plain reordered stored shape ownedThere
  rw [renumbered.id] at readsThere
  refine ⟨identity?, other?, rearranged.renumbered_or_rivals now when whenThere, ?_, reads,
    readsThere⟩
  intro identity found
  rcases when with same | ⟨code, remote, loc, _⟩
  · exact Pass.isItem_of_readOf? (same ▸ found)
  · cases remote.symm.trans found
    refine iff_of_false nofun fun item => ?_
    cases (Pass.isItem_of_readOf? loc).2 item

/-- An edge into a reference is there in the other order, or leads from the rival there. -/
theorem metadata?_reference {node : Node} (member : node ∈ (run wired calls).overlay.nodes.nodes)
    {expression : Reference} (isReference : node.kind = .reference expression)
    {triple : Triple} {metadata : EdgeMetadata} (into : triple.consumer = node.id)
    (found : (run wired calls).overlay.graph.metadata? triple = some metadata) :
    Endures (run wired calls) (run wired reordered) triple metadata := by
  obtain ⟨identity?, other?, moved, isItem, reads, readsThere⟩ :=
    rearranged.reads_counterpart member isReference
  have binds := (reads.edges triple metadata into).1 found
  obtain ⟨identity, rfl, producer, _, role, shape⟩ := id binds
  cases moved with
  | @some _ other moved =>
    rcases moved with moved | rivals
    · left
      have shared : ¬OnlyIn (run wired calls) (run wired reordered) triple.producer := by
        rintro ⟨step, code, remote, absent⟩
        cases run_pseudo?_inj rearranged.grounded rearranged.started calls producer remote
        cases moved.eq_of_keyed nofun
        exact absent (readsThere.present _ rfl)
      have finds : ∀ one two, some identity = some one →
          one.Renumbered (counterpart (run wired calls) (run wired reordered)) two →
          pseudo? (run wired calls).layers one = some triple.producer →
            pseudo? (run wired reordered).layers two = some
              (counterpart (run wired calls) (run wired reordered) triple.producer) := by
        rintro _ _ ⟨⟩ moves producer
        exact rearranged.pseudo?_counterpart producer shared moves
      obtain ⟨image, bound, same⟩ := Pass.binds_renumbered (.some moved) isItem finds binds
      exact ⟨rearranged.counterpart_pseudo? producer shared, image, same,
        (readsThere.edges _ image (by rw [into])).2 bound⟩
    · right
      obtain ⟨rival, known⟩ := readsThere.present other rfl
      have keyed : identity.kind ≠ .item ∧ other.key = identity.key := by
        obtain ⟨step, code, _, ⟨rfl, rfl⟩ | ⟨rfl, rfl⟩⟩ := rivals <;> exact ⟨nofun, rfl⟩
      refine ⟨?_, rival, ⟨identity, other, rivals, producer, known⟩, ?_⟩
      · rw [shape]
        exact fun item => keyed.1 ((isItem identity rfl).2 item)
      · rw [into]
        exact (readsThere.edges _ metadata rfl).2 ⟨other, rfl, known, rfl, role, by rw [shape, keyed.2]⟩

/-- **An edge is there in the other order**, unless it leads into an answer that is not there, and
from the same producer, unless this is an answer and its rival is read there. -/
theorem metadata?_counterpart {triple : Triple} {metadata : EdgeMetadata}
    (found : (run wired calls).overlay.graph.metadata? triple = some metadata)
    (member : triple.consumer ∈ (run wired calls).overlay.nodes.nodes.map Node.id)
    (shared : ¬OnlyIn (run wired calls) (run wired reordered) triple.consumer) :
    Endures (run wired calls) (run wired reordered) triple metadata := by
  obtain ⟨node, known, into⟩ := List.mem_map.1 member
  rw [← into] at shared
  cases isPseudo : node.kind.pseudo? with
  | some definition =>
    left
    obtain ⟨returns, fills, carried⟩ := rearranged.metadata?_pseudo known
      (NodeKind.pseudo?_eq_some_iff.1 isPseudo) shared into.symm found
    refine ⟨returns, metadata, .ofKeyed ?_, carried⟩
    rw [fills]
    exact nofun
  | none =>
    cases isReference : node.kind.reference? with
    | some expression =>
      exact rearranged.metadata?_reference known (NodeKind.reference?_eq_some_iff.1 isReference)
        into.symm found
    | none =>
      rw [run_metadata?_eq_none rearranged.grounded rearranged.started calls known isPseudo
        isReference into.symm] at found
      cases found

end Rearranged

end RequestScope

end FormFlow
