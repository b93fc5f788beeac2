import FormFlow.Proofs.Request.Turns

/-!
# What the pseudo-nodes of a request were made for

What the nodes of an iteration want can be read off the request at any later time
(`RequestScope.wantedBy`). All of it is there (`RequestScope.run_supplied`), and every pseudo-node
of a request was wanted by one of its iterations, for the node that wanted it first
(`RequestScope.run_wanted`).

The codes that an iteration gave to fields are those that its ready fields have
(`RequestScope.run_codes`), and no other iteration gave one of them to a field of the same step
(`RequestScope.run_claimed`).
-/

set_option autoImplicit false

namespace FormFlow

open NodeSource

/-- The new codes are those with the opening in front of a code that has one. -/
theorem Renaming.mem_fields_snd {opening code : String} {codes : List String} :
    code ∈ (codes.foldl (addField opening) []).map Prod.snd ↔
      ∃ old ∈ codes, join opening old = code := by
  constructor
  · intro member
    obtain ⟨pair, known, rfl⟩ := List.mem_map.1 member
    refine ⟨pair.1, ?_, (eq_join_of_mem_fields opening codes pair known).symm⟩
    by_contra undeclared
    have absent := lookup_fields opening codes pair.1
    rw [if_neg undeclared, List.lookup_eq_none_iff] at absent
    simpa using absent pair known
  · rintro ⟨old, declared, rfl⟩
    have found := lookup_fields opening codes old
    rw [if_pos declared] at found
    obtain ⟨first, last, split, _⟩ := List.lookup_eq_some_iff.1 found
    exact List.mem_map.2 ⟨(old, join opening old), by simp [split], rfl⟩

/-- A field of the template itself gets a new code. -/
theorem Renaming.getD_lookup_fields {template : Template} {index : Nat} {code : String}
    (declared : code ∈ fieldCodes (template.nodes.filter TemplateNode.direct)) :
    ((ofTemplate template index).fields.lookup code).getD code =
      join (ofTemplate template index).opening code := by
  have found := lookup_fields (openingOf template.code index)
    (fieldCodes (template.nodes.filter TemplateNode.direct)) code
  rw [if_pos declared] at found
  exact congrArg (fun value : Option String => value.getD code) found

/-! ## Pseudo-nodes over a form -/

namespace Synthesis

variable {base : NodeStore} (coherent : base.Coherent) {step : NodeId} {layers : Layered}
  (good : layers.base = base ∧ base.Anchored layers.overlay ∧ layers.Has step)
  {wanted : List (PseudoKey × Option NodeId)} (within : ∀ entry ∈ wanted, entry.1.scope = step)
include coherent good within

/-- What is made was not there before, and it is made for the node that wants it first. -/
theorem foldl_origins : ∀ node ∈ (wanted.foldl ofWant ⟨layers, []⟩).nodes.overlay.nodes,
    node ∈ layers.overlay.nodes ∨ ∃ definition, node.kind = .pseudo definition ∧
      ¬HasPseudo layers definition.toPseudoKey ∧
      wanted.lookup definition.toPseudoKey = some definition.origin := by
  induction wanted using List.reverseRecOn with
  | nil => exact fun node member => .inl member
  | append_singleton wanted entry ih =>
    have before : ∀ other ∈ wanted, other.1.scope = step :=
      fun other member => within other (List.mem_append_left _ member)
    obtain ⟨_, shown, has⟩ :=
      @foldl_wants _ _ _ _ (Layered.locates coherent step) wanted ⟨layers, []⟩ before good
    obtain ⟨identity, origin⟩ := entry
    rw [List.foldl_append, List.foldl_cons, List.foldl_nil]
    generalize reached : wanted.foldl ofWant (⟨layers, []⟩ : State Layered) = state at ih shown has
    have earlier : ∀ node ∈ state.nodes.overlay.nodes, node ∈ layers.overlay.nodes ∨
        ∃ definition, node.kind = .pseudo definition ∧
          ¬HasPseudo layers definition.toPseudoKey ∧
          (wanted ++ [(identity, origin)]).lookup definition.toPseudoKey =
            some definition.origin := by
      intro node member
      apply (ih before node member).imp_right
      rintro ⟨definition, isPseudo, absent, found⟩
      exact ⟨definition, isPseudo, absent, by rw [List.lookup_append, found]; rfl⟩
    intro node member
    change node ∈ (Layered.locate state.nodes identity origin).nodes.overlay.nodes at member
    rcases Layered.locate_cases state.nodes identity origin with ⟨_, _, same⟩ |
      ⟨lower, upper, same⟩
    · rw [same] at member
      exact earlier node member
    · rw [same] at member
      rcases List.mem_append.1 member with old | new
      · exact earlier node old
      · cases List.mem_singleton.1 new
        have missing : ¬HasPseudo state.nodes identity := by
          rw [Layered.hasPseudo_iff]
          rintro (⟨id, found⟩ | ⟨id, found⟩)
          · cases lower.symm.trans found
          · cases upper.symm.trans found
        rw [has, not_or] at missing
        refine .inr ⟨⟨identity, origin⟩, rfl, missing.1, ?_⟩
        have unwanted : wanted.lookup identity = none := by
          rw [List.lookup_eq_none_iff]
          intro other inside
          rw [bne_iff_ne]
          rintro rfl
          exact missing.2 (List.mem_map_of_mem inside)
        rw [List.lookup_append, unwanted]
        simp

end Synthesis

namespace RequestScope

/-- A copy of a field of the template itself has the new code. -/
theorem copyFor_field {template : Template} {index : Nat} (store : NodeStore)
    {entry : TemplateNode} (member : entry ∈ template.nodes) (direct : entry.direct = true)
    {definition : Field} (isField : entry.node.kind = .field definition) :
    ∃ field, (copyFor template (.ofTemplate template index) index store entry).kind =
        .field field ∧
      field.code = Renaming.join (Renaming.ofTemplate template index).opening
        definition.code := by
  have copied : (copyFor template (.ofTemplate template index) index store entry).kind =
      (Renaming.ofTemplate template index).apply true ((NodeKind.field definition).remapIds
        (copyOf (copyIds template.nodes
          (store.push (iterationNode template index store)).nextId))) := by
    rw [copyFor, copyNode, isField, direct]
  refine ⟨_, copied, Renaming.getD_lookup_fields ?_⟩
  exact List.mem_filterMap.2 ⟨entry, List.mem_filter.2 ⟨member, direct⟩, by rw [isField]; rfl⟩

/-! ## What an iteration wants -/

/-- The iteration or its copies of a kind, without those that wait for an iteration. -/
def readyNodes (layers : Layered) (record : Iteration) (test : NodeKind → Bool) : List Node :=
  ((batch record).filterMap (node? layers)).filter fun node =>
    test node.kind && !awaitsIteration layers node

/-- What the nodes of an iteration want. -/
def wantedBy (layers : Layered) (isLocal : String → Bool) (record : Iteration) :
    List (PseudoKey × Option NodeId) :=
  Synthesis.wants record.step isLocal (readyNodes layers record NodeKind.isField)
    (readyNodes layers record NodeKind.isReference) (readyNodes layers record NodeKind.isRepeated)

theorem mem_readyNodes {layers : Layered} {record : Iteration} {test : NodeKind → Bool}
    {node : Node} : node ∈ readyNodes layers record test ↔
      (∃ id ∈ batch record, node? layers id = some node) ∧ test node.kind = true ∧
        awaitsIteration layers node = false := by
  simp [readyNodes]

/-- A local answer is wanted by a ready field with its code. -/
theorem exists_field_of_wantedBy {layers : Layered} {isLocal : String → Bool} {record : Iteration}
    {step : NodeId} {code : String} {origin : Option NodeId}
    (wanted : (⟨.answerLocal, step, code⟩, origin) ∈ wantedBy layers isLocal record) :
    ∃ node ∈ readyNodes layers record NodeKind.isField, ∃ field, node.kind = .field field ∧
      field.code = code ∧ origin = some node.id :=
  Synthesis.exists_field_of_wants wanted

/-- An item is wanted by the ready collection or iteration that it belongs to. -/
theorem exists_repeated_of_wantedBy {layers : Layered} {isLocal : String → Bool}
    {record : Iteration} {step : NodeId} {key : String} {origin : Option NodeId}
    (wanted : (⟨.item, step, key⟩, origin) ∈ wantedBy layers isLocal record) :
    ∃ node ∈ readyNodes layers record NodeKind.isRepeated,
      Item.keyOfKind? node.id node.kind = some key ∧ origin = some node.id := by
  rcases Synthesis.mem_wants.1 wanted with
    ⟨_, _, wants⟩ | ⟨_, _, wants⟩ | ⟨node, ready, wants⟩
  · obtain ⟨_, _, posted | answer⟩ := Synthesis.mem_fieldWants.1 wants
    · cases congrArg (fun entry => entry.1.kind) posted
    · cases congrArg (fun entry => entry.1.kind) answer
  · obtain ⟨_, _, _, kind, _, _, needs, same⟩ := Synthesis.mem_referenceWants.1 wants
    obtain rfl : PseudoKind.item = kind := congrArg (fun entry => entry.1.kind) same
    exact absurd rfl (Synthesis.of_needed? needs).2.2.1
  · obtain ⟨found, keyed, same⟩ := Synthesis.mem_repeatedWants.1 wants
    obtain rfl : key = found := congrArg (fun entry => entry.1.key) same
    exact ⟨node, ready, keyed, congrArg Prod.snd same⟩

/-- What the nodes of an iteration want stays the same. -/
theorem wantedBy_of_shows {earlier later : Layered} (shown : Shows earlier later)
    (upright : Upright earlier) {record : Iteration}
    (found : ∀ id ∈ batch record, ∃ node, node? earlier id = some node) :
    (∀ test, readyNodes later record test = readyNodes earlier record test) ∧
      ∀ isLocal, wantedBy later isLocal record = wantedBy earlier isLocal record := by
  have nodes : (batch record).filterMap (node? later) =
      (batch record).filterMap (node? earlier) := by
    refine List.filterMap_congr fun id member => ?_
    obtain ⟨node, known⟩ := found id member
    rw [known, shown.node id node known]
  have ready : ∀ test, readyNodes later record test = readyNodes earlier record test := by
    intro test
    rw [readyNodes, readyNodes, nodes]
    refine List.filter_congr fun node member => ?_
    obtain ⟨id, _, known⟩ := List.mem_filterMap.1 member
    rw [shown.awaitsIteration_eq upright known]
  exact ⟨ready, fun isLocal => by rw [wantedBy, wantedBy, ready, ready, ready]⟩

/-! ## What a turn makes -/

/-- What an iteration wants is there once it is made, and nothing else was made for it. -/
structure Supplies (before after : Layered) (record : Iteration) (isLocal : String → Bool) :
    Prop where
  locals : ∀ key, isLocal key = true ↔ HasPseudo before ⟨.answerLocal, record.step, key⟩ ∨
    ∃ node ∈ readyNodes after record NodeKind.isField, ∃ field, node.kind = .field field ∧
      field.code = key
  has : ∀ identity, HasPseudo after identity ↔
    HasPseudo before identity ∨ identity ∈ (wantedBy after isLocal record).map Prod.fst
  made : ∀ node ∈ after.overlay.nodes, ∀ definition, node.kind = .pseudo definition →
    node ∈ before.overlay.nodes ∨ ¬HasPseudo before definition.toPseudoKey ∧
      (wantedBy after isLocal record).lookup definition.toPseudoKey = some definition.origin

namespace Turn

variable {request : RequestScope} {after : Overlay} {template : Template} {complete : NodeStore}
  {state : Synthesis.State Layered} {record : Iteration}
  (turn : Turn request after template complete state record)
  (grounded : Grounded request.wired) (settled : Settled request)
include turn

/-- The iteration and its copies are there before pseudo-nodes are made. -/
theorem filterMap_batch :
    (batch record).filterMap (node? (⟨request.wired.form.nodes, complete⟩ : Layered)) =
      newNodes template (.ofTemplate template record.index) record.index
        request.overlay.nodes := by
  have found : ∀ nodes : List Node,
      (∀ node ∈ nodes, node? (⟨request.wired.form.nodes, complete⟩ : Layered) node.id =
        some node) →
      (nodes.map Node.id).filterMap (node? (⟨request.wired.form.nodes, complete⟩ : Layered)) =
        nodes := by
    intro nodes
    induction nodes with
    | nil => exact fun _ => rfl
    | cons node rest ih =>
      intro known
      rw [List.map_cons, List.filterMap_cons_some (known node (List.mem_cons_self ..)),
        ih fun other member => known other (List.mem_cons_of_mem _ member)]
  rw [turn.batch_eq]
  exact found _ fun node member => turn.made.node?_of_new member

theorem exists_node {id : NodeId} (member : id ∈ batch record) :
    ∃ node ∈ newNodes template (.ofTemplate template record.index) record.index
      request.overlay.nodes, node.id = id ∧
        node? (⟨request.wired.form.nodes, complete⟩ : Layered) id = some node := by
  rw [turn.batch_eq] at member
  obtain ⟨node, known, rfl⟩ := List.mem_map.1 member
  exact ⟨node, known, rfl, turn.made.node?_of_new known⟩

theorem picked_eq (test : NodeKind → Bool) :
    Assembled.picked request.wired request.overlay template (.ofTemplate template record.index)
      record.index complete test =
        (readyNodes (⟨request.wired.form.nodes, complete⟩ : Layered) record test).map Node.id := by
  rw [readyNodes, turn.filterMap_batch]
  rfl

include grounded settled

theorem shows_complete : Shows (⟨request.wired.form.nodes, complete⟩ : Layered)
    (layersOver request.wired after) :=
  (turn.made.supplied grounded.coherent settled.anchored).1

theorem upright_complete : Upright (⟨request.wired.form.nodes, complete⟩ : Layered) :=
  (turn.made.wellPlaced grounded.coherent settled.anchored settled.placed grounded.upright).upright

theorem wantedBy_eq :
    (∀ test, readyNodes (layersOver request.wired after) record test =
      readyNodes (⟨request.wired.form.nodes, complete⟩ : Layered) record test) ∧
    ∀ isLocal, wantedBy (layersOver request.wired after) isLocal record =
      wantedBy (⟨request.wired.form.nodes, complete⟩ : Layered) isLocal record :=
  wantedBy_of_shows (turn.shows_complete grounded settled)
    (turn.upright_complete grounded settled) fun id member => by
      obtain ⟨node, _, _, found⟩ := turn.exists_node member
      exact ⟨node, found⟩

/-- The iteration and the copies are no pseudo-nodes, so there are none yet but those of before. -/
theorem hasPseudo_complete (identity : PseudoKey) :
    HasPseudo (⟨request.wired.form.nodes, complete⟩ : Layered) identity ↔
      HasPseudo request.layers identity := by
  have anchored := settled.anchored
  rw [layers, layersOver, Layered.hasPseudo_iff, Layered.hasPseudo_iff,
    NodeStore.hasPseudo_iff turn.made.anchored.coherent,
    NodeStore.hasPseudo_iff anchored.coherent, turn.made.nodes]
  refine or_congr_right ⟨?_, ?_⟩
  · rintro ⟨node, member, identified⟩
    rcases List.mem_append.1 member with old | new
    · exact ⟨node, old, identified⟩
    · rw [Node.identity?,
        turn.made.pseudo?_of_new grounded.coherent anchored settled.placed new] at identified
      cases identified
  · rintro ⟨node, member, identified⟩
    exact ⟨node, List.mem_append_left _ member, identified⟩

/-- **What an iteration wants is made with it.** -/
theorem supplies : ∃ isLocal,
    Supplies request.layers (layersOver request.wired after) record isLocal := by
  have good := turn.made.has_step grounded.coherent settled.anchored
  have found : ∀ test, ∀ node ∈ readyNodes (⟨request.wired.form.nodes, complete⟩ : Layered) record
      test, node? (⟨request.wired.form.nodes, complete⟩ : Layered) node.id = some node := by
    intro test node member
    obtain ⟨⟨id, _, known⟩, _⟩ := mem_readyNodes.1 member
    rw [LawfulSource.id_of_node? _ _ _ known]
    exact known
  obtain ⟨isLocal, locals, run⟩ := Synthesis.run_eq_foldl
    (Layered.locates grounded.coherent template.step) good
    (found NodeKind.isField) (found NodeKind.isReference) (found NodeKind.isRepeated)
  rw [← turn.picked_eq, ← turn.picked_eq, ← turn.picked_eq, turn.made.run_eq,
    ← turn.recorded.step, ← wantedBy] at run
  have within : ∀ entry ∈ wantedBy (⟨request.wired.form.nodes, complete⟩ : Layered) isLocal record,
      entry.1.scope = template.step := by
    intro entry member
    rw [← turn.recorded.step]
    exact Synthesis.scope_of_wants member
  obtain ⟨ready, same⟩ := turn.wantedBy_eq grounded settled
  have layers := turn.made.layers_eq grounded.coherent settled.anchored
  refine ⟨isLocal, ?_, ?_, ?_⟩
  · intro key
    rw [locals, turn.hasPseudo_complete grounded settled, ready, turn.recorded.step]
  · intro identity
    rw [same, layers, run, (Synthesis.foldl_wants (Layered.locates grounded.coherent template.step)
      within good).2.2, turn.hasPseudo_complete grounded settled]
  · intro node member definition isPseudo
    rw [layers, run] at member
    rcases Synthesis.foldl_origins grounded.coherent good within node member with
      old | ⟨known, isKnown, absent, wanted⟩
    · left
      change node ∈ complete.nodes at old
      rw [turn.made.nodes] at old
      refine (List.mem_append.1 old).resolve_right fun new => ?_
      have plain := turn.made.pseudo?_of_new grounded.coherent settled.anchored settled.placed new
      rw [isPseudo] at plain
      cases plain
    · cases isPseudo.symm.trans isKnown
      rw [turn.hasPseudo_complete grounded settled] at absent
      exact .inr ⟨absent, by rw [same]; exact wanted⟩

/-- **The codes that an iteration gave to fields are those of its ready fields.** -/
theorem codes_iff (code : String) : code ∈ record.renamed.map Prod.snd ↔
    ∃ node ∈ readyNodes (layersOver request.wired after) record NodeKind.isField,
      ∃ field, node.kind = .field field ∧ field.code = code := by
  have waits := turn.made.awaitsIteration_copy grounded.coherent settled.anchored settled.placed
    grounded.upright
  have ready : ∀ node, node ∈ readyNodes (layersOver request.wired after) record
      NodeKind.isField ↔ node ∈ newNodes template (.ofTemplate template record.index) record.index
        request.overlay.nodes ∧ node.kind.isField = true ∧
          awaitsIteration (⟨request.wired.form.nodes, complete⟩ : Layered) node = false := by
    intro node
    rw [(turn.wantedBy_eq grounded settled).1, readyNodes, turn.filterMap_batch, List.mem_filter]
    simp
  have fields : record.renamed =
      (Renaming.fieldCodes (template.nodes.filter TemplateNode.direct)).foldl
        (Renaming.addField (Renaming.ofTemplate template record.index).opening) [] :=
    turn.recorded.renamed
  rw [fields, Renaming.mem_fields_snd]
  constructor
  · rintro ⟨old, declared, rfl⟩
    obtain ⟨entry, member, isField⟩ := List.mem_filterMap.1 declared
    obtain ⟨member, direct⟩ := List.mem_filter.1 member
    obtain ⟨definition, known, rfl⟩ := Option.map_eq_some_iff.1 isField
    obtain ⟨field, copied, code⟩ :=
      copyFor_field request.overlay.nodes member direct (NodeKind.field?_eq_some_iff.1 known)
    refine ⟨_, (ready _).2 ⟨copyFor_mem member _ _ _, by rw [copied]; rfl, ?_⟩, field, copied, code⟩
    rw [waits entry member, direct]
    exact Bool.and_false _
  · rintro ⟨node, member, field, isField, rfl⟩
    obtain ⟨new, _, closed⟩ := (ready node).1 member
    rcases eq_or_copyFor new with rfl | ⟨entry, known, rfl⟩
    · cases isField
    have original : entry.node.kind.isField = true := by
      rw [← entry.node.kind.isField_copy (.ofTemplate template record.index) entry.direct (copyOf
        (copyIds template.nodes
          (request.overlay.nodes.push (iterationNode template record.index
            request.overlay.nodes)).nextId))]
      change (copyFor template (.ofTemplate template record.index) record.index
        request.overlay.nodes entry).kind.isField = true
      rw [isField]
      rfl
    cases shape : entry.node.kind with
    | field definition =>
      have direct : entry.direct = true := by
        rw [waits entry known, shape] at closed
        simpa [isDeferred] using closed
      obtain ⟨other, copied, code⟩ := copyFor_field request.overlay.nodes known direct shape
      cases copied.symm.trans isField
      refine ⟨definition.code, ?_, code.symm⟩
      exact List.mem_filterMap.2 ⟨entry, List.mem_filter.2 ⟨known, direct⟩, by rw [shape]; rfl⟩
    | _ =>
      rw [shape] at original
      cases original

omit grounded settled in
/-- No code that an iteration gives to a field was that of a local answer before. -/
theorem unclaimed {code : String} (member : code ∈ record.renamed.map Prod.snd) :
    ¬HasPseudo request.layers ⟨.answerLocal, record.step, code⟩ := by
  have absent := turn.free
  rw [collision?, List.find?_eq_none] at absent
  rw [turn.recorded.renamed] at member
  rintro ⟨id, found⟩
  refine absent code member ?_
  rw [turn.recorded.step] at found
  change (NodeSource.pseudo? request.layers _).isSome = true
  rw [found]
  rfl

end Turn

/-! ## What is there at the end -/

/-- What an iteration wants is there, where it is known which answers were local when it was
made. -/
structure Supplied (request : RequestScope) (record : Iteration) (isLocal : String → Bool) :
    Prop where
  known : ∀ key, HasPseudo request.wired.form.nodes ⟨.answerLocal, record.step, key⟩ →
    isLocal key = true
  seen : ∀ key, isLocal key = true → HasPseudo request.layers ⟨.answerLocal, record.step, key⟩
  has : ∀ entry ∈ wantedBy request.layers isLocal record, HasPseudo request.layers entry.1

section

variable {wired : WiredForm} (grounded : Grounded wired) (started : Settled (start wired))
include grounded started

omit started in
theorem grounded_run (calls : List (NodeId × Nat)) : Grounded (run wired calls).wired :=
  (wired_run wired calls).symm ▸ grounded

omit grounded started in
theorem layers_run_eq (calls : List (NodeId × Nat)) :
    (run wired calls).layers = ⟨wired.form.nodes, (run wired calls).overlay.nodes⟩ := by
  rw [layers, layersOver, wired_run]

/-- A node of the request is seen. -/
theorem run_node?_of_mem (calls : List (NodeId × Nat)) {node : Node}
    (member : node ∈ (run wired calls).overlay.nodes.nodes) :
    node? (run wired calls).layers node.id = some node :=
  Layered.node?_eq_some_iff.2 (.inl
    (NodeStore.node?_of_mem (settled_run grounded started calls).anchored.coherent member))

theorem shows_form (calls : List (NodeId × Nat)) :
    Shows wired.form.nodes (run wired calls).layers := by
  have anchored := (settled_run grounded started calls).anchored
  rw [wired_run] at anchored
  rw [layers_run_eq]
  exact Layered.shows_base grounded.coherent anchored

namespace TurnOf

variable {calls before : List (NodeId × Nat)} {after : Overlay} {template : Template}
  {complete : NodeStore} {state : Synthesis.State Layered} {record : Iteration}
  (turn : TurnOf wired calls before after template complete state record)
include turn

omit grounded started in
theorem layers_eq : (run wired (before ++ [(record.collection, record.index)])).layers =
    layersOver (run wired before).wired after := by
  rw [turn.reached]
  rfl

/-- What a request shows after a turn stays. -/
theorem shown : Shows (layersOver (run wired before).wired after) (run wired calls).layers := by
  obtain ⟨rest, rfl⟩ := turn.call
  have stays := run_shows grounded started (before ++ [(record.collection, record.index)]) rest
  rw [turn.layers_eq, List.append_assoc] at stays
  exact stays

theorem settled_after : WellPlaced (layersOver (run wired before).wired after) ∧
    Furnished (layersOver (run wired before).wired after) := by
  have settled := settled_run grounded started (before ++ [(record.collection, record.index)])
  exact ⟨turn.layers_eq ▸ settled.placed, turn.layers_eq ▸ settled.furnished⟩

theorem found {id : NodeId} (member : id ∈ batch record) :
    ∃ node, node? (layersOver (run wired before).wired after) id = some node := by
  obtain ⟨node, _, _, found⟩ := turn.turn.exists_node member
  exact ⟨node, (turn.turn.shows_complete (grounded_run grounded before)
    (settled_run grounded started before)).node id node found⟩

/-- What an iteration wants is still what it wanted right after its turn. -/
theorem wantedBy_eq :
    (∀ test, readyNodes (run wired calls).layers record test =
      readyNodes (layersOver (run wired before).wired after) record test) ∧
    ∀ isLocal, wantedBy (run wired calls).layers isLocal record =
      wantedBy (layersOver (run wired before).wired after) isLocal record :=
  wantedBy_of_shows (turn.shown grounded started) (turn.settled_after grounded started).1.upright
    fun _ member => turn.found grounded started member

theorem supplied {isLocal : String → Bool} (supplies : Supplies (run wired before).layers
    (layersOver (run wired before).wired after) record isLocal) :
    Supplied (run wired calls) record isLocal := by
  obtain ⟨ready, wanted⟩ := turn.wantedBy_eq grounded started
  have shown := turn.shown grounded started
  refine ⟨fun key has => ?_, fun key isLocal => ?_, fun entry member => ?_⟩
  · rw [wired_run] at has
    exact (supplies.locals key).2
      (.inl ((shows_form grounded started before).hasPseudo has))
  · refine shown.hasPseudo ((supplies.has _).2 ?_)
    apply ((supplies.locals key).1 isLocal).imp_right
    rintro ⟨node, inside, field, isField, rfl⟩
    exact List.mem_map.2 ⟨_, Synthesis.mem_wants.2 (.inl
      ⟨node, inside, Synthesis.mem_fieldWants.2 ⟨field, isField, .inr rfl⟩⟩), rfl⟩
  · rw [wanted] at member
    exact shown.hasPseudo ((supplies.has _).2 (.inr (List.mem_map_of_mem member)))

end TurnOf

/-- **What the iterations of a request want is there.** -/
theorem run_supplied {calls : List (NodeId × Nat)} {record : Iteration}
    (member : record ∈ (run wired calls).iterations) :
    ∃ isLocal, Supplied (run wired calls) record isLocal := by
  obtain ⟨before, after, template, complete, state, turn⟩ := exists_turn grounded started member
  obtain ⟨isLocal, supplies⟩ := turn.turn.supplies (grounded_run grounded before)
    (settled_run grounded started before)
  exact ⟨isLocal, turn.supplied grounded started supplies⟩

/-- Every node of a request was made in the turn of one of the iterations. -/
theorem exists_turn_of_mem {calls : List (NodeId × Nat)} {node : Node}
    (member : node ∈ (run wired calls).overlay.nodes.nodes) :
    ∃ before after template complete state, ∃ record ∈ (run wired calls).iterations,
      TurnOf wired calls before after template complete state record ∧
        node.id ∈ batch record ++ state.created ∧ node ∈ after.nodes.nodes := by
  obtain ⟨before, after, template, complete, state, record, known, turn, inside⟩ :=
    exists_turn_of_node grounded started (List.mem_map_of_mem member)
  refine ⟨before, after, template, complete, state, record, known, turn, inside, ?_⟩
  have ground := grounded_run grounded before
  have settled := settled_run grounded started before
  obtain ⟨new, appended, ids⟩ := turn.turn.made.nodes_after
  rw [turn.turn.batch_eq, ← ids] at inside
  obtain ⟨other, fresh, same⟩ := List.mem_map.1 inside
  have inner := (turn.turn.made.anchored_after ground.coherent settled.anchored).coherent
  have present : other ∈ after.nodes.nodes := appended ▸ List.mem_append_right _ fresh
  have seen : node? (layersOver (run wired before).wired after) other.id = some other :=
    Layered.node?_eq_some_iff.2 (.inl (NodeStore.node?_of_mem inner present))
  have later := (turn.shown grounded started).node _ _ seen
  rw [same, run_node?_of_mem grounded started calls member] at later
  cases later
  exact present

/-- **Every pseudo-node of a request was wanted by one of its iterations**, and it is made for the
node that wanted it first. The form has none like it. -/
theorem run_wanted {calls : List (NodeId × Nat)} {node : Node}
    (member : node ∈ (run wired calls).overlay.nodes.nodes) {definition : Pseudo}
    (isPseudo : node.kind = .pseudo definition) :
    ¬HasPseudo wired.form.nodes definition.toPseudoKey ∧
      ∃ record ∈ (run wired calls).iterations, ∃ isLocal,
        Supplied (run wired calls) record isLocal ∧
        (wantedBy (run wired calls).layers isLocal record).lookup definition.toPseudoKey =
          some definition.origin := by
  obtain ⟨before, after, template, complete, state, record, known, turn, inside, there⟩ :=
    exists_turn_of_mem grounded started member
  have ground := grounded_run grounded before
  have settled := settled_run grounded started before
  obtain ⟨isLocal, supplies⟩ := turn.turn.supplies ground settled
  have high := (turn.turn.made.mem_batch ground.coherent settled.anchored
    (turn.turn.batch_eq ▸ inside)).1
  rcases supplies.made node there definition isPseudo with old | ⟨absent, wanted⟩
  · have low := settled.anchored.coherent.below node old
    omega
  · refine ⟨fun has => absent ((shows_form grounded started before).hasPseudo has), record, known,
      isLocal, turn.supplied grounded started supplies, ?_⟩
    rw [(turn.wantedBy_eq grounded started).2]
    exact wanted

/-- The codes that an iteration gave to fields are those of its ready fields. -/
theorem run_codes {calls : List (NodeId × Nat)} {record : Iteration}
    (member : record ∈ (run wired calls).iterations) (code : String) :
    code ∈ record.renamed.map Prod.snd ↔
      ∃ node ∈ readyNodes (run wired calls).layers record NodeKind.isField,
        ∃ field, node.kind = .field field ∧ field.code = code := by
  obtain ⟨before, after, template, complete, state, turn⟩ := exists_turn grounded started member
  rw [(turn.wantedBy_eq grounded started).1]
  exact turn.turn.codes_iff (grounded_run grounded before)
    (settled_run grounded started before) code

/-- A code that an iteration gave to a field is that of a local answer. -/
theorem run_answer {calls : List (NodeId × Nat)} {record : Iteration}
    (member : record ∈ (run wired calls).iterations) {code : String}
    (named : code ∈ record.renamed.map Prod.snd) :
    HasPseudo (run wired calls).layers ⟨.answerLocal, record.step, code⟩ := by
  obtain ⟨isLocal, supplied⟩ := run_supplied grounded started member
  obtain ⟨node, inside, field, isField, rfl⟩ := (run_codes grounded started member code).1 named
  exact supplied.has (⟨.answerLocal, record.step, field.code⟩, some node.id)
    (Synthesis.mem_wants.2 (.inl ⟨node, inside, Synthesis.mem_fieldWants.2
      ⟨field, isField, .inr rfl⟩⟩))

/-- **No two iterations gave one code to fields of one step.** -/
theorem run_claimed {calls : List (NodeId × Nat)} {one other : Iteration}
    (inOne : one ∈ (run wired calls).iterations) (inOther : other ∈ (run wired calls).iterations)
    (step : one.step = other.step) {code : String} (first : code ∈ one.renamed.map Prod.snd)
    (second : code ∈ other.renamed.map Prod.snd) : one = other := by
  induction calls using List.reverseRecOn with
  | nil => cases inOne
  | append_singleton calls call ih =>
    rcases run_cases grounded started calls call with
      same | ⟨after, template, complete, state, record, turn, rfl, _⟩
    · rw [same] at inOne inOther
      exact ih inOne inOther
    · -- The answer to a code of an earlier iteration is there when the last one is made.
      have apart : ∀ earlier ∈ (run wired calls).iterations, earlier.step = record.step →
          code ∈ earlier.renamed.map Prod.snd → code ∉ record.renamed.map Prod.snd := by
        intro earlier known within named again
        refine turn.turn.unclaimed again ?_
        rw [← within]
        exact run_answer grounded started known named
      rw [turn.reached] at inOne inOther
      rcases List.mem_append.1 inOne with old | new <;>
        rcases List.mem_append.1 inOther with older | newer
      · exact ih old older
      · cases List.mem_singleton.1 newer
        exact absurd second (apart one old step first)
      · cases List.mem_singleton.1 new
        exact absurd first (apart other older step.symm second)
      · cases List.mem_singleton.1 new
        cases List.mem_singleton.1 newer
        rfl

end

end RequestScope

end FormFlow
