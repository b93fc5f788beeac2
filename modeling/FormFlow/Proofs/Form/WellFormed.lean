import FormFlow.Proofs.Form.Building

/-!
# Well-formed forms

What a form under construction is can be told from its log. Identifiers count up in the order of the
calls that gave them out, and the formatters of a field are what the calls returned that added one
to it. `Form.Log.Tells` says so of a node, and a call keeps it: one that fails, since it does
nothing; one that adds a node, since nothing is linked to it yet; and one that links a node, since
the log goes on with the same link. `Form.Building.Recorded` is what all calls keep together.

Whatever the calls are, the form is well-formed afterwards (`Form.Building.WellFormed`): nodes are
where they may be, and whatever they link to is there.
-/

set_option autoImplicit false

namespace FormFlow

open NodeSource

namespace Form

/-! ## What the log says of a node -/

/-- The identifiers that calls of a sort returned, in the order of the calls. -/
def returned (sort : Call → Bool) (log : Log) : List NodeId :=
  log.filterMap fun entry => if sort entry.1 then entry.2.toOption.join else none

theorem returned_concat (sort : Call → Bool) (log : Log) (call : Call)
    (result : Except StructureError (Option NodeId)) :
    returned sort (log ++ [(call, result)]) =
      returned sort log ++ if sort call then result.toOption.join.toList else [] := by
  cases sorted : sort call with
  | false => simp [returned, sorted]
  | true =>
    cases value : result.toOption.join <;>
      simp [returned, sorted, value]

/-- What a call returns that adds a node is the identifier that it gives out. -/
theorem returned_added {sort : Call → Bool} {owner : NodeId} (links : Call.Links sort owner)
    (log : Log) (call : Call) (added : NodeId) :
    returned sort (log ++ [(call, .ok ((call.node? added).map Node.id))]) =
      returned sort log ++ if sort call then [added] else [] := by
  rw [returned_concat]
  cases sorted : sort call with
  | false => rfl
  | true =>
    obtain ⟨name, new⟩ := links call sorted added
    rw [new]
    rfl

theorem mem_returned {sort : Call → Bool} {log : Log} {id : NodeId}
    (member : id ∈ returned sort log) :
    ∃ call, sort call = true ∧ (call, .ok (some id)) ∈ log := by
  obtain ⟨⟨call, result⟩, logged, found⟩ := List.mem_filterMap.1 member
  cases sorted : sort call with
  | false => simp [sorted] at found
  | true =>
    refine ⟨call, sorted, ?_⟩
    cases result with
    | error error => simp [sorted, Except.toOption] at found
    | ok value =>
      obtain rfl : value = some id := by simpa [sorted, Except.toOption] using found
      exact logged

/-- A node as the log says it is: links are what calls returned, and expressions are older than the
next identifier. -/
structure Log.Tells (log : Log) (nextId : Nat) (node : Node) : Prop where
  top : node.parent = none → node.kind.isJourney = true
  formatters : ∀ definition, node.kind = .field definition →
    definition.formatters = returned (Call.formats node.id) log
  effects : ∀ definition, node.kind = .transition definition →
    definition.effects = returned (Call.affects node.id) log
  default : ∀ definition, node.kind = .field definition →
    ∀ expression, definition.defaultValue = some expression → expression.val < nextId
  source : ∀ definition, node.kind = .collection definition →
    ∀ expression, definition.source = some expression → expression.val < node.id.val

namespace Log.Tells

variable {log : Log} {nextId : Nat} {node : Node} {call : Call}

/-- A call that fails adds nothing to what the log says was returned. -/
theorem failed (tells : log.Tells nextId node) (call : Call) (error : StructureError) :
    Tells (log ++ [(call, .error error)]) nextId node where
  top := tells.top
  formatters definition kind := by
    rw [tells.formatters definition kind, returned_concat]
    split <;> exact (List.append_nil _).symm
  effects definition kind := by
    rw [tells.effects definition kind, returned_concat]
    split <;> exact (List.append_nil _).symm
  default := tells.default
  source := tells.source

/-- A new node has nothing linked to it. -/
theorem fresh {id : NodeId} (adds : call.node? id = some node)
    (noFormatter : returned (Call.formats id) log = [])
    (noEffect : returned (Call.affects id) log = [])
    (older : ∀ expression, call.expression? = some expression → expression.val < id.val) :
    log.Tells nextId node := by
  obtain rfl := Call.id_of_node? adds
  refine ⟨Call.isJourney_of_node? adds, ?_, ?_, ?_, ?_⟩
  · intro definition kind
    rw [noFormatter, (Call.field_of_node? adds kind).1]
  · intro definition kind
    rw [noEffect, Call.transition_of_node? adds kind]
  · intro definition kind expression set
    rw [(Call.field_of_node? adds kind).2] at set
    cases set
  · intro definition kind expression sourced
    rw [Call.source_of_node? adds kind] at sourced
    exact older expression sourced

/-- What a call links is what the log says that it returned. -/
theorem relink {added : NodeId} (tells : log.Tells nextId node) {later : Nat}
    (grown : nextId ≤ later)
    (older : ∀ expression, call.expression? = some expression → expression.val < later) :
    Tells (log ++ [(call, .ok ((call.node? added).map Node.id))]) later
      (call.relink added node) := by
  obtain ⟨id, parent, kind⟩ := node
  refine ⟨?_, ?_, ?_, ?_, ?_⟩
  · intro top
    have isJourney := tells.top top
    cases kind <;> first | rfl | cases isJourney
  · intro changed same
    cases kind with
    | field definition =>
      cases same
      rw [returned_added (Call.links_formats _)]
      exact congrArg (· ++ _) (tells.formatters definition rfl)
    | _ => cases same
  · intro changed same
    cases kind with
    | transition definition =>
      cases same
      rw [returned_added (Call.links_affects _)]
      exact congrArg (· ++ _) (tells.effects definition rfl)
    | _ => cases same
  · intro changed same expression set
    cases kind with
    | field definition =>
      cases same
      rcases Option.or_eq_some_iff.1 set with sets | ⟨-, kept⟩
      · exact older expression (Call.expression?_of_default? sets)
      · exact Nat.lt_of_lt_of_le (tells.default definition rfl expression kept) grown
    | _ => cases same
  · intro definition same
    cases kind with
    | collection definition =>
      cases same
      exact tells.source _ rfl
    | _ => cases same

end Log.Tells

/-! ## Building, call by call -/

/-- A form and a log that tells what it is. -/
structure Building.Recorded (building : Building) : Prop where
  made : building.form.Made
  ids : building.form.nodes.nodes.map Node.id =
    (List.range building.form.nodes.nextId).map NodeId.mk
  created : returned (fun _ => true) building.log = building.form.nodes.nodes.map Node.id
  /-- A node that a call added stays as it is, if nothing can be linked to it. -/
  kept : ∀ call id node, (call, .ok (some id)) ∈ building.log → call.node? id = some node →
    node.kind.isField = false → node.kind.isTransition = false →
      node ∈ building.form.nodes.nodes
  tells : ∀ node ∈ building.form.nodes.nodes,
    building.log.Tells building.form.nodes.nextId node

namespace Building

theorem recorded_empty (code : String) : Recorded ⟨.empty code, []⟩ where
  made := .empty code
  ids := rfl
  created := rfl
  kept _ _ _ logged := absurd logged List.not_mem_nil
  tells _ member := absurd member List.not_mem_nil

namespace Recorded

variable {building : Building} (recorded : building.Recorded)
include recorded

theorem coherent : building.form.nodes.Coherent := recorded.made.composed.spec.1

/-- Identifiers below the next one are those of the nodes. -/
theorem exists_of_lt {id : NodeId} (below : id.val < building.form.nodes.nextId) :
    ∃ node ∈ building.form.nodes.nodes, node.id = id := by
  refine List.mem_map.1 ?_
  rw [recorded.ids]
  exact List.mem_map.2 ⟨id.val, List.mem_range.2 below, rfl⟩

/-- What a call linked stands in the node that it was linked to. -/
theorem linked {sort : Call → Bool} {owner : NodeId} (links : Call.Links sort owner)
    {id : NodeId} (member : id ∈ returned sort building.log) :
    ∃ name, ⟨id, some owner, .function name []⟩ ∈ building.form.nodes.nodes := by
  obtain ⟨call, sorted, logged⟩ := mem_returned member
  obtain ⟨name, new⟩ := links call sorted id
  exact ⟨name, recorded.kept call id _ logged new rfl rfl⟩

/-- Nothing is linked to a node that is not there yet. -/
theorem returned_eq_nil {sort : Call → Bool} {owner : NodeId} (links : Call.Links sort owner)
    (new : building.form.nodes.nextId ≤ owner.val) : returned sort building.log = [] := by
  refine List.eq_nil_iff_forall_not_mem.2 fun id member => ?_
  obtain ⟨name, there⟩ := recorded.linked links member
  obtain ⟨outer, present, rfl, -⟩ := recorded.made.orderly.parents _ there owner rfl
  exact absurd (recorded.coherent.below outer present) (Nat.not_lt.2 new)

theorem failed (call : Call) (error : StructureError) :
    Recorded ⟨building.form, building.log ++ [(call, .error error)]⟩ where
  made := recorded.made
  ids := recorded.ids
  created := by
    rw [returned_concat]
    exact (List.append_nil _).trans recorded.created
  kept other id node logged := by
    rcases List.mem_append.1 logged with earlier | last
    · exact recorded.kept other id node earlier
    · cases List.mem_singleton.1 last
  tells node member := (recorded.tells node member).failed call error

section

variable {call : Call} {next : Form} {value : Option NodeId}
  (done : call.Done building.form next value)
include done

theorem older (expression : NodeId) (named : call.expression? = some expression) :
    expression.val < building.form.nodes.nextId := by
  obtain ⟨outer, there, rfl⟩ := done.expression expression named
  exact recorded.coherent.below outer there

/-- Before something is linked, the log tells of the new node as of the others. -/
theorem tells_present {node : Node} (member : node ∈ building.form.nodes.nodes ++
    (call.node? ⟨building.form.nodes.nextId⟩).toList) :
    building.log.Tells building.form.nodes.nextId node := by
  rcases List.mem_append.1 member with old | new
  · exact recorded.tells node old
  · exact .fresh (Option.mem_toList.1 new)
      (recorded.returned_eq_nil (Call.links_formats _) (Nat.le_refl _))
      (recorded.returned_eq_nil (Call.links_affects _) (Nat.le_refl _)) (recorded.older done)

theorem tells_later {node : Node} (member : node ∈ next.nodes.nodes) :
    Log.Tells (building.log ++ [(call, .ok value)]) next.nodes.nextId node := by
  have grown : building.form.nodes.nextId ≤ next.nodes.nextId := by
    rw [done.nextId]
    exact Nat.le_add_right _ _
  rw [done.nodes] at member
  obtain ⟨before, there, rfl⟩ := List.mem_map.1 member
  rw [done.result]
  exact (recorded.tells_present done there).relink grown fun expression named =>
    Nat.lt_of_lt_of_le (recorded.older done expression named) grown

theorem kept_later {other : Call} {id : NodeId} {node : Node}
    (logged : (other, .ok (some id)) ∈ building.log ++ [(call, .ok value)])
    (new : other.node? id = some node) (noField : node.kind.isField = false)
    (noTransition : node.kind.isTransition = false) : node ∈ next.nodes.nodes := by
  have there : node ∈ building.form.nodes.nodes ++
      (call.node? ⟨building.form.nodes.nextId⟩).toList := by
    rcases List.mem_append.1 logged with earlier | last
    · exact List.mem_append_left _ (recorded.kept other id node earlier new noField noTransition)
    · obtain ⟨rfl, same⟩ := Prod.mk.inj (List.mem_singleton.1 last)
      obtain rfl : value = some id := (Except.ok.inj same).symm
      obtain ⟨made, added, named⟩ := Option.map_eq_some_iff.1 done.result.symm
      obtain rfl := (Call.id_of_node? added).symm.trans named
      exact List.mem_append_right _ (Option.mem_toList.2 new)
  rw [done.nodes]
  exact List.mem_map.2 ⟨node, there, Call.relink_eq_of_kind noField noTransition⟩

theorem succeeded (made : next.Made) :
    Recorded ⟨next, building.log ++ [(call, .ok value)]⟩ where
  made := made
  ids := by
    rw [done.ids, recorded.ids, done.nextId, done.result]
    cases new : call.node? ⟨building.form.nodes.nextId⟩ with
    | none => exact List.append_nil _
    | some node =>
      rw [Option.map_some, Call.id_of_node? new]
      simp [List.range_succ]
  created := by
    rw [returned_concat, done.ids, recorded.created]
    rfl
  kept _ _ _ := recorded.kept_later done
  tells _ := recorded.tells_later done

end

theorem make (call : Call) (own : ∀ operation, call ≠ .onStore operation) :
    (building.make call).Recorded := by
  have made : (building.make call).form.Made :=
    building.form_make call ▸ recorded.made.call call own
  rw [make_eq] at made ⊢
  cases answered : call.answer building.form with
  | error error => exact recorded.failed call error
  | ok pair =>
    rw [answered] at made
    exact recorded.succeeded (call.done own recorded.coherent answered) made

end Recorded

theorem recorded_build (code : String) {calls : List Call}
    (own : ∀ call ∈ calls, ∀ operation, call ≠ .onStore operation) :
    (build code calls).Recorded := by
  induction calls using List.reverseRecOn with
  | nil => exact recorded_empty code
  | append_singleton calls call ih =>
    obtain ⟨before, last⟩ := List.forall_mem_append.1 own
    rw [build, List.foldl_concat]
    exact (ih before).make call (last call (List.mem_singleton_self call))

/-! ## Well-formed forms -/

/-- A form whose nodes are where they may be, and whose links are what the calls returned that made
them. -/
structure WellFormed (building : Building) : Prop where
  /-- Identifiers count up from zero, in the order of the nodes. -/
  ids : building.form.nodes.nodes.map Node.id =
    (List.range building.form.nodes.size).map NodeId.mk
  /-- The nodes are those that calls returned, in the order of the calls. -/
  created : building.form.nodes.nodes.map Node.id = returned (fun _ => true) building.log
  parents : ∀ node ∈ building.form.nodes.nodes, ∀ parent, node.parent = some parent →
    ∃ outer ∈ building.form.nodes.nodes, outer.id = parent ∧ parent.val < node.id.val
  /-- The way up from a node comes to an end, at a node without a parent. -/
  rooted : ∀ node ∈ building.form.nodes.nodes,
    ∃ path, Rooted building.form.nodes (some node.id) path
  steps : ∀ node ∈ building.form.nodes.nodes, node.kind.isStep = true →
    ∃ outer ∈ building.form.nodes.nodes, node.parent = some outer.id ∧
      outer.kind.isJourney = true
  journeys : ∀ node ∈ building.form.nodes.nodes, node.kind.isJourney = true →
    node.parent = none ∨ ∃ outer ∈ building.form.nodes.nodes, node.parent = some outer.id ∧
      outer.kind.isJourney = true
  transitions : ∀ node ∈ building.form.nodes.nodes, node.kind.isTransition = true →
    ∃ outer ∈ building.form.nodes.nodes, node.parent = some outer.id ∧
      outer.kind.isScope = true
  /-- The formatters of a field are functions in it: those that calls added to it, in the order of
  the calls. -/
  formatters : ∀ node ∈ building.form.nodes.nodes, ∀ definition,
    node.kind = .field definition →
      definition.formatters = returned (Call.formats node.id) building.log ∧
        ∀ id ∈ definition.formatters, ∃ name,
          ⟨id, some node.id, .function name []⟩ ∈ building.form.nodes.nodes
  effects : ∀ node ∈ building.form.nodes.nodes, ∀ definition,
    node.kind = .transition definition →
      definition.effects = returned (Call.affects node.id) building.log ∧
        ∀ id ∈ definition.effects, ∃ name,
          ⟨id, some node.id, .function name []⟩ ∈ building.form.nodes.nodes
  defaults : ∀ node ∈ building.form.nodes.nodes, ∀ definition,
    node.kind = .field definition → ∀ expression, definition.defaultValue = some expression →
      ∃ other ∈ building.form.nodes.nodes, other.id = expression
  sources : ∀ node ∈ building.form.nodes.nodes, ∀ definition,
    node.kind = .collection definition → ∀ expression, definition.source = some expression →
      (∃ other ∈ building.form.nodes.nodes, other.id = expression) ∧
        expression.val < node.id.val

namespace Recorded

variable {building : Building} (recorded : building.Recorded)
include recorded

theorem size_eq : building.form.nodes.size = building.form.nodes.nextId := by
  simpa [NodeStore.size] using congrArg List.length recorded.ids

/-- A node that is not a journey has a parent, which is there. -/
theorem exists_parent {node : Node} (member : node ∈ building.form.nodes.nodes)
    (noJourney : node.kind.isJourney = false) :
    ∃ outer ∈ building.form.nodes.nodes, node.parent = some outer.id ∧
      node.kind.Fits outer.kind := by
  cases above : node.parent with
  | none =>
    rw [(recorded.tells node member).top above] at noJourney
    cases noJourney
  | some parent =>
    obtain ⟨outer, there, rfl, -, fits⟩ := recorded.made.orderly.parents node member parent above
    exact ⟨outer, there, rfl, fits⟩

theorem wellFormed : building.WellFormed where
  ids := by rw [recorded.ids, recorded.size_eq]
  created := recorded.created.symm
  parents := by
    intro node member parent contained
    obtain ⟨outer, there, named, older, -⟩ :=
      recorded.made.orderly.parents node member parent contained
    exact ⟨outer, there, named, older⟩
  rooted node member := recorded.made.plain.wellPlaced.upright _ _
    (NodeStore.node?_of_mem recorded.coherent member)
  steps := by
    intro node member isStep
    have noJourney : node.kind.isJourney = false := by
      cases kind : node.kind <;> rw [kind] at isStep <;> first | rfl | cases isStep
    obtain ⟨outer, there, above, fits⟩ := recorded.exists_parent member noJourney
    refine ⟨outer, there, above, fits.scope ?_⟩
    rw [NodeKind.isScope, isStep, Bool.or_true]
  journeys := by
    intro node member isJourney
    cases above : node.parent with
    | none => exact .inl rfl
    | some parent =>
      obtain ⟨outer, there, rfl, -, fits⟩ :=
        recorded.made.orderly.parents node member parent above
      refine .inr ⟨outer, there, rfl, fits.scope ?_⟩
      rw [NodeKind.isScope, isJourney, Bool.true_or]
  transitions := by
    intro node member isTransition
    have noJourney : node.kind.isJourney = false := by
      cases kind : node.kind <;> rw [kind] at isTransition <;> first | rfl | cases isTransition
    obtain ⟨outer, there, above, fits⟩ := recorded.exists_parent member noJourney
    exact ⟨outer, there, above, fits.transition isTransition⟩
  formatters := by
    intro node member definition kind
    have listed := (recorded.tells node member).formatters definition kind
    refine ⟨listed, fun id linked => ?_⟩
    rw [listed] at linked
    exact recorded.linked (Call.links_formats node.id) linked
  effects := by
    intro node member definition kind
    have listed := (recorded.tells node member).effects definition kind
    refine ⟨listed, fun id linked => ?_⟩
    rw [listed] at linked
    exact recorded.linked (Call.links_affects node.id) linked
  defaults _ member definition kind expression set :=
    recorded.exists_of_lt ((recorded.tells _ member).default definition kind expression set)
  sources := by
    intro node member definition kind expression sourced
    have older := (recorded.tells node member).source definition kind expression sourced
    exact ⟨recorded.exists_of_lt (older.trans (recorded.coherent.below node member)), older⟩

end Recorded

end Building

/-- **Building calls keep a form well-formed**, whichever of them fail. The form is the one that
their functions return, and a further call that fails leaves it as it is. -/
theorem build_wellFormed (code : String) (calls : List Call)
    (own : ∀ call ∈ calls, ∀ operation, call ≠ .onStore operation) :
    (build code calls).WellFormed ∧
      (build code calls).form = calls.foldl Call.applyTo (.empty code) ∧
      ∀ call error, (call.writes.outcome (build code calls).form.nodes).1 = .error error →
        ((build code calls).make call).form = (build code calls).form := by
  refine ⟨(Building.recorded_build code own).wellFormed, Building.form_build code calls, ?_⟩
  intro call error failed
  have left := (call.does (build code calls).form).unchanged failed
  rw [Building.make, left]

namespace Visit

/-- Formatters and effects are added, a default value and a source set. Four calls in between fail:
a step takes no formatter, one expression is not there, a field takes no transition, and a step no
other step. -/
def calls : List Call := [
  .addJourney none "visit",
  .addStep ⟨0⟩ "/when",
  .addField ⟨1⟩ "day" "text",
  .addFormatter ⟨2⟩ "trim",
  .addFormatter ⟨1⟩ "trim",
  .addReference ⟨1⟩ ["data", "days"],
  .addFormatter ⟨2⟩ "lowercase",
  .setDefaultValue ⟨2⟩ ⟨9⟩,
  .setDefaultValue ⟨2⟩ ⟨4⟩,
  .addCollection ⟨1⟩ "days" (some ⟨4⟩),
  .addTransition ⟨2⟩ .load,
  .addTransition ⟨1⟩ .load,
  .addEffect ⟨7⟩ "store",
  .addStep ⟨1⟩ "/where"]

theorem own : ∀ call ∈ calls, ∀ operation, call ≠ .onStore operation := by
  intro call member operation same
  subst same
  simp [calls] at member

/-- What the calls return. Only the two formatters that were added to the field are linked to it. -/
theorem visit_wellFormed : (build "visit" calls).WellFormed ∧
    (build "visit" calls).log.map Prod.snd = [
      .ok (some ⟨0⟩), .ok (some ⟨1⟩), .ok (some ⟨2⟩), .ok (some ⟨3⟩),
      .error (.unexpectedKind ⟨1⟩ "field" "step"), .ok (some ⟨4⟩), .ok (some ⟨5⟩),
      .error (.nodeNotFound ⟨9⟩), .ok none, .ok (some ⟨6⟩),
      .error (.unexpectedKind ⟨2⟩ "step or journey" "field"), .ok (some ⟨7⟩), .ok (some ⟨8⟩),
      .error (.unexpectedKind ⟨1⟩ "journey" "step")] ∧
    returned (Call.formats ⟨2⟩) (build "visit" calls).log = [⟨3⟩, ⟨5⟩] :=
  ⟨(build_wellFormed "visit" calls own).1, by decide +kernel, by decide +kernel⟩

end Visit

end Form

end FormFlow
