import FormFlow.Proofs.Request.Connection
import Mathlib.Data.List.Induction

/-!
# What references are bound to

After any calls, successful or not, every reference has the one edge that it is due, or none
(`RequestScope.run_binds`). Which pseudo-node it reads was settled by the call that made the
reference, or by the wiring of the form (`RequestScope.Born`): nothing that comes later adds an
edge to it or takes one away.
-/

set_option autoImplicit false

namespace FormFlow

open NodeSource

/-- What a reference reads depends on the pseudo-nodes that were made only. -/
theorem Pass.readOf?_of_pseudo? {σ τ υ : Type} [NodeSource σ] [NodeSource τ] [NodeSource υ]
    {made : σ} {other : τ} (same : ∀ identity, pseudo? made identity = pseudo? other identity)
    (nodes : υ) (step : NodeId) (node : Node) (expression : Reference) :
    readOf? made nodes step node expression = readOf? other nodes step node expression := by
  have identities : ∀ space, identityOf? made step space = identityOf? other step space := by
    intro space
    funext key
    simp only [identityOf?]
    simp only [same]
  simp only [readOf?]
  simp only [identities]

/-- A pseudo-node that is looked up in layers is there, with the identity that was asked for. -/
theorem Layered.node?_of_pseudo? {base overlay : NodeStore} (coherent : base.Coherent)
    (anchored : base.Anchored overlay) {identity : PseudoKey} {id : NodeId}
    (found : pseudo? ⟨base, overlay⟩ identity = some id) :
    ∃ node, node? ⟨base, overlay⟩ id = some node ∧ node.identity? = some identity := by
  unfold pseudo? at found
  dsimp only at found
  cases lower : base.pseudo? identity with
  | some other =>
    rw [lower] at found
    cases found
    obtain ⟨node, present, same⟩ := (NodeStore.pseudo?_eq_some_iff coherent).1 lower
    exact ⟨node, anchored.node?_base coherent present, same⟩
  | none =>
    rw [lower] at found
    obtain ⟨node, present, same⟩ := (NodeStore.pseudo?_eq_some_iff anchored.coherent).1 found
    exact ⟨node, node?_eq_some_iff.2 (.inl present), same⟩

namespace RequestScope

/-- The edges into a reference: none, or one from the pseudo-node with an identity. -/
def Bound (request : RequestScope) (id : NodeId) (expression : Reference) :
    Option PseudoKey → Prop
  | none => request.edgesTo id = []
  | some identity => ∃ edge source, request.edgesTo id = [edge] ∧
    request.layers.pseudo? identity = some edge.producer ∧
    request.layers.node? edge.producer = some source ∧ source.identity? = some identity ∧
    edge.role = .dataFlow ∧ edge.metadata = ⟨some identity.key, none, expression.selected?⟩

/-- A reference that is connected is bound to what it reads. -/
theorem Connected.bound {request : RequestScope} (grounded : Grounded request.wired)
    (settled : Settled request) {made : Layered} {step id : NodeId} {node : Node}
    {expression : Reference} (connected : Connected request made step id node expression) :
    request.Bound id expression (Pass.readOf? made request.layers step node expression) := by
  cases reads : Pass.readOf? made request.layers step node expression with
  | none =>
    rw [Bound, ← edgesTo_joined]
    apply DependencyGraph.edgesTo_eq_nil
    intro triple into
    apply Option.eq_none_iff_forall_ne_some.2
    intro metadata found
    obtain ⟨_, known, _⟩ := (connected.connections triple metadata into).1 found
    cases reads.symm.trans known
  | some identity =>
    obtain ⟨producer, found⟩ := connected.present identity reads
    obtain ⟨source, present, same⟩ :=
      Layered.node?_of_pseudo? grounded.coherent settled.anchored found
    obtain ⟨edge, edges, triple, metadata⟩ := DependencyGraph.edgesTo_eq_singleton
      (settled.nodup_joined grounded) ⟨producer, id, .dataFlow⟩
      ⟨some identity.key, none, expression.selected?⟩ (by
        intro other known into
        rw [connected.connections other known into, reads]
        obtain ⟨from_, consumer, role⟩ := other
        constructor
        · rintro ⟨_, ⟨⟩, there, rfl, rfl, rfl⟩
          cases found.symm.trans there
          exact ⟨rfl, rfl⟩
        · rintro ⟨⟨⟩, rfl⟩
          exact ⟨identity, rfl, found, rfl, rfl, rfl⟩)
    rw [edgesTo_joined] at edges
    obtain ⟨rfl, _, role⟩ := Triple.mk.inj triple
    exact ⟨edge, source, edges, found, present, same, role, metadata⟩

/-! ## A request over a plain form -/

section

variable {form : Form} {config : WiringConfig} {wired : WiredForm}
  (registered : WiredForm.Registered form config wired) (coherent : form.nodes.Coherent)
  (plain : form.Plain)
include registered coherent plain

theorem grounded_of_registered : Grounded wired where
  coherent := registered.coherent coherent
  upright := (registered.wellPlaced coherent plain).upright
  distinct := registered.nodup_triples
  consumers := by
    intro triple metadata found
    rw [registered.metadata?_eq coherent (registered.unchanged coherent plain)
      plain.iterations] at found
    split at found
    · rename_i within
      obtain ⟨_, _, ⟨node, present⟩, _⟩ := within
      exact NodeStore.id_lt_nextId (registered.coherent coherent) present
    · cases found

omit registered coherent plain in
theorem node?_start (id : NodeId) :
    node? (start wired).layers id = node? wired.form.nodes id := rfl

omit registered coherent plain in
theorem pseudo?_start (identity : PseudoKey) :
    pseudo? (start wired).layers identity = pseudo? wired.form.nodes identity := by
  change ((wired.form.nodes.pseudo? identity).orElse fun _ => none) =
    wired.form.nodes.pseudo? identity
  cases wired.form.nodes.pseudo? identity <;> rfl

theorem settled_start : Settled (start wired) := by
  have base := registered.wellPlaced coherent plain
  have anchored := NodeStore.anchored_startingAt wired.form.nodes
  have shown : Shows wired.form.nodes (start wired).layers :=
    Layered.shows_base (registered.coherent coherent) anchored
  have upright : Upright (start wired).layers :=
    Layered.upright (registered.coherent coherent) anchored base.upright
  refine
    { anchored := anchored
      placed := base.extend shown upright fun id node found => .inl (node?_start id ▸ found)
      furnished := ?_
      distinct := List.nodup_nil
      consumers := nofun }
  refine (registered.furnished coherent plain).extend shown base.upright
    (fun id node _ found _ _ => .inl (node?_start id ▸ found)) ?_
  rintro step key ⟨id, found⟩
  exact .inl ⟨id, pseudo?_start _ ▸ found⟩

/-- Wiring a form connects its references. -/
theorem connected_start {step id : NodeId} {node : Node} {expression : Reference}
    (found : node? (start wired).layers id = some node)
    (isReference : node.kind = .reference expression)
    (owned : owningStep? (start wired).layers id = some step) :
    Connected (start wired) (start wired).layers step id node expression := by
  have settled := settled_start registered coherent plain
  have base := registered.wellPlaced coherent plain
  have lower : node? wired.form.nodes id = some node := node?_start id ▸ found
  have shown : Shows wired.form.nodes (start wired).layers :=
    Layered.shows_base (registered.coherent coherent) settled.anchored
  have within : owningStep? wired.form.nodes id = some step :=
    (shown.owningStep?_eq base.upright lower).symm.trans owned
  have reads : Pass.readOf? (start wired).layers (start wired).layers step node expression =
      Pass.readOf? wired.form.nodes wired.form.nodes step node expression := by
    rw [Pass.readOf?_of_shows shown base.upright lower]
    exact Pass.readOf?_of_pseudo? pseudo?_start ..
  refine ⟨?_, ?_⟩
  · intro identity known
    exact Pass.hasPseudo_of_readOf? settled.placed settled.furnished found isReference owned known
  · intro triple metadata into
    have own : (start wired).joined.metadata? triple = wired.graph.metadata? triple := by
      rw [metadata?_joined]
      exact Option.or_none
    rw [own, reads, registered.metadata?_reference coherent plain lower isReference within into]
    simp only [Pass.Binds]
    simp only [pseudo?_start]

end

/-! ## After any calls -/

/-- A request after calls to make iterations, each by a collection and an index. -/
def run (wired : WiredForm) (calls : List (NodeId × Nat)) : RequestScope :=
  calls.foldl (fun request call => (request.materialize call.1 call.2).1) (start wired)

/-- The number of calls after which a node is there. -/
structure Born (wired : WiredForm) (calls : List (NodeId × Nat)) (birth : Nat) (id : NodeId) :
    Prop where
  within : birth ≤ calls.length
  there : (run wired (calls.take birth)).layers.Has id
  first : ∀ earlier < birth, ¬(run wired (calls.take earlier)).layers.Has id

theorem run_concat (wired : WiredForm) (calls : List (NodeId × Nat)) (call : NodeId × Nat) :
    run wired (calls ++ [call]) = ((run wired calls).materialize call.1 call.2).1 := by
  simp [run, List.foldl_append]

theorem wired_materialize (request : RequestScope) (collection : NodeId) (index : Nat) :
    (request.materialize collection index).1.wired = request.wired := by
  unfold materialize
  split
  · rfl
  · dsimp only
    split <;> rfl

theorem wired_run (wired : WiredForm) (calls : List (NodeId × Nat)) :
    (run wired calls).wired = wired := by
  induction calls using List.reverseRecOn with
  | nil => rfl
  | append_singleton calls call ih => rw [run_concat, wired_materialize, ih]

/-- The answers of a request play no part in making an iteration. -/
theorem materialize_withAnswers (request : RequestScope) (answers : AnswerHistory)
    (collection : NodeId) (index : Nat) :
    ({ request with answers } : RequestScope).materialize collection index =
      ({ (request.materialize collection index).1 with answers },
        (request.materialize collection index).2) := by
  simp only [materialize, iteration?]
  cases request.iterations.find? fun it => it.collection = collection && it.index = index with
  | some found => rfl
  | none => cases (build request.wired request.overlay collection index).result <;> rfl

/-- A request is what its calls make of it, whatever is answered in between. -/
theorem Reachable.exists_calls {wired : WiredForm} {request : RequestScope}
    (reached : Reachable wired request) :
    ∃ calls, request = { run wired calls with answers := request.answers } := by
  induction reached with
  | start => exact ⟨[], rfl⟩
  | @materialize request collection index _ ih =>
    obtain ⟨calls, same⟩ := ih
    refine ⟨calls ++ [(collection, index)], ?_⟩
    rw [run_concat, same, materialize_withAnswers]
  | answer answers _ ih =>
    obtain ⟨calls, same⟩ := ih
    refine ⟨calls, ?_⟩
    rw [same]

theorem Born.append {wired : WiredForm} {calls : List (NodeId × Nat)} {birth : Nat} {id : NodeId}
    (born : Born wired calls birth id) (more : List (NodeId × Nat)) :
    Born wired (calls ++ more) birth id := by
  have same : ∀ earlier ≤ birth, (calls ++ more).take earlier = calls.take earlier :=
    fun earlier le => List.take_append_of_le_length (Nat.le_trans le born.within)
  refine ⟨?_, ?_, ?_⟩
  · rw [List.length_append]
    exact Nat.le_add_right_of_le born.within
  · rw [same birth (Nat.le_refl _)]
    exact born.there
  · intro earlier before
    rw [same earlier (Nat.le_of_lt before)]
    exact born.first earlier before

section

variable {wired : WiredForm} (grounded : Grounded wired) (started : Settled (start wired))
include grounded started

theorem settled_run (calls : List (NodeId × Nat)) : Settled (run wired calls) := by
  induction calls using List.reverseRecOn with
  | nil => exact started
  | append_singleton calls call ih =>
    rw [run_concat]
    exact (ih.materialize ((wired_run wired calls).symm ▸ grounded) call.1 call.2).1

/-- What a request shows stays. -/
theorem run_shows (calls more : List (NodeId × Nat)) :
    Shows (run wired calls).layers (run wired (calls ++ more)).layers := by
  induction more using List.reverseRecOn with
  | nil =>
    rw [List.append_nil]
    exact .refl _
  | append_singleton more call ih =>
    rw [← List.append_assoc, run_concat]
    exact ih.trans ((settled_run grounded started (calls ++ more)).materialize
      ((wired_run wired _).symm ▸ grounded) call.1 call.2).2

/-- A node that a call makes is born with it. -/
theorem Born.last {calls : List (NodeId × Nat)} {call : NodeId × Nat} {id : NodeId}
    (there : (run wired (calls ++ [call])).layers.Has id)
    (absent : ¬(run wired calls).layers.Has id) :
    Born wired (calls ++ [call]) (calls.length + 1) id := by
  have whole : (calls ++ [call]).take (calls.length + 1) = calls ++ [call] :=
    List.take_of_length_le (by simp)
  refine ⟨by simp, by rwa [whole], ?_⟩
  rintro earlier before ⟨node, found⟩
  rw [List.take_append_of_le_length (Nat.le_of_lt_succ before)] at found
  have later := (run_shows grounded started (calls.take earlier) (calls.drop earlier)).node id node
    found
  rw [List.take_append_drop] at later
  exact absent ⟨node, later⟩

/-- Every reference stays connected from its birth on. -/
theorem run_connected
    (initial : ∀ step id node expression, node? (start wired).layers id = some node →
      node.kind = .reference expression → owningStep? (start wired).layers id = some step →
        Connected (start wired) (start wired).layers step id node expression)
    (calls : List (NodeId × Nat)) {step id : NodeId} {node : Node} {expression : Reference}
    (found : node? (run wired calls).layers id = some node)
    (isReference : node.kind = .reference expression)
    (owned : owningStep? (run wired calls).layers id = some step) :
    ∃ birth, Born wired calls birth id ∧
      Connected (run wired calls) (run wired (calls.take birth)).layers step id node
        expression := by
  induction calls using List.reverseRecOn with
  | nil =>
    refine ⟨0, ⟨Nat.le_refl _, ⟨node, found⟩, nofun⟩, ?_⟩
    exact initial step id node expression found isReference owned
  | append_singleton calls call ih =>
    have settled := settled_run grounded started calls
    have ground : Grounded (run wired calls).wired := (wired_run wired calls).symm ▸ grounded
    have shown := run_shows grounded started calls [call]
    by_cases known : (run wired calls).layers.Has id
    · obtain ⟨other, old⟩ := known
      cases (shown.node id other old).symm.trans found
      obtain ⟨birth, born, connected⟩ :=
        ih old ((shown.owningStep?_eq settled.placed.upright old).symm.trans owned)
      refine ⟨birth, born.append [call], ?_⟩
      rw [List.take_append_of_le_length born.within, run_concat]
      exact connected.materialize ground settled old call.1 call.2
    · refine ⟨calls.length + 1, Born.last grounded started ⟨node, found⟩ known, ?_⟩
      rw [List.take_of_length_le (by simp)]
      rw [run_concat] at found owned ⊢
      exact (settled.connects ground call.1 call.2 found isReference owned).resolve_left
        fun old => known ⟨node, old⟩

end

/-- **After any calls, every reference of a plain form or of its iterations is bound to the
pseudo-node that it reads, and to nothing else.** An answer counts as local if its pseudo-node was
there when the reference was wired. -/
theorem run_binds {form : Form} {config : WiringConfig} {wired : WiredForm} (built : form.Built)
    (plain : form.Plain) (wiring : WiredForm.wire form config = .ok wired)
    (calls : List (NodeId × Nat)) {step id : NodeId} {node : Node} {expression : Reference}
    (found : (run wired calls).layers.node? id = some node)
    (isReference : node.kind = .reference expression)
    (owned : owningStep? (run wired calls).layers id = some step) :
    ∃ birth, Born wired calls birth id ∧
      (run wired calls).Bound id expression
        (Pass.readOf? (run wired (calls.take birth)).layers (run wired calls).layers step node
          expression) := by
  have registered := WiredForm.wire_spec wiring
  have grounded := grounded_of_registered registered built.coherent plain
  have started := settled_start registered built.coherent plain
  obtain ⟨birth, born, connected⟩ := run_connected grounded started
    (fun _ _ _ _ => connected_start registered built.coherent plain) calls found isReference owned
  exact ⟨birth, born, connected.bound ((wired_run wired calls).symm ▸ grounded)
    (settled_run grounded started calls)⟩

/-! ### A copy that reads the answer next to it -/

namespace Guests

def form : Form :=
  ⟨"survey", {
    nodes := [
      ⟨⟨0⟩, none, .journey "survey"⟩,
      ⟨⟨1⟩, some ⟨0⟩, .step "/guests"⟩,
      ⟨⟨2⟩, some ⟨1⟩, .collection ⟨"guest", none⟩⟩,
      ⟨⟨3⟩, some ⟨2⟩, .field ⟨"name", "text", [], none⟩⟩,
      ⟨⟨4⟩, some ⟨2⟩, .reference ⟨["answers", "name"]⟩⟩]
    containment := [(⟨0⟩, ⟨1⟩), (⟨1⟩, ⟨2⟩), (⟨2⟩, ⟨3⟩), (⟨2⟩, ⟨4⟩)]
    references := [⟨4⟩]
    identities := []
    nextId := 5 }⟩

theorem built : form.Built := by
  have journey := Form.Built.addJourney (.empty "survey")
    (rfl : Form.addJourney _ none "survey" = .ok (_, ⟨0⟩))
  have step := journey.addStep (rfl : Form.addStep _ ⟨0⟩ "/guests" = .ok (_, ⟨1⟩))
  have collection := step.addCollection
    (rfl : Form.addCollection _ ⟨1⟩ "guest" none = .ok (_, ⟨2⟩))
  have field := collection.addField (rfl : Form.addField _ ⟨2⟩ "name" "text" = .ok (_, ⟨3⟩))
  exact field.addReference (rfl : Form.addReference _ ⟨2⟩ ["answers", "name"] = .ok (_, ⟨4⟩))

theorem plain : form.Plain :=
  .ofNodes NodeId.val (by decide) (by decide) (by decide) (by decide) (by decide)

def wired : WiredForm := (WiredForm.wire form .default).toOption.getD default

/-- A call for a collection that is not there, and one for the guests. -/
def calls : List (NodeId × Nat) := [(⟨9⟩, 0), (⟨2⟩, 0)]

theorem copy_bound : ∃ birth, Born wired calls birth ⟨8⟩ ∧
    (run wired calls).Bound ⟨8⟩ ⟨["answers", "guest_0_name"]⟩
      (Pass.readOf? (run wired (calls.take birth)).layers (run wired calls).layers ⟨1⟩
        ⟨⟨8⟩, some ⟨6⟩, .reference ⟨["answers", "guest_0_name"]⟩⟩
        ⟨["answers", "guest_0_name"]⟩) :=
  run_binds built plain rfl calls rfl rfl rfl

/-- The copy reads the answer to the copied field. -/
example : (run wired calls).edgesTo ⟨8⟩ =
    [⟨⟨1⟩, ⟨10⟩, ⟨8⟩, .dataFlow, ⟨some "guest_0_name", none, some .answers⟩⟩] := by rfl

end Guests

end RequestScope

end FormFlow
