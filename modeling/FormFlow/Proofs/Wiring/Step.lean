import FormFlow.Proofs.Wiring.Readers

/-!
# Wiring a step

Each family goes over the pseudo-nodes of a step and over an index of its references, and so
offers what the nodes of the step ask for one by one (`Family.draft_collects`). The check of the
references inside templates adds failures only, so the draft of a step does the same
(`Pass.stepDraft_collects`).
-/

set_option autoImplicit false

namespace FormFlow

open NodeSource

section Families

variable {ctx : WiringContext NodeStore}

/-- The key that a reference into a namespace asks for. -/
def WiringContext.keyFor? {σ : Type} [NodeSource σ] (ctx : WiringContext σ) (space : Namespace)
    (id : NodeId) : Option String :=
  (ctx.expression? id).bind fun expression => expression.lookupKey? space

theorem Reference.isIn_of_lookupKey? {expression : Reference} {space : Namespace} {key : String}
    (found : expression.lookupKey? space = some key) : expression.isIn space = true := by
  simp only [Reference.lookupKey?] at found
  split at found
  · assumption
  · cases found

variable (settled : ctx.Settled)
include settled

theorem WiringContext.mem_get_build_iff {space : Namespace} (plain : space ≠ .item)
    {index : ReferenceIndex} (built : ReferenceIndex.build ctx space = .ok index) (id : NodeId)
    (key : String) : id ∈ index.get key ↔ ctx.Ready id ∧ ctx.keyFor? space id = some key := by
  rw [ReferenceIndex.mem_get_build built]
  simp only [keyFor?]
  simp only [mem_references_iff settled plain, Option.bind_eq_some_iff]
  constructor
  · rintro ⟨expression, ⟨ready, known, _⟩, found⟩
    exact ⟨ready, expression, known, found⟩
  · rintro ⟨ready, expression, known, found⟩
    exact ⟨expression, ⟨ready, known, Reference.isIn_of_lookupKey? found⟩, found⟩

/-- With an index, no reference of the step lacks its key against the policy. -/
theorem WiringContext.ofKey_of_build {space : Namespace} (plain : space ≠ .item)
    {index : ReferenceIndex} (built : ReferenceIndex.build ctx space = .ok index) {id : NodeId}
    (ready : ctx.Ready id) (make : NodeId × String → Draft) :
    ctx.ofKey space id make = match ctx.keyFor? space id with
      | some key => make (id, key)
      | none => [] := by
  simp only [keyFor?]
  cases known : ctx.expression? id with
  | none =>
    simp only [ofKey, ofReference]
    simp only [expression?] at known
    rw [known]
    rfl
  | some expression =>
    simp only [ofKey, ofReference]
    have found : (node? ctx.nodes id).bind (fun node => node.kind.reference?) = some expression :=
      known
    rw [found]
    dsimp only [Option.bind_some]
    split
    · rename_i within
      obtain ⟨entry, keyed⟩ := ReferenceIndex.keyOf_of_build built
        ((mem_references_iff settled plain).2 ⟨ready, known, within⟩)
      rw [keyed]
      rcases ctx.keyOf_eq_ok_iff.1 keyed with ⟨key, same, rfl⟩ | ⟨absent, _, rfl⟩
      · rw [same]
        rfl
      · rw [absent]
        rfl
    · rename_i outside
      rw [Reference.lookupKey?, if_neg outside]

/-- A keyed source collects what the nodes of the step ask it for. -/
theorem KeyedSource.draft_collects (source : KeyedSource) (plain : source.kind.reads ≠ .item) :
    (source.draft ctx).Collects ctx.Ready (source.single ctx) := by
  simp only [KeyedSource.draft]
  cases built : ReferenceIndex.build ctx source.kind.reads with
  | error error => exact .ofFailure (by simp [Draft.after, Draft.failure?])
  | ok index =>
    have collects := ctx.pseudos_collect settled source.family source.kind source.kind.reads
      (fun id definition => source.producers ctx id definition.key) index.get
      (ctx.keyFor? source.kind.reads)
      (fun id definition => producers_into ctx id source definition.key)
      (ctx.mem_get_build_iff settled plain built)
      (fun id key asked => (Option.bind_eq_some_iff.1 asked).imp fun _ => And.left)
    refine collects.congr (fun _ => .rfl) fun id ready => ?_
    rw [KeyedSource.single, ctx.ofKey_of_build settled plain built ready]
    rfl

/-- The answers collect what the nodes of the step ask them for. A reference is found by the
local answer if there is one, and by the remote one otherwise. -/
theorem Answer.draft_collects : (Answer.draft ctx).Collects ctx.Ready (Answer.single ctx) := by
  simp only [Answer.draft]
  cases built : ReferenceIndex.build ctx .answers with
  | error error => exact .ofFailure (by simp [Draft.after, Draft.failure?])
  | ok index =>
    have reads := ctx.mem_get_build_iff settled (by decide : Namespace.answers ≠ .item) built
    have references : ∀ id key, ctx.keyFor? .answers id = some key →
        ∃ expression, ctx.expression? id = some expression :=
      fun id key asked => (Option.bind_eq_some_iff.1 asked).imp fun _ => And.left
    have locals := ctx.pseudos_collect settled .answer .answerLocal .answers (localProducers ctx)
      index.get (ctx.keyFor? .answers) (fun id => localProducers_into ctx id) reads references
    -- The remote answer of a key is passed over if there is a local one.
    have remotes := ctx.pseudos_collect settled .answer .answerRemote .answers
      (fun id definition => ctx.load .answer id definition.key)
      (fun key => if (ctx.find? .answerLocal key).isSome then [] else index.get key)
      (fun id => (ctx.keyFor? .answers id).filter fun key => (ctx.find? .answerLocal key).isNone)
      (fun id definition => ctx.load_into id .answer definition.key)
      (by
        intro id key
        simp only [Option.filter_eq_some_iff]
        cases ctx.find? .answerLocal key with
        | some answer => simp
        | none => simp [reads id key])
      (by
        intro id key asked
        exact references id key (Option.filter_eq_some_iff.1 asked).1)
    have passed : (ctx.pseudoIds .answerRemote).flatMap (remoteNode ctx index) =
        (ctx.pseudoIds .answerRemote).flatMap fun id => Draft.after (ctx.pseudo id)
          fun definition => ctx.load .answer id definition.key ++
            ctx.feed .answer id definition.key .answers
              (if (ctx.find? .answerLocal definition.key).isSome then []
                else index.get definition.key) := by
      apply List.flatMap_congr
      intro id _
      simp only [remoteNode]
      congr 1
      funext definition
      split <;> rfl
    change Draft.Collects ((ctx.pseudoIds .answerLocal).flatMap (localNode ctx index) ++
      (ctx.pseudoIds .answerRemote).flatMap (remoteNode ctx index)) _ _
    rw [passed]
    refine (locals.append remotes).congr (fun _ => .rfl) fun id ready => ?_
    rw [Answer.single, ctx.ofKey_of_build settled (by decide) built ready]
    cases asked : ctx.keyFor? .answers id with
    | none => simp [WiringContext.lookUp]
    | some key =>
      -- What asks for a key is a reference and no pseudo-node.
      have plain : ctx.definition? id = none := by
        obtain ⟨expression, known⟩ := references id key asked
        cases found : ctx.definition? id with
        | none => rfl
        | some definition =>
          rw [ctx.expression?_of_definition? found] at known
          cases known
      simp only [ctx.ofPseudo_eq, plain, List.nil_append]
      simp only [WiringContext.lookUp, reader, target?]
      cases found : ctx.find? .answerLocal key with
      | some answer => simp [Option.filter, found]
      | none =>
        simp only [Option.filter, found, Option.isNone_none, if_true, Option.orElse_none]
        rfl

/-- A reference to an item asks for the item of the nearest collection or iteration. -/
def Item.keyFor? {σ : Type} [NodeSource σ] (ctx : WiringContext σ) (id : NodeId) :
    Option String :=
  (ctx.expression? id).bind fun expression =>
    if expression.isIn .item then scopeKey? ctx.nodes id else none

omit settled in
theorem Item.ofReference_eq (id : NodeId) :
    ctx.ofReference .item id (fun _ => reader ctx id) =
      ctx.lookUp .item .item .item id (keyFor? ctx id) := by
  simp only [WiringContext.ofReference, keyFor?, WiringContext.expression?]
  cases (node? ctx.nodes id).bind (fun node => node.kind.reference?) with
  | none => rfl
  | some expression =>
    dsimp only [Option.bind_some]
    split
    · simp only [reader, WiringContext.lookUp]
      cases scopeKey? ctx.nodes id <;> rfl
    · rfl

/-- The items collect what the nodes of the step ask them for. -/
theorem Item.draft_collects : (Item.draft ctx).Collects ctx.Ready (Item.single ctx) := by
  have references : ∀ id key, keyFor? ctx id = some key →
      ∃ expression, ctx.expression? id = some expression :=
    fun id key asked => (Option.bind_eq_some_iff.1 asked).imp fun _ => And.left
  have reads : ∀ id key, id ∈ (index ctx).get key ↔ ctx.Ready id ∧ keyFor? ctx id = some key := by
    intro id key
    rw [index, keyFor?, ReferenceIndex.mem_get_ofKeys, List.mem_filterMap, Option.bind_eq_some_iff]
    constructor
    · rintro ⟨⟨other, expression⟩, member, found⟩
      obtain ⟨name, found, same⟩ := Option.map_eq_some_iff.1 found
      cases same
      obtain ⟨ready, known, within, _⟩ := (ctx.mem_templateReferences_iff settled).1 member
      exact ⟨ready, expression, known, by rw [if_pos within]; exact found⟩
    · rintro ⟨ready, expression, known, found⟩
      obtain ⟨within, scopedKey⟩ := Option.ite_none_right_eq_some.1 found
      refine ⟨(id, expression), (ctx.mem_templateReferences_iff settled).2
        ⟨ready, known, within, ?_⟩, by rw [scopedKey]; rfl⟩
      -- Only a reference below a collection or an iteration has such a key.
      simp only [scopeKey?] at scopedKey
      simp only [Option.bind_eq_bind, Option.bind_eq_some_iff] at scopedKey
      obtain ⟨node, present, outer, repeated, _⟩ := scopedKey
      exact ⟨node, present, by unfold inTemplate; rw [repeated]; rfl⟩
  have collects := ctx.pseudos_collect settled .item .item .item (producer ctx) (index ctx).get
    (keyFor? ctx) (fun id => producer_into ctx id) reads references
  refine collects.congr (fun _ => .rfl) fun id _ => ?_
  rw [Item.single, Item.ofReference_eq]

/-- The references to the enclosing field ask for themselves. -/
theorem SelfValue.draft_collects :
    (SelfValue.draft ctx).Collects ctx.Ready (SelfValue.single ctx) := by
  have listed : SelfValue.draft ctx =
      ((ctx.references .selfValue).map Prod.fst).flatMap (reader ctx) := by
    rw [List.flatMap_map]
    rfl
  have references : ∀ id, id ∈ (ctx.references .selfValue).map Prod.fst ↔ ∃ expression,
      ctx.Ready id ∧ ctx.expression? id = some expression ∧
        expression.isIn .selfValue = true := by
    intro id
    rw [List.mem_map]
    constructor
    · rintro ⟨⟨other, expression⟩, member, rfl⟩
      exact ⟨expression, (ctx.mem_references_iff settled (by decide)).1 member⟩
    · rintro ⟨expression, known⟩
      exact ⟨(id, expression), (ctx.mem_references_iff settled (by decide)).2 known, rfl⟩
  have asks : ∀ id, SelfValue.single ctx id = (ctx.expression? id).elim [] fun expression =>
      if expression.isIn .selfValue then reader ctx id else [] := by
    intro id
    simp only [SelfValue.single, WiringContext.ofReference, WiringContext.expression?]
    cases (node? ctx.nodes id).bind (fun node => node.kind.reference?) <;> rfl
  rw [listed]
  refine (Draft.Collects.ofNodes fun id _ => reader_into ctx id).extend ?_ ?_ ?_
  · intro id member
    obtain ⟨_, ready, _⟩ := (references id).1 member
    exact ready
  · intro id member
    obtain ⟨expression, _, known, within⟩ := (references id).1 member
    rw [asks, known]
    exact (if_pos within).symm
  · intro id ready absent
    rw [asks]
    cases known : ctx.expression? id with
    | none => rfl
    | some expression =>
      exact if_neg fun within => absent ((references id).2 ⟨expression, ready, known, within⟩)

/-- Every family collects what the nodes of the step ask it for. -/
theorem Family.draft_collects (family : Family) :
    (family.draft ctx).Collects ctx.Ready (family.single ctx) := by
  cases family with
  | post => exact KeyedSource.draft_collects settled _ (by decide)
  | query => exact KeyedSource.draft_collects settled _ (by decide)
  | params => exact KeyedSource.draft_collects settled _ (by decide)
  | data => exact KeyedSource.draft_collects settled _ (by decide)
  | answer => exact Answer.draft_collects settled
  | selfValue => exact SelfValue.draft_collects settled
  | item => exact Item.draft_collects settled

/-- The draft of a step collects what its nodes ask for. -/
theorem Pass.stepDraft_collects :
    (stepDraft ctx).Collects ctx.Ready (single ctx) := by
  have check : ctx.templateCheck.Collects ctx.Ready fun _ => [] := by
    -- The check consists of errors: if it does not fail it is empty.
    simp only [WiringContext.templateCheck]
    cases ctx.members.templateReferences.filterMap ctx.templateFault? with
    | nil => exact .nil
    | cons error rest => exact .ofFailure (by simp [Draft.failure?])
  have families : Draft.Collects (Family.all.flatMap fun family => family.draft ctx) ctx.Ready
      (single ctx) := .flatMap fun family _ => family.draft_collects settled
  exact check.append families

end Families

end FormFlow
