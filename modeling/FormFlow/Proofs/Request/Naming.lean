import FormFlow.Proofs.Graph.Property
import FormFlow.Proofs.Request.OwnAnswers

/-!
# Names that are made

Three families of names are put together from parts: the keys of items, the codes that iterations
give to fields, and the properties of producers. A number in such a name is written in decimal
digits and ends at a character that is no digit, so the parts are known from the name, even though
the code of a field, which stands last, may be any text (`Renaming.join_openingOf_inj`).

The new codes of an iteration are therefore distinct, and those of two iterations of one collection
have none in common (`RequestScope.run_renamed_apart`). All families are put together in
`names_apart`.
-/

set_option autoImplicit false

namespace FormFlow

open NodeSource

namespace Renaming

/-- A new code tells the index of the iteration and the old code. -/
theorem join_openingOf_inj {code one other : String} {index position : Nat}
    (same : join (openingOf code index) one = join (openingOf code position) other) :
    index = position ∧ one = other := by
  have spelled : ∀ (index : Nat) (old : String), (join (openingOf code index) old).toList =
      (code ++ "_").toList ++ (Nat.toDigits 10 index ++ '_' :: old.toList) := by
    intro index old
    simp [join, openingOf, Nat.toString_eq_repr, Nat.toList_repr]
  have letters := congrArg String.toList same
  rw [spelled, spelled, List.append_cancel_left_eq] at letters
  obtain ⟨indices, codes⟩ := toDigits_append_inj (by decide) letters
  exact ⟨indices, String.toList_inj.1 codes⟩

/-- No code gets two new codes. -/
theorem nodup_fst_fields (opening : String) (codes : List String) :
    ((codes.foldl (addField opening) []).map Prod.fst).Nodup := by
  have along : ∀ (codes : List String) (fields : List (String × String)),
      (fields.map Prod.fst).Nodup → ((codes.foldl (addField opening) fields).map Prod.fst).Nodup := by
    intro codes
    induction codes with
    | nil => exact fun _ distinct => distinct
    | cons code rest ih =>
      intro fields distinct
      refine ih _ ?_
      unfold addField
      split
      · exact distinct
      · rename_i absent
        rw [Bool.not_eq_true, Option.isSome_eq_false_iff, Option.isNone_iff_eq_none,
          List.lookup_eq_none_iff] at absent
        rw [List.map_append, List.nodup_append]
        refine ⟨distinct, List.nodup_singleton _, ?_⟩
        rintro key old _ new rfl
        obtain ⟨pair, known, rfl⟩ := List.mem_map.1 old
        have differs := absent pair known
        rw [List.mem_singleton.1 new] at differs
        simp at differs
  exact along codes [] .nil

/-- No two codes get the same new code. -/
theorem nodup_snd_fields (opening : String) (codes : List String) :
    ((codes.foldl (addField opening) []).map Prod.snd).Nodup := by
  have joined : (codes.foldl (addField opening) []).map Prod.snd =
      ((codes.foldl (addField opening) []).map Prod.fst).map (join opening) := by
    rw [List.map_map]
    exact List.map_congr_left (eq_join_of_mem_fields opening codes)
  rw [joined]
  exact (nodup_fst_fields opening codes).map fun _ _ => join_inj

/-- Collections of one code share a new code only between iterations of one index. -/
theorem fields_apart {template other : Template} (code : template.code = other.code)
    {index position : Nat} {one another : String × String}
    (left : one ∈ (ofTemplate template index).fields)
    (right : another ∈ (ofTemplate other position).fields) (same : one.2 = another.2) :
    index = position ∧ one = another := by
  have first := eq_join_of_mem_fields _ _ one left
  have second := eq_join_of_mem_fields _ _ another right
  have joined := first.symm.trans (same.trans second)
  rw [code] at joined
  obtain ⟨indices, codes⟩ := join_openingOf_inj joined
  exact ⟨indices, Prod.ext codes same⟩

end Renaming

namespace Property

/-- A name that does not begin like that of a formatter is not read as one. -/
theorem parseFormatter?_eq_none {bound : Nat} {name : String}
    (other : name.toList.head? ≠ some 'f') : parseFormatter? bound name = none := by
  have absent : behind? formatterOpening.toList name.toList = none := by
    rw [show formatterOpening.toList = 'f' :: "ormatters[".toList from rfl]
    cases letters : name.toList with
    | nil => rfl
    | cons c rest =>
      rw [letters, List.head?_cons, ne_eq, Option.some_inj] at other
      rw [behind?, if_neg other]
  rw [parseFormatter?, absent]
  rfl

end Property

namespace RequestScope

section

variable {wired : WiredForm} (grounded : Grounded wired) (started : Settled (start wired))
include grounded started

/-- The new codes of an iteration are those of a template with the code of the collection. -/
theorem exists_renaming {calls : List (NodeId × Nat)} {record : Iteration}
    (member : record ∈ (run wired calls).iterations) :
    ∃ node definition template, (run wired calls).layers.node? record.collection = some node ∧
      node.kind = .collection definition ∧ template.code = definition.code ∧
      record.renamed = (Renaming.ofTemplate template record.index).fields := by
  obtain ⟨before, after, template, complete, state, turn⟩ := exists_turn grounded started member
  obtain ⟨node, definition, found, isCollection, _, _, _, _, code, _⟩ :=
    Template.read_spec (grounded_run grounded before).coherent
      (settled_run grounded started before).anchored.coherent turn.turn.read
  obtain ⟨rest, rfl⟩ := turn.call
  refine ⟨node, definition, template, ?_, isCollection, code, turn.turn.recorded.renamed⟩
  rw [turn.turn.recorded.collection]
  exact (run_shows grounded started before _).node _ _ found

/-- Iterations of one collection share no new code. -/
theorem run_renamed_apart {calls : List (NodeId × Nat)} {record other : Iteration}
    (member : record ∈ (run wired calls).iterations)
    (another : other ∈ (run wired calls).iterations)
    (collection : record.collection = other.collection) {one two : String × String}
    (left : one ∈ record.renamed) (right : two ∈ other.renamed) (same : one.2 = two.2) :
    record.index = other.index ∧ one = two := by
  obtain ⟨node, definition, template, found, kind, code, renamed⟩ :=
    exists_renaming grounded started member
  obtain ⟨node', definition', template', found', kind', code', renamed'⟩ :=
    exists_renaming grounded started another
  rw [collection, found'] at found
  cases found
  cases kind.symm.trans kind'
  rw [renamed] at left
  rw [renamed'] at right
  exact Renaming.fields_apart (code.trans code'.symm) left right same

end

end RequestScope

/-- **No name that is made stands for two things of its family.** The key of an item is that of one
collection, or of one of its iterations. A new code is that of one iteration of a collection and of
one old code. So an iteration gives different codes to different fields, and templates of
collections with one code give the same new code only for the same index; iterations of one
collection in a request have none in common. The position of a formatter is read back
from its property, as long as it is an index, and no other property is read as that of a
formatter. -/
theorem names_apart :
    (∀ collection other index position,
      itemKey collection index = itemKey other position ↔
        collection = other ∧ index = position) ∧
    (∀ code index position one other,
      Renaming.join (Renaming.openingOf code index) one =
          Renaming.join (Renaming.openingOf code position) other ↔
        index = position ∧ one = other) ∧
    (∀ template index, ((Renaming.ofTemplate template index).fields.map Prod.fst).Nodup ∧
      ((Renaming.ofTemplate template index).fields.map Prod.snd).Nodup) ∧
    (∀ template other : Template, template.code = other.code → ∀ index position,
      ∀ one ∈ (Renaming.ofTemplate template index).fields,
        ∀ two ∈ (Renaming.ofTemplate other position).fields, one.2 = two.2 →
          index = position ∧ one = two) ∧
    (∀ form config wired, Form.Built form → form.Plain → WiredForm.wire form config = .ok wired →
      ∀ calls, ∀ record ∈ (RequestScope.run wired calls).iterations,
        ∀ other ∈ (RequestScope.run wired calls).iterations,
          record.collection = other.collection →
            ∀ one ∈ record.renamed, ∀ two ∈ other.renamed, one.2 = two.2 →
              record.index = other.index ∧ one = two) ∧
    (∀ bound index, Property.parseFormatter? bound (Property.formatter index) =
      if index < bound then some index else none) ∧
    ∀ bound index, ∀ name ∈ [Property.item index, Property.post, Property.defaultValue,
      Property.onLoad, Property.source], Property.parseFormatter? bound name = none := by
  refine ⟨fun collection other index position => ⟨itemKey_inj, ?_⟩,
    fun code index position one other => ⟨Renaming.join_openingOf_inj, ?_⟩,
    fun template index => ⟨Renaming.nodup_fst_fields _ _, Renaming.nodup_snd_fields _ _⟩,
    fun template other code index position one left two => Renaming.fields_apart code left,
    fun form config wired built plain wiring calls record member other another collection one left
      two right same => ?_, Property.parseFormatter?_formatter, fun bound index => ?_⟩
  · rintro ⟨rfl, rfl⟩
    rfl
  · rintro ⟨rfl, rfl⟩
    rfl
  · have registered := WiredForm.wire_spec wiring
    exact RequestScope.run_renamed_apart
      (RequestScope.grounded_of_registered registered built.coherent plain)
      (RequestScope.settled_start registered built.coherent plain) member another collection left
      right same
  · simp only [List.forall_mem_cons, List.not_mem_nil, false_implies, implies_true, and_true]
    refine ⟨Property.parseFormatter?_eq_none ?_, Property.parseFormatter?_eq_none (by decide),
      Property.parseFormatter?_eq_none (by decide), Property.parseFormatter?_eq_none (by decide),
      Property.parseFormatter?_eq_none (by decide)⟩
    rw [Property.item, String.toList_append, String.toList_append, List.append_assoc]
    change some 'i' ≠ some 'f'
    decide

namespace RequestScope.Stops

def second : Iteration := ((run wired [(⟨4⟩, 0)]).materialize ⟨4⟩ 1).2.toOption.getD default

/-- Two stops have no code in common, and a code that begins with a digit is not taken for a part of
the index. -/
theorem codes_differ :
    itemKey ⟨1⟩ (some 23) ≠ itemKey ⟨12⟩ (some 3) ∧
    Renaming.join (Renaming.openingOf "stop" 1) "2_name" = "stop_1_2_name" ∧
    Renaming.join (Renaming.openingOf "stop" 1) "2_name" ≠
      Renaming.join (Renaming.openingOf "stop" 12) "name" ∧
    first ∈ (run wired calls).iterations ∧ second ∈ (run wired calls).iterations ∧
    first.collection = second.collection ∧
    (∀ one ∈ first.renamed, ∀ two ∈ second.renamed, one.2 ≠ two.2) ∧
    second.renamed = [("name", "stop_1_name")] ∧
    Property.parseFormatter? indexBound "formatters[12]" = some 12 ∧
    Property.parseFormatter? indexBound "items[12]" = none := by
  obtain ⟨keys, codes, -, -, iterations, formatters, others⟩ := names_apart
  have known : first ∈ (run wired calls).iterations := List.mem_of_getElem? (i := 0) rfl
  have another : second ∈ (run wired calls).iterations := List.mem_of_getElem? (i := 1) rfl
  refine ⟨fun same => ?_, by decide, fun same => ?_, known, another, rfl,
    fun one left two right same => ?_, rfl, formatters indexBound 12,
    others indexBound 12 _ (List.mem_cons_self ..)⟩
  · cases ((keys _ _ _ _).1 same).1
  · cases ((codes _ _ _ _ _).1 same).1
  · cases (iterations form _ wired built plain wiring calls first known second another rfl one left
      two right same).1

end RequestScope.Stops

end FormFlow
