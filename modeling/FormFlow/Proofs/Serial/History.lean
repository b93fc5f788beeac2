import FormFlow.Proofs.Serial.Node
import FormFlow.Serial.History

/-!
# Answer histories in JSON are read back

A history is read back as itself if everything in it fits what it is written as and no code has
two lists of positions (`AnswerHistory.ofText_write`). Nothing is asked of the positions but that
they are machine numbers: the reader takes them as they stand.

What any text is read as has one list of positions a code (`AnswerHistory.nodup_codes_of_ofText`),
since a code that stands again in a text replaces what stood there before.
-/

set_option autoImplicit false

namespace FormFlow

open Reader (Shape)

/-- How deep the value of a mutation may be nested: a text may have 127 containers open at once,
and four are opened around the value. -/
def mutationDepth : Nat := 123

/-- A mutation everything in which fits. -/
structure Mutation.Storable (mutation : Mutation) : Prop where
  index : ∀ index, mutation.source = .formatter index → index < indexBound
  fits : mutation.value.Fits mutationDepth
  normal : mutation.value.normalize = mutation.value

/-! ## Parts of a history -/

theorem AnswerSource.reader_ofJson {source : AnswerSource}
    (below : ∀ index, source = .formatter index → index < indexBound) {stage inner : Stage}
    (entered : stage.enter = .ok inner) :
    reader stage (Document.ofJson source.toJson) = .ok source := by
  cases source with
  | formatter index =>
    refine Reader.variant_ofMember rfl entered ?_
    change AnswerSource.formatter <$> indexReader inner _ = _
    rw [indexReader, Reader.natBelow_ofJson (below index rfl)]
    rfl
  | load => rfl
  | default => rfl
  | post => rfl
  | action => rfl

theorem Mutation.reader_ofJson {mutation : Mutation} (storable : mutation.Storable)
    {stage inner inmost : Stage} (entered : stage.enter = .ok inner)
    (opened : inner.enter = .ok inmost) (holds : inner.Holds mutation.value.depth) :
    reader stage (Document.ofJson mutation.toJson) = .ok mutation := by
  have source := Shape.reads_field "source" (AnswerSource.reader_ofJson storable.index opened)
  have read : Reader.json inner (Document.ofJson mutation.value) = .ok mutation.value := by
    rw [Reader.json, Document.read_ofJson mutation.value holds]
    exact congrArg Except.ok storable.normal
  have members := source.and (Shape.reads_field "value" read) (by decide)
  exact (members.map rfl).structured entered

theorem AnswerSource.fits_toJson {source : AnswerSource}
    (below : ∀ index, source = .formatter index → index < indexBound) (bound : Nat) :
    source.toJson.Fits (bound + 1) := by
  cases source with
  | formatter index => exact .obj (List.forall_mem_singleton.2 (Json.fits_nat (below index rfl) _))
  | load => exact Json.fits_str _ _
  | default => exact Json.fits_str _ _
  | post => exact Json.fits_str _ _
  | action => exact Json.fits_str _ _

theorem Mutation.fits_toJson {mutation : Mutation} (storable : mutation.Storable) :
    mutation.toJson.Fits (mutationDepth + 1) :=
  .obj (List.forall_mem_cons.2 ⟨AnswerSource.fits_toJson storable.index _,
    List.forall_mem_singleton.2 storable.fits⟩)

theorem LogEntry.fits_toJson {entry : LogEntry} (storable : entry.mutation.Storable) :
    entry.toJson.Fits (mutationDepth + 2) :=
  .obj (List.forall_mem_cons.2 ⟨Json.fits_str entry.code _,
    List.forall_mem_singleton.2 (Mutation.fits_toJson storable)⟩)

/-- An entry is read back where its mutation has room. -/
theorem LogEntry.reader_ofJson {entry : LogEntry} (storable : entry.mutation.Storable)
    {stage : Stage} (holds : stage.Holds (mutationDepth + 2)) :
    reader stage (Document.ofJson entry.toJson) = .ok entry := by
  obtain ⟨inner, entered, holds⟩ := holds.enter
  obtain ⟨inmost, opened, holds⟩ := holds.enter
  obtain ⟨source, sourceOpened, -⟩ := holds.enter
  have mutation := Mutation.reader_ofJson storable opened sourceOpened
    (holds.mono storable.fits.shallow)
  have members := (Shape.reads_field "code" (Reader.string_ofJson entry.code inner)).and
    (Shape.reads_field "mutation" mutation) (by decide)
  exact (members.map rfl).structured entered

/-! ## Histories -/

namespace AnswerHistory

/-- A history everything in which fits. -/
structure Storable (history : AnswerHistory) : Prop where
  entries : ∀ entry ∈ history.log, entry.mutation.Storable
  below : ∀ listed ∈ history.positions, ∀ position ∈ listed.2, position < indexBound
  distinct : (history.positions.map Prod.fst).Nodup

theorem fits_toJson {history : AnswerHistory} (storable : history.Storable) :
    history.toJson.Fits (mutationDepth + 4) := by
  have entries : ∀ item ∈ history.log.map LogEntry.toJson, item.Fits (mutationDepth + 2) := by
    intro item member
    obtain ⟨entry, belongs, rfl⟩ := List.mem_map.1 member
    exact LogEntry.fits_toJson (storable.entries entry belongs)
  have lists : ∀ member ∈ history.positions.map
      (fun listed => (listed.1, Json.arr (listed.2.map Json.nat))),
      member.2.Fits (mutationDepth + 2) := by
    intro member belongs
    obtain ⟨listed, known, rfl⟩ := List.mem_map.1 belongs
    refine .arr fun item place => ?_
    obtain ⟨position, listedHere, rfl⟩ := List.mem_map.1 place
    exact Json.fits_nat (storable.below listed known position listedHere) _
  exact .obj (List.forall_mem_cons.2 ⟨.arr entries, List.forall_mem_singleton.2 (.obj lists)⟩)

/-- **A history is read back** from its text in any layout. -/
theorem ofText_write {history : AnswerHistory} (storable : history.Storable)
    {layout : Json.Layout} (airy : Scanner.Airy layout) :
    ofText (String.ofList (history.toJson.write layout 0)) = .ok history := by
  have holds : Stage.ofText.Holds (mutationDepth + 4) := Nat.lt_succ_self 127
  obtain ⟨inner, entered, holds⟩ := holds.enter
  obtain ⟨listed, opened, holds⟩ := holds.enter
  obtain ⟨inmost, listOpened, -⟩ := holds.enter
  have log : Reader.list LogEntry.reader inner
      (Document.ofJson (.arr (history.log.map LogEntry.toJson))) = .ok history.log :=
    Reader.list_ofItems opened fun entry member =>
      LogEntry.reader_ofJson (storable.entries entry member) holds
  have positions : Reader.table (Reader.list indexReader) inner (Document.ofJson (.obj
      (history.positions.map fun listed => (listed.1, .arr (listed.2.map Json.nat))))) =
      .ok history.positions :=
    Reader.table_ofMembers (fun found => .arr (found.map Json.nat)) opened storable.distinct
      fun listed known => Reader.list_ofItems listOpened fun position member =>
        Reader.natBelow_ofJson (storable.below listed known position member) inmost
  have members := (Shape.reads_field "log" log).and (Shape.reads_field "by_code" positions)
    (by decide)
  have read : reader .ofText (Document.ofJson history.toJson) = .ok history :=
    (members.map rfl).structured entered
  rw [ofText, Reader.ofText, Scanner.ofText_write airy (fits_toJson storable).exact]
  change (reader .ofText _ >>= _) = _
  rw [read]
  rfl

/-- Whatever text a history is read from, no code has two lists of positions. -/
theorem nodup_codes_of_ofText {text : String} {history : AnswerHistory}
    (read : ofText text = .ok history) : (history.positions.map Prod.fst).Nodup := by
  have table := Shape.field_yields "by_code" (Reader.table_yields (Reader.list indexReader))
  have members := ((Shape.field "log" (Reader.list LogEntry.reader)).yields_true).and table
  have yields : reader.Yields fun history => (history.positions.map Prod.fst).Nodup :=
    Shape.Yields.structured (members.map fun _ known => known.2)
  exact yields.ofText read

end AnswerHistory

end FormFlow
