import Mathlib
import FormFlow.Proofs.Form.Coherence
import FormFlow.Proofs.Serial.History
import FormFlow.Request.History

/-!
# A history answers from its log

The reads of a history go through the positions that it keeps for each code, and what they should
give is a fold over its log: the mutations of a code are the entries with that code, the current
value is that of the last one (`AnswerHistory.Reads`). All reads follow from the first
(`AnswerHistory.Consistent.reads`), and recording keeps it, whatever the positions of other codes
are (`AnswerHistory.Consistent.record`).

A new history therefore answers from its log after any calls, and also if it was written and read
in between (`AnswerHistory.reads_recordings`). A history that was read from a text need not: its
positions are taken from the text, and they may lie outside the log or leave an entry out
(`AnswerHistory.Unlisted.misread`). It answers from its log after all later calls exactly if its
positions show the mutations that the log has of each code
(`AnswerHistory.reads_of_ofText_iff`).
-/

set_option autoImplicit false

namespace FormFlow

namespace AnswerHistory

/-! ## What a log says of a code -/

/-- The mutations that a log has of a code, oldest first. -/
def recorded (log : List LogEntry) (code : String) : List Mutation :=
  (log.filter fun entry => entry.code = code).map LogEntry.mutation

theorem recorded_append (first second : List LogEntry) (code : String) :
    recorded (first ++ second) code = recorded first code ++ recorded second code := by
  rw [recorded, List.filter_append, List.map_append, recorded, recorded]

theorem recorded_eq_nil_iff {log : List LogEntry} {code : String} :
    recorded log code = [] ↔ ∀ entry ∈ log, entry.code ≠ code := by
  simp [recorded, List.filter_eq_nil_iff]

/-- The reads of a history are those of a log. -/
structure Reads (history : AnswerHistory) (log : List LogEntry) : Prop where
  logged : history.log = log
  size : history.size = log.length
  mutations : ∀ code, history.mutations code = .ok (recorded log code)
  current : ∀ code, history.current code = .ok ((recorded log code).getLast?.map Mutation.value)
  sourceOf : ∀ code, history.sourceOf code = .ok ((recorded log code).getLast?.map Mutation.source)
  applyDefault : ∀ code value, history.applyDefault code value =
    .ok (if recorded log code = [] then (history.record code ⟨.default, value⟩, true)
      else (history, false))

/-- The positions of every code lead to the mutations that the log has of it. -/
def Consistent (history : AnswerHistory) : Prop :=
  ∀ code, history.mutations code = .ok (recorded history.log code)

/-- Positions are read one by one. -/
theorem mapM_entryAt_eq_ok_iff {history : AnswerHistory} {positions : List Nat}
    {found : List Mutation} :
    positions.mapM history.entryAt = .ok found ↔
      positions.map (fun position => history.log[position]?.map LogEntry.mutation) =
        found.map some := by
  have entry : ∀ position mutation, history.entryAt position = .ok mutation ↔
      history.log[position]?.map LogEntry.mutation = some mutation := by
    intro position mutation
    rw [entryAt]
    cases history.log[position]? with
    | none => simp
    | some entry => simp
  rw [Except.mapM_eq_ok_iff, ← List.forall₂_eq_eq_eq, List.forall₂_map_left_iff,
    List.forall₂_map_right_iff]
  simp only [entry]

/-- The last mutation of a code is the last of its mutations. -/
theorem last_eq_of_mutations {history : AnswerHistory} {code : String} {found : List Mutation}
    (mutations : history.mutations code = .ok found) :
    history.last code = .ok found.getLast? := by
  have shown := congrArg List.getLast? (mapM_entryAt_eq_ok_iff.1 mutations)
  rw [List.getLast?_map, List.getLast?_map] at shown
  rw [last]
  cases listed : (history.positionsOf code).getLast? with
  | none =>
    rw [listed, Option.map_none, eq_comm, Option.map_eq_none_iff] at shown
    rw [shown]
  | some position =>
    rw [listed, Option.map_some] at shown
    obtain ⟨mutation, isLast, same⟩ := Option.map_eq_some_iff.1 shown.symm
    obtain ⟨entry, stands, rfl⟩ := Option.map_eq_some_iff.1 same.symm
    simp [entryAt, stands, isLast]

/-- All reads follow from the lists of mutations. -/
theorem Consistent.reads {history : AnswerHistory} (consistent : history.Consistent) :
    history.Reads history.log := by
  have last := fun code => last_eq_of_mutations (consistent code)
  have current : ∀ code, history.current code =
      .ok ((recorded history.log code).getLast?.map Mutation.value) := by
    intro code
    rw [AnswerHistory.current, last]
    rfl
  refine ⟨rfl, rfl, consistent, current, ?_, ?_⟩
  · intro code
    rw [sourceOf, last]
    rfl
  · intro code value
    rw [AnswerHistory.applyDefault, current]
    cases found : recorded history.log code with
    | nil => rfl
    | cons mutation rest =>
      rw [List.getLast?_eq_some_getLast (List.cons_ne_nil mutation rest), if_neg nofun]
      rfl

theorem consistent_empty : empty.Consistent := fun _ => rfl

/-- A recorded mutation is the newest of its code. -/
theorem Consistent.record {history : AnswerHistory} (consistent : history.Consistent)
    (code : String) (mutation : Mutation) : (history.record code mutation).Consistent := by
  intro other
  have older := mapM_entryAt_eq_ok_iff.1 (consistent other)
  have kept : (history.positionsOf other).map
      (fun position => (history.record code mutation).log[position]?.map LogEntry.mutation) =
        (recorded history.log other).map some := by
    rw [← older]
    refine List.map_congr_left fun position listed => ?_
    -- A position that is listed is inside the log, since its mutation was found.
    have found : history.log[position]?.map LogEntry.mutation ∈
        (recorded history.log other).map some := older ▸ List.mem_map_of_mem listed
    obtain ⟨shown, -, same⟩ := List.mem_map.1 found
    obtain ⟨entry, stands, -⟩ := Option.map_eq_some_iff.1 same.symm
    rw [AnswerHistory.record, List.getElem?_append_left (List.getElem?_eq_some_iff.1 stands).1]
  refine mapM_entryAt_eq_ok_iff.2 ?_
  rw [positionsOf_record, List.map_append, kept, AnswerHistory.record, recorded_append,
    List.map_append]
  by_cases same : other = code
  · subst same
    simp [recorded, size]
  · simp [recorded, same, Ne.symm same]

/-! ## Calls and reloads -/

/-- Records entries in order. -/
def extend (history : AnswerHistory) (entries : List LogEntry) : AnswerHistory :=
  entries.foldl (fun history entry => history.record entry.code entry.mutation) history

theorem extend_append (history : AnswerHistory) (first second : List LogEntry) :
    history.extend (first ++ second) = (history.extend first).extend second :=
  List.foldl_append

theorem log_extend (history : AnswerHistory) (entries : List LogEntry) :
    (history.extend entries).log = history.log ++ entries := by
  induction entries generalizing history with
  | nil => exact (List.append_nil _).symm
  | cons entry rest ih => exact (ih _).trans (List.append_assoc ..)

theorem Consistent.extend {history : AnswerHistory} (consistent : history.Consistent)
    (entries : List LogEntry) : (history.extend entries).Consistent := by
  induction entries generalizing history with
  | nil => exact consistent
  | cons entry rest ih => exact ih (consistent.record entry.code entry.mutation)

/-- A call that may change a history. -/
inductive Update where
  | record (code : String) (mutation : Mutation)
  | applyDefault (code : String) (value : Json)

/-- The entry that a call logs, if it logs one. -/
def Update.entry : Update → LogEntry
  | .record code mutation => ⟨code, mutation⟩
  | .applyDefault code value => ⟨code, .default, value⟩

/-- Whether a call logs its entry behind a log: a default value is logged only if the code has
no mutation. -/
def Update.logs (log : List LogEntry) : Update → Prop
  | .record _ _ => True
  | .applyDefault code _ => recorded log code = []

instance (log : List LogEntry) : DecidablePred (Update.logs log)
  | .record _ _ => inferInstanceAs (Decidable True)
  | .applyDefault code _ => inferInstanceAs (Decidable (recorded log code = []))

/-- What a call makes of a history. -/
def Update.applyTo : Update → AnswerHistory → Except NoSuchEntry AnswerHistory
  | .record code mutation, history => .ok (history.record code mutation)
  | .applyDefault code value, history => Prod.fst <$> history.applyDefault code value

/-- What may happen to a history: a call, or it is written in some layout and read. -/
inductive Event where
  | update (call : Update)
  | reload (layout : Json.Layout)

/-- Why something cannot happen to a history. -/
inductive Fault where
  | unreadable (error : ReadError)
  | noSuchEntry (fault : NoSuchEntry)

/-- What an event makes of a history. -/
def Event.applyTo : Event → AnswerHistory → Except Fault AnswerHistory
  | .update call, history => (call.applyTo history).mapError .noSuchEntry
  | .reload layout, history =>
    (ofText (String.ofList (history.toJson.write layout 0))).mapError .unreadable

/-- What events in order make of a history. -/
def run (history : AnswerHistory) (events : List Event) : Except Fault AnswerHistory :=
  events.foldlM (fun history event => event.applyTo history) history

/-- The entries that an event adds to a log. -/
def Event.entries (log : List LogEntry) : Event → List LogEntry
  | .update call => if call.logs log then [call.entry] else []
  | .reload _ => []

/-- The entries that events in order add to a log. -/
def recordings : List LogEntry → List Event → List LogEntry
  | _, [] => []
  | log, event :: rest => event.entries log ++ recordings (log ++ event.entries log) rest

theorem recordings_append (log : List LogEntry) (before later : List Event) :
    recordings log (before ++ later) =
      recordings log before ++ recordings (log ++ recordings log before) later := by
  induction before generalizing log with
  | nil => simp [recordings]
  | cons event rest ih => simp only [List.cons_append, recordings, ih, List.append_assoc]

/-- A call on a history that answers from its log records what the log says it should. -/
theorem Consistent.applyTo_update {history : AnswerHistory} (consistent : history.Consistent)
    (call : Update) : (Event.update call).applyTo history =
      .ok (history.extend ((Event.update call).entries history.log)) := by
  cases call with
  | record code mutation => rfl
  | applyDefault code value =>
    rw [Event.applyTo, Update.applyTo, consistent.reads.applyDefault]
    rw [Event.entries]
    by_cases unset : (Update.applyDefault code value).logs history.log
    · rw [if_pos unset, if_pos (show recorded history.log code = [] from unset)]
      rfl
    · rw [if_neg unset, if_neg (show ¬ recorded history.log code = [] from unset)]
      rfl

theorem Consistent.run_updates {history : AnswerHistory} (consistent : history.Consistent)
    (calls : List Update) : history.run (calls.map .update) =
      .ok (history.extend (recordings history.log (calls.map .update))) := by
  induction calls generalizing history with
  | nil => rfl
  | cons call rest ih =>
    have later := ih (consistent.extend ((Event.update call).entries history.log))
    rw [log_extend, ← extend_append] at later
    rw [List.map_cons, run, List.foldlM_cons, consistent.applyTo_update]
    exact later

/-! ## Reloading -/

/-- An event that a text has room for. -/
def Event.Storable : Event → Prop
  | .update call => call.entry.mutation.Storable
  | .reload layout => Scanner.Airy layout

/-- No code has two lists of positions, and all of them are in the log. -/
structure Indexed (history : AnswerHistory) : Prop where
  distinct : (history.positions.map Prod.fst).Nodup
  inside : ∀ listed ∈ history.positions, ∀ position ∈ listed.2, position < history.size

theorem mem_keys_addPosition {code other : String} {position : Nat}
    {positions : List (String × List Nat)} :
    other ∈ (addPosition code position positions).map Prod.fst ↔
      other = code ∨ other ∈ positions.map Prod.fst := by
  induction positions with
  | nil => simp [addPosition]
  | cons entry rest ih =>
    rw [addPosition]
    split
    case isTrue same => simp [same]
    case isFalse => simp only [List.map_cons, List.mem_cons, ih, or_left_comm]

theorem nodup_keys_addPosition {positions : List (String × List Nat)}
    (nodup : (positions.map Prod.fst).Nodup) (code : String) (position : Nat) :
    ((addPosition code position positions).map Prod.fst).Nodup := by
  induction positions with
  | nil => simp [addPosition]
  | cons entry rest ih =>
    obtain ⟨other, found⟩ := entry
    rw [List.map_cons, List.nodup_cons] at nodup
    rw [addPosition]
    split
    case isTrue same => exact List.nodup_cons.2 nodup
    case isFalse other_ne =>
      refine List.nodup_cons.2 ⟨fun again => ?_, ih nodup.2⟩
      exact (mem_keys_addPosition.1 again).elim other_ne nodup.1

/-- What is listed after a position was added was listed before, or is the new position. -/
theorem mem_addPosition {code : String} {position found : Nat}
    {positions : List (String × List Nat)} {listed : String × List Nat}
    (member : listed ∈ addPosition code position positions) (here : found ∈ listed.2) :
    (∃ older ∈ positions, found ∈ older.2) ∨ found = position := by
  induction positions with
  | nil =>
    rw [List.mem_singleton.1 member, List.mem_singleton] at here
    exact .inr here
  | cons entry rest ih =>
    rw [addPosition] at member
    split at member <;> rcases List.mem_cons.1 member with rfl | later
    · rcases List.mem_append.1 here with older | new
      · exact .inl ⟨entry, List.mem_cons_self .., older⟩
      · exact .inr (List.mem_singleton.1 new)
    · exact .inl ⟨listed, List.mem_cons_of_mem _ later, here⟩
    · exact .inl ⟨entry, List.mem_cons_self .., here⟩
    · rcases ih later with ⟨older, known, before⟩ | new
      · exact .inl ⟨older, List.mem_cons_of_mem _ known, before⟩
      · exact .inr new

theorem indexed_empty : empty.Indexed where
  distinct := List.nodup_nil
  inside := fun _ member => nomatch member

theorem Indexed.record {history : AnswerHistory} (indexed : history.Indexed) (code : String)
    (mutation : Mutation) : (history.record code mutation).Indexed := by
  refine ⟨nodup_keys_addPosition indexed.distinct code history.size, ?_⟩
  intro listed member position here
  rw [size_record]
  rcases mem_addPosition member here with ⟨older, known, before⟩ | rfl
  · exact Nat.lt_succ_of_lt (indexed.inside older known position before)
  · exact Nat.lt_succ_self _

theorem Indexed.extend {history : AnswerHistory} (indexed : history.Indexed)
    (entries : List LogEntry) : (history.extend entries).Indexed := by
  induction entries generalizing history with
  | nil => exact indexed
  | cons entry rest ih => exact ih (indexed.record entry.code entry.mutation)

/-- What was recorded into a new history. -/
theorem log_extend_empty (log : List LogEntry) : (empty.extend log).log = log :=
  (log_extend empty log).trans (List.nil_append log)

theorem storable_extend {log : List LogEntry} (few : log.length ≤ indexBound)
    (entries : ∀ entry ∈ log, entry.mutation.Storable) : (empty.extend log).Storable := by
  have indexed := indexed_empty.extend log
  rw [← log_extend_empty log] at few
  refine ⟨(log_extend_empty log).symm ▸ entries, ?_, indexed.distinct⟩
  intro listed member position here
  exact Nat.lt_of_lt_of_le (indexed.inside listed member position here) few

/-- An event that fits makes of a new history with some entries one with the entries that it
adds. -/
theorem applyTo_extend_empty {log : List LogEntry} (few : log.length ≤ indexBound)
    (entries : ∀ entry ∈ log, entry.mutation.Storable) {event : Event}
    (storable : event.Storable) :
    event.applyTo (empty.extend log) = .ok (empty.extend (log ++ event.entries log)) := by
  cases event with
  | update call =>
    rw [(consistent_empty.extend log).applyTo_update, log_extend_empty, extend_append]
  | reload layout =>
    rw [Event.applyTo, ofText_write (storable_extend few entries) storable, Event.entries,
      List.append_nil]
    rfl

theorem storable_of_mem_entries {log : List LogEntry} {event : Event} (storable : event.Storable)
    {entry : LogEntry} (member : entry ∈ event.entries log) : entry.mutation.Storable := by
  cases event with
  | update call =>
    rw [Event.entries] at member
    split at member
    · rw [List.mem_singleton.1 member]
      exact storable
    · cases member
  | reload layout => cases member

/-- Events make of a new history with some entries one with all that they add. -/
theorem run_extend_empty (log : List LogEntry) {events : List Event}
    (few : (log ++ recordings log events).length ≤ indexBound)
    (entries : ∀ entry ∈ log, entry.mutation.Storable)
    (storable : ∀ event ∈ events, event.Storable) :
    run (empty.extend log) events = .ok (empty.extend (log ++ recordings log events)) := by
  induction events generalizing log with
  | nil => rw [recordings, List.append_nil, run, List.foldlM_nil]; rfl
  | cons event rest ih =>
    have here := storable event (List.mem_cons_self ..)
    rw [recordings, ← List.append_assoc] at few ⊢
    have now : log.length ≤ indexBound := by
      simp only [List.length_append] at few
      omega
    have known : ∀ entry ∈ log ++ event.entries log, entry.mutation.Storable :=
      List.forall_mem_append.2 ⟨entries, fun entry => storable_of_mem_entries here⟩
    rw [run, List.foldlM_cons, applyTo_extend_empty now entries here]
    exact ih _ few known fun later member => storable later (List.mem_cons_of_mem _ member)

theorem run_empty {events : List Event} (few : (recordings [] events).length ≤ indexBound)
    (storable : ∀ event ∈ events, event.Storable) :
    run empty events = .ok (empty.extend (recordings [] events)) :=
  run_extend_empty [] few (fun _ member => nomatch member) storable

/-- **A history answers from its log.** Whatever calls a new history goes through, and whenever
it is written and read in between, no call fails, its log is what the calls recorded, all reads
are those of the log, and behind the size that it had at any earlier time stand the entries that
were recorded since. -/
theorem reads_recordings {events : List Event}
    (few : (recordings [] events).length ≤ indexBound)
    (storable : ∀ event ∈ events, event.Storable) :
    ∃ history, run empty events = .ok history ∧ history.Reads (recordings [] events) ∧
      ∀ before later, events = before ++ later →
        ∃ earlier, run empty before = .ok earlier ∧
          earlier.Reads (recordings [] before) ∧
          history.since earlier.size = recordings (recordings [] before) later := by
  have reads : ∀ log, (empty.extend log).Reads log := fun log => by
    simpa only [log_extend_empty] using (consistent_empty.extend log).reads
  refine ⟨_, run_empty few storable, reads _, ?_⟩
  rintro before later rfl
  rw [recordings_append, List.nil_append] at few ⊢
  have fewBefore : (recordings [] before).length ≤ indexBound := by
    rw [List.length_append] at few
    omega
  refine ⟨_, run_empty fewBefore fun event member =>
    storable event (List.mem_append_left _ member), reads _, ?_⟩
  rw [since, log_extend_empty, (reads _).size]
  exact List.drop_left

/-! ### A history that was written and read between calls -/

namespace Trip

/-- A null is recorded, which a default value does not replace; another code gets its default
value, and what is recorded after the second reload is the newest of the first code. -/
def events : List Event := [
  .update (.record "city" ⟨.load, .null⟩), .reload .compact,
  .update (.applyDefault "city" (.int 1)), .update (.applyDefault "leg" (.arr [.str "\x7b"])),
  .reload .pretty, .update (.record "city" ⟨.formatter 0, .obj [("zip", .int (-3))]⟩)]

def log : List LogEntry := [⟨"city", .load, .null⟩, ⟨"leg", .default, .arr [.str "\x7b"]⟩,
  ⟨"city", .formatter 0, .obj [("zip", .int (-3))]⟩]

theorem recorded_events : recordings [] events = log := by rfl

theorem few : (recordings [] events).length ≤ indexBound := by
  rw [recorded_events]
  decide

theorem storable : ∀ event ∈ events, event.Storable := by
  have list : Scanner.Exact (.arr [.str "\x7b"]) := .arr (List.forall_mem_singleton.2 (.str "\x7b"))
  have object : Scanner.Exact (.obj [("zip", .int (-3))]) :=
    .obj (List.forall_mem_singleton.2 (.int (by decide) (by decide)))
  simp only [events, List.forall_mem_cons, List.not_mem_nil, false_implies, implies_true, and_true]
  exact ⟨⟨nofun, ⟨.null, by decide⟩, rfl⟩, Scanner.airy_compact,
    ⟨nofun, ⟨.int (by decide) (by decide), by decide⟩, rfl⟩, ⟨nofun, ⟨list, by decide⟩, by cbv⟩,
    Scanner.airy_pretty, ⟨fun _ same => by cases same; decide, ⟨object, by decide⟩, by cbv⟩⟩

theorem city_newest : (recordings [] events).length ≤ indexBound ∧
    (∀ event ∈ events, event.Storable) ∧
    ∃ history, run empty events = .ok history ∧ history.Reads (recordings [] events) ∧
      ∀ before later, events = before ++ later →
        ∃ earlier, run empty before = .ok earlier ∧ earlier.Reads (recordings [] before) ∧
          history.since earlier.size = recordings (recordings [] before) later :=
  ⟨few, storable, reads_recordings few storable⟩

end Trip

/-! ## Histories that were read from a text -/

/-- The positions of each code show what the log has of it, and no code of the log is left out. -/
structure Faithful (history : AnswerHistory) : Prop where
  shown : ∀ listed ∈ history.positions,
    listed.2.map (fun position => history.log[position]?.map LogEntry.mutation) =
      (recorded history.log listed.1).map some
  complete : ∀ entry ∈ history.log, entry.code ∈ history.positions.map Prod.fst

/-- A code without positions has no mutations. -/
theorem mutations_of_not_mem {history : AnswerHistory} {code : String}
    (absent : code ∉ history.positions.map Prod.fst) : history.mutations code = .ok [] := by
  have unlisted : history.positions.lookup code = none := by
    rw [List.lookup_eq_none_iff]
    intro listed member
    exact bne_iff_ne.2 fun same => absent (List.mem_map.2 ⟨listed, member, same.symm⟩)
  rw [mutations, positionsOf, unlisted]
  rfl

theorem consistent_iff_faithful {history : AnswerHistory}
    (distinct : (history.positions.map Prod.fst).Nodup) :
    history.Consistent ↔ history.Faithful := by
  have listedOf : ∀ listed ∈ history.positions, history.positionsOf listed.1 = listed.2 := by
    intro listed member
    rw [positionsOf, (lookup_eq_some_iff_mem distinct).2 member]
    rfl
  constructor
  · intro consistent
    refine ⟨fun listed member => ?_, fun entry member => ?_⟩
    · exact listedOf listed member ▸ mapM_entryAt_eq_ok_iff.1 (consistent listed.1)
    · by_contra absent
      have same := (mutations_of_not_mem absent).symm.trans (consistent entry.code)
      exact recorded_eq_nil_iff.1 (Except.ok.inj same).symm entry member rfl
  · intro faithful code
    by_cases listed : code ∈ history.positions.map Prod.fst
    · obtain ⟨found, member, rfl⟩ := List.mem_map.1 listed
      refine mapM_entryAt_eq_ok_iff.2 ?_
      rw [listedOf found member]
      exact faithful.shown found member
    · rw [mutations_of_not_mem listed, recorded_eq_nil_iff.2]
      rintro entry member rfl
      exact listed (faithful.complete entry member)

/-- **A history that was read answers from its log**, after whatever calls, exactly if the
positions that were read show what its log has of each code. -/
theorem reads_of_ofText_iff {text : String} {loaded : AnswerHistory}
    (read : ofText text = .ok loaded) :
    (∀ calls : List Update, ∃ history, run loaded (calls.map .update) = .ok history ∧
      history.Reads (loaded.log ++ recordings loaded.log (calls.map .update))) ↔
    loaded.Faithful := by
  rw [← consistent_iff_faithful (nodup_codes_of_ofText read)]
  constructor
  · intro always code
    obtain ⟨history, same, reads⟩ := always []
    cases same
    rw [List.map_nil, recordings, List.append_nil] at reads
    exact reads.mutations code
  · intro consistent calls
    have reads := (consistent.extend (recordings loaded.log (calls.map .update))).reads
    rw [log_extend] at reads
    exact ⟨_, consistent.run_updates calls, reads⟩

/-! ### Positions that are not those of the log -/

namespace Unlisted

/-- A history with a position, but without an entry. -/
def astray : AnswerHistory := ⟨[], [("a", [0])]⟩

/-- A history with an entry, but without a position. -/
def silent : AnswerHistory := ⟨[⟨"a", .load, .int 1⟩], []⟩

/-- The positions of two codes are exchanged, but they show the same mutation. -/
def crossed : AnswerHistory :=
  ⟨[⟨"a", .load, .int 1⟩, ⟨"b", .load, .int 1⟩], [("b", [0]), ("a", [1])]⟩

theorem storable_load : Mutation.Storable ⟨.load, .int 1⟩ :=
  ⟨nofun, ⟨.int (by decide) (by decide), by decide⟩, rfl⟩

theorem storable_astray : astray.Storable where
  entries := fun _ member => nomatch member
  below := by
    simp only [astray, List.forall_mem_singleton]
    decide
  distinct := by decide

theorem storable_silent : silent.Storable where
  entries := List.forall_mem_singleton.2 storable_load
  below := fun _ member => nomatch member
  distinct := by decide

theorem storable_crossed : crossed.Storable where
  entries := List.forall_mem_cons.2 ⟨storable_load, List.forall_mem_singleton.2 storable_load⟩
  below := by
    simp only [crossed, List.forall_mem_cons, List.not_mem_nil, false_implies, implies_true,
      and_true]
    decide
  distinct := by decide

/-- A text is read whose positions lead outside the log, so that a code cannot be asked for, and
one that lists no position of an entry, so that its code has no value. -/
theorem misread :
    (∃ loaded, ofText "\x7b\"log\":[],\"by_code\":\x7b\"a\":[0]\x7d\x7d" = .ok loaded ∧
      recorded loaded.log "a" = [] ∧ loaded.mutations "a" = .error ⟨0⟩ ∧
      loaded.current "a" = .error ⟨0⟩ ∧ loaded.applyDefault "a" .null = .error ⟨0⟩) ∧
    ∃ loaded, ofText silent.toJson.compact = .ok loaded ∧
      recorded loaded.log "a" = [⟨.load, .int 1⟩] ∧ loaded.mutations "a" = .ok [] ∧
      loaded.current "a" = .ok none := by
  have text : astray.toJson.compact =
      "\x7b\"log\":[],\"by_code\":\x7b\"a\":[0]\x7d\x7d" := by cbv
  exact ⟨⟨astray, text ▸ ofText_write storable_astray Scanner.airy_compact, rfl, rfl, rfl, rfl⟩,
    silent, ofText_write storable_silent Scanner.airy_compact, rfl, rfl, rfl⟩

theorem faithful_crossed : crossed.Faithful where
  shown := by
    simp only [crossed, List.forall_mem_cons, List.not_mem_nil, false_implies, implies_true,
      and_true]
    exact ⟨rfl, rfl⟩
  complete := by decide +revert

theorem crossed_reads : ofText crossed.toJson.compact = .ok crossed ∧ crossed.Faithful ∧
    ((∀ calls : List Update, ∃ history, run crossed (calls.map .update) = .ok history ∧
      history.Reads (crossed.log ++ recordings crossed.log (calls.map .update))) ↔
    crossed.Faithful) :=
  have read := ofText_write storable_crossed Scanner.airy_compact
  ⟨read, faithful_crossed, reads_of_ofText_iff read⟩

end Unlisted

end AnswerHistory

end FormFlow
