import EventTaxonomy.Cli.Run
import EventTaxonomy.Proofs.Printing

/-!
# The outcome of validating

What `validate` does, in terms of the records that it looks at. A run that cannot load its rules,
read its input or split it into records stops at once (`Cli.Stops`); any other looks at all records,
in order (`Cli.Reaches`).

`Cli.validate_outcome` says what comes out: the exit code, and the texts for a reader and for
programs. The two agree on how many diagnostics there are. The number in the summary adds up what
each record comes to, the other one is counted off the printed lines.
-/

namespace EventTaxonomy

namespace Cli

/-! ### What a run is to do -/

/-- Something keeps the run from looking at records. -/
def Stops (env : Environment) (options : ValidateOptions) : Prop :=
  (∃ e, loadRules env options.source = .error e) ∨
    (∃ e, readEvents env options.events = .error e) ∨
      ∃ text e, readEvents env options.events = .ok text ∧
        Record.parseAll text options.maxEvents = .error e

/-- The run looks at these records under these rules. -/
def Reaches (env : Environment) (options : ValidateOptions) (set : RuleSet) (records : List Json) :
    Prop :=
  loadRules env options.source = .ok set ∧
    ∃ text, readEvents env options.events = .ok text ∧
      Record.parseAll text options.maxEvents = .ok records

/-- The record is no event, or one that violates a rule. -/
def Offends (set : RuleSet) (index : Nat) (record : Json) : Prop :=
  (∃ e, Record.toEvent index record = .error e) ∨
    ∃ e, Record.toEvent index record = .ok e ∧ set.validate e ≠ []

/-- The number of diagnostics of a record; a record that is no event has none. -/
def recordCount (set : RuleSet) (index : Nat) (record : Json) : Nat :=
  match Record.toEvent index record with
  | .ok e => (set.validate e).length
  | .error _ => 0

/-- The number of diagnostics of all records. -/
def totalCount (set : RuleSet) (records : List Json) : Nat :=
  (records.mapIdx (recordCount set)).foldr (fun count total => count + total) 0

/-- A text with blanks after it, up to a width. -/
def inColumn (width : Nat) (text : String) : String :=
  text ++ String.ofList (List.replicate (width - text.length) ' ')

/-- The row of a record: its index, its type and its number of diagnostics. -/
def rowText (set : RuleSet) (index : Nat) (record : Json) : String :=
  match Record.toEvent index record with
  | .ok e =>
    inColumn 8 (toString index) ++ " " ++ inColumn 24 e.type.text ++ " " ++
      toString (set.validate e).length
  | .error _ => inColumn 8 (toString index) ++ " " ++ inColumn 24 "?" ++ " " ++ "invalid"

/-- The titles of the columns, and a line below them. -/
def headerText : String :=
  "EVENT    TYPE                     DIAGNOSTICS\n" ++
    "--------------------------------------------------\n"

/-- The text for a reader: the header, a row for each record, and the totals. -/
def summaryText (set : RuleSet) (records : List Json) : String :=
  headerText ++
    String.join (records.mapIdx fun index record => rowText set index record ++ "\n") ++
    toString records.length ++ " events, " ++ toString (totalCount set records) ++
    " diagnostics\n"

/-- The line shows a diagnostic. -/
def isDiagnosticLine (line : List Char) : Bool := "\x7b\"context_name\":".toList.isPrefixOf line

/-- The number of diagnostics that a text shows, one on a line. -/
def shownDiagnostics (text : String) : Nat :=
  (text.toList.splitOn '\n').countP isDiagnosticLine

/-! ### Records -/

section Records

variable (set : RuleSet)

theorem isClean_reportRecord_iff {index : Nat} {record : Json} :
    (reportRecord set index record).isClean = false ↔ Offends set index record := by
  cases h : Record.toEvent index record with
  | error e => simp [reportRecord, RecordReport.isClean, Offends, h, Except.map]
  | ok e => simp [reportRecord, RecordReport.isClean, Offends, h, Except.map]

theorem count_row_reportRecord (index : Nat) (record : Json) :
    (reportRecord set index record).row.count = recordCount set index record := by
  cases h : Record.toEvent index record with
  | error e => simp [reportRecord, RecordReport.row, Table.Row.count, recordCount, h, Except.map]
  | ok e => simp [reportRecord, RecordReport.row, Table.Row.count, recordCount, h, Except.map]

theorem summaryColumns_eq (index type count : String) :
    Table.summaryColumns index type count =
      inColumn 8 index ++ " " ++ inColumn 24 type ++ " " ++ count := by
  rw [Table.summaryColumns, Text.padRight_eq, Text.padRight_eq]
  rfl

theorem summary_header :
    Table.summaryColumns "EVENT" "TYPE" "DIAGNOSTICS" ++ "\n" ++ Table.dashes 50 ++ "\n" =
      headerText := by
  decide +kernel

theorem summaryRow_reportRecord (index : Nat) (record : Json) :
    Table.summaryRow (reportRecord set index record).row = rowText set index record := by
  cases h : Record.toEvent index record with
  | error e =>
    simp [reportRecord, RecordReport.row, Table.summaryRow, rowText, h, Except.map,
      summaryColumns_eq]
  | ok e =>
    simp [reportRecord, RecordReport.row, Table.summaryRow, rowText, h, Except.map,
      summaryColumns_eq]

theorem isDiagnosticLine_toJson (index : Nat) (d : Diagnostic) :
    isDiagnosticLine (d.toJson index).chars = true := rfl

/-- Every diagnostic of a record is shown as one, and an error is not. -/
theorem countP_values_reportRecord (index : Nat) (record : Json) :
    ((reportRecord set index record).values.map Json.chars).countP isDiagnosticLine =
      recordCount set index record := by
  cases h : Record.toEvent index record with
  | error e =>
    -- the line of an error starts with another key
    simp only [reportRecord, RecordReport.values, recordCount, h, Except.map]
    rfl
  | ok e =>
    have hall : ∀ line ∈ ((set.validate e).map (Diagnostic.toJson index)).map Json.chars,
        isDiagnosticLine line = true := by
      simp only [List.map_map, List.forall_mem_map]
      exact fun d _ => isDiagnosticLine_toJson index d
    simp only [reportRecord, RecordReport.values, recordCount, h, Except.map]
    rw [List.countP_eq_length.2 hall, List.length_map, List.length_map]

theorem map_reportRecords_from {β : Type} (f : RecordReport → β) (start : Nat)
    (records : List Json) :
    (reportRecords set start records).map f =
      records.mapIdx fun index record => f (reportRecord set (start + index) record) := by
  induction records generalizing start with
  | nil => rfl
  | cons record records ih =>
    rw [reportRecords, List.map_cons, ih, List.mapIdx_cons]
    simp only [Nat.add_zero, Nat.add_assoc, Nat.add_comm 1]

/-- What can be seen of the reports is what can be seen of each record, at its index. -/
theorem map_reportRecords {β : Type} (f : RecordReport → β) (records : List Json) :
    (reportRecords set 0 records).map f =
      records.mapIdx fun index record => f (reportRecord set index record) := by
  rw [map_reportRecords_from]
  simp only [Nat.zero_add]

end Records

/-! ### Lines -/

theorem splitOn_lines {lines : List (List Char)} (h : ∀ line ∈ lines, '\n' ∉ line) :
    (lines.flatMap fun line => line ++ ['\n']).splitOn '\n' = lines ++ [[]] := by
  induction lines with
  | nil => rfl
  | cons line lines ih =>
    obtain ⟨hline, hrest⟩ := List.forall_mem_cons.1 h
    rw [List.flatMap_cons, List.append_assoc, List.singleton_append,
      List.splitOn_append_cons_self_of_not_mem hline, ih hrest, List.cons_append]

theorem toList_join_compact (values : List Json) :
    (String.join (values.map fun v => v.compact ++ "\n")).toList =
      (values.map Json.chars).flatMap fun line => line ++ ['\n'] := by
  rw [String.toList_join, List.flatMap_map, List.flatMap_map]
  refine congrArg (fun f => List.flatMap f values) (funext fun v => ?_)
  simp [Json.compact]

theorem toList_jsonLines (reports : List RecordReport) :
    (String.join (reports.flatMap RecordReport.jsonLines)).toList =
      ((reports.flatMap RecordReport.values).map Json.chars).flatMap fun line =>
        line ++ ['\n'] := by
  rw [← toList_join_compact, List.map_flatMap]
  rfl

theorem shownDiagnostics_jsonLines (reports : List RecordReport) :
    shownDiagnostics (String.join (reports.flatMap RecordReport.jsonLines)) =
      ((reports.flatMap RecordReport.values).map Json.chars).countP isDiagnosticLine := by
  have hlines : ∀ line ∈ (reports.flatMap RecordReport.values).map Json.chars, '\n' ∉ line :=
    List.forall_mem_map.2 fun v _ => Json.newline_not_mem_chars v
  -- behind the last line break there is an empty line, which shows nothing
  rw [shownDiagnostics, toList_jsonLines, splitOn_lines hlines, List.countP_append]
  rfl

/-! ### All records -/

section Run

variable {set : RuleSet} {records : List Json}

theorem all_isClean_eq_false_iff :
    (reportRecords set 0 records).all RecordReport.isClean = false ↔
      ∃ index record, records[index]? = some record ∧ Offends set index record := by
  have hall : (reportRecords set 0 records).all RecordReport.isClean =
      (records.mapIdx fun index record => (reportRecord set index record).isClean).all id := by
    rw [← map_reportRecords, List.all_map]
    rfl
  rw [hall, List.all_eq_false]
  constructor
  · rintro ⟨clean, hmem, hclean⟩
    obtain ⟨index, hindex, rfl⟩ := List.mem_mapIdx.1 hmem
    exact ⟨index, _, List.getElem?_eq_getElem hindex,
      (isClean_reportRecord_iff set).1 (Bool.eq_false_iff.2 hclean)⟩
  · rintro ⟨index, record, hrecord, hoffends⟩
    obtain ⟨hindex, rfl⟩ := List.getElem?_eq_some_iff.1 hrecord
    exact ⟨_, List.mem_mapIdx.2 ⟨index, hindex, rfl⟩,
      Bool.eq_false_iff.1 ((isClean_reportRecord_iff set).2 hoffends)⟩

theorem summary_reportRecords :
    Table.summary ((reportRecords set 0 records).map RecordReport.row) =
      summaryText set records := by
  have htotal : ((reportRecords set 0 records).map RecordReport.row).foldr
      (fun row n => row.count + n) 0 = totalCount set records := by
    rw [List.foldr_map, ← List.foldr_map (f := fun r : RecordReport => r.row.count)
      (g := fun count total => count + total), map_reportRecords, totalCount]
    simp only [count_row_reportRecord]
  have hrows : ((reportRecords set 0 records).map RecordReport.row).map
      (fun row => Table.summaryRow row ++ "\n") =
        records.mapIdx fun index record => rowText set index record ++ "\n" := by
    rw [List.map_map, map_reportRecords]
    simp only [Function.comp_apply, summaryRow_reportRecord]
  have hlength : ((reportRecords set 0 records).map RecordReport.row).length = records.length := by
    rw [map_reportRecords, List.length_mapIdx]
  rw [Table.summary, htotal, hrows, hlength, summary_header, summaryText]

theorem shownDiagnostics_reportRecords :
    shownDiagnostics (String.join ((reportRecords set 0 records).flatMap RecordReport.jsonLines)) =
      totalCount set records := by
  rw [shownDiagnostics_jsonLines, List.map_flatMap, List.countP_flatMap, List.sum_eq_foldr,
    map_reportRecords, totalCount]
  simp only [Function.comp_apply, countP_values_reportRecord]

end Run

/-! ### The whole run -/

section Validate

variable {env : Environment} {options : ValidateOptions}

theorem stops_or_reaches (env : Environment) (options : ValidateOptions) :
    Stops env options ∨ ∃ set records, Reaches env options set records := by
  cases hrules : loadRules env options.source with
  | error e => exact .inl (.inl ⟨e, hrules⟩)
  | ok set =>
    cases hevents : readEvents env options.events with
    | error e => exact .inl (.inr (.inl ⟨e, hevents⟩))
    | ok text =>
      cases hrecords : Record.parseAll text options.maxEvents with
      | error e => exact .inl (.inr (.inr ⟨text, e, hevents, hrecords⟩))
      | ok records => exact .inr ⟨set, records, hrules, text, hevents, hrecords⟩

theorem Reaches.not_stops {set : RuleSet} {records : List Json}
    (h : Reaches env options set records) : ¬ Stops env options := by
  obtain ⟨hrules, text, hevents, hrecords⟩ := h
  rintro (⟨e, he⟩ | ⟨e, he⟩ | ⟨text', e, htext, he⟩)
  · cases hrules.symm.trans he
  · cases hevents.symm.trans he
  · cases hevents.symm.trans htext
    cases hrecords.symm.trans he

theorem Reaches.unique {set set' : RuleSet} {records records' : List Json}
    (h : Reaches env options set records) (h' : Reaches env options set' records') :
    set = set' ∧ records = records' := by
  obtain ⟨hrules, text, hevents, hrecords⟩ := h
  obtain ⟨hrules', text', hevents', hrecords'⟩ := h'
  cases hrules.symm.trans hrules'
  cases hevents.symm.trans hevents'
  cases hrecords.symm.trans hrecords'
  exact ⟨rfl, rfl⟩

theorem validateRecords_of_stops (h : Stops env options) :
    ∃ e, validateRecords env options = .error e := by
  rcases h with ⟨e, he⟩ | ⟨e, he⟩ | ⟨text, e, htext, he⟩
  · exact ⟨e, by simp only [validateRecords, he]⟩
  · cases hrules : loadRules env options.source with
    | error e' => exact ⟨e', by simp only [validateRecords, hrules]⟩
    | ok set => exact ⟨e, by simp only [validateRecords, hrules, he]⟩
  · cases hrules : loadRules env options.source with
    | error e' => exact ⟨e', by simp only [validateRecords, hrules]⟩
    | ok set => exact ⟨.malformedEvents e, by simp only [validateRecords, hrules, htext, he]⟩

theorem validateRecords_of_reaches {set : RuleSet} {records : List Json}
    (h : Reaches env options set records) :
    validateRecords env options = .ok (set, reportRecords set 0 records) := by
  obtain ⟨hrules, text, hevents, hrecords⟩ := h
  simp only [validateRecords, hrules, hevents, hrecords]

theorem validate_of_stops (h : Stops env options) :
    (validate env options).code = 1 ∧ (validate env options).stdout = "" := by
  obtain ⟨e, he⟩ := validateRecords_of_stops h
  simp only [validate, he, failure, and_self]

variable {set : RuleSet} {records : List Json}

theorem code_of_reaches (h : Reaches env options set records) :
    (validate env options).code =
      if options.strict && !(reportRecords set 0 records).all RecordReport.isClean then 1
      else 0 := by
  simp only [validate, validateRecords_of_reaches h]

theorem stdout_of_reaches (h : Reaches env options set records) :
    (validate env options).stdout =
      if options.json then
        String.join ((reportRecords set 0 records).flatMap RecordReport.jsonLines)
      else summaryText set records := by
  simp only [validate, validateRecords_of_reaches h, summary_reportRecords]

theorem code_eq_one_iff_of_reaches (h : Reaches env options set records) :
    (validate env options).code = 1 ↔ options.strict = true ∧
      ∃ index record, records[index]? = some record ∧ Offends set index record := by
  rw [code_of_reaches h, ← all_isClean_eq_false_iff]
  cases options.strict <;> cases (reportRecords set 0 records).all RecordReport.isClean <;> decide

end Validate

/-- **Exit code and output of `validate`.** The exit code is 1 if the run stops early, or if it is
strict and some record offends, and 0 otherwise. A run that stops early prints nothing. Any other
prints a row for each record, in order, and the totals; and the number of diagnostics is that of the
lines which the run prints with `json`. -/
theorem validate_outcome (env : Environment) (options : ValidateOptions) :
    ((validate env options).code = 1 ↔
        Stops env options ∨ options.strict = true ∧ ∃ set records, Reaches env options set records ∧
          ∃ index record, records[index]? = some record ∧ Offends set index record) ∧
      ((validate env options).code ≠ 1 → (validate env options).code = 0) ∧
      (Stops env options → (validate env options).stdout = "") ∧
      (¬ Stops env options → ∃ set records, Reaches env options set records ∧
        (options.json = false → (validate env options).stdout = summaryText set records) ∧
        totalCount set records =
          shownDiagnostics (validate env { options with json := true }).stdout) := by
  refine ⟨?_, ?_, fun h => (validate_of_stops h).2, fun h => ?_⟩
  · rcases stops_or_reaches env options with hstops | ⟨set, records, hreaches⟩
    · exact iff_of_true (validate_of_stops hstops).1 (.inl hstops)
    · rw [code_eq_one_iff_of_reaches hreaches, or_iff_right hreaches.not_stops]
      refine and_congr_right fun _ => ⟨fun h => ⟨set, records, hreaches, h⟩, ?_⟩
      rintro ⟨set', records', hreaches', h⟩
      obtain ⟨rfl, rfl⟩ := hreaches.unique hreaches'
      exact h
  · rcases stops_or_reaches env options with hstops | ⟨set, records, hreaches⟩
    · exact fun h => absurd (validate_of_stops hstops).1 h
    · rw [code_of_reaches hreaches]
      split_ifs
      · exact fun h => absurd rfl h
      · exact fun _ => rfl
  · obtain ⟨set, records, hreaches⟩ := (stops_or_reaches env options).resolve_left h
    -- how the records are shown makes no difference to which they are
    have hjson : Reaches env { options with json := true } set records := hreaches
    refine ⟨set, records, hreaches, fun hsummary => ?_, ?_⟩
    · rw [stdout_of_reaches hreaches, if_neg (Bool.eq_false_iff.1 hsummary)]
    · rw [stdout_of_reaches hjson, if_pos rfl, shownDiagnostics_reportRecords]

end Cli

end EventTaxonomy
