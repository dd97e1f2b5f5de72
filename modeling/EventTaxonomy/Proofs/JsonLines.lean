import EventTaxonomy.Proofs.RecordExtent
import EventTaxonomy.Proofs.RulePositions
import EventTaxonomy.Proofs.ValidateRun

/-!
# The lines that a program reads

With `json`, `validate` writes a value on a line of its own for every diagnostic, and for every
record that is no event. `Cli.printedValues` are these values, record by record and rule by rule.

A line holds what it should whatever strings an event brings along: no compact text has a line break
in it, so the lines can be told apart, and each is read back to its value. The latter needs numbers
that fit a word. There are three of them. The index of the record and the index at which a context
stands are bounded by the length of the text, and the index that a rule asks for was read from a
document (`Diagnostic.parse_compact_toJson`, `Cli.parse_recordValues`).

`Cli.validate_jsonLines` is the whole of it, together with the effect of a limit: the lines up to
the limit, and no other.
-/

namespace EventTaxonomy

/-! ### Diagnostics as values -/

/-- A value in canonical form is read back from its compact text. -/
theorem Json.parse_compact_of_canonical {v : Json} {n : Nat} (hsmall : v.Small n)
    (hn : n ≤ Json.maxDepth) (hcanonical : v.canonical = v) : Json.parse v.compact = .ok v := by
  have hparse := Json.parse_compact hsmall.2 (Nat.le_trans hsmall.1 hn)
  rw [Json.parse, hparse, Except.map, hcanonical]

theorem Json.small_string (text : String) : (Json.string text).Small 0 := ⟨Nat.le_refl 0, rfl⟩

theorem Json.small_nat {n : Nat} (h : n ≤ Json.wordMax) : (Json.nat n).Small 0 := by
  refine Json.Small.of_word? ?_
  rw [word?_nat h]
  rfl

theorem Json.canonical_object {keys : List String} (hkeys : keys.Pairwise (· < ·))
    {fields : Fields} (hfields : fields.map Prod.fst = keys)
    (hvalues : ∀ field ∈ fields, field.2.canonical = field.2) :
    (Json.object fields).canonical = .object fields := by
  rw [← hfields] at hkeys
  exact congrArg Json.object (Json.canonicalFields_eq_self (List.pairwise_map.1 hkeys) hvalues)

namespace Violation

/-- The indices of the violation fit a word. -/
def Fits : Violation → Prop
  | wrongPosition expected actual => expected ≤ Json.wordMax ∧ actual ≤ Json.wordMax
  | _ => True

theorem small_toJson {violation : Violation} (h : violation.Fits) : violation.toJson.Small 1 := by
  have hkind : (Json.string violation.tag).Small 0 := Json.small_string _
  cases violation with
  | missing => exact .object (by simpa using hkind)
  | duplicateIdentity id => exact .object (by simpa using ⟨Json.small_string id, hkind⟩)
  | duplicate => exact .object (by simpa using hkind)
  | wrongPosition expected actual =>
    exact .object (by simpa using ⟨Json.small_nat h.2, Json.small_nat h.1, hkind⟩)

theorem canonical_toJson (violation : Violation) :
    violation.toJson.canonical = violation.toJson := by
  have hid : ["id", "kind"].Pairwise (· < ·) := by decide
  have hindices : ["actual", "expected", "kind"].Pairwise (· < ·) := by decide
  cases violation with
  | missing => rfl
  | duplicateIdentity id => exact Json.canonical_object hid rfl (by simp [Json.canonical])
  | duplicate => rfl
  | wrongPosition expected actual =>
    exact Json.canonical_object hindices rfl (by simp [Json.canonical, Json.nat])

end Violation

namespace Diagnostic

theorem small_toJson {d : Diagnostic} {index : Nat} (hindex : index ≤ Json.wordMax)
    (hd : d.violation.Fits) : (d.toJson index).Small 2 := by
  have hstring : ∀ text, (Json.string text).Small 1 := fun text =>
    (Json.small_string text).mono (Nat.zero_le 1)
  have hnat : (Json.nat index).Small 1 := (Json.small_nat hindex).mono (Nat.zero_le 1)
  refine Json.Small.object ?_
  cases d.logPrefix <;> simp [hstring, hnat, Violation.small_toJson hd]

theorem canonical_toJson (d : Diagnostic) (index : Nat) :
    (d.toJson index).canonical = d.toJson index := by
  have hkeys : ["context_name", "docs_url", "event_index", "event_type", "log_prefix", "message",
      "rule", "text", "violation"].Pairwise (· < ·) := by decide
  unfold toJson
  cases d.logPrefix with
  | none =>
    have hothers := hkeys.sublist (List.erase_sublist (a := "log_prefix"))
    exact Json.canonical_object hothers rfl
      (by simp [Json.canonical, Json.nat, Violation.canonical_toJson])
  | some text =>
    exact Json.canonical_object hkeys rfl
      (by simp [Json.canonical, Json.nat, Violation.canonical_toJson])

/-- **A diagnostic is read back from its line.** -/
theorem parse_compact_toJson {d : Diagnostic} {index : Nat} (hindex : index ≤ Json.wordMax)
    (hd : d.violation.Fits) : Json.parse (d.toJson index).compact = .ok (d.toJson index) :=
  Json.parse_compact_of_canonical (small_toJson hindex hd) (by decide) (canonical_toJson d index)

end Diagnostic

/-! ### The indices of a violation -/

theorem Check.fits_of_mem_violations {check : Check} {e : Event}
    (hcheck : ∀ name n, check = .location name (.onceAt n) → n ≤ Json.wordMax)
    (he : e.locationStack.length ≤ Json.wordMax) {name : ContextName} {violation : Violation}
    (h : (name, violation) ∈ check.violations e) : violation.Fits := by
  cases violation with
  | wrongPosition expected actual =>
    cases check with
    | missing name =>
      simp [violations] at h
    | unique => simp [violations] at h
    | location name occurrence =>
      simp only [violations] at h
      split at h
      · next hplacement =>
        cases List.mem_singleton.1 h
        obtain ⟨rfl, hactual, -⟩ := placement_eq_wrongPosition hplacement
        obtain ⟨⟨index, c⟩, hmem, rfl⟩ := List.mem_map.1 hactual
        obtain ⟨k, hk, hget, -⟩ := Event.mem_indexed.1 hmem
        have hlt : k < e.locationStack.length := (List.getElem?_eq_some_iff.1 hget).1
        exact ⟨hcheck _ expected rfl, by omega⟩
      · cases h
  | _ => trivial

theorem RuleSet.fits_of_mem_validate {set : RuleSet} (hset : ∀ r ∈ set.rules, r.PositionFits)
    {e : Event} (he : e.locationStack.length ≤ Json.wordMax) :
    ∀ d ∈ set.validate e, d.violation.Fits := by
  intro d hd
  obtain ⟨r, hr, hd⟩ := List.mem_flatMap.1 hd
  obtain ⟨name, violation, hmem, rfl⟩ := Rule.exists_violation_of_mem_validate hd
  exact Check.fits_of_mem_violations (hset r hr) he hmem

namespace Cli

/-! ### What is printed -/

/-- The values of a record: its diagnostics, rule by rule, or why it is no event. -/
def recordValues (set : RuleSet) (index : Nat) (record : Json) : List Json :=
  match Record.toEvent index record with
  | .ok e => (set.rules.flatMap fun r => r.validate e).map (Diagnostic.toJson index)
  | .error e => [.object [("error", .string e.message), ("event_index", .nat index)]]

/-- The values of all records, in order. -/
def printedValues (set : RuleSet) (records : List Json) : List Json :=
  (records.mapIdx (recordValues set)).flatten

/-- The values as lines. -/
def linesOf (values : List Json) : String := String.join (values.map fun v => v.compact ++ "\n")

/-- The lines of a text, each of which ends with a line break. -/
def splitLines (text : String) : List String :=
  (text.toList.splitOn '\n').dropLast.map String.ofList

/-- The index of the record that a value is about. -/
def eventIndex? : Json → Option Nat
  | .object fields =>
    match lookup "event_index" fields with
    | some (.number (.int (.ofNat index))) => some index
    | _ => none
  | _ => none

theorem splitLines_linesOf (values : List Json) :
    splitLines (linesOf values) = values.map Json.compact := by
  have hlines : ∀ line ∈ values.map Json.chars, '\n' ∉ line :=
    List.forall_mem_map.2 fun v _ => Json.newline_not_mem_chars v
  rw [splitLines, linesOf, toList_join_compact, splitOn_lines hlines, List.dropLast_concat,
    List.map_map]
  rfl

theorem stdout_eq_linesOf {env : Environment} {options : ValidateOptions} {set : RuleSet}
    {records : List Json} (h : Reaches env options set records) (hjson : options.json = true) :
    (validate env options).stdout = linesOf (printedValues set records) := by
  have hvalues : (fun index record => (reportRecord set index record).values) =
      recordValues set := by
    funext index record
    unfold reportRecord RecordReport.values recordValues
    cases Record.toEvent index record <;> rfl
  have hall : (reportRecords set 0 records).flatMap RecordReport.values =
      printedValues set records := by
    rw [List.flatMap_def, map_reportRecords, hvalues, printedValues]
  rw [stdout_of_reaches h, if_pos hjson, linesOf, ← hall, List.map_flatMap]
  rfl

theorem eventIndex?_of_mem {set : RuleSet} {index : Nat} {record : Json} :
    ∀ v ∈ recordValues set index record, eventIndex? v = some index := by
  intro v hv
  unfold recordValues at hv
  split at hv
  · obtain ⟨d, -, rfl⟩ := List.mem_map.1 hv
    rfl
  · rw [List.mem_singleton.1 hv]
    rfl

/-- Each line of a record is read back, if the text of the records is no longer than a word. -/
theorem parse_recordValues {env : Environment} {source : RuleSource} {set : RuleSet}
    (hset : loadRules env source = .ok set) {text : String} {limit : Option Nat}
    {records : List Json} (hrecords : Record.parseAll text limit = .ok records)
    (hlength : text.length ≤ Json.wordMax) {index : Nat} {record : Json}
    (hrecord : records[index]? = some record) :
    ∀ v ∈ recordValues set index record, Json.parse v.compact = .ok v := by
  have hindex : index ≤ Json.wordMax := by
    have hlt := (List.getElem?_eq_some_iff.1 hrecord).1
    have hle := Record.length_parseAll_le hrecords
    omega
  intro v hv
  unfold recordValues at hv
  split at hv
  · next e he =>
    obtain ⟨d, hd, rfl⟩ := List.mem_map.1 hv
    have hstack := Record.length_locationStack_le hrecords (List.mem_of_getElem? hrecord) he
    have hfits := RuleSet.fits_of_mem_validate (positionFits_of_loadRules hset)
      (Nat.le_trans hstack hlength)
    exact Diagnostic.parse_compact_toJson hindex (hfits d hd)
  · next e he =>
    rw [List.mem_singleton.1 hv]
    refine Json.parse_compact_of_canonical (n := 1) (.object ?_) (by decide) ?_
    · simpa using ⟨Json.small_string _, Json.small_nat hindex⟩
    · have hkeys : ["error", "event_index"].Pairwise (· < ·) := by decide
      exact Json.canonical_object hkeys rfl (by simp [Json.canonical, Json.nat])

/-! ### Limits -/

/-- The values of the first records come first, and all others are about later records. -/
theorem exists_printedValues_eq_append (set : RuleSet) (records : List Json) (n : Nat) :
    ∃ later, printedValues set records = printedValues set (records.take n) ++ later ∧
      ∀ v ∈ later, ∃ index, n ≤ index ∧ eventIndex? v = some index := by
  refine ⟨((records.drop n).mapIdx fun i =>
    recordValues set (i + (records.take n).length)).flatten, ?_, ?_⟩
  · rw [printedValues, printedValues, ← List.flatten_append, ← List.mapIdx_append,
      List.take_append_drop]
  · intro v hv
    obtain ⟨values, hvalues, hv⟩ := List.mem_flatten.1 hv
    obtain ⟨i, hi, rfl⟩ := List.mem_mapIdx.1 hvalues
    refine ⟨_, ?_, eventIndex?_of_mem v hv⟩
    -- there is a later record, so the first ones are `n`
    rw [List.length_drop] at hi
    rw [List.length_take]
    omega

theorem exists_of_mem_printedValues {set : RuleSet} {records : List Json} {v : Json}
    (h : v ∈ printedValues set records) :
    ∃ index record, records[index]? = some record ∧ v ∈ recordValues set index record := by
  obtain ⟨values, hvalues, hv⟩ := List.mem_flatten.1 h
  obtain ⟨index, hindex, rfl⟩ := List.mem_mapIdx.1 hvalues
  exact ⟨index, _, List.getElem?_eq_getElem hindex, hv⟩

/-- The value is about one of the first `n` records. -/
def isBefore (n : Nat) (v : Json) : Bool := (eventIndex? v).any (· < n)

/-- The values of the first records are those that are about them. -/
theorem printedValues_take (set : RuleSet) (records : List Json) (n : Nat) :
    printedValues set (records.take n) = (printedValues set records).filter (isBefore n) := by
  obtain ⟨later, hall, hlater⟩ := exists_printedValues_eq_append set records n
  have hbefore : ∀ v ∈ printedValues set (records.take n), isBefore n v = true := by
    intro v hv
    obtain ⟨index, record, hrecord, hv⟩ := exists_of_mem_printedValues hv
    have hlt := (List.getElem?_eq_some_iff.1 hrecord).1
    rw [List.length_take] at hlt
    rw [isBefore, eventIndex?_of_mem v hv, Option.any_some, decide_eq_true_eq]
    omega
  have hafter : ∀ v ∈ later, ¬ isBefore n v = true := by
    intro v hv
    obtain ⟨index, hindex, hv⟩ := hlater v hv
    rw [isBefore, hv, Option.any_some, decide_eq_true_eq]
    omega
  rw [hall, List.filter_append, List.filter_eq_self.2 hbefore, List.filter_eq_nil_iff.2 hafter,
    List.append_nil]

theorem parseAll_take {text : String} {all : List Json} (h : Record.parseAll text none = .ok all)
    (n : Nat) : Record.parseAll text (some n) = .ok (all.take n) := by
  rw [Record.parseAll_eq_upTo] at h ⊢
  exact Record.Scan.upTo_eq_take (by simp) h

/-- **The output of `validate` for programs.** Let the rules be loaded and the text be read. If the
text is one of records, a line is printed for each of their values, in order. Splitting the output
at line breaks gives these lines back and nothing else, since none of them has a line break in it.
Each line names the index of its record, and is read back to its value, given that the length of the
text is a word. If the text is one of records without a limit, then with a limit of `n` the lines
are those for records before `n`, and these are the first ones. -/
theorem validate_jsonLines (env : Environment) (options : ValidateOptions) {set : RuleSet}
    (hset : loadRules env options.source = .ok set) {text : String}
    (htext : readEvents env options.events = .ok text) :
    (∀ records, Record.parseAll text options.maxEvents = .ok records →
      let stdout := (validate env { options with json := true }).stdout
      stdout = linesOf (printedValues set records) ∧
        splitLines stdout = (printedValues set records).map Json.compact ∧
        (∀ v ∈ printedValues set records, '\n' ∉ v.compact.toList) ∧
        ∀ index record, records[index]? = some record → ∀ v ∈ recordValues set index record,
          eventIndex? v = some index ∧
            (text.length ≤ Json.wordMax → Json.parse v.compact = .ok v)) ∧
      ∀ all, Record.parseAll text none = .ok all → ∀ n,
        (validate env { options with json := true, maxEvents := some n }).stdout =
            linesOf ((printedValues set all).filter (isBefore n)) ∧
          (printedValues set all).filter (isBefore n) <+: printedValues set all := by
  constructor
  · intro records hrecords stdout
    have hreaches : Reaches env { options with json := true } set records :=
      ⟨hset, text, htext, hrecords⟩
    have hstdout : stdout = linesOf (printedValues set records) := stdout_eq_linesOf hreaches rfl
    refine ⟨hstdout, ?_, ?_, ?_⟩
    · rw [hstdout, splitLines_linesOf]
    · intro v _
      rw [Json.compact, String.toList_ofList]
      exact Json.newline_not_mem_chars v
    · intro index record hrecord v hv
      refine ⟨eventIndex?_of_mem v hv, fun hlength => ?_⟩
      exact parse_recordValues hset hrecords hlength hrecord v hv
  · intro all hall n
    have hreaches : Reaches env { options with json := true, maxEvents := some n } set
        (all.take n) := ⟨hset, text, htext, parseAll_take hall n⟩
    obtain ⟨later, hlater, -⟩ := exists_printedValues_eq_append set all n
    rw [← printedValues_take]
    exact ⟨stdout_eq_linesOf hreaches rfl, later, hlater.symm⟩

/-- A record that is no event, and one whose type has a line break and a quote in it. -/
def unrulyText : String := "[7,\x7b\"_type\":\"Press\\n\\\"Event\"\x7d]"

/-- The text is on standard input, and there are no files. -/
def unrulyInput : Environment where
  read _ := .error .notFound
  stdin := .ok unrulyText
  logSetting := none

/-- The rules of the open taxonomy for browsers. -/
def browserOptions : ValidateOptions :=
  ⟨none, ⟨none, some .browser, none⟩, true, false, none, false⟩

theorem validate_jsonLines_unruly :
    ∃ records, Record.parseAll unrulyText none = .ok records ∧ records.length = 2 ∧
      splitLines (validate unrulyInput browserOptions).stdout =
        (printedValues (.openTaxonomy .browser none) records).map Json.compact ∧
      (∀ index record, records[index]? = some record →
        ∀ v ∈ recordValues (.openTaxonomy .browser none) index record,
          eventIndex? v = some index ∧ Json.parse v.compact = .ok v) ∧
      (validate unrulyInput { browserOptions with maxEvents := some 1 }).stdout =
        linesOf ((printedValues (.openTaxonomy .browser none) records).filter (isBefore 1)) := by
  have hlength : (Record.parseAll unrulyText none).toOption.map List.length = some 2 := by
    decide +kernel
  have hword : unrulyText.length ≤ Json.wordMax := by decide +kernel
  have hset : loadRules unrulyInput browserOptions.source = .ok (.openTaxonomy .browser none) := rfl
  have htext : readEvents unrulyInput browserOptions.events = .ok unrulyText := rfl
  cases hrecords : Record.parseAll unrulyText none with
  | error e => simp [hrecords, Except.toOption] at hlength
  | ok records =>
    obtain ⟨hrun, hlimit⟩ := validate_jsonLines unrulyInput browserOptions hset htext
    obtain ⟨-, hsplit, -, hlines⟩ := hrun records hrecords
    refine ⟨records, rfl, by simpa [hrecords, Except.toOption] using hlength, hsplit, ?_,
      (hlimit records hrecords 1).1⟩
    intro index record hrecord v hv
    obtain ⟨hindex, hparse⟩ := hlines index record hrecord v hv
    exact ⟨hindex, hparse hword⟩

end Cli

end EventTaxonomy
