import EventTaxonomy.Report.Recording
import Mathlib.Data.List.DropRight

/-!
# Transcripts are faithful logs

A transcript is used by any sequence of operations. Each one that is not a clear adds some entries
at the end (`Operation.entries`): a report the text of every diagnostic, a group its own message. So
the calls after a run are the entries since the last clear, and nothing else (`calls_run`), and the
answers are the numbers of diagnostics, in order (`answers_run`).

`run_faithful` puts this together for runs of a new transcript: what is recorded, what a report
answers and how much the transcript grows by it, and that a rule set reports as its rules do one
after the other.
-/

namespace EventTaxonomy

namespace Transcript

namespace Operation

/-- The operation drops what was recorded. -/
def isClear : Operation → Bool
  | .clear => true
  | _ => false

/-- What a report is about. -/
def diagnostics? : Operation → Option (List Diagnostic)
  | .reportSet set e => some (set.validate e)
  | .reportRule r e => some (r.validate e)
  | _ => none

/-- The entries of a report: the texts of the diagnostics, as errors. -/
def reported (ds : List Diagnostic) : List (String × Style) := ds.map fun d => (d.text, .error)

/-- What an operation adds to a transcript. -/
def entries : Operation → List (String × Style)
  | .reportSet set e => reported (set.validate e)
  | .reportRule r e => reported (r.validate e)
  | .group message style => [(message, style)]
  | .clear => []

theorem entries_of_diagnostics? {op : Operation} {ds : List Diagnostic}
    (h : op.diagnostics? = some ds) : op.isClear = false ∧ op.entries = reported ds := by
  cases op <;> cases h <;> exact ⟨rfl, rfl⟩

end Operation

variable {t : Transcript}

/-! ### One operation -/

theorem calls_reportAll (t : Transcript) (ds : List Diagnostic) :
    (t.reportAll ds).calls = t.calls ++ Operation.reported ds := by
  induction ds generalizing t with
  | nil => exact (List.append_nil _).symm
  | cons d ds ih =>
    show ((t.report d).reportAll ds).calls = _
    rw [ih, report, group, List.append_assoc]
    rfl

theorem calls_step (t : Transcript) (op : Operation) :
    (t.step op).1.calls = if op.isClear then [] else t.calls ++ op.entries := by
  cases op with
  | reportSet set e => exact calls_reportAll t (set.validate e)
  | reportRule r e => exact calls_reportAll t (r.validate e)
  | group message style => rfl
  | clear => rfl

theorem answer_step (t : Transcript) (op : Operation) :
    (t.step op).2 = op.diagnostics?.map List.length := by
  cases op <;> rfl

/-- A report makes the transcript longer by the number of its diagnostics. -/
theorem size_step {op : Operation} {ds : List Diagnostic} (h : op.diagnostics? = some ds) :
    (t.step op).1.size = t.size + ds.length := by
  obtain ⟨hclear, hentries⟩ := Operation.entries_of_diagnostics? h
  rw [size, calls_step, hclear, if_neg Bool.false_ne_true, hentries, List.length_append,
    Operation.reported, List.length_map, size]

/-! ### Runs -/

theorem run_concat (t : Transcript) (ops : List Operation) (op : Operation) :
    (t.run (ops ++ [op])).1 = ((t.run ops).1.step op).1 := by
  induction ops generalizing t with
  | nil => rfl
  | cons first ops ih => exact ih (t.step first).1

/-- **The calls after a run are the entries of the operations since the last clear.** -/
theorem calls_run (ops : List Operation) :
    (empty.run ops).1.calls =
      (ops.rtakeWhile fun op => !op.isClear).flatMap Operation.entries := by
  -- By induction from the end of the run, since that is where a clear cuts.
  induction ops using List.reverseRecOn with
  | nil => rfl
  | append_singleton ops op ih =>
    rw [run_concat, calls_step]
    by_cases hclear : op.isClear
    · rw [if_pos hclear, List.rtakeWhile_concat_neg _ _ _ (by simp [hclear])]
      rfl
    · rw [if_neg hclear, List.rtakeWhile_concat_pos _ _ _ (by simp [hclear]), ih,
        List.flatMap_append, List.flatMap_singleton]

/-- The answers of a run do not depend on what was recorded before. -/
theorem answers_run (t : Transcript) (ops : List Operation) :
    (t.run ops).2 = ops.map fun op => op.diagnostics?.map List.length := by
  induction ops generalizing t with
  | nil => rfl
  | cons op ops ih =>
    show (t.step op).2 :: ((t.step op).1.run ops).2 = _
    rw [ih, answer_step, List.map_cons]

/-! ### Rule sets and their rules -/

theorem reportAll_append (t : Transcript) (ds ds' : List Diagnostic) :
    t.reportAll (ds ++ ds') = (t.reportAll ds).reportAll ds' := by
  rw [reportAll, List.foldl_append, reportAll, reportAll]

/-- Rules that report one after the other leave what reporting all of their diagnostics leaves. -/
theorem run_map_reportRule (t : Transcript) (rules : List Rule) (e : Event) :
    (t.run (rules.map fun r => .reportRule r e)).1 =
      t.reportAll (rules.flatMap fun r => r.validate e) := by
  induction rules generalizing t with
  | nil => rfl
  | cons r rules ih =>
    show ((t.reportAll (r.validate e)).run (rules.map fun r => .reportRule r e)).1 = _
    rw [ih, List.flatMap_cons, reportAll_append]

/-- The answers added up. -/
def total (answers : List (Option Nat)) : Nat :=
  answers.foldr (fun answer sum => answer.getD 0 + sum) 0

theorem total_run_map_reportRule (t : Transcript) (rules : List Rule) (e : Event) :
    total (t.run (rules.map fun r => .reportRule r e)).2 =
      (rules.flatMap fun r => r.validate e).length := by
  rw [answers_run]
  induction rules with
  | nil => rfl
  | cons r rules ih =>
    rw [List.flatMap_cons, List.length_append, ← ih]
    rfl

/-- **A transcript is a faithful log.** After any operations on a new one, its calls are the entries
since the last clear. Each report among them answers with the number of its diagnostics, and the
transcript grew by as many entries. And wherever a rule set reports an event, its rules could do so
one after the other: the transcript is the same, and the answers add up. -/
theorem run_faithful (ops : List Operation) :
    (empty.run ops).1.calls =
        (ops.rtakeWhile fun op => !op.isClear).flatMap Operation.entries ∧
      (∀ i op ds, ops[i]? = some op → op.diagnostics? = some ds →
        (empty.run ops).2[i]? = some (some ds.length) ∧
          (empty.run (ops.take (i + 1))).1.size = (empty.run (ops.take i)).1.size + ds.length) ∧
      ∀ set e,
        let whole := (empty.run ops).1.run [.reportSet set e]
        let single := (empty.run ops).1.run (set.rules.map fun r => .reportRule r e)
        whole.1 = single.1 ∧ whole.2 = [some (total single.2)] := by
  refine ⟨calls_run ops, fun i op ds hop hds => ⟨?_, ?_⟩, fun set e => ⟨?_, ?_⟩⟩
  · rw [answers_run, List.getElem?_map, hop, Option.map_some, hds, Option.map_some]
  · have htake : ops.take (i + 1) = ops.take i ++ [op] := by
      rw [List.take_add_one, hop, Option.toList_some]
    rw [htake, run_concat, size_step hds]
  · exact (run_map_reportRule _ set.rules e).symm
  · rw [total_run_map_reportRule]
    rfl

end Transcript

end EventTaxonomy
