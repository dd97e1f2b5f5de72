import EventTaxonomy.Proofs.Canonical
import EventTaxonomy.Proofs.RecordLimit

/-!
# An array of records is read as any other document

The records of an array are not taken from the document that the array makes up, but read one item
after the other, so that a limit can stop the reading (`Record.takeArray`). Without a limit the two
come to the same: the items of the array that `Json.parse` reads are the records, and where it fails
the records fail with the same error (`Record.parseAll_whole_array`).

Two loops and the ways in which they fail have to be compared. The loop over the items of a list
settles the place of a fault that an item leaves open (`Fault.settle`), a scan does not. But no
value leaves it open, since values fail only if their text is malformed
(`Json.failsInText_valueReader`). In front of the array there may be white space at which JSON
stops, and then both readings stop there (`Record.takeValue_of_isSpace`).
-/

namespace EventTaxonomy

namespace Record

open Json (Reader Fault FailsInText)

/-! ### The items of a list -/

/-- The items of a list are those of the scan, if the scan comes to the end of the list. -/
theorem items_eq_scanItems {reader : Reader Json} (h : ∀ s, FailsInText (reader.run s))
    (first : Bool) (s : List Char) :
    reader.items first s =
      (scanItems reader first s).stop.map fun t => ((scanItems reader first s).records, t) := by
  fun_induction Reader.items reader first s with
  | case1 first s e hn =>
    rw [scanItems_of_error hn]
    rfl
  | case2 first s r hn =>
    rw [scanItems_of_done hn]
    rfl
  | case3 first s r hn e he =>
    rw [scanItems_of_fault hn he, (h r).settle he]
    rfl
  | case4 first s r hn v t hr e he ih =>
    rw [he] at ih
    rw [scanItems_of_item hn hr, Scan.cons]
    cases hstop : (scanItems reader false t).stop with
    | ok u => rw [hstop] at ih; cases ih
    | error e' => rw [hstop] at ih; cases ih; rfl
  | case5 first s r hn v t hr vs u hu ih =>
    rw [hu] at ih
    rw [scanItems_of_item hn hr, Scan.cons]
    cases hstop : (scanItems reader false t).stop with
    | ok u' => rw [hstop] at ih; cases ih; rfl
    | error e => rw [hstop] at ih; cases ih

/-- **The records of an array text are the items of its document.** -/
theorem whole_of_isArrayText {s : List Char} (h : isArrayText s = true) :
    (Json.valueReader Json.maxDepth).whole s = (takeArray none s).map Json.array := by
  rw [takeArray_eq_upTo, Scan.upTo_of_lt (by simp)]
  unfold Reader.whole scanArray
  cases hs : Json.skipBlanks s with
  | nil =>
    rw [Json.run_valueReader_of_nil hs]
    rfl
  | cons c r =>
    rw [Json.run_valueReader_of_cons hs]
    dsimp only
    rcases first_of_isArrayText h hs with rfl | hspace
    · have hvalue : Json.takeValue (Json.innerReader Json.maxDepth) '[' r =
          ((Json.valueReader (Json.maxDepth - 1)).items true r).map
            fun read => (.array read.1, read.2) := rfl
      rw [hvalue, items_eq_scanItems (Json.failsInText_valueReader _), if_pos rfl]
      generalize scanItems (Json.valueReader (Json.maxDepth - 1)) true r = items
      unfold Scan.andThen
      cases items.stop with
      | error e => rfl
      | ok t =>
        dsimp only [Except.map, Except.bind]
        cases Json.expectEnd t <;> rfl
    · rw [takeValue_of_isSpace hspace, if_neg (ne_of_isSpace hspace rfl), refusal_of_isSpace hspace]
      rfl

/-! ### Texts -/

theorem parse_of_isArrayText {text : String} (h : isArrayText text.toList = true) :
    Json.parse text = (parseAll text none).map Json.array := by
  rw [Json.parse, Reader.parse, whole_of_isArrayText h, parseAll, if_pos h]
  cases takeArray none text.toList with
  | error e => rfl
  | ok docs =>
    show Except.ok (Json.canonical (.array docs)) = .ok (.array (docs.map Json.canonical))
    rw [Json.canonical, Json.canonicalItems_eq_map]

/-- **Without a limit, an array is read like any other document.** Let the first character of a text
after white space, of whatever kind, be an opening bracket. The text is read to certain records iff
as a whole it is the array of these records. Otherwise both readings fail, with the same error. -/
theorem parseAll_whole_array {text : String} (h : isArrayText text.toList = true) :
    (∀ rs, parseAll text none = .ok rs ↔ Json.parse text = .ok (.array rs)) ∧
      ((∀ rs, parseAll text none ≠ .ok rs) →
        ∃ e, parseAll text none = .error e ∧ Json.parse text = .error e) := by
  rw [parse_of_isArrayText h]
  refine ⟨fun rs => ?_, fun hfails => ?_⟩
  · rw [Json.map_eq_ok]
    constructor
    · intro hrs
      exact ⟨rs, hrs, rfl⟩
    · rintro ⟨_, hrs, ⟨⟩⟩
      exact hrs
  · cases hread : parseAll text none with
    | ok rs => exact absurd hread (hfails rs)
    | error e => exact ⟨e, rfl, rfl⟩

/-- An array with blanks around it; and arrays that are not closed, have a comma too many, go on
after their end, or come after white space that is no blank. -/
theorem parseAll_whole_array_samples :
    (∃ rs, parseAll "\n[true, [null]] " none = .ok rs ∧ rs.length = 2 ∧
      Json.parse "\n[true, [null]] " = .ok (.array rs)) ∧
    ∀ text ∈ ["[true, [null]", "[true, ]", "[true] x", "\u00a0[true]"],
      isArrayText text.toList = true ∧
        ∃ e, parseAll text none = .error e ∧ Json.parse text = .error e := by
  constructor
  · have hlength : (parseAll "\n[true, [null]] " none).toOption.map List.length = some 2 := by
      decide +kernel
    cases hread : parseAll "\n[true, [null]] " none with
    | error e => rw [hread] at hlength; cases hlength
    | ok rs =>
      rw [hread] at hlength
      exact ⟨rs, rfl, Option.some.inj hlength, ((parseAll_whole_array rfl).1 rs).1 hread⟩
  · intro text htext
    have hall : ["[true, [null]", "[true, ]", "[true] x", "\u00a0[true]"].all
        (fun text => isArrayText text.toList && !(parseAll text none).isOk) = true := by
      decide +kernel
    have hone := List.all_eq_true.1 hall text htext
    rw [Bool.and_eq_true, Bool.not_eq_true'] at hone
    refine ⟨hone.1, (parseAll_whole_array hone.1).2 fun rs hrs => ?_⟩
    rw [hrs] at hone
    cases hone.2

end Record

end EventTaxonomy
