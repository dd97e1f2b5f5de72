import EventTaxonomy.Proofs.EventRoundTrip
import EventTaxonomy.Proofs.ReadValues
import EventTaxonomy.Proofs.RecordLimit

/-!
# Records are no longer than their text

Whatever is read off a text takes at least one of its characters. So a text of `n` characters has at
most `n` records (`Record.length_parseAll_le`), and no record has a list with more than `n` items.
In particular the location stack of an event is no longer than that
(`Record.length_locationStack_le`).

`Json.ReadWithin n` is the part of this that a value hands on to the values in it: it was read off a
text of at most `n` characters.
-/

namespace EventTaxonomy

open Json (Shape Layout)

namespace Json

/-- The value was read off a text of at most `n` characters. -/
def ReadWithin (n : Nat) (v : Json) : Prop :=
  ∃ room s r, (valueReader room).run s = .ok (v, r) ∧ s.length ≤ n

theorem ReadWithin.mono {m n : Nat} {v : Json} (h : ReadWithin m v) (hmn : m ≤ n) :
    ReadWithin n v := by
  obtain ⟨room, s, r, hrun, hs⟩ := h
  exact ⟨room, s, r, hrun, Nat.le_trans hs hmn⟩

theorem length_add_length_items {α : Type} {reader : Reader α} {first : Bool} {s r : List Char}
    {as : List α} (h : reader.items first s = .ok (as, r)) : as.length + r.length ≤ s.length := by
  fun_induction Reader.items reader first s generalizing as r with
  | case1 => cases h
  | case2 first s t hn =>
    have hlength := length_nextItem_done hn
    cases h
    simp only [List.length_nil]
    omega
  | case3 => cases h
  | case4 => cases h
  | case5 first s t hn a u hu bs w hbs ih =>
    have hitem := length_nextItem_item hn
    have hshort := reader.shortens hu
    have hrest := ih hbs
    cases h
    simp only [List.length_cons]
    omega

theorem ReadsFields.readWithin {room : Nat} {first : Bool} {s r : List Char} {fields : Fields}
    (h : ReadsFields (valueReader room) first s fields r) :
    ∀ field ∈ fields, ReadWithin s.length field.2 := by
  induction h with
  | done hn => simp
  | @field first s t u w r name v fields hn hc hv _ ih =>
    have hkey := length_nextKey_key hn
    have hcolon := length_takeColon hc
    have hshort := (valueReader room).shortens hv
    refine List.forall_mem_cons.2 ⟨⟨room, u, w, hv, by omega⟩, fun field hfield => ?_⟩
    exact (ih field hfield).mono (by omega)

section Parts

variable {n : Nat}

theorem ReadWithin.length_array_le {items : List Json} (h : ReadWithin n (.array items)) :
    items.length ≤ n := by
  obtain ⟨room, s, r, hrun, hs⟩ := h
  obtain ⟨c, p, hp, hv⟩ := run_valueReader_eq_ok.1 hrun
  obtain ⟨-, d, -, hitems⟩ := takeValue_eq_array_iff.1 hv
  have hskip := length_skipBlanks s
  have hlength := length_add_length_items hitems
  rw [hp, List.length_cons] at hskip
  omega

theorem ReadWithin.of_mem_object {fields : Fields} (h : ReadWithin n (.object fields)) :
    ∀ field ∈ fields, ReadWithin n field.2 := by
  obtain ⟨room, s, r, hrun, hs⟩ := h
  obtain ⟨c, p, hp, hv⟩ := run_valueReader_eq_ok.1 hrun
  obtain ⟨-, d, -, hfields⟩ := takeValue_eq_object_iff.1 hv
  have hskip := length_skipBlanks s
  rw [hp, List.length_cons] at hskip
  intro field hfield
  exact (hfields.readWithin field hfield).mono (by omega)

end Parts

theorem Shape.length_ofItems {α : Type} {decode : Json → Except Mismatch α} {items : List Json}
    {as : List α} (h : ofItems decode items = .ok as) : as.length = items.length := by
  have hall : List.Forall₂ (fun item a => decode item = .ok a) items as :=
    (ofItems_eq_ok_iff fun _ _ _ => Iff.rfl).1 h
  exact hall.length_eq.symm

end Json

/-! ### Events -/

theorem Event.length_contextList_le {n : Nat} {w : Json} (hw : Json.ReadWithin n w)
    {cs : List Context} (h : contextList.ofJson w.canonical = .ok cs) : cs.length ≤ n := by
  obtain ⟨read, hread, rfl⟩ := Json.map_eq_ok.1 h
  cases w with
  | null =>
    cases hread
    exact Nat.zero_le n
  | array items =>
    obtain ⟨contexts, hcontexts, rfl⟩ := Json.map_eq_ok.1 hread
    have hlength := Json.Shape.length_ofItems hcontexts
    rw [Json.canonicalItems_eq_map, List.length_map] at hlength
    rw [Option.getD_some, hlength]
    exact hw.length_array_le
  | _ => cases hread

/-- The location stack of an event is no longer than the text of its record. -/
theorem Event.length_locationStack_le {n : Nat} {doc : Json} (hdoc : Json.ReadWithin n doc)
    {e : Event} (h : shape.ofJson doc.canonical = .ok e) : e.locationStack.length ≤ n := by
  cases doc with
  | object fields =>
    obtain ⟨d, hd, hfinish⟩ := Layout.ofObject_eq_ok_iff.1 h
    obtain ⟨-, -, hlocations, -⟩ := foldlM_take_iff.1 hd
    obtain ⟨type, globals, locations, others⟩ := d
    cases type with
    | none => cases hfinish
    | some type =>
      cases hfinish
      -- the list is missing, or comes from a field of the canonical form
      rcases eq_or_ofJson_of_fillAt hlocations with rfl | ⟨v, cs, hmem, hcs, rfl⟩
      · exact Nat.zero_le n
      · obtain ⟨w, hw, rfl⟩ := Json.exists_of_mem_canonicalFields hmem
        exact length_contextList_le (hdoc.of_mem_object _ hw) hcs
  | _ => cases h

/-! ### Records -/

namespace Record

/-- The scan has at most `n` records, each of them read off at most `n` characters. -/
structure Scan.Within {ε ω : Type} (scan : Scan ε ω) (n : Nat) : Prop where
  length_le : scan.records.length ≤ n
  readWithin : ∀ v ∈ scan.records, Json.ReadWithin n v

theorem Scan.within_nil {ε ω : Type} (stop : Except ε ω) (n : Nat) :
    (Scan.mk [] stop).Within n :=
  ⟨Nat.zero_le n, by simp⟩

theorem Scan.Within.cons {ε ω : Type} {scan : Scan ε ω} {m n : Nat} (h : scan.Within m)
    (hmn : m < n) {v : Json} (hv : Json.ReadWithin n v) : (scan.cons v).Within n where
  length_le := Nat.lt_of_le_of_lt h.length_le hmn
  readWithin := List.forall_mem_cons.2
    ⟨hv, fun w hw => (h.readWithin w hw).mono (Nat.le_of_lt hmn)⟩

theorem within_scanItems (room : Nat) (first : Bool) (s : List Char) :
    (scanItems (Json.valueReader room) first s).Within s.length := by
  fun_induction scanItems (Json.valueReader room) first s with
  | case1 first s e hn => exact Scan.within_nil _ _
  | case2 first s r hn => exact Scan.within_nil _ _
  | case3 first s r hn e hr => exact Scan.within_nil _ _
  | case4 first s r hn v t hr ih =>
    have hitem := Json.length_nextItem_item hn
    have hshort := (Json.valueReader room).shortens hr
    exact ih.cons (by omega) ⟨room, r, t, hr, hitem⟩

theorem within_scanValues (room : Nat) (s : List Char) :
    (scanValues (Json.valueReader room) s).Within s.length := by
  fun_induction scanValues (Json.valueReader room) s with
  | case1 s hs => exact Scan.within_nil _ _
  | case2 s c r hs e hr => exact Scan.within_nil _ _
  | case3 s c r hs v t hr e hb => exact Scan.within_nil _ _
  | case4 s c r hs v t hr hb ih =>
    have hskip := Json.length_skipBlanks s
    have hshort := (Json.valueReader room).shortens hr
    rw [hs] at hskip
    exact ih.cons (by omega) ⟨room, c :: r, t, hr, hskip⟩

theorem within_scanChars (s : List Char) : (scanChars s).Within s.length := by
  unfold scanChars
  split_ifs
  · unfold scanArray
    have hskip := Json.length_skipBlanks s
    split
    · exact Scan.within_nil _ _
    · next c r hs =>
      rw [hs, List.length_cons] at hskip
      split_ifs
      · obtain ⟨hlength, hread⟩ := within_scanItems (Json.maxDepth - 1) true r
        exact ⟨by simp only [Scan.andThen]; omega, fun v hv => (hread v hv).mono (by omega)⟩
      · exact Scan.within_nil _ _
  · exact within_scanValues _ s

theorem isPrefix_scan_of_parseAll {text : String} {limit : Option Nat} {records : List Json}
    (h : parseAll text limit = .ok records) : records <+: (scan text).records := by
  rw [parseAll_eq_upTo] at h
  rcases (scan text).upTo_cases limit with ⟨k, -, -, hcut⟩ | ⟨-, hcut⟩
  · rw [hcut] at h
    cases h
    exact List.take_prefix k _
  · rw [hcut] at h
    obtain ⟨_, -, rfl⟩ := Json.map_eq_ok.1 h
    exact List.prefix_rfl

section Text

variable {text : String} {limit : Option Nat} {records : List Json}

/-- **A text has no more records than characters.** -/
theorem length_parseAll_le (h : parseAll text limit = .ok records) :
    records.length ≤ text.length := by
  have hlength := (within_scanChars text.toList).length_le
  calc records.length ≤ (scan text).records.length := (isPrefix_scan_of_parseAll h).length_le
    _ = (scanChars text.toList).records.length := List.length_map _
    _ ≤ text.length := by rwa [String.length_toList] at hlength

/-- **The location stack of an event is no longer than the text of the records.** -/
theorem length_locationStack_le (h : parseAll text limit = .ok records) {index : Nat}
    {record : Json} (hrecord : record ∈ records) {e : Event}
    (he : toEvent index record = .ok e) : e.locationStack.length ≤ text.length := by
  have hmem : record ∈ (scan text).records := (isPrefix_scan_of_parseAll h).subset hrecord
  obtain ⟨doc, hdoc, rfl⟩ := List.mem_map.1 hmem
  have hread := (within_scanChars text.toList).readWithin doc hdoc
  rw [String.length_toList] at hread
  exact Event.length_locationStack_le hread (Json.mapError_eq_ok.1 he)

end Text

end Record

end EventTaxonomy
