import EventTaxonomy.Record
import EventTaxonomy.Proofs.TextFaults
import Mathlib.Data.List.TakeWhile

/-!
# Reading records with a limit is a scan that is cut off

Without a limit, reading the records of a text goes through them one after the other until the text
ends or something is wrong with it. A `Scan` is that course, kept even if it ends badly: the records
up to there, and how it stopped. Reading with a limit is the same scan, cut off once the limit is
reached (`Scan.upTo`).

For values one after the other this is how they are read (`takeValues_eq_upTo`). The items of an
array go to a buffer, and a full buffer ends the reading with a fault like any other; what is made
of a fault depends on the size of the buffer alone. `fillItems_cases` has the two ways in which
filling a buffer ends: given up, with the buffer full, or as the scan does, with room left. So a
fault of the text is never taken for the limit, nor the other way round (`takeArray_eq_upTo`), and
what is reported is a fault of the text (`malformed_of_parseAll_eq_error`).
-/

namespace EventTaxonomy

namespace Record

open Json (Reader Fault ReadError FailsInText)

/-! ### Scans -/

/-- The course of a reading without limit: the records, and then what the reading ends with or
what is wrong with the text. -/
structure Scan (ε ω : Type) where
  records : List Json
  stop : Except ε ω

namespace Scan

variable {ε ω : Type}

/-- A record in front of a scan. -/
def cons (v : Json) (scan : Scan ε ω) : Scan ε ω := ⟨v :: scan.records, scan.stop⟩

/-- The records of a reading with a limit. It comes to the end of the scan only if the limit is not
reached before. -/
def upTo (scan : Scan ε ω) (limit : Option Nat) : Except ε (List Json) :=
  if limit.any (· ≤ scan.records.length) then .ok (scan.records.take (limit.getD 0))
  else scan.stop.map fun _ => scan.records

/-- The scan, if what it ends with passes a check. -/
def andThen (scan : Scan ε ω) (check : ω → Except ε Unit) : Scan ε Unit :=
  ⟨scan.records, scan.stop.bind check⟩

theorem upTo_nil (stop : Except ε ω) (limit : Option Nat) :
    (Scan.mk [] stop).upTo limit =
      if limit = some 0 then .ok [] else stop.map fun _ => [] := by
  cases limit <;> simp [upTo]

theorem upTo_cons (v : Json) (scan : Scan ε ω) (limit : Option Nat) :
    (scan.cons v).upTo limit =
      if limit = some 0 then .ok [] else (scan.upTo (limit.map (· - 1))).map (v :: ·) := by
  match limit with
  | none => cases h : scan.stop <;> simp [upTo, cons, h, Except.map]
  | some 0 => simp [upTo]
  | some (n + 1) =>
    by_cases hn : n ≤ scan.records.length
    · simp [upTo, cons, hn, Except.map]
    · cases h : scan.stop <;> simp [upTo, cons, hn, h, Except.map]

theorem upTo_of_le {scan : Scan ε ω} {n : Nat} (h : n ≤ scan.records.length) :
    scan.upTo (some n) = .ok (scan.records.take n) := by
  simp [upTo, h]

theorem upTo_of_lt {scan : Scan ε ω} {limit : Option Nat}
    (h : ∀ n ∈ limit, scan.records.length < n) :
    scan.upTo limit = scan.stop.map fun _ => scan.records := by
  have hany : limit.any (· ≤ scan.records.length) = false := by
    cases limit with
    | none => rfl
    | some n => simpa using h n rfl
  simp [upTo, hany]

/-- A limit cuts the scan off, or has no effect. -/
theorem upTo_cases (scan : Scan ε ω) (limit : Option Nat) :
    (∃ k ∈ limit, k ≤ scan.records.length ∧ scan.upTo limit = .ok (scan.records.take k)) ∨
      ((∀ k ∈ limit, scan.records.length < k) ∧
        scan.upTo limit = scan.stop.map fun _ => scan.records) := by
  by_cases h : ∃ k ∈ limit, k ≤ scan.records.length
  · obtain ⟨k, rfl, hk⟩ := h
    exact .inl ⟨k, rfl, hk, upTo_of_le hk⟩
  · have hlt : ∀ k ∈ limit, scan.records.length < k := fun k hk =>
      Nat.not_le.1 fun hle => h ⟨k, hk, hle⟩
    exact .inr ⟨hlt, upTo_of_lt hlt⟩

theorem upTo_none_eq_ok {scan : Scan ε Unit} {rs : List Json} (h : scan.upTo none = .ok rs) :
    scan.stop = .ok () ∧ scan.records = rs := by
  rw [upTo_of_lt (by simp)] at h
  obtain ⟨_, hstop, rfl⟩ := Json.map_eq_ok.1 h
  exact ⟨hstop, rfl⟩

/-- The scan with its records and its fault converted. -/
def convert {ε' : Type} (f : Json → Json) (g : ε → ε') (scan : Scan ε ω) : Scan ε' ω :=
  ⟨scan.records.map f, scan.stop.mapError g⟩

theorem upTo_convert {ε' : Type} (f : Json → Json) (g : ε → ε') (scan : Scan ε ω)
    (limit : Option Nat) :
    (scan.convert f g).upTo limit = ((scan.upTo limit).mapError g).map (·.map f) := by
  rcases scan.upTo_cases limit with ⟨k, rfl, hk, h⟩ | ⟨hlt, h⟩
  · rw [upTo_of_le (by simpa [convert] using hk), h]
    simp [convert, Except.map]
  · rw [upTo_of_lt (by simpa [convert] using hlt), h]
    cases hs : scan.stop <;> simp [convert, hs, Except.map]

end Scan

/-! ### The items of an array -/

/-- The scan of the items of an array; it ends with the text after the closing bracket. -/
def scanItems (reader : Reader Json) (first : Bool) (s : List Char) : Scan Fault (List Char) :=
  match _hn : Json.nextItem first s with
  | .error e => ⟨[], .error e⟩
  | .ok (.done r) => ⟨[], .ok r⟩
  | .ok (.item r) =>
    match _hr : reader.run r with
    | .error e => ⟨[], .error e⟩
    | .ok (v, t) => (scanItems reader false t).cons v
termination_by s.length
decreasing_by
  have := Json.length_nextItem_item _hn
  have := reader.shortens _hr
  omega

theorem scanItems_of_error {reader : Reader Json} {first : Bool} {p : List Char} {e : Fault}
    (hn : Json.nextItem first p = .error e) : scanItems reader first p = ⟨[], .error e⟩ := by
  rw [scanItems]
  split <;> simp_all

theorem scanItems_of_done {reader : Reader Json} {first : Bool} {p r : List Char}
    (hn : Json.nextItem first p = .ok (.done r)) : scanItems reader first p = ⟨[], .ok r⟩ := by
  rw [scanItems]
  split <;> simp_all

theorem scanItems_of_item {reader : Reader Json} {first : Bool} {p r t : List Char} {v : Json}
    (hn : Json.nextItem first p = .ok (.item r)) (hr : reader.run r = .ok (v, t)) :
    scanItems reader first p = (scanItems reader false t).cons v := by
  rw [scanItems]
  split
  · simp_all
  · simp_all
  · next r' hn' =>
    rw [hn, Except.ok.injEq, Json.ListStep.item.injEq] at hn'
    subst hn'
    split
    · simp_all
    · next v' t' hr' =>
      rw [hr, Except.ok.injEq, Prod.mk.injEq] at hr'
      obtain ⟨rfl, rfl⟩ := hr'
      rfl

theorem scanItems_of_fault {reader : Reader Json} {first : Bool} {p r : List Char} {e : Fault}
    (hn : Json.nextItem first p = .ok (.item r)) (hr : reader.run r = .error e) :
    scanItems reader first p = ⟨[], .error e⟩ := by
  rw [scanItems]
  split <;> simp_all
  split <;> simp_all

/-- The scan of an array that makes up a text. -/
def scanArray (s : List Char) : Scan Fault Unit :=
  match Json.skipBlanks s with
  | [] => ⟨[], .error (.here .endOfValue [])⟩
  | c :: r =>
    if c = '[' then
      (scanItems (Json.valueReader (Json.maxDepth - 1)) true r).andThen Json.expectEnd
    else ⟨[], .error (Json.refusal (.record "an array of events") c r)⟩

theorem all_lt_iff {limit : Option Nat} {k : Nat} :
    limit.all (k < ·) = true ↔ ∀ n ∈ limit, k < n := by
  cases limit <;> simp

theorem push_append_toArray (buffer : Array Json) (v : Json) (vs : List Json) :
    buffer.push v ++ vs.toArray = buffer ++ (v :: vs).toArray :=
  Array.ext' (by simp)

/-- **The two ways in which filling a buffer ends.** Either the scan has enough records to fill the
buffer, and then the rest is given up; or there is room for all of them, and then the reading ends
as the scan does, and the buffer is not full. -/
theorem fillItems_cases (reader : Reader Json) (limit : Option Nat) (buffer : Array Json)
    (first : Bool) (s : List Char) (hbuffer : ∀ n ∈ limit, buffer.size ≤ n) :
    (∃ n ∈ limit, n ≤ buffer.size + (scanItems reader first s).records.length ∧
      ∃ t, fillItems reader limit buffer first s =
        ⟨buffer ++ ((scanItems reader first s).records.take (n - buffer.size)).toArray,
          .error (limitReached t)⟩) ∨
    ((∀ n ∈ limit, buffer.size + (scanItems reader first s).records.length < n) ∧
      fillItems reader limit buffer first s =
        ⟨buffer ++ (scanItems reader first s).records.toArray,
          (scanItems reader first s).stop⟩) := by
  fun_induction fillItems reader limit buffer first s with
  | case1 buffer first s hroom e hn =>
    rw [scanItems_of_error hn]
    exact .inr ⟨all_lt_iff.1 hroom, by simp⟩
  | case2 buffer first s hroom r hn =>
    rw [scanItems_of_done hn]
    exact .inr ⟨all_lt_iff.1 hroom, by simp⟩
  | case3 buffer first s hroom r hn e hr =>
    rw [scanItems_of_fault hn hr]
    exact .inr ⟨all_lt_iff.1 hroom, by simp⟩
  | case4 buffer first s hroom r hn v t hr ih =>
    have hroom := all_lt_iff.1 hroom
    have hsize : (buffer.push v).size = buffer.size + 1 := Array.size_push v
    rw [scanItems_of_item hn hr, Scan.cons, List.length_cons]
    rcases ih (by rwa [hsize]) with ⟨n, hlimit, hle, u, hfill⟩ | ⟨hlt, hfill⟩
    · have htake : n - buffer.size = n - (buffer.push v).size + 1 := by
        have := hroom n hlimit
        omega
      refine .inl ⟨n, hlimit, by omega, u, ?_⟩
      rw [hfill, push_append_toArray, htake, List.take_succ_cons]
    · refine .inr ⟨fun n hlimit => ?_, ?_⟩
      · have := hlt n hlimit
        omega
      · rw [hfill, push_append_toArray]
  | case5 buffer first s hfull =>
    -- without room, the limit is the size of the buffer
    cases limit with
    | none => simp at hfull
    | some n =>
      have hn : n = buffer.size := by
        have := hbuffer n rfl
        simp at hfull
        omega
      exact .inl ⟨n, rfl, by omega, s, by simp [hn]⟩

theorem failsInText_scanItems {reader : Reader Json} (h : ∀ s, FailsInText (reader.run s))
    (first : Bool) (s : List Char) : FailsInText (scanItems reader first s).stop := by
  fun_induction scanItems reader first s with
  | case1 first s e hn => exact (Json.failsInText_nextItem first s).error hn
  | case2 => exact Json.failsInText_ok _
  | case3 first s r hn e hr => exact (h r).error hr
  | case4 first s r hn v t hr ih => exact ih

theorem finish_of_full {limit : Option Nat} {records : List Json}
    (h : limit = some records.length) (e : Fault) :
    (Buffered.mk records.toArray (.error e)).finish limit = .ok records := by
  simp [Buffered.finish, h]

theorem finish_of_room {limit : Option Nat} {records : List Json}
    (h : ∀ n ∈ limit, records.length < n) (e : Fault) :
    (Buffered.mk records.toArray (.error e)).finish limit = .error e := by
  have hroom : limit ≠ some records.length := fun hfull => Nat.lt_irrefl _ (h _ hfull)
  simp [Buffered.finish, hroom]

/-- **Buffer, fault and guard come to the scan of the array, cut off at the limit.** The buffer is
full just if the rest was given up, so that the guard recognises this fault and no other. -/
theorem takeArray_eq_upTo (limit : Option Nat) (s : List Char) :
    takeArray limit s = (scanArray s).upTo limit := by
  unfold takeArray fillArray scanArray
  cases Json.skipBlanks s with
  | nil =>
    rw [Scan.upTo_nil]
    rfl
  | cons c r =>
    dsimp only
    by_cases hc : c = '['
    · rw [if_pos hc, if_pos hc]
      have hfails := failsInText_scanItems (Json.failsInText_valueReader (Json.maxDepth - 1)) true r
      have hcases := fillItems_cases (Json.valueReader (Json.maxDepth - 1)) limit #[] true r
        fun n _ => Nat.zero_le n
      generalize scanItems (Json.valueReader (Json.maxDepth - 1)) true r = items at hfails hcases ⊢
      simp only [Array.empty_append, List.size_toArray, List.length_nil, Nat.zero_add,
        Nat.sub_zero] at hcases
      rcases hcases with ⟨n, rfl, hle, t, hfill⟩ | ⟨hlt, hfill⟩
      · have hfull : some n = some (items.records.take n).length := by
          rw [List.length_take, Nat.min_eq_left hle]
        have hcut : (items.andThen Json.expectEnd).upTo (some n) = .ok (items.records.take n) :=
          Scan.upTo_of_le hle
        rw [hfill, hcut, Json.mapError_error, finish_of_full hfull]
      · have hend : (items.andThen Json.expectEnd).upTo limit =
            (items.stop.bind Json.expectEnd).map fun _ => items.records := Scan.upTo_of_lt hlt
        rw [hfill, hend]
        cases hstop : items.stop with
        | ok t => rfl
        | error e =>
          rw [Json.mapError_error, hfails.settle hstop, finish_of_room hlt]
          rfl
    · rw [if_neg hc, if_neg hc, Scan.upTo_nil]
      rfl

/-! ### Values one after the other -/

/-- The scan of values one after the other. -/
def scanValues (reader : Reader Json) (s : List Char) : Scan Fault Unit :=
  match _hs : Json.skipBlanks s with
  | [] => ⟨[], .ok ()⟩
  | c :: r =>
    match _hr : reader.run (c :: r) with
    | .error e => ⟨[], .error e⟩
    | .ok (v, t) =>
      match checkBoundary c t with
      | .error e => ⟨[], .error e⟩
      | .ok () => (scanValues reader t).cons v
termination_by s.length
decreasing_by
  have h1 := Json.length_skipBlanks s
  have h2 := reader.shortens _hr
  simp only [_hs] at h1
  omega

theorem takeValues_eq (reader : Reader Json) (limit : Option Nat) (s : List Char) :
    takeValues reader limit s =
      if limit = some 0 then .ok []
      else
        match Json.skipBlanks s with
        | [] => .ok []
        | c :: r =>
          match reader.run (c :: r) with
          | .error e => .error e
          | .ok (v, t) =>
            match checkBoundary c t with
            | .error e => .error e
            | .ok () => (takeValues reader (limit.map (· - 1)) t).map (v :: ·) := by
  rw [takeValues]
  split_ifs
  · rfl
  · split
    · next hs => rw [hs]
    · next c r hs =>
      rw [hs]
      dsimp only
      split
      · next e hr => rw [hr]
      · next v t hr => cases hb : checkBoundary c t <;> simp only [hr, hb]

theorem takeValues_eq_upTo (reader : Reader Json) (limit : Option Nat) (s : List Char) :
    takeValues reader limit s = (scanValues reader s).upTo limit := by
  fun_induction scanValues reader s generalizing limit with
  | case1 s hs =>
    rw [takeValues_eq, hs, Scan.upTo_nil]
    rfl
  | case2 s c r hs e hr =>
    rw [takeValues_eq, Scan.upTo_nil]
    simp only [hs, hr]
    rfl
  | case3 s c r hs v t hr e hb =>
    rw [takeValues_eq, Scan.upTo_nil]
    simp only [hs, hr, hb]
    rfl
  | case4 s c r hs v t hr hb ih =>
    rw [takeValues_eq, Scan.upTo_cons, ← ih]
    simp only [hs, hr, hb]

theorem failsInText_scanValues {reader : Reader Json} (h : ∀ s, FailsInText (reader.run s))
    (s : List Char) : FailsInText (scanValues reader s).stop := by
  fun_induction scanValues reader s with
  | case1 => exact Json.failsInText_ok _
  | case2 s c r hs e hr => exact (h _).error hr
  | case3 s c r hs v t hr e hb =>
    refine FailsInText.error ?_ hb
    unfold checkBoundary
    split_ifs
    · exact Json.failsInText_ok _
    · split
      · exact Json.failsInText_ok _
      · split_ifs <;> simp
  | case4 s c r hs v t hr hb ih => exact ih

/-! ### White space in front of an array -/

theorem isSpace_of_isDigit {c : Char} (h : c.isDigit = true) : Text.isSpace c = false := by
  simp only [Char.isDigit, Bool.and_eq_true, decide_eq_true_eq] at h
  have hlow : 48 ≤ c.toNat := h.1
  have hhigh : c.toNat ≤ 57 := h.2
  simp only [Text.isSpace, Bool.or_eq_false_iff, Bool.and_eq_false_iff, decide_eq_false_iff_not]
  omega

theorem ne_of_isSpace {c d : Char} (hc : Text.isSpace c = true) (hd : Text.isSpace d = false) :
    c ≠ d := by
  rintro rfl
  exact Bool.false_ne_true (hd.symm.trans hc)

/-- No value starts with white space, of whatever kind. -/
theorem takeScalar_of_isSpace {c : Char} (hc : Text.isSpace c = true) (s : List Char) :
    Json.takeScalar (c :: s) = .error (.next .expectedValue (c :: s)) := by
  have hdigit : ¬ c.isDigit = true := fun h => ne_of_isSpace hc (isSpace_of_isDigit h) rfl
  rw [Json.takeScalar, if_neg (ne_of_isSpace hc rfl), if_neg (ne_of_isSpace hc rfl),
    if_neg (ne_of_isSpace hc rfl), if_neg (ne_of_isSpace hc rfl), if_neg (ne_of_isSpace hc rfl),
    if_neg hdigit]

theorem takeValue_of_isSpace {c : Char} (hc : Text.isSpace c = true)
    (inner : Option (Reader Json)) (s : List Char) :
    Json.takeValue inner c s = .error (.next .expectedValue (c :: s)) := by
  unfold Json.takeValue
  rw [if_neg (ne_of_isSpace hc rfl), if_neg (ne_of_isSpace hc rfl), takeScalar_of_isSpace hc]

theorem refusal_of_isSpace {c : Char} (hc : Text.isSpace c = true) (wanted : Json.Wanted)
    (s : List Char) : Json.refusal wanted c s = .next .expectedValue (c :: s) := by
  unfold Json.refusal
  rw [if_neg (ne_of_isSpace hc rfl), if_neg (ne_of_isSpace hc rfl), takeScalar_of_isSpace hc]

theorem isSpace_of_isBlank {c : Char} (h : Json.isBlank c = true) : Text.isSpace c = true := by
  simp only [Json.isBlank, Bool.or_eq_true, decide_eq_true_iff] at h
  rcases h with ((rfl | rfl) | rfl) | rfl <;> rfl

theorem dropWhile_isSpace_skipBlanks (s : List Char) :
    (Json.skipBlanks s).dropWhile Text.isSpace = s.dropWhile Text.isSpace := by
  induction s with
  | nil => rfl
  | cons c s ih =>
    rw [Json.skipBlanks] at ih ⊢
    by_cases hc : Json.isBlank c = true
    · rw [List.dropWhile_cons_of_pos hc, List.dropWhile_cons_of_pos (isSpace_of_isBlank hc), ih]
    · rw [List.dropWhile_cons_of_neg hc]

/-- An array text starts with its bracket, unless other white space is in front. -/
theorem first_of_isArrayText {s r : List Char} {c : Char} (h : isArrayText s = true)
    (hs : Json.skipBlanks s = c :: r) : c = '[' ∨ Text.isSpace c = true := by
  rw [isArrayText, ← dropWhile_isSpace_skipBlanks, hs] at h
  by_cases hc : Text.isSpace c = true
  · exact .inr hc
  · rw [List.dropWhile_cons_of_neg hc] at h
    exact .inl (of_decide_eq_true h)

/-- What is wrong with an array that makes up a text is wrong with its text. -/
theorem failsInText_scanArray {s : List Char} (h : isArrayText s = true) :
    FailsInText (scanArray s).stop := by
  unfold scanArray
  cases hs : Json.skipBlanks s with
  | nil => exact Json.failsInText_here _ _
  | cons c r =>
    dsimp only
    rcases first_of_isArrayText h hs with rfl | hspace
    · rw [if_pos rfl]
      have hitems := failsInText_scanItems (Json.failsInText_valueReader (Json.maxDepth - 1)) true r
      unfold Scan.andThen
      cases hstop : (scanItems (Json.valueReader (Json.maxDepth - 1)) true r).stop with
      | ok t => exact Json.failsInText_expectEnd t
      | error e => exact hitems.error hstop
    · rw [if_neg (ne_of_isSpace hspace rfl), refusal_of_isSpace hspace]
      exact Json.failsInText_next _ _

/-! ### Texts -/

/-- The scan of a text. -/
def scanChars (s : List Char) : Scan Fault Unit :=
  if isArrayText s then scanArray s else scanValues (Json.valueReader Json.maxDepth) s

theorem failsInText_scanChars (s : List Char) : FailsInText (scanChars s).stop := by
  unfold scanChars
  split_ifs with harray
  · exact failsInText_scanArray harray
  · exact failsInText_scanValues (Json.failsInText_valueReader _) s

/-- The scan of a text, with its records in canonical form and the position of what is wrong. -/
def scan (text : String) : Scan ReadError Unit :=
  (scanChars text.toList).convert Json.canonical (Fault.locate text.toList)

/-- **Reading with a limit is the scan of the text, cut off at the limit.** -/
theorem parseAll_eq_upTo (text : String) (limit : Option Nat) :
    parseAll text limit = (scan text).upTo limit := by
  unfold parseAll scan scanChars
  dsimp only
  rw [Scan.upTo_convert, takeArray_eq_upTo, takeValues_eq_upTo]
  split_ifs <;> rfl

/-- **What is reported is a fault of the text**, and never that the limit was reached. -/
theorem malformed_of_parseAll_eq_error {text : String} {limit : Option Nat} {e : ReadError}
    (h : parseAll text limit = .error e) : ∃ m, e.cause = .malformed m := by
  rw [parseAll_eq_upTo] at h
  rcases (scan text).upTo_cases limit with ⟨k, -, -, hcut⟩ | ⟨-, hcut⟩
  · rw [hcut] at h
    cases h
  · rw [hcut, scan, Scan.convert] at h
    cases hstop : (scanChars text.toList).stop with
    | ok w =>
      rw [hstop] at h
      cases h
    | error f =>
      obtain ⟨m, left, rfl⟩ := failsInText_scanChars text.toList f hstop
      rw [hstop] at h
      cases h
      exact ⟨m, rfl⟩

end Record

end EventTaxonomy
