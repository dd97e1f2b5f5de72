import EventTaxonomy.Proofs.Printing
import EventTaxonomy.Proofs.RecordLimit
import Mathlib.Data.List.Forall2

/-!
# Records in an array and records on lines

The same records may come as the items of an array or as values on lines of their own. The two are
read by different loops: an item ends at a comma or a bracket and is read with one level of nesting
less (`scanItems`), a value ends where it shows its end or at a blank (`scanValues`). Both see each
text as it is when it stands alone, since the reader of values is local, so the scans have the same
records (`scanChars_arrayText`, `scanChars_linesText`), and so has every reading with a limit
(`parseAll_forms`).

How deep a text is nested is said of the text as it is written (`Spells`). A field that a later one
of the same name replaces is not in the value any more, but it has to be read, and in an array there
may be no room for it (`parseAll_replaced_too_deep`).
-/

namespace EventTaxonomy

namespace Record

open Json (Reader Fault ReadError)

/-! ### Texts and what they are put together to -/

/-- The texts as the items of an array. -/
def arrayText (texts : List String) : String := "[" ++ ",".intercalate texts ++ "]"

/-- The texts on lines of their own. -/
def linesText (texts : List String) : String := "\n".intercalate texts

/-- The text is that of one value, nested at most 126 levels deep as it is written. In canonical
form the value is `v`. -/
def Spells (text : String) (v : Json) : Prop :=
  ∃ doc, (Json.valueReader Json.maxDepth).parse text = .ok doc ∧ doc.depth ≤ 126 ∧
    doc.canonical = v

/-- The characters are those of a value, as `reader` reads it, with nothing but blanks after it. -/
def ReadsAll (reader : Reader Json) (p : List Char) (v : Json) : Prop :=
  ∃ r, reader.run p = .ok (v, r) ∧ Json.skipBlanks r = []

theorem intercalate_cons_flatMap {α : Type} (sep a : List α) (as : List (List α)) :
    sep.intercalate (a :: as) = a ++ as.flatMap (sep ++ ·) := by
  induction as generalizing a with
  | nil => simp
  | cons b as ih => simp [List.intercalate_cons_cons, ih]

theorem expectEnd_eq_ok_iff {s : List Char} :
    Json.expectEnd s = .ok () ↔ Json.skipBlanks s = [] := by
  unfold Json.expectEnd
  cases Json.skipBlanks s <;> simp

theorem ReadsAll.of_parse {text : String} {doc : Json} {room room' : Nat}
    (h : (Json.valueReader room).parse text = .ok doc) (hdepth : doc.depth ≤ room') :
    ReadsAll (Json.valueReader room') text.toList doc := by
  obtain ⟨r, hr, hend⟩ := Json.Reader.parse_eq_ok_iff.1 h
  exact ⟨r, Json.run_of_depth_le hr hdepth, expectEnd_eq_ok_iff.1 hend⟩

/-- Blanks in front do not count. -/
theorem skipBlanks_blanks_append {b : List Char} (hb : Json.skipBlanks b = []) (s : List Char) :
    Json.skipBlanks (b ++ s) = Json.skipBlanks s := by
  rw [Json.skipBlanks] at hb
  rw [Json.skipBlanks, Json.skipBlanks, List.dropWhile_append, hb]
  rfl

theorem exists_docs_of_spells {texts : List String} {vs : List Json}
    (h : List.Forall₂ Spells texts vs) :
    ∃ docs : List Json, List.Forall₂ (fun text doc =>
        (Json.valueReader Json.maxDepth).parse text = .ok doc ∧ doc.depth ≤ 126) texts docs ∧
      docs.map Json.canonical = vs := by
  induction h with
  | nil => exact ⟨[], .nil, rfl⟩
  | cons hspells _ ih =>
    obtain ⟨doc, hparse, hdepth, rfl⟩ := hspells
    obtain ⟨docs, hdocs, rfl⟩ := ih
    exact ⟨doc :: docs, .cons ⟨hparse, hdepth⟩ hdocs, rfl⟩

/-! ### Items of an array -/

theorem nextItem_blanks_append {b : List Char} (hb : Json.skipBlanks b = []) (first : Bool)
    (s : List Char) : Json.nextItem first (b ++ s) = Json.nextItem first s := by
  rw [Json.nextItem, Json.nextItem, skipBlanks_blanks_append hb]

/-- What follows an item of an array: the other items, each after a comma, and the bracket. -/
def itemsTail (ps : List (List Char)) : List Char := ps.flatMap ([','] ++ ·) ++ [']']

theorem breaks_itemsTail (ps : List (List Char)) : Json.Breaks (itemsTail ps) := by
  cases ps <;> simp [itemsTail, Json.Breaks] <;> decide

section Items

variable {depth : Nat}

/-- One text is an item, whatever its end, if the array goes on after it. -/
theorem scanItems_item {p : List Char} {v : Json} (h : ReadsAll (Json.valueReader depth) p v)
    (ps : List (List Char)) :
    ∃ b, Json.skipBlanks b = [] ∧
      scanItems (Json.valueReader depth) true (p ++ itemsTail ps) =
        (scanItems (Json.valueReader depth) false (b ++ itemsTail ps)).cons v ∧
      ∀ {b'}, Json.skipBlanks b' = [] →
        scanItems (Json.valueReader depth) false (b' ++ ',' :: (p ++ itemsTail ps)) =
          (scanItems (Json.valueReader depth) false (b ++ itemsTail ps)).cons v := by
  obtain ⟨b, hrun, hb⟩ := h
  have happend := Json.isLocal_valueReader depth hrun fun _ => breaks_itemsTail ps
  obtain ⟨q, hq, hfirst, hnext⟩ := Json.item_of_run happend
  refine ⟨b, hb, scanItems_of_item hfirst hq, ?_⟩
  intro b' hb'
  exact scanItems_of_item (by rw [nextItem_blanks_append hb', hnext]) hq

theorem scanItems_itemsTail {ps : List (List Char)} {vs : List Json}
    (h : List.Forall₂ (ReadsAll (Json.valueReader depth)) ps vs) {b : List Char}
    (hb : Json.skipBlanks b = []) :
    scanItems (Json.valueReader depth) false (b ++ itemsTail ps) = ⟨vs, .ok []⟩ := by
  induction h generalizing b with
  | nil =>
    refine scanItems_of_done ?_
    rw [nextItem_blanks_append hb]
    rfl
  | @cons p v ps vs hp _ ih =>
    obtain ⟨b', hb', -, hnext⟩ := scanItems_item hp ps
    have htail : itemsTail (p :: ps) = ',' :: (p ++ itemsTail ps) := by
      simp [itemsTail]
    rw [htail, hnext hb, ih hb']
    rfl

/-- **The scan of an array has the values of its items.** -/
theorem scanItems_intercalate {ps : List (List Char)} {vs : List Json}
    (h : List.Forall₂ (ReadsAll (Json.valueReader depth)) ps vs) :
    scanItems (Json.valueReader depth) true ([','].intercalate ps ++ [']']) = ⟨vs, .ok []⟩ := by
  cases h with
  | nil => exact scanItems_of_done rfl
  | @cons p v ps vs hp hps =>
    obtain ⟨b, hb, hfirst, -⟩ := scanItems_item hp ps
    rw [intercalate_cons_flatMap, List.append_assoc, ← itemsTail, hfirst,
      scanItems_itemsTail hps hb]
    rfl

end Items

theorem toList_arrayText (texts : List String) :
    (arrayText texts).toList = '[' :: ([','].intercalate (texts.map String.toList) ++ [']']) := by
  rw [arrayText, String.toList_append, String.toList_append, String.toList_intercalate]
  rfl

theorem scanChars_bracket (p : List Char) :
    scanChars ('[' :: p) =
      (scanItems (Json.valueReader (Json.maxDepth - 1)) true p).andThen Json.expectEnd :=
  rfl

theorem scanChars_arrayText {texts : List String} {docs : List Json}
    (h : List.Forall₂ (fun text => ReadsAll (Json.valueReader (Json.maxDepth - 1)) text.toList)
      texts docs) : scanChars (arrayText texts).toList = ⟨docs, .ok ()⟩ := by
  rw [toList_arrayText, scanChars_bracket, scanItems_intercalate (List.forall₂_map_left_iff.2 h)]
  rfl

/-! ### Values on lines -/

/-- What follows a value on a line: the other ones, each after a line break. -/
def linesTail (ps : List (List Char)) : List Char := ps.flatMap (['\n'] ++ ·)

theorem isBlank_head_linesTail (ps : List (List Char)) :
    ∀ c ∈ (linesTail ps).head?, Json.isBlank c = true := by
  cases ps with
  | nil => simp [linesTail]
  | cons p ps =>
    intro c hc
    cases hc
    rfl

theorem isBlank_head_append {b s : List Char} (hb : Json.skipBlanks b = [])
    (hs : ∀ c ∈ s.head?, Json.isBlank c = true) : ∀ c ∈ (b ++ s).head?, Json.isBlank c = true := by
  cases b with
  | nil => exact hs
  | cons d b =>
    intro c hc
    cases hc
    exact List.dropWhile_eq_nil_iff.1 hb d List.mem_cons_self

section Lines

variable {depth : Nat}

/-- One text is a value, whatever blanks stand in front of it, if a line ends after it. -/
theorem scanValues_value {p : List Char} {v : Json} (h : ReadsAll (Json.valueReader depth) p v)
    {b : List Char} (hb : Json.skipBlanks b = []) (ps : List (List Char)) :
    ∃ b', Json.skipBlanks b' = [] ∧
      scanValues (Json.valueReader depth) (b ++ (p ++ linesTail ps)) =
        (scanValues (Json.valueReader depth) (b' ++ linesTail ps)).cons v := by
  obtain ⟨b', hrun, hb'⟩ := h
  have hblank := isBlank_head_linesTail ps
  have happend := Json.isLocal_valueReader depth hrun fun _ => Json.breaks_of_isBlank hblank
  obtain ⟨c, r, hr, hv⟩ := Json.run_valueReader_eq_ok.1 happend
  have hskip := Json.skipBlanks_of_skipBlanks_eq hr
  refine ⟨b', hb', scanValues_of_value ?_ ((Json.run_valueReader_cons_eq_ok hskip).2 hv) ?_⟩
  · rw [skipBlanks_blanks_append hb, hr]
  · -- what follows the value is blank, if anything
    have hempty : checkBoundary c [] = .ok () := by
      unfold checkBoundary
      split_ifs <;> rfl
    exact checkBoundary_append (t := []) hempty (isBlank_head_append hb' hblank)

theorem scanValues_linesTail {ps : List (List Char)} {vs : List Json}
    (h : List.Forall₂ (ReadsAll (Json.valueReader depth)) ps vs) {b : List Char}
    (hb : Json.skipBlanks b = []) :
    scanValues (Json.valueReader depth) (b ++ linesTail ps) = ⟨vs, .ok ()⟩ := by
  induction h generalizing b with
  | nil =>
    rw [linesTail, List.flatMap_nil, List.append_nil, scanValues]
    split <;> simp_all
  | @cons p v ps vs hp _ ih =>
    have hbreak : Json.skipBlanks (b ++ ['\n']) = [] := by
      rw [skipBlanks_blanks_append hb]
      rfl
    obtain ⟨b', hb', hvalue⟩ := scanValues_value hp hbreak ps
    have htail : b ++ linesTail (p :: ps) = (b ++ ['\n']) ++ (p ++ linesTail ps) := by
      simp [linesTail]
    rw [htail, hvalue, ih hb']
    rfl

/-- **The scan of lines has the values on them.** -/
theorem scanValues_intercalate {ps : List (List Char)} {vs : List Json}
    (h : List.Forall₂ (ReadsAll (Json.valueReader depth)) ps vs) :
    scanValues (Json.valueReader depth) (['\n'].intercalate ps) = ⟨vs, .ok ()⟩ := by
  cases h with
  | nil => exact scanValues_linesTail (b := []) .nil rfl
  | @cons p v ps vs hp hps =>
    obtain ⟨b, hb, hvalue⟩ := scanValues_value hp (b := []) rfl ps
    rw [intercalate_cons_flatMap, ← linesTail, ← List.nil_append (p ++ linesTail ps), hvalue,
      scanValues_linesTail hps hb]
    rfl

/-- Whether lines are an array is decided on the first one. -/
theorem isArrayText_intercalate {ps : List (List Char)} {vs : List Json}
    (h : List.Forall₂ (ReadsAll (Json.valueReader depth)) ps vs)
    (hfirst : ∀ p ∈ ps.head?, isArrayText p = false) :
    isArrayText (['\n'].intercalate ps) = false := by
  cases h with
  | nil => rfl
  | @cons p v ps vs hp _ =>
    have hscan : scanValues (Json.valueReader depth) p = ⟨[v], .ok ()⟩ := by
      simpa using scanValues_intercalate (.cons hp .nil)
    have hne : p.dropWhile Text.isSpace ≠ [] := by
      apply dropWhile_isSpace_ne_nil
      rw [hscan]
      exact List.cons_ne_nil v []
    rw [intercalate_cons_flatMap, isArrayText_append hne]
    exact hfirst p rfl

end Lines

theorem toList_linesText (texts : List String) :
    (linesText texts).toList = ['\n'].intercalate (texts.map String.toList) := by
  rw [linesText, String.toList_intercalate]
  rfl

theorem scanChars_linesText {texts : List String} {docs : List Json}
    (h : List.Forall₂ (fun text => ReadsAll (Json.valueReader Json.maxDepth) text.toList)
      texts docs) (hfirst : ∀ text ∈ texts.head?, isArrayText text.toList = false) :
    scanChars (linesText texts).toList = ⟨docs, .ok ()⟩ := by
  have hchars := List.forall₂_map_left_iff.2 h
  have harray : isArrayText (['\n'].intercalate (texts.map String.toList)) = false := by
    apply isArrayText_intercalate hchars
    intro p hp
    rw [List.head?_map] at hp
    obtain ⟨text, htext, rfl⟩ := Option.map_eq_some_iff.1 hp
    exact hfirst text htext
  rw [toList_linesText, scanChars, harray, if_neg Bool.false_ne_true, scanValues_intercalate hchars]

/-! ### Both forms -/

theorem Scan.upTo_finished {ε : Type} (records : List Json) (limit : Option Nat) :
    (Scan.mk records (.ok ()) : Scan ε Unit).upTo limit =
      .ok (limit.elim records records.take) := by
  rcases (Scan.mk records (.ok ()) : Scan ε Unit).upTo_cases limit with
    ⟨k, rfl, -, hcut⟩ | ⟨hlt, hcut⟩
  · exact hcut
  · rw [hcut]
    cases limit with
    | none => rfl
    | some n => rw [Option.elim_some, List.take_of_length_le (Nat.le_of_lt (hlt n rfl))]; rfl

/-- A text whose scan comes to its end is read to the canonical forms, up to the limit. -/
theorem parseAll_of_scanChars {text : String} {docs : List Json}
    (h : scanChars text.toList = ⟨docs, .ok ()⟩) (limit : Option Nat) :
    parseAll text limit =
      .ok (limit.elim (docs.map Json.canonical) (docs.map Json.canonical).take) := by
  rw [parseAll_eq_upTo, scan, h, Scan.convert, Json.mapError_ok, Scan.upTo_finished]

/-- **Both forms give the same records.** Each of the texts is that of one value, nested at most 126
levels deep, and the first one is no array. Then, as items of an array and on lines, the texts are
read to their values, up to the limit. -/
theorem parseAll_forms {texts : List String} {vs : List Json}
    (h : List.Forall₂ Spells texts vs)
    (hfirst : ∀ text ∈ texts.head?, isArrayText text.toList = false) (limit : Option Nat) :
    parseAll (arrayText texts) limit = .ok (limit.elim vs vs.take) ∧
      parseAll (linesText texts) limit = .ok (limit.elim vs vs.take) := by
  obtain ⟨docs, hdocs, rfl⟩ := exists_docs_of_spells h
  have hroom : 126 ≤ Json.maxDepth := by decide
  refine ⟨parseAll_of_scanChars (scanChars_arrayText ?_) limit,
    parseAll_of_scanChars (scanChars_linesText ?_ hfirst) limit⟩
  · exact hdocs.imp fun text doc hdoc => .of_parse hdoc.1 hdoc.2
  · exact hdocs.imp fun text doc hdoc => .of_parse hdoc.1 (Nat.le_trans hdoc.2 hroom)

/-- A number, a literal and an object with blanks between its parts. -/
theorem parseAll_forms_blanks :
    let texts := [" 7", "null\t", "\x7b \"b\" : [1, true],\n\"a\":\"]\"\x7d"]
    ∃ v, List.Forall₂ Spells texts [.nat 7, .null, v] ∧
      parseAll (arrayText texts) (some 2) = .ok [.nat 7, .null] ∧
        parseAll (linesText texts) none = .ok [.nat 7, .null, v] := by
  intro texts
  have hobject : ((Json.valueReader Json.maxDepth).parse
      "\x7b \"b\" : [1, true],\n\"a\":\"]\"\x7d").toOption.any
        (fun doc => doc.depth ≤ 126) = true := by
    decide +kernel
  cases hdoc : (Json.valueReader Json.maxDepth).parse
      "\x7b \"b\" : [1, true],\n\"a\":\"]\"\x7d" with
  | error e => simp [hdoc, Except.toOption] at hobject
  | ok doc =>
    have hdepth : doc.depth ≤ 126 := by simpa [hdoc, Except.toOption] using hobject
    have h : List.Forall₂ Spells texts [.nat 7, .null, doc.canonical] :=
      .cons ⟨.nat 7, rfl, by decide, rfl⟩ <| .cons ⟨.null, rfl, by decide, rfl⟩ <|
        .cons ⟨doc, hdoc, hdepth, rfl⟩ .nil
    have hfirst : ∀ text ∈ texts.head?, isArrayText text.toList = false := by
      intro text htext
      cases htext
      rfl
    exact ⟨doc.canonical, h, (parseAll_forms h hfirst (some 2)).1, (parseAll_forms h hfirst none).2⟩

/-! ### Values that are too deep for an array -/

/-- A value that is nested deeper than there is room for in an array is not read as an item. -/
theorem scanItems_of_lt_depth {room depth : Nat} {p r : List Char} {v : Json}
    (h : (Json.valueReader room).run p = .ok (v, r)) (hdepth : depth < v.depth) :
    ∃ e, scanItems (Json.valueReader depth) true p = ⟨[], .error e⟩ := by
  obtain ⟨q, hq, hfirst, -⟩ := Json.item_of_run h
  cases hrun : (Json.valueReader depth).run q with
  | error e => exact ⟨e, scanItems_of_fault hfirst hrun⟩
  | ok read =>
    obtain ⟨rfl, -⟩ := Json.run_unique hq hrun
    exact absurd (Json.depth_le_of_run hrun) (Nat.not_le.2 hdepth)

theorem parseAll_arrayText_of_lt_depth {text : String} {doc : Json}
    (h : (Json.valueReader Json.maxDepth).parse text = .ok doc) (hdepth : 126 < doc.depth)
    (rs : List Json) : parseAll (arrayText [text]) none ≠ .ok rs := by
  obtain ⟨r, hrun, -⟩ := Json.Reader.parse_eq_ok_iff.1 h
  have happend := Json.isLocal_valueReader _ hrun fun _ => breaks_itemsTail []
  obtain ⟨e, he⟩ := scanItems_of_lt_depth happend hdepth
  have hscan : scanChars (arrayText [text]).toList = ⟨[], .error e⟩ := by
    rw [toList_arrayText, scanChars_bracket, List.map_singleton, List.intercalate_singleton]
    exact congrArg (Scan.andThen · Json.expectEnd) he
  rw [parseAll_eq_upTo, scan, hscan, Scan.convert, Scan.upTo_of_lt (by simp), Json.mapError_error]
  intro h
  cases h

/-- Brackets in brackets. -/
def brackets : Nat → Json
  | 0 => .null
  | n + 1 => .array [brackets n]

/-- Nested 127 levels deep as it is written. The last field replaces the one before. -/
def replacedBrackets : Json := .object [("a", brackets 126), ("a", .nat 1)]

/-- A bound on the nesting of the values themselves is not enough. -/
theorem parseAll_replaced_too_deep :
    Json.parse replacedBrackets.compact = .ok (.object [("a", .nat 1)]) ∧
      (Json.object [("a", .nat 1)]).depth ≤ 126 ∧
      isArrayText replacedBrackets.compact.toList = false ∧
        ∀ rs, parseAll (arrayText [replacedBrackets.compact]) none ≠ .ok rs := by
  have hparse : (Json.valueReader Json.maxDepth).parse replacedBrackets.compact =
      .ok replacedBrackets := Json.parse_compact (by decide +kernel) (by decide +kernel)
  refine ⟨?_, by decide, ?_, ?_⟩
  · exact Json.map_eq_ok.2 ⟨replacedBrackets, hparse, rfl⟩
  · rw [Json.compact, String.toList_ofList]
    rfl
  · exact parseAll_arrayText_of_lt_depth hparse (by decide +kernel)

end Record

end EventTaxonomy
