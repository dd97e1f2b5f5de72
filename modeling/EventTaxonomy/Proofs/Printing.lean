import EventTaxonomy.Json.Printer
import EventTaxonomy.Proofs.ReadValues

/-!
# What is written is read back

The compact text of a document reads back as the document, field for field and in the order in which
it was written (`Json.run_valueReader_chars`, for a text that goes on; `Json.parse_compact` for a
whole one). This asks two things of the document: its numbers are integers of one word, since the
digits of a double need not read back as the same double; and its brackets are nested no deeper than
the reader allows.

A compact text is also a single line, whatever strings stand in it (`Json.newline_not_mem_chars`).
-/

namespace EventTaxonomy

/-- The number is an integer of one 64-bit word, with or without a sign. -/
def Number.isWord : Number → Bool
  | .int n => (Number.int n).fits
  | .float _ => false

namespace Json

/-! ### Strings -/

theorem hexValue?_digitChar : ∀ d < 16, hexValue? (Nat.digitChar d) = some d := by decide

theorem takeUnicode_control {n : Nat} (hn : n < 0x20) (r : List Char) :
    takeUnicode ('0' :: '0' :: Nat.digitChar (n / 16) :: Nat.digitChar (n % 16) :: r) =
      .ok (Char.ofNat n, r) := by
  have hzero : hexValue? '0' = some 0 := by decide
  have hvalue : hexValue4? '0' '0' (Nat.digitChar (n / 16)) (Nat.digitChar (n % 16)) = some n := by
    simp [hexValue4?, hzero, hexValue?_digitChar (n / 16) (by omega),
      hexValue?_digitChar (n % 16) (by omega), Nat.div_add_mod' n 16]
  have htrailing : isTrailing n = false := by simp [isTrailing]; omega
  have hleading : isLeading n = false := by simp [isLeading]; omega
  simp [takeUnicode, takeHex, hvalue, htrailing, hleading]

/-- A character that is not written as it is stands after a backslash. -/
theorem charText_cases (c : Char) :
    (∃ s, charText c = '\\' :: s ∧ ∀ r, takeEscape (s ++ r) = .ok (c, r)) ∨
      charText c = [c] ∧ c ≠ '"' ∧ c ≠ '\\' ∧ ¬ c.toNat < 0x20 := by
  unfold charText
  split_ifs with hquote hback hnewline hreturn htab hbell hfeed hcontrol
  · exact .inl ⟨['"'], rfl, fun _ => by rw [hquote]; rfl⟩
  · exact .inl ⟨['\\'], rfl, fun _ => by rw [hback]; rfl⟩
  · exact .inl ⟨['n'], rfl, fun _ => by rw [hnewline]; rfl⟩
  · exact .inl ⟨['r'], rfl, fun _ => by rw [hreturn]; rfl⟩
  · exact .inl ⟨['t'], rfl, fun _ => by rw [htab]; rfl⟩
  · exact .inl ⟨['b'], rfl, fun _ => by rw [hbell]; rfl⟩
  · exact .inl ⟨['f'], rfl, fun _ => by rw [hfeed]; rfl⟩
  · refine .inl ⟨_, rfl, fun r => ?_⟩
    have hunicode := takeUnicode_control hcontrol r
    rw [Char.ofNat_toNat] at hunicode
    simpa [takeEscape] using hunicode
  · exact .inr ⟨rfl, hquote, hback, hcontrol⟩

theorem takeString_charText {c : Char} {p cs r : List Char} (h : takeString p = .ok (cs, r)) :
    takeString (charText c ++ p) = .ok (c :: cs, r) := by
  rcases charText_cases c with ⟨s, hs, hescape⟩ | ⟨hs, hquote, hback, hcontrol⟩
  · rw [hs]
    exact takeString_backslash (hescape p) h
  · rw [hs, List.singleton_append, takeString]
    simp [hquote, hback, hcontrol, h]

theorem takeString_flatMap_charText (cs r : List Char) :
    takeString (cs.flatMap charText ++ '"' :: r) = .ok (cs, r) := by
  induction cs with
  | nil => simp [takeString]
  | cons c cs ih =>
    rw [List.flatMap_cons, List.append_assoc]
    exact takeString_charText ih

theorem takeString_stringText (s : String) (r : List Char) :
    takeString ((stringText s).tail ++ r) = .ok (s.toList, r) := by
  simpa [stringText] using takeString_flatMap_charText s.toList r

/-! ### Numbers -/

theorem absorb_eq {limit n : Nat} {ds : List Char} (h : Nat.ofDigitChars 10 ds n ≤ limit) :
    absorb limit n ds = (Nat.ofDigitChars 10 ds n, []) := by
  induction ds generalizing n with
  | nil => simp [absorb]
  | cons d ds ih =>
    have hnext : n * 10 + digitValue d = 10 * n + (d.toNat - '0'.toNat) := by
      rw [digitValue, Nat.mul_comm]
      rfl
    rw [Nat.ofDigitChars_cons, ← hnext] at h ⊢
    -- digits that are still to come only make the number larger
    have hle : n * 10 + digitValue d ≤ limit := by
      rw [Nat.ofDigitChars_eq_ofDigitChars_zero] at h
      have hpow : 0 < 10 ^ ds.length := Nat.pow_pos (by decide)
      have hmul := Nat.le_mul_of_pos_left (n * 10 + digitValue d) hpow
      omega
    rw [absorb, if_neg (Nat.not_lt.2 hle), ih h]

theorem eq_zero_of_toDigits {n : Nat} {ds : List Char} (h : Nat.toDigits 10 n = '0' :: ds) :
    n = 0 := by
  induction n using Nat.strongRecOn generalizing ds with
  | _ n ih =>
    rcases Nat.lt_or_ge n 10 with hlt | hge
    · rw [Nat.toDigits_of_lt_base hlt] at h
      exact Nat.digitChar_eq_zero.1 (List.cons.inj h).1
    · -- the leading digit is that of `n / 10`, which is not zero
      rw [Nat.toDigits_of_base_le (by decide) hge] at h
      cases hds : Nat.toDigits 10 (n / 10) with
      | nil => exact absurd hds Nat.toDigits_ne_nil
      | cons d ds' =>
        rw [hds] at h
        obtain ⟨rfl, -⟩ := List.cons.inj h
        have := ih (n / 10) (by omega) hds
        omega

theorem isDigit_of_mem_toDigits_ten {n : Nat} : ∀ d ∈ Nat.toDigits 10 n, d.isDigit = true :=
  fun _ hd => Nat.isDigit_of_mem_toDigits (by decide) (by decide) hd

/-- The digits of a number are read as digits of a number, and without a zero in front. -/
theorem digits_toDigits {n : Nat} {r : List Char} (hr : Breaks r) :
    ∃ d ds, Nat.toDigits 10 n = d :: ds ∧ (d = '0' → ds = []) ∧
      (Nat.toDigits 10 n ++ r).takeWhile Char.isDigit = d :: ds ∧
        (Nat.toDigits 10 n ++ r).dropWhile Char.isDigit = r := by
  have hdrop : (Nat.toDigits 10 n).dropWhile Char.isDigit = [] :=
    List.dropWhile_eq_nil_iff.2 isDigit_of_mem_toDigits_ten
  have htake : (Nat.toDigits 10 n).takeWhile Char.isDigit = Nat.toDigits 10 n :=
    List.takeWhile_eq_self_iff.2 isDigit_of_mem_toDigits_ten
  obtain ⟨htake', hdrop'⟩ := digits_append (p := Nat.toDigits 10 n) (s := r) fun _ => hr
  cases hds : Nat.toDigits 10 n with
  | nil => exact absurd hds Nat.toDigits_ne_nil
  | cons d ds =>
    rw [htake, hds] at htake'
    rw [hdrop, hds] at hdrop'
    refine ⟨d, ds, rfl, ?_, htake', hdrop'⟩
    rintro rfl
    obtain rfl := eq_zero_of_toDigits hds
    rw [Nat.toDigits_zero] at hds
    exact (List.cons.inj hds).2.symm

theorem takeAfterDigits_of_breaks {negative : Bool} {read : Nat × List Char} {r : List Char}
    (hr : Breaks r) (hread : read.2 = []) :
    takeAfterDigits negative read r = .ok (wordNumber negative read.1, r) := by
  have hne : ∀ c, continuesNumber c = true → ∀ t, r ≠ c :: t := by
    rintro c hc t rfl
    have := hr c (by simp)
    simp [hc] at this
  unfold takeAfterDigits
  split
  · next t => exact absurd rfl (hne '.' (by decide) t)
  · next t => exact absurd rfl (hne 'e' (by decide) t)
  · next t => exact absurd rfl (hne 'E' (by decide) t)
  · simp [hread]

theorem takeNumber_toDigits (negative : Bool) {n : Nat} (hn : n ≤ wordMax) {r : List Char}
    (hr : Breaks r) :
    takeNumber negative (Nat.toDigits 10 n ++ r) = .ok (wordNumber negative n, r) := by
  obtain ⟨d, ds, hds, hzero, htake, hdrop⟩ := digits_toDigits (n := n) hr
  have hvalue : absorb wordMax 0 (d :: ds) = (n, []) := by
    have hdigits : Nat.ofDigitChars 10 (d :: ds) 0 = n := by
      rw [← hds, Nat.ofDigitChars_ten_toDigits]
    rw [absorb_eq (by rw [hdigits]; exact hn), hdigits]
  rw [takeNumber_of_digits htake hzero, hvalue, hdrop]
  exact takeAfterDigits_of_breaks hr rfl

theorem wordNumber_true {n : Nat} (hpos : 0 < n) (hmax : n ≤ Nat.pow 2 63) :
    wordNumber true n = .int (-n) := by
  have hnot : ¬ (n = 0 ∨ Nat.pow 2 63 < n) := by omega
  rw [wordNumber, if_pos rfl, if_neg (by simpa using hnot)]

theorem takeScalar_of_isDigit {c : Char} (hc : c.isDigit = true) (s : List Char) :
    takeScalar (c :: s) = (takeNumber false (c :: s)).map fun (n, r) => (.number n, r) := by
  have hne : ∀ d : Char, d.isDigit = false → c ≠ d := by
    rintro d hd rfl
    simp [hc] at hd
  simp [takeScalar, hc, hne '"' (by decide), hne 'n' (by decide), hne 't' (by decide),
    hne 'f' (by decide), hne '-' (by decide)]

theorem takeScalar_intText {n : Int} (hn : (Number.int n).isWord = true) {r : List Char}
    (hr : Breaks r) : takeScalar (Number.intText n ++ r) = .ok (.number (.int n), r) := by
  simp only [Number.isWord, Number.fits, Bool.and_eq_true, decide_eq_true_eq] at hn
  cases n with
  | ofNat n =>
    have hword : n ≤ wordMax := Int.ofNat_le.1 hn.2
    have hnumber := takeNumber_toDigits false hword hr
    obtain ⟨d, ds, hds, -⟩ := digits_toDigits (n := n) hr
    have hd : d.isDigit = true := isDigit_of_mem_toDigits_ten (n := n) d (by simp [hds])
    simp only [Number.intText, hds, List.cons_append] at hnumber ⊢
    rw [takeScalar_of_isDigit hd, hnumber]
    rfl
  | negSucc m =>
    have hmax : m + 1 ≤ Nat.pow 2 63 := by omega
    have hword : m + 1 ≤ wordMax := Nat.le_trans hmax (by decide)
    have hnumber := takeNumber_toDigits true hword hr
    rw [wordNumber_true (Nat.succ_pos m) hmax] at hnumber
    simp [Number.intText, takeScalar, hnumber, Except.map, Int.negSucc_eq]

/-! ### Values -/

theorem isBlank_of_takeScalar {c : Char} {s r : List Char} {v : Json}
    (h : takeScalar (c :: s) = .ok (v, r)) : isBlank c = false ∧ c ≠ '[' ∧ c ≠ '{' ∧ c ≠ ']' := by
  refine ⟨?_, ?_, ?_, ?_⟩
  · by_contra hblank
    simp only [isBlank, Bool.not_eq_false, Bool.or_eq_true, decide_eq_true_eq] at hblank
    obtain ((rfl | rfl) | rfl) | rfl := hblank <;> cases h
  all_goals
    rintro rfl
    cases h

theorem skipBlanks_of_not_isBlank {c : Char} (h : isBlank c = false) (s : List Char) :
    skipBlanks (c :: s) = c :: s := by
  simp [skipBlanks, h]

theorem run_of_takeScalar {p r : List Char} {v : Json} (h : takeScalar p = .ok (v, r))
    (depth : Nat) : (valueReader depth).run p = .ok (v, r) := by
  cases p with
  | nil => cases h
  | cons c s =>
    obtain ⟨hblank, hb, hc, -⟩ := isBlank_of_takeScalar h
    refine run_valueReader_eq_ok.2 ⟨c, s, skipBlanks_of_not_isBlank hblank s, ?_⟩
    rwa [takeValue_of_ne hb hc]

/-- No value starts with a closing bracket. -/
theorem takeValue_close {inner : Option (Reader Json)} {s r : List Char} {v : Json} :
    takeValue inner ']' s ≠ .ok (v, r) := by
  rw [takeValue_of_ne (by decide) (by decide)]
  intro h
  exact (isBlank_of_takeScalar h).2.2.2 rfl

/-- A text that starts with a value is one that goes on with an item. -/
theorem item_of_run {depth : Nat} {p r : List Char} {v : Json}
    (h : (valueReader depth).run p = .ok (v, r)) :
    ∃ q, (valueReader depth).run q = .ok (v, r) ∧ nextItem true p = .ok (.item q) ∧
      nextItem false (',' :: p) = .ok (.item q) := by
  obtain ⟨c, s, hs, hv⟩ := run_valueReader_eq_ok.1 h
  -- a closing bracket would end the list
  have hclose : c ≠ ']' := by
    rintro rfl
    exact takeValue_close hv
  have hskip := skipBlanks_of_skipBlanks_eq hs
  have hcomma : skipBlanks (',' :: p) = ',' :: p := rfl
  refine ⟨c :: s, (run_valueReader_cons_eq_ok hskip).2 hv, ?_, ?_⟩
  · simp [nextItem, hs, hclose]
  · simp [nextItem, hcomma, hs, hclose]

theorem nextKey_stringText (key : String) (r : List Char) :
    nextKey true (stringText key ++ r) = .ok (.key key r) ∧
      nextKey false (',' :: (stringText key ++ r)) = .ok (.key key r) := by
  have htext : stringText key ++ r = '"' :: ((stringText key).tail ++ r) := rfl
  have hkey : takeKey ('"' :: ((stringText key).tail ++ r)) = .ok (.key key r) := by
    simp [takeKey, takeString_stringText, Except.map]
  have hquote : ∀ s, skipBlanks ('"' :: s) = '"' :: s := fun _ => rfl
  have hcomma : ∀ s, skipBlanks (',' :: s) = ',' :: s := fun _ => rfl
  rw [htext]
  constructor
  · simp [nextKey, hquote, hkey]
  · simp [nextKey, hcomma, hquote, hkey]

theorem breaks_itemChars (items : List Json) (r : List Char) : Breaks (itemChars items ++ r) := by
  cases items <;> simp [itemChars, Breaks] <;> decide

theorem breaks_fieldChars (fields : Fields) (r : List Char) : Breaks (fieldChars fields ++ r) := by
  cases fields <;> simp [fieldChars, Breaks] <;> decide

mutual

/-- **A document is read back from its text**, and the reader stops where the text of the document
ends. -/
theorem run_valueReader_chars : ∀ (v : Json) {depth : Nat} {r : List Char},
    v.allNumbers Number.isWord = true → v.depth ≤ depth → Breaks r →
      (valueReader depth).run (v.chars ++ r) = .ok (v, r)
  | .null, _, _, _, _, _ => run_of_takeScalar rfl _
  | .bool true, _, _, _, _, _ => run_of_takeScalar rfl _
  | .bool false, _, _, _, _, _ => run_of_takeScalar rfl _
  | .number (.int _), _, _, hn, _, hr => run_of_takeScalar (takeScalar_intText hn hr) _
  | .number (.float _), _, _, hn, _, _ => by cases hn
  | .string s, _, r, _, _, _ => by
    have hscalar : takeScalar ((Json.string s).chars ++ r) = .ok (.string s, r) := by
      have htext : (Json.string s).chars ++ r = '"' :: ((stringText s).tail ++ r) := rfl
      simp [htext, takeScalar, takeString_stringText, Except.map]
    exact run_of_takeScalar hscalar _
  | .array [], depth + 1, r, _, _, _ => by
    have hitems : (valueReader depth).items true (']' :: r) = .ok ([], r) := items_of_done rfl
    exact run_valueReader_eq_ok.2
      ⟨'[', ']' :: r, rfl, takeValue_eq_array_iff.2 ⟨rfl, depth, rfl, hitems⟩⟩
  | .array (item :: items), depth + 1, r, hn, hd, hr => by
    obtain ⟨hitem, hrest⟩ := Bool.and_eq_true_iff.1 hn
    obtain ⟨hditem, hdrest⟩ := Nat.max_le.1 (Nat.le_of_succ_le_succ hd)
    -- a comma or a bracket comes next, so that no number runs on
    have hv := run_valueReader_chars item hitem hditem (breaks_itemChars items r)
    have hvs := items_itemChars items hrest hdrest hr
    obtain ⟨q, hq, hnext, -⟩ := item_of_run hv
    have hitems := items_of_item hnext hq hvs
    refine run_valueReader_eq_ok.2 ⟨'[', chars item ++ (itemChars items ++ r), ?_,
      takeValue_eq_array_iff.2 ⟨rfl, depth, rfl, hitems⟩⟩
    simp [chars, skipBlanks, isBlank]
  | .object [], depth + 1, r, _, _, _ => by
    have hfields : ReadsFields (valueReader depth) true ('}' :: r) [] r := .done rfl
    exact run_valueReader_eq_ok.2
      ⟨'{', '}' :: r, rfl, takeValue_eq_object_iff.2 ⟨rfl, depth, rfl, hfields⟩⟩
  | .object ((key, value) :: fields), depth + 1, r, hn, hd, hr => by
    obtain ⟨hvalue, hrest⟩ := Bool.and_eq_true_iff.1 hn
    obtain ⟨hdvalue, hdrest⟩ := Nat.max_le.1 (Nat.le_of_succ_le_succ hd)
    have hv := run_valueReader_chars value hvalue hdvalue (breaks_fieldChars fields r)
    have hfields : ReadsFields (valueReader depth) true
        (stringText key ++ ':' :: (chars value ++ (fieldChars fields ++ r)))
        ((key, value) :: fields) r :=
      .field (nextKey_stringText key _).1 rfl hv (readsFields_fieldChars fields hrest hdrest hr)
    refine run_valueReader_eq_ok.2 ⟨'{', _, ?_,
      takeValue_eq_object_iff.2 ⟨rfl, depth, rfl, hfields⟩⟩
    simp [chars, skipBlanks, isBlank]

theorem items_itemChars : ∀ (items : List Json) {depth : Nat} {r : List Char},
    allNumbersItems Number.isWord items = true → depthItems items ≤ depth → Breaks r →
      (valueReader depth).items false (itemChars items ++ r) = .ok (items, r)
  | [], _, _, _, _, _ => items_of_done rfl
  | item :: items, depth, r, hn, hd, hr => by
    obtain ⟨hitem, hrest⟩ := Bool.and_eq_true_iff.1 hn
    obtain ⟨hditem, hdrest⟩ := Nat.max_le.1 hd
    have hv := run_valueReader_chars item hitem hditem (breaks_itemChars items r)
    obtain ⟨q, hq, -, hnext⟩ := item_of_run hv
    rw [itemChars, List.cons_append, List.append_assoc]
    exact items_of_item hnext hq (items_itemChars items hrest hdrest hr)

theorem readsFields_fieldChars : ∀ (fields : Fields) {depth : Nat} {r : List Char},
    allNumbersFields Number.isWord fields = true → depthFields fields ≤ depth → Breaks r →
      ReadsFields (valueReader depth) false (fieldChars fields ++ r) fields r
  | [], _, _, _, _, _ => .done rfl
  | (key, value) :: fields, depth, r, hn, hd, hr => by
    obtain ⟨hvalue, hrest⟩ := Bool.and_eq_true_iff.1 hn
    obtain ⟨hdvalue, hdrest⟩ := Nat.max_le.1 hd
    have hv := run_valueReader_chars value hvalue hdvalue (breaks_fieldChars fields r)
    have htext : fieldChars ((key, value) :: fields) ++ r =
        ',' :: (stringText key ++ ':' :: (chars value ++ (fieldChars fields ++ r))) := by
      simp [fieldChars]
    rw [htext]
    exact .field (nextKey_stringText key _).2 rfl hv
      (readsFields_fieldChars fields hrest hdrest hr)

end

/-- **A document is read back from its compact text.** -/
theorem parse_compact {v : Json} (hn : v.allNumbers Number.isWord = true)
    (hd : v.depth ≤ maxDepth) : (valueReader maxDepth).parse v.compact = .ok v := by
  refine Reader.parse_eq_ok_iff.2 ⟨[], ?_, rfl⟩
  have hnil : Breaks [] := by simp [Breaks]
  simpa [compact] using run_valueReader_chars v hn hd hnil

/-! ### One line -/

theorem newline_not_mem_charText (c : Char) : '\n' ∉ charText c := by
  have hdigit : ∀ n, '\n' ≠ Nat.digitChar n := fun n => (Nat.digitChar_ne '\n' (by decide)).symm
  unfold charText
  split_ifs with hquote hback hnewline
  all_goals simp_all [eq_comm]

theorem newline_not_mem_stringText (s : String) : '\n' ∉ stringText s := by
  simp [stringText, newline_not_mem_charText]

theorem newline_not_mem_of_isDigit {ds : List Char} (h : ∀ d ∈ ds, d.isDigit = true) :
    '\n' ∉ ds :=
  fun hmem => absurd (h _ hmem) (by decide)

theorem isDigit_of_mem_significant {n : Nat} : ∀ d ∈ Dyadic.significant n, d.isDigit = true := by
  intro d hd
  have hmem := (List.dropWhile_sublist _).subset (List.mem_reverse.1 hd)
  exact isDigit_of_mem_toDigits_ten d (List.mem_reverse.1 hmem)

theorem isDigit_of_mem_shortest (x : Dyadic) : ∀ d ∈ x.shortest.digits, d.isDigit = true := by
  rw [Dyadic.shortest]
  cases hfind : (List.range 17).findSome? _ with
  | none => simp
  | some decimal =>
    obtain ⟨places, -, hplaces⟩ := List.exists_of_findSome?_eq_some hfind
    obtain ⟨n, -, rfl⟩ := Option.map_eq_some_iff.1 hplaces
    exact isDigit_of_mem_significant

theorem newline_not_mem_decimalText {x : Decimal} (h : '\n' ∉ x.digits) : '\n' ∉ x.text := by
  have htake : ∀ n, '\n' ∉ x.digits.take n := fun n hmem => h (List.mem_of_mem_take hmem)
  have hdrop : ∀ n, '\n' ∉ x.digits.drop n := fun n hmem => h (List.mem_of_mem_drop hmem)
  have hnat : '\n' ∉ Nat.toDigits 10 x.exponent.natAbs :=
    newline_not_mem_of_isDigit isDigit_of_mem_toDigits_ten
  unfold Decimal.text
  dsimp only
  split_ifs <;> simp [-List.drop_one, h, htake, hdrop, hnat, List.mem_replicate]

theorem newline_not_mem_numberText (n : Number) : '\n' ∉ n.text := by
  cases n with
  | int n =>
    cases n <;> simp [Number.text, Number.intText,
      newline_not_mem_of_isDigit isDigit_of_mem_toDigits_ten]
  | float x =>
    have hdecimal := newline_not_mem_decimalText
      (newline_not_mem_of_isDigit (isDigit_of_mem_shortest (Dyadic.ofFloat x)))
    simp only [Number.text, Number.floatText]
    split_ifs <;> simp [hdecimal]

mutual

/-- **A compact text has no line break in it.** -/
theorem newline_not_mem_chars : ∀ v : Json, '\n' ∉ v.chars
  | .null | .bool true | .bool false => by decide
  | .number n => newline_not_mem_numberText n
  | .string s => newline_not_mem_stringText s
  | .array [] | .object [] => by decide
  | .array (item :: items) => by
    simp [chars, newline_not_mem_chars item, newline_not_mem_itemChars items]
  | .object ((key, value) :: fields) => by
    simp [chars, newline_not_mem_stringText, newline_not_mem_chars value,
      newline_not_mem_fieldChars fields]

theorem newline_not_mem_itemChars : ∀ items : List Json, '\n' ∉ itemChars items
  | [] => by decide
  | item :: items => by
    simp [itemChars, newline_not_mem_chars item, newline_not_mem_itemChars items]

theorem newline_not_mem_fieldChars : ∀ fields : Fields, '\n' ∉ fieldChars fields
  | [] => by decide
  | (key, value) :: fields => by
    simp [fieldChars, newline_not_mem_stringText, newline_not_mem_chars value,
      newline_not_mem_fieldChars fields]

end

end Json

end EventTaxonomy
