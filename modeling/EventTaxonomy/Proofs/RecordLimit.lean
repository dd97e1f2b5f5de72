import EventTaxonomy.Proofs.RecordScan

/-!
# A limit on the records only cuts them off

Since reading with a limit is the scan of a text, cut off once the limit is reached, two limits can
be compared by what they make of one scan. From this follow the laws of the limit (`parseAll_limit`)
and, since readers are local, that nothing past the limit is looked at (`parseAll_append`).
-/

namespace EventTaxonomy

namespace Record

open Json (Reader Fault ReadError)

namespace Scan

variable {ε ω : Type}

/-! ### Two limits -/

section Limits

variable {scan : Scan ε ω} {n : Nat} {m : Option Nat} {rs : List Json}

theorem length_le_of_upTo (h : scan.upTo (some n) = .ok rs) : rs.length ≤ n := by
  rcases scan.upTo_cases (some n) with ⟨_, ⟨⟩, -, hcut⟩ | ⟨hlt, hcut⟩
  · rw [hcut] at h
    cases h
    exact List.length_take_le n _
  · rw [hcut] at h
    obtain ⟨_, -, rfl⟩ := Json.map_eq_ok.1 h
    exact Nat.le_of_lt (hlt n rfl)

/-- Where the scan ends before the lower limit, neither limit has an effect. -/
theorem upTo_eq_upTo_of_lt (hm : ∀ k ∈ m, n ≤ k) (hlt : scan.records.length < n) :
    scan.upTo m = scan.upTo (some n) := by
  rw [upTo_of_lt fun k hk => Nat.lt_of_lt_of_le hlt (hm k hk), upTo_of_lt (by simpa using hlt)]

theorem upTo_eq_take (hm : ∀ k ∈ m, n ≤ k) (h : scan.upTo m = .ok rs) :
    scan.upTo (some n) = .ok (rs.take n) := by
  rcases Nat.lt_or_ge scan.records.length n with hlt | hle
  · rw [upTo_eq_upTo_of_lt hm hlt] at h
    rw [h, List.take_of_length_le (length_le_of_upTo h)]
  · rw [upTo_of_le hle]
    rcases scan.upTo_cases m with ⟨k, hk, -, hcut⟩ | ⟨-, hcut⟩
    · rw [hcut] at h
      cases h
      rw [List.take_take, Nat.min_eq_left (hm k hk)]
    · rw [hcut] at h
      obtain ⟨_, -, rfl⟩ := Json.map_eq_ok.1 h
      rfl

theorem upTo_eq_of_length_lt (hm : ∀ k ∈ m, n ≤ k) (h : scan.upTo (some n) = .ok rs)
    (hrs : rs.length < n) : scan.upTo m = .ok rs := by
  rcases Nat.lt_or_ge scan.records.length n with hlt | hle
  · rw [upTo_eq_upTo_of_lt hm hlt, h]
  · rw [upTo_of_le hle] at h
    cases h
    rw [List.length_take, Nat.min_eq_left hle] at hrs
    exact absurd hrs (Nat.lt_irrefl n)

theorem upTo_eq_error (hm : ∀ k ∈ m, n ≤ k) {e : ε} (h : scan.upTo (some n) = .error e) :
    scan.upTo m = .error e := by
  rcases Nat.lt_or_ge scan.records.length n with hlt | hle
  · rw [upTo_eq_upTo_of_lt hm hlt, h]
  · rw [upTo_of_le hle] at h
    cases h

end Limits

end Scan

/-! ### Texts -/

/-- **The limit only truncates.** Let `n` be at most the limit `m`, if there is one. Reading up to
`n` records gives at most `n`; it gives the first `n` of those that reading up to `m` gives; if it
gives fewer than `n`, reading up to `m` gives the same; and if it fails, reading up to `m` fails in
the same way. What is reported is always a fault of the text, not that there were enough records. -/
theorem parseAll_limit (text : String) {n : Nat} {m : Option Nat} (hm : ∀ k ∈ m, n ≤ k) :
    (∀ rs, parseAll text (some n) = .ok rs → rs.length ≤ n) ∧
    (∀ rs, parseAll text m = .ok rs → parseAll text (some n) = .ok (rs.take n)) ∧
    (∀ rs, parseAll text (some n) = .ok rs → rs.length < n → parseAll text m = .ok rs) ∧
    (∀ e, parseAll text (some n) = .error e → parseAll text m = .error e) ∧
    ∀ e, parseAll text m = .error e → ∃ fault, e.cause = .malformed fault := by
  refine ⟨?_, ?_, ?_, ?_, fun _ => malformed_of_parseAll_eq_error⟩ <;> simp only [parseAll_eq_upTo]
  · exact fun _ => Scan.length_le_of_upTo
  · exact fun _ => Scan.upTo_eq_take hm
  · exact fun _ => Scan.upTo_eq_of_length_lt hm
  · exact fun _ => Scan.upTo_eq_error hm

/-- A failure within the limit is also the failure of a reading without limit, whether it is an item
that is malformed or the text after the array. With one record fewer, neither is looked at. -/
theorem parseAll_limit_unfinished :
    (∃ e, parseAll "[true, x" (some 2) = .error e ∧ parseAll "[true, x" none = .error e ∧
      ∃ fault, e.cause = .malformed fault) ∧
    (∃ e, parseAll "[true] x" (some 2) = .error e ∧ parseAll "[true] x" none = .error e ∧
      ∃ fault, e.cause = .malformed fault) ∧
    ∃ rs, parseAll "[true] x" (some 1) = .ok rs ∧ rs.length ≤ 1 := by
  have hfails : ∀ text, (parseAll text (some 2)).isOk = false →
      ∃ e, parseAll text (some 2) = .error e ∧ parseAll text none = .error e ∧
        ∃ fault, e.cause = .malformed fault := by
    intro text hfail
    cases h : parseAll text (some 2) with
    | ok rs => rw [h] at hfail; cases hfail
    | error e =>
      obtain ⟨-, -, -, hsame, hfault⟩ := parseAll_limit text (n := 2) (m := none) (by simp)
      exact ⟨e, rfl, hsame e h, hfault e (hsame e h)⟩
  refine ⟨hfails _ (by decide +kernel), hfails _ (by decide +kernel), ?_⟩
  have hread : (parseAll "[true] x" (some 1)).isOk = true := by decide +kernel
  cases h : parseAll "[true] x" (some 1) with
  | ok rs => exact ⟨rs, rfl, (parseAll_limit "[true] x" (n := 1) (m := none) (by simp)).1 rs h⟩
  | error e => rw [h] at hread; cases hread

/-! ### Text past the limit -/

theorem scanItems_ne_nil {reader : Reader Json} {first : Bool} {p t : List Char}
    (h : (scanItems reader first p).stop = .ok t) : p ≠ [] := by
  rintro rfl
  rw [scanItems] at h
  simp [Json.nextItem, Json.skipBlanks] at h

/-- An array that is closed stays as it is if the text goes on. -/
theorem scanItems_append {reader : Reader Json} (hl : reader.IsLocal) {first : Bool}
    {p t : List Char} (h : (scanItems reader first p).stop = .ok t) (s : List Char) :
    scanItems reader first (p ++ s) = ⟨(scanItems reader first p).records, .ok (t ++ s)⟩ := by
  fun_induction scanItems reader first p generalizing t with
  | case1 first p e hn => cases h
  | case2 first p r hn =>
    cases h
    exact scanItems_of_done (Json.nextItem_append hn s)
  | case3 first p r hn e hr => cases h
  | case4 first p r hn v u hu ih =>
    have hne := scanItems_ne_nil h
    rw [scanItems_of_item (Json.nextItem_append hn s) (hl hu fun hnil => absurd hnil hne), ih h]
    rfl

theorem scanValues_of_value {reader : Reader Json} {p r t : List Char} {c : Char} {v : Json}
    (hp : Json.skipBlanks p = c :: r) (hr : reader.run (c :: r) = .ok (v, t))
    (hb : checkBoundary c t = .ok ()) : scanValues reader p = (scanValues reader t).cons v := by
  rw [scanValues]
  split
  · simp_all
  · next c' r' hp' =>
    rw [hp] at hp'
    obtain ⟨rfl, rfl⟩ := List.cons.inj hp'
    split
    · simp_all
    · next v' t' hr' =>
      rw [hr, Except.ok.injEq, Prod.mk.injEq] at hr'
      obtain ⟨rfl, rfl⟩ := hr'
      rw [hb]

theorem checkBoundary_append {c : Char} {t s : List Char} (h : checkBoundary c t = .ok ())
    (hs : ∀ d ∈ s.head?, Json.isBlank d = true) : checkBoundary c (t ++ s) = .ok () := by
  unfold checkBoundary at h ⊢
  split_ifs at h ⊢
  · rfl
  · cases t with
    | nil =>
      cases s with
      | nil => rfl
      | cons d s => simp [endsValue, hs d (by simp)]
    | cons d t =>
      simp only [List.cons_append] at h ⊢
      split_ifs at h ⊢
      rfl

/-- Values one after the other are also the first values of a text that goes on. -/
theorem scanValues_append {reader : Reader Json} (hl : reader.IsLocal) {p s : List Char}
    (hs : ∀ c ∈ s.head?, Json.isBlank c = true) (h : (scanValues reader p).stop = .ok ()) :
    (scanValues reader p).records <+: (scanValues reader (p ++ s)).records := by
  fun_induction scanValues reader p with
  | case1 p hp => exact List.nil_prefix
  | case2 p c r hp e hr => cases h
  | case3 p c r hp v t hr e hb => cases h
  | case4 p c r hp v t hr hb ih =>
    have hrun : reader.run (c :: (r ++ s)) = .ok (v, t ++ s) :=
      hl hr fun _ => Json.breaks_of_isBlank hs
    rw [scanValues_of_value (Json.skipBlanks_append hp s) hrun (checkBoundary_append hb hs)]
    exact List.cons_prefix_cons.2 ⟨rfl, ih h⟩

theorem dropWhile_isSpace_ne_nil {depth : Nat} {p : List Char}
    (h : (scanValues (Json.valueReader depth) p).records ≠ []) : p.dropWhile Text.isSpace ≠ [] := by
  rw [scanValues] at h
  split at h
  · exact absurd rfl h
  · next c r hp =>
    split at h
    · exact absurd rfl h
    · next v t hr =>
      obtain ⟨d, q, hq, hv⟩ := Json.run_valueReader_eq_ok.1 hr
      -- the first character of the value is one of the text
      have hmem : d ∈ p := by
        have h1 : d ∈ c :: r := (List.dropWhile_sublist _).subset (by
          rw [← Json.skipBlanks, hq]
          exact List.mem_cons_self)
        rw [← hp] at h1
        exact (List.dropWhile_sublist _).subset h1
      intro hnil
      rw [takeValue_of_isSpace (List.dropWhile_eq_nil_iff.1 hnil d hmem)] at hv
      cases hv

theorem isArrayText_append {p : List Char} (h : p.dropWhile Text.isSpace ≠ []) (s : List Char) :
    isArrayText (p ++ s) = isArrayText p := by
  unfold isArrayText
  rw [List.dropWhile_append]
  cases hp : p.dropWhile Text.isSpace with
  | nil => exact absurd hp h
  | cons c r => rfl

theorem scanArray_append {p : List Char} (h : (scanArray p).stop = .ok ()) (s : List Char) :
    (scanArray (p ++ s)).records = (scanArray p).records := by
  unfold scanArray at h ⊢
  cases hp : Json.skipBlanks p with
  | nil => rw [hp] at h; cases h
  | cons c r =>
    rw [hp] at h
    rw [Json.skipBlanks_append hp s]
    dsimp only at h ⊢
    split_ifs at h ⊢
    -- the array is closed, since its text ends as it should
    cases hstop : (scanItems (Json.valueReader (Json.maxDepth - 1)) true r).stop with
    | error e =>
      simp only [Scan.andThen, hstop] at h
      cases h
    | ok t =>
      rw [scanItems_append (Json.isLocal_valueReader _) hstop]
      rfl

/-- The records of a text that ends as it should are the first records of every text that goes on,
after a blank, unless the text is an array. -/
theorem records_scanChars_append {p s : List Char} (hp : (scanChars p).stop = .ok ())
    (hne : (scanChars p).records ≠ [])
    (hs : isArrayText p = true ∨ ∀ c ∈ s.head?, Json.isBlank c = true) :
    (scanChars p).records <+: (scanChars (p ++ s)).records := by
  unfold scanChars at hp hne ⊢
  by_cases harray : isArrayText p = true
  · have hspace : p.dropWhile Text.isSpace ≠ [] := by
      intro hnil
      simp [isArrayText, hnil] at harray
    rw [if_pos harray] at hp hne ⊢
    rw [isArrayText_append hspace, if_pos harray]
    exact ⟨[], by rw [List.append_nil, scanArray_append hp]⟩
  · rw [if_neg harray] at hp hne ⊢
    rw [isArrayText_append (dropWhile_isSpace_ne_nil hne), if_neg harray]
    exact scanValues_append (Json.isLocal_valueReader _) (hs.resolve_left harray) hp

theorem records_scan_append {p s : String} (hp : (scan p).stop = .ok ())
    (hne : (scan p).records ≠ [])
    (hs : isArrayText p.toList = true ∨ ∀ c ∈ s.toList.head?, Json.isBlank c = true) :
    (scan p).records <+: (scan (p ++ s)).records := by
  have hraw : (scanChars p.toList).stop = .ok () := Json.mapError_eq_ok.1 hp
  have hrawne : (scanChars p.toList).records ≠ [] := by
    intro hnil
    exact hne (by simp [scan, Scan.convert, hnil])
  simp only [scan, Scan.convert, String.toList_append]
  exact (records_scanChars_append hraw hrawne hs).map Json.canonical

/-- **Text past the limit is never looked at.** If all of `p` is read as `rs`, then `p` followed by
anything gives the first `n` records of `rs` when it is read up to `n` of them; unless `p` is an
array, what follows has to start with a blank. -/
theorem parseAll_append {p s : String} {rs : List Json} {n : Nat}
    (hp : parseAll p none = .ok rs) (hn : n ≤ rs.length)
    (hs : isArrayText p.toList = true ∨ ∀ c ∈ s.toList.head?, Json.isBlank c = true) :
    parseAll (p ++ s) (some n) = .ok (rs.take n) := by
  rw [parseAll_eq_upTo] at hp ⊢
  obtain ⟨hstop, rfl⟩ := Scan.upTo_none_eq_ok hp
  by_cases hne : (scan p).records = []
  · obtain rfl : n = 0 := by simpa [hne] using hn
    exact Scan.upTo_of_le (Nat.zero_le _)
  · obtain ⟨more, hmore⟩ := records_scan_append hstop hne hs
    have hlen : n ≤ (scan (p ++ s)).records.length := by
      rw [← hmore, List.length_append]
      omega
    rw [Scan.upTo_of_le hlen, ← hmore, List.take_append_of_le_length hn]

/-- A number at the end of a text, and something that is no JSON after it. -/
theorem parseAll_append_malformed : ∃ rs, parseAll "null [true] 12" none = .ok rs ∧
    rs.length = 3 ∧ parseAll ("null [true] 12" ++ "\n]not json") (some 3) = .ok (rs.take 3) := by
  have hlen : (parseAll "null [true] 12" none).toOption.map List.length = some 3 := by
    decide +kernel
  cases h : parseAll "null [true] 12" none with
  | error e => rw [h] at hlen; cases hlen
  | ok rs =>
    rw [h] at hlen
    have h3 : rs.length = 3 := by simpa [Except.toOption] using hlen
    exact ⟨rs, rfl, h3, parseAll_append h (by omega) (.inr (by simp [Json.isBlank]))⟩

end Record

end EventTaxonomy
