import EventTaxonomy.Json.Reader
import Mathlib.Tactic.SplitIfs

/-!
# Readers look no further than they have to

A reader that has taken a value off the front of a text would have taken the same value if the text
had gone on: `p` read with `t` left means `p ++ s` is read with `t ++ s` left. Strings, literals and
brackets show their own end, so this holds for every `s`. A number does not: it ends before the
first character that cannot belong to it, or at the end of the text, and in the second case the
text must not go on with a character that belongs to it (`Breaks`).

`Reader.IsLocal` is this property of a reader, and `isLocal_valueReader` proves it for the reader of
any value, by induction on the brackets that may be opened; the loops over items and fields keep it
(`items_append`, `readFields_append`).
-/

namespace EventTaxonomy

namespace Json

/-! ### Where a number may end -/

/-- The character may belong to a number that has begun. -/
def continuesNumber (c : Char) : Bool := c.isDigit || c = '.' || c = 'e' || c = 'E'

/-- The text does not continue a number that stands before it. -/
def Breaks (s : List Char) : Prop := ∀ c ∈ s.head?, continuesNumber c = false

theorem breaks_of_isBlank {s : List Char} (h : ∀ c ∈ s.head?, isBlank c = true) : Breaks s := by
  intro c hc
  have hb := h c hc
  simp only [isBlank, Bool.or_eq_true, decide_eq_true_eq] at hb
  obtain ((rfl | rfl) | rfl) | rfl := hb <;> decide

theorem Breaks.takeWhile_isDigit {s : List Char} (h : Breaks s) :
    s.takeWhile Char.isDigit = [] ∧ s.dropWhile Char.isDigit = s := by
  cases s with
  | nil => exact ⟨rfl, rfl⟩
  | cons c s =>
    have hc := h c (by simp)
    simp only [continuesNumber, Bool.or_eq_false_iff] at hc
    simp [hc.1.1.1]

/-- The digits in front of a text stay what they are if it goes on, unless they are all of it. -/
theorem digits_append {p s : List Char} (h : p.dropWhile Char.isDigit = [] → Breaks s) :
    (p ++ s).takeWhile Char.isDigit = p.takeWhile Char.isDigit ∧
      (p ++ s).dropWhile Char.isDigit = p.dropWhile Char.isDigit ++ s := by
  induction p with
  | nil =>
    have hs := (h rfl).takeWhile_isDigit
    exact ⟨hs.1, hs.2⟩
  | cons c p ih =>
    by_cases hc : c.isDigit = true
    · have hp : p.dropWhile Char.isDigit = [] → Breaks s := by
        intro hp
        exact h (by simpa [List.dropWhile_cons, hc] using hp)
      simpa [List.takeWhile_cons, List.dropWhile_cons, hc] using ih hp
    · simp [hc]

/-- If a text does not start with a character of numbers, neither does what it goes on to. -/
theorem append_ne_cons {t s : List Char} {c : Char} (ht : ∀ r, t ≠ c :: r)
    (hs : t = [] → Breaks s) (hc : continuesNumber c = true) (r : List Char) :
    t ++ s ≠ c :: r := by
  cases t with
  | nil =>
    rintro rfl
    have := hs rfl c (by simp)
    simp [hc] at this
  | cons d t =>
    intro h
    exact ht t (by rw [(List.cons.inj h).1])

/-! ### Literals and strings -/

theorem takeLiteral_append {word p t : List Char} (h : takeLiteral word p = .ok t)
    (s : List Char) : takeLiteral word (p ++ s) = .ok (t ++ s) := by
  induction word generalizing p with
  | nil =>
    simp only [takeLiteral, Except.ok.injEq] at h ⊢
    rw [h]
  | cons w word ih =>
    cases p with
    | nil => simp [takeLiteral] at h
    | cons c p =>
      simp only [takeLiteral, List.cons_append] at h ⊢
      split_ifs at h ⊢
      exact ih h

theorem takeHex_append {p t : List Char} {n : Nat} (h : takeHex p = .ok (n, t))
    (s : List Char) : takeHex (p ++ s) = .ok (n, t ++ s) := by
  unfold takeHex at h
  split at h
  · next a b c d r =>
    split at h
    · next m hm =>
      cases h
      simp [takeHex, hm]
    · cases h
  · cases h

theorem takeTrailing_append {a : Nat} {p t : List Char} {c : Char}
    (h : takeTrailing a p = .ok (c, t)) (s : List Char) :
    takeTrailing a (p ++ s) = .ok (c, t ++ s) := by
  unfold takeTrailing at h
  split at h
  · cases h
  · cases h
  · next r =>
    split at h
    · cases h
    · next b u hu =>
      split_ifs at h with hb
      simp only [Except.ok.injEq, Prod.mk.injEq] at h
      obtain ⟨rfl, rfl⟩ := h
      simp [takeTrailing, takeHex_append hu, hb]
  · cases h
  · cases h

theorem takeUnicode_append {p t : List Char} {c : Char} (h : takeUnicode p = .ok (c, t))
    (s : List Char) : takeUnicode (p ++ s) = .ok (c, t ++ s) := by
  unfold takeUnicode at h
  split at h
  · cases h
  · next a r hr =>
    split_ifs at h with htrail hlead
    · simp [takeUnicode, takeHex_append hr, htrail, hlead, takeTrailing_append h]
    · simp only [Except.ok.injEq, Prod.mk.injEq] at h
      obtain ⟨rfl, rfl⟩ := h
      simp [takeUnicode, takeHex_append hr, htrail, hlead]

theorem takeEscape_append {p t : List Char} {c : Char} (h : takeEscape p = .ok (c, t))
    (s : List Char) : takeEscape (p ++ s) = .ok (c, t ++ s) := by
  cases p with
  | nil => cases h
  | cons d p =>
    simp only [takeEscape, List.cons_append] at h ⊢
    split_ifs at h ⊢
    · exact takeUnicode_append h s
    · split at h
      · cases h
        rfl
      · cases h

theorem takeString_backslash {p r cs t : List Char} {d : Char} (hr : takeEscape p = .ok (d, r))
    (ht : takeString r = .ok (cs, t)) : takeString ('\\' :: p) = .ok (d :: cs, t) := by
  rw [takeString]
  simp only [Char.reduceEq, ↓reduceIte]
  split
  · next e he => simp [hr] at he
  · next d' r' hr' =>
    rw [hr, Except.ok.injEq, Prod.mk.injEq] at hr'
    obtain ⟨rfl, rfl⟩ := hr'
    rw [ht]

theorem takeString_append {p cs t : List Char} (h : takeString p = .ok (cs, t))
    (s : List Char) : takeString (p ++ s) = .ok (cs, t ++ s) := by
  fun_induction takeString p generalizing cs t with
  | case1 => cases h
  | case2 p =>
    cases h
    simp [takeString]
  | case3 => cases h
  | case4 => cases h
  | case5 p d r hr cs' u hu _ ih =>
    cases h
    exact takeString_backslash (takeEscape_append hr s) (ih hu)
  | case6 => cases h
  | case7 => cases h
  | case8 c p hq hb hc cs' u hu ih =>
    cases h
    rw [List.cons_append, takeString]
    simp [hq, hb, hc, ih hu]

/-! ### Numbers -/

theorem scaledNumber_eq_ok {negative : Bool} {n : Nat} {e : Int} {r t : List Char} {x : Number}
    (h : scaledNumber negative n e r = .ok (x, t)) :
    t = r ∧ ∀ r', scaledNumber negative n e r' = .ok (x, r') := by
  unfold scaledNumber at h ⊢
  split at h
  · simp only [Except.ok.injEq, Prod.mk.injEq] at h
    obtain ⟨rfl, rfl⟩ := h
    exact ⟨rfl, fun _ => rfl⟩
  · cases h

theorem takeExponentDigits_append {negative down : Bool} {n : Nat} {e : Int} {p t s : List Char}
    {x : Number} (h : takeExponentDigits negative n e down p = .ok (x, t))
    (hs : t = [] → Breaks s) :
    takeExponentDigits negative n e down (p ++ s) = .ok (x, t ++ s) := by
  unfold takeExponentDigits at h ⊢
  split at h
  · split at h <;> cases h
  · next d ds hd =>
    dsimp only at h
    -- in both branches that succeed, the digits end where the number does
    have hrest : t = p.dropWhile Char.isDigit := by
      split at h
      · exact (scaledNumber_eq_ok h).1
      · split_ifs at h
        cases h
        rfl
    obtain ⟨htake, hdrop⟩ := digits_append (p := p) (s := s) (fun hp => hs (hrest.trans hp))
    rw [htake, hdrop, hd]
    dsimp only
    split at h
    · rw [hrest]
      exact (scaledNumber_eq_ok h).2 _
    · split_ifs at h ⊢
      cases h
      rfl

theorem takeExponent_append {negative : Bool} {n : Nat} {e : Int} {p t s : List Char} {x : Number}
    (h : takeExponent negative n e p = .ok (x, t)) (hs : t = [] → Breaks s) :
    takeExponent negative n e (p ++ s) = .ok (x, t ++ s) := by
  unfold takeExponent at h
  split at h
  · exact takeExponentDigits_append h hs
  · exact takeExponentDigits_append h hs
  · next hplus hminus =>
    cases p with
    | nil => cases h
    | cons c p =>
      unfold takeExponent
      split
      · next r hr => exact absurd (List.cons.inj hr).1 fun hc => hplus p (by rw [hc])
      · next r hr => exact absurd (List.cons.inj hr).1 fun hc => hminus p (by rw [hc])
      · exact takeExponentDigits_append h hs

theorem takeScale_append {negative : Bool} {n : Nat} {e : Int} {p t s : List Char} {x : Number}
    (h : takeScale negative n e p = .ok (x, t)) (hs : t = [] → Breaks s) :
    takeScale negative n e (p ++ s) = .ok (x, t ++ s) := by
  unfold takeScale at h
  split at h
  · exact takeExponent_append h hs
  · exact takeExponent_append h hs
  · next hsmall hcapital =>
    obtain ⟨rfl, hscaled⟩ := scaledNumber_eq_ok h
    unfold takeScale
    split
    · next r hr => exact absurd hr (append_ne_cons hsmall hs (by decide) r)
    · next r hr => exact absurd hr (append_ne_cons hcapital hs (by decide) r)
    · exact hscaled _

theorem takeFraction_append {negative : Bool} {n : Nat} {e : Int} {p t s : List Char} {x : Number}
    (h : takeFraction negative n e p = .ok (x, t)) (hs : t = [] → Breaks s) :
    takeFraction negative n e (p ++ s) = .ok (x, t ++ s) := by
  unfold takeFraction at h ⊢
  split at h
  · split at h <;> cases h
  · next d ds hd =>
    dsimp only at h
    have hlen := length_takeScale h
    obtain ⟨htake, hdrop⟩ := digits_append (p := p) (s := s) fun hp =>
      hs (by simpa [hp] using hlen)
    rw [htake, hdrop, hd]
    exact takeScale_append h hs

/-- Ends a number whose leading digits are read: `read` is what `absorb` made of them. -/
def takeAfterDigits (negative : Bool) (read : Nat × List Char) :
    List Char → Except Fault (Number × List Char)
  | '.' :: r => takeFraction negative read.1 read.2.length r
  | 'e' :: r => takeScale negative read.1 read.2.length ('e' :: r)
  | 'E' :: r => takeScale negative read.1 read.2.length ('E' :: r)
  | r =>
    if read.2.isEmpty then .ok (wordNumber negative read.1, r)
    else scaledNumber negative read.1 read.2.length r

theorem takeNumber_of_digits {negative : Bool} {p ds : List Char} {d : Char}
    (hd : p.takeWhile Char.isDigit = d :: ds) (hzero : d = '0' → ds = []) :
    takeNumber negative p =
      takeAfterDigits negative (absorb wordMax 0 (d :: ds)) (p.dropWhile Char.isDigit) := by
  unfold takeNumber takeAfterDigits
  rw [hd]
  split
  · next hnil => cases hnil
  · next c cs hcs =>
    obtain ⟨rfl, rfl⟩ := List.cons.inj hcs
    cases hzero rfl
  · next hds =>
    obtain ⟨rfl, rfl⟩ := List.cons.inj hds
    dsimp only
    split <;> simp_all

theorem digits_of_takeNumber {negative : Bool} {p t : List Char} {x : Number}
    (h : takeNumber negative p = .ok (x, t)) :
    ∃ d ds, p.takeWhile Char.isDigit = d :: ds ∧ (d = '0' → ds = []) := by
  unfold takeNumber at h
  split at h
  · split at h <;> cases h
  · cases h
  · next d ds hzero hd =>
    refine ⟨d, ds, hd, fun hd0 => ?_⟩
    cases ds with
    | nil => rfl
    | cons c cs => exact (hzero c cs hd0 rfl).elim

theorem length_takeAfterDigits {negative : Bool} {read : Nat × List Char} {q t : List Char}
    {x : Number} (h : takeAfterDigits negative read q = .ok (x, t)) : t.length ≤ q.length := by
  unfold takeAfterDigits at h
  split at h
  · have := length_takeFraction h
    simp only [List.length_cons]
    omega
  · exact length_takeScale h
  · exact length_takeScale h
  · split_ifs at h
    · cases h
      exact Nat.le_refl _
    · exact length_scaledNumber h

theorem takeAfterDigits_append {negative : Bool} {read : Nat × List Char} {q t s : List Char}
    {x : Number} (h : takeAfterDigits negative read q = .ok (x, t)) (hs : t = [] → Breaks s) :
    takeAfterDigits negative read (q ++ s) = .ok (x, t ++ s) := by
  have hlen := length_takeAfterDigits h
  unfold takeAfterDigits at h
  split at h
  · exact takeFraction_append h hs
  · exact takeScale_append h hs
  · exact takeScale_append h hs
  · next hpoint hsmall hcapital =>
    have hq : q = [] → Breaks s := by
      rintro rfl
      exact hs (by simpa using hlen)
    unfold takeAfterDigits
    split
    · next r hr => exact absurd hr (append_ne_cons hpoint hq (by decide) r)
    · next r hr => exact absurd hr (append_ne_cons hsmall hq (by decide) r)
    · next r hr => exact absurd hr (append_ne_cons hcapital hq (by decide) r)
    · split_ifs at h ⊢
      · cases h
        rfl
      · obtain ⟨rfl, hscaled⟩ := scaledNumber_eq_ok h
        exact hscaled _

theorem takeNumber_append {negative : Bool} {p t s : List Char} {x : Number}
    (h : takeNumber negative p = .ok (x, t)) (hs : t = [] → Breaks s) :
    takeNumber negative (p ++ s) = .ok (x, t ++ s) := by
  obtain ⟨d, ds, hd, hzero⟩ := digits_of_takeNumber h
  rw [takeNumber_of_digits hd hzero] at h
  have hlen := length_takeAfterDigits h
  obtain ⟨htake, hdrop⟩ := digits_append (p := p) (s := s) fun hp =>
    hs (by simpa [hp] using hlen)
  rw [takeNumber_of_digits (htake.trans hd) hzero, hdrop]
  exact takeAfterDigits_append h hs

/-! ### Scalars -/

theorem takeScalar_append {p t s : List Char} {v : Json} (h : takeScalar p = .ok (v, t))
    (hs : t = [] → Breaks s) : takeScalar (p ++ s) = .ok (v, t ++ s) := by
  cases p with
  | nil => cases h
  | cons c p =>
    simp only [takeScalar, List.cons_append] at h ⊢
    split_ifs at h ⊢
    · obtain ⟨⟨cs, r⟩, hr, he⟩ := map_eq_ok.1 h
      cases he
      rw [takeString_append hr s]
      rfl
    · obtain ⟨r, hr, he⟩ := map_eq_ok.1 h
      cases he
      rw [takeLiteral_append hr s]
      rfl
    · obtain ⟨r, hr, he⟩ := map_eq_ok.1 h
      cases he
      rw [takeLiteral_append hr s]
      rfl
    · obtain ⟨r, hr, he⟩ := map_eq_ok.1 h
      cases he
      rw [takeLiteral_append hr s]
      rfl
    · obtain ⟨⟨n, r⟩, hr, he⟩ := map_eq_ok.1 h
      cases he
      rw [takeNumber_append hr hs]
      rfl
    · obtain ⟨⟨n, r⟩, hr, he⟩ := map_eq_ok.1 h
      cases he
      rw [← List.cons_append, takeNumber_append hr hs]
      rfl

/-! ### Steps of lists and objects -/

theorem skipBlanks_append {p r : List Char} {c : Char} (h : skipBlanks p = c :: r)
    (s : List Char) : skipBlanks (p ++ s) = c :: (r ++ s) := by
  rw [skipBlanks] at h
  rw [skipBlanks, List.dropWhile_append, h]
  rfl

/-- The step in a text that goes on. -/
def ListStep.append (s : List Char) : ListStep → ListStep
  | done r => done (r ++ s)
  | item r => item (r ++ s)

/-- The step in a text that goes on. -/
def ObjectStep.append (s : List Char) : ObjectStep → ObjectStep
  | done r => done (r ++ s)
  | key name r => key name (r ++ s)

theorem nextItem_append {first : Bool} {p : List Char} {step : ListStep}
    (h : nextItem first p = .ok step) (s : List Char) :
    nextItem first (p ++ s) = .ok (step.append s) := by
  unfold nextItem at h
  split at h
  · cases h
  · next c q hq =>
    rw [nextItem, skipBlanks_append hq s]
    dsimp only
    split_ifs at h ⊢ with hclose hfirst hcomma
    · cases h
      rfl
    · cases h
      rfl
    · split at h
      · cases h
      · next d t ht =>
        rw [skipBlanks_append ht s]
        dsimp only
        split_ifs at h ⊢
        cases h
        rfl

theorem takeKey_append {p : List Char} {step : ObjectStep} (h : takeKey p = .ok step)
    (s : List Char) : takeKey (p ++ s) = .ok (step.append s) := by
  cases p with
  | nil => cases h
  | cons c p =>
    simp only [takeKey, List.cons_append] at h ⊢
    split_ifs at h ⊢
    obtain ⟨⟨cs, t⟩, ht, he⟩ := map_eq_ok.1 h
    cases he
    rw [takeString_append ht s]
    rfl

theorem nextKey_append {first : Bool} {p : List Char} {step : ObjectStep}
    (h : nextKey first p = .ok step) (s : List Char) :
    nextKey first (p ++ s) = .ok (step.append s) := by
  unfold nextKey at h
  split at h
  · cases h
  · next c q hq =>
    rw [nextKey, skipBlanks_append hq s]
    dsimp only
    split_ifs at h ⊢ with hclose hfirst hcomma
    · cases h
      rfl
    · exact takeKey_append h s
    · split at h
      · cases h
      · next hbrace =>
        -- a key was taken, so the text after the comma is not empty
        cases ht : skipBlanks q with
        | nil => rw [ht] at h; cases h
        | cons d t =>
          rw [ht] at h
          rw [skipBlanks_append ht s]
          split
          · next u hu =>
            obtain ⟨rfl, -⟩ := List.cons.inj hu
            exact (hbrace t ht).elim
          · exact takeKey_append h s

theorem takeColon_append {p r : List Char} (h : takeColon p = .ok r) (s : List Char) :
    takeColon (p ++ s) = .ok (r ++ s) := by
  unfold takeColon at h
  split at h
  · cases h
  · next c q hq =>
    rw [takeColon, skipBlanks_append hq s]
    dsimp only
    split_ifs at h ⊢
    cases h
    rfl

/-! ### Loops -/

variable {α σ : Type}

theorem items_of_done {reader : Reader α} {first : Bool} {p r : List Char}
    (h : nextItem first p = .ok (.done r)) : reader.items first p = .ok ([], r) := by
  rw [Reader.items]
  split <;> simp_all

theorem items_of_item {reader : Reader α} {first : Bool} {p r t u : List Char} {a : α}
    {as : List α} (h : nextItem first p = .ok (.item r)) (hr : reader.run r = .ok (a, t))
    (ht : reader.items false t = .ok (as, u)) : reader.items first p = .ok (a :: as, u) := by
  rw [Reader.items]
  split
  · simp_all
  · simp_all
  · next r' h' =>
    rw [h, Except.ok.injEq, ListStep.item.injEq] at h'
    subst h'
    split
    · simp_all
    · next a' t' hr' =>
      rw [hr, Except.ok.injEq, Prod.mk.injEq] at hr'
      obtain ⟨rfl, rfl⟩ := hr'
      rw [ht]

theorem readFields_of_done {entry : σ → String → Except Mismatch (Reader σ)} {first : Bool}
    {state : σ} {p r : List Char} (h : nextKey first p = .ok (.done r)) :
    readFields entry first state p = .ok (state, r) := by
  rw [readFields]
  split <;> simp_all

theorem readFields_of_key {entry : σ → String → Except Mismatch (Reader σ)} {first : Bool}
    {state state' : σ} {p r t u : List Char} {name : String} {value : Reader σ}
    (h : nextKey first p = .ok (.key name r)) (he : entry state name = .ok value)
    (hc : takeColon r = .ok t) (hv : value.run t = .ok (state', u)) :
    readFields entry first state p = readFields entry false state' u := by
  rw [readFields]
  split
  · simp_all
  · simp_all
  · next name' r' h' =>
    rw [h, Except.ok.injEq, ObjectStep.key.injEq] at h'
    obtain ⟨rfl, rfl⟩ := h'
    split
    · simp_all
    · next value' he' =>
      rw [he, Except.ok.injEq] at he'
      subst he'
      split
      · simp_all
      · next t' hc' =>
        rw [hc, Except.ok.injEq] at hc'
        subst hc'
        split
        · simp_all
        · next state'' u' hv' =>
          rw [hv, Except.ok.injEq, Prod.mk.injEq] at hv'
          obtain ⟨rfl, rfl⟩ := hv'
          rfl

/-- What the reader takes off a text it also takes off a text that goes on, unless it took all of
the text and what follows may belong to the same number. -/
def Reader.IsLocal (reader : Reader α) : Prop :=
  ∀ ⦃p t s : List Char⦄ ⦃a : α⦄, reader.run p = .ok (a, t) → (t = [] → Breaks s) →
    reader.run (p ++ s) = .ok (a, t ++ s)

theorem Reader.IsLocal.map {β : Type} {reader : Reader α} (hl : reader.IsLocal) (f : α → β) :
    (reader.map f).IsLocal := by
  intro p t s b h hs
  obtain ⟨⟨a, r⟩, hr, he⟩ := map_eq_ok.1 h
  cases he
  exact map_eq_ok.2 ⟨(a, t ++ s), hl hr hs, rfl⟩

theorem items_append {reader : Reader α} (hl : reader.IsLocal) {first : Bool} {p t : List Char}
    {as : List α} (h : reader.items first p = .ok (as, t)) (s : List Char) :
    reader.items first (p ++ s) = .ok (as, t ++ s) := by
  fun_induction Reader.items reader first p generalizing as t with
  | case1 => cases h
  | case2 first p r hn =>
    cases h
    exact items_of_done (nextItem_append hn s)
  | case3 => cases h
  | case4 => cases h
  | case5 first p r hn a u hu bs v hv ih =>
    cases h
    -- the list goes on after the item, so the item does not end the text
    have hne : u ≠ [] := List.ne_nil_of_length_pos (Nat.zero_lt_of_lt (Reader.length_items hv))
    exact items_of_item (nextItem_append hn s) (hl hu fun hnil => absurd hnil hne) (ih hv)

theorem readFields_append {entry : σ → String → Except Mismatch (Reader σ)}
    (hl : ∀ {state name value}, entry state name = .ok value → value.IsLocal) {first : Bool}
    {state state' : σ} {p t : List Char} (h : readFields entry first state p = .ok (state', t))
    (s : List Char) : readFields entry first state (p ++ s) = .ok (state', t ++ s) := by
  fun_induction readFields entry first state p with
  | case1 => cases h
  | case2 first state p r hn =>
    cases h
    exact readFields_of_done (nextKey_append hn s)
  | case3 => cases h
  | case4 => cases h
  | case5 => cases h
  | case6 first state p name r hn value he u hu state₁ v hv ih =>
    have hne : v ≠ [] := List.ne_nil_of_length_pos (Nat.zero_lt_of_lt (length_readFields h))
    rw [readFields_of_key (nextKey_append hn s) he (takeColon_append hu s)
      (hl he hv fun hnil => absurd hnil hne)]
    exact ih h

/-! ### Values -/

theorem run_startingWith_eq_ok {take : Char → List Char → Except Fault (α × List Char)}
    (hlen : ∀ {c s r a}, take c s = .ok (a, r) → r.length ≤ s.length) {p t : List Char} {a : α} :
    (startingWith take hlen).run p = .ok (a, t) ↔
      ∃ c r, skipBlanks p = c :: r ∧ take c r = .ok (a, t) := by
  simp only [startingWith]
  cases skipBlanks p with
  | nil => simp
  | cons c r =>
    constructor
    · intro h
      exact ⟨c, r, rfl, h⟩
    · rintro ⟨c', r', hr, h⟩
      obtain ⟨rfl, rfl⟩ := List.cons.inj hr
      exact h

theorem isLocal_startingWith {take : Char → List Char → Except Fault (α × List Char)}
    (hlen : ∀ {c s r a}, take c s = .ok (a, r) → r.length ≤ s.length)
    (h : ∀ {c p t s a}, take c p = .ok (a, t) → (t = [] → Breaks s) →
      take c (p ++ s) = .ok (a, t ++ s)) : (startingWith take hlen).IsLocal := by
  intro p t s a hp hs
  obtain ⟨c, r, hr, ht⟩ := (run_startingWith_eq_ok hlen).1 hp
  exact (run_startingWith_eq_ok hlen).2 ⟨c, r ++ s, skipBlanks_append hr s, h ht hs⟩

/-- The reader of what stands in brackets, if so many brackets may be opened. -/
def innerReader : Nat → Option (Reader Json)
  | 0 => none
  | depth + 1 => some (valueReader depth)

theorem run_valueReader_eq_ok {depth : Nat} {p t : List Char} {v : Json} :
    (valueReader depth).run p = .ok (v, t) ↔
      ∃ c r, skipBlanks p = c :: r ∧ takeValue (innerReader depth) c r = .ok (v, t) := by
  cases depth <;> exact run_startingWith_eq_ok length_takeValue

theorem takeValue_append {inner : Option (Reader Json)}
    (hl : ∀ reader, inner = some reader → reader.IsLocal) {c : Char} {p t s : List Char} {v : Json}
    (h : takeValue inner c p = .ok (v, t)) (hs : t = [] → Breaks s) :
    takeValue inner c (p ++ s) = .ok (v, t ++ s) := by
  unfold takeValue at h ⊢
  split_ifs at h ⊢
  · split at h
    · cases h
    · next reader =>
      obtain ⟨⟨items, r⟩, hr, he⟩ := map_eq_ok.1 h
      cases he
      exact map_eq_ok.2 ⟨_, items_append (hl reader rfl) hr s, rfl⟩
  · split at h
    · cases h
    · next reader =>
      obtain ⟨⟨fields, r⟩, hr, he⟩ := map_eq_ok.1 h
      cases he
      refine map_eq_ok.2 ⟨_, readFields_append ?_ hr s, rfl⟩
      intro state name value hvalue
      cases hvalue
      exact (hl reader rfl).map _
  · exact takeScalar_append h hs

/-- **The reader of values is local**, at every depth. -/
theorem isLocal_valueReader (depth : Nat) : (valueReader depth).IsLocal := by
  induction depth with
  | zero => exact isLocal_startingWith length_takeValue (takeValue_append (by simp))
  | succ depth ih =>
    refine isLocal_startingWith length_takeValue (takeValue_append ?_)
    intro reader hreader
    cases hreader
    exact ih

end Json

end EventTaxonomy
