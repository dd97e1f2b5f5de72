import EventTaxonomy.Proofs.Locality

/-!
# Faults in the text

A value of whatever shape can be read, so reading one fails only if its text is malformed, and then
the place is known (`Json.failsInText_valueReader`). Such a fault is told apart from those that a
reader has for reasons of its own, and a list or object around it has nothing to settle.

`FailsInText` says this of the result of a reading. It is shown of one function after the other,
from digits and escapes up to values, in which brackets may be nested.
-/

namespace EventTaxonomy

namespace Json

/-- If the reading fails, the text is malformed, at a known place. -/
def FailsInText {α : Type} (x : Except Fault α) : Prop :=
  ∀ e, x = .error e → ∃ m left, e = ⟨.malformed m, .settled left⟩

section FailsInText

variable {α β : Type} {x : Except Fault α} {e : Fault}

@[simp] theorem failsInText_ok (a : α) : FailsInText (.ok a) := by
  intro e h
  cases h

@[simp] theorem failsInText_here (m : Malformed) (s : List Char) :
    FailsInText (.error (.here m s) : Except Fault α) := by
  rintro _ ⟨⟩
  exact ⟨m, byteCount s, rfl⟩

@[simp] theorem failsInText_next (m : Malformed) (s : List Char) :
    FailsInText (.error (.next m s) : Except Fault α) := by
  rintro _ ⟨⟩
  exact ⟨m, byteCount s - 1, rfl⟩

/-- What is done with the result of a reading cannot fail. -/
theorem FailsInText.map (h : FailsInText x) (f : α → β) : FailsInText (x.map f) := by
  cases x with
  | ok a => exact failsInText_ok _
  | error e =>
    rintro _ ⟨⟩
    exact h e rfl

/-- A fault is handed on. -/
theorem FailsInText.error (h : FailsInText x) (hx : x = .error e) :
    FailsInText (.error e : Except Fault β) := by
  rintro _ ⟨⟩
  exact h e hx

theorem FailsInText.settle (h : FailsInText x) (hx : x = .error e)
    (stop : List Char → List Char) : e.settle stop = e := by
  obtain ⟨m, left, rfl⟩ := h e hx
  rfl

end FailsInText

theorem failsInText_takeLiteral (word s : List Char) : FailsInText (takeLiteral word s) := by
  fun_induction takeLiteral word s with
  | case1 s => exact failsInText_ok s
  | case2 => exact failsInText_here _ _
  | case3 w word s ih => exact ih
  | case4 => exact failsInText_next _ _

theorem failsInText_takeHex (s : List Char) : FailsInText (takeHex s) := by
  have hfault : FailsInText (.error (hexFault s) : Except Fault (Nat × List Char)) := by
    unfold hexFault
    split_ifs
    · exact failsInText_here _ _
    · rintro _ ⟨⟩
      exact ⟨_, _, rfl⟩
  unfold takeHex
  split
  · split
    · exact failsInText_ok _
    · exact hfault
  · exact hfault

theorem failsInText_takeTrailing (a : Nat) (s : List Char) : FailsInText (takeTrailing a s) := by
  unfold takeTrailing
  split
  · exact failsInText_here _ _
  · exact failsInText_here _ _
  · next s =>
    split
    · next e he => exact (failsInText_takeHex s).error he
    · split_ifs <;> simp
  · exact failsInText_next _ _
  · exact failsInText_next _ _

theorem failsInText_takeUnicode (s : List Char) : FailsInText (takeUnicode s) := by
  unfold takeUnicode
  split
  · next e he => exact (failsInText_takeHex s).error he
  · next a r hr =>
    split_ifs
    · exact failsInText_here _ _
    · exact failsInText_takeTrailing a r
    · exact failsInText_ok _

theorem failsInText_takeEscape (s : List Char) : FailsInText (takeEscape s) := by
  unfold takeEscape
  split
  · exact failsInText_here _ _
  · next c s =>
    split_ifs
    · exact failsInText_takeUnicode s
    · split <;> simp

theorem failsInText_takeString (s : List Char) : FailsInText (takeString s) := by
  fun_induction takeString s with
  | case1 => exact failsInText_here _ _
  | case2 => exact failsInText_ok _
  | case3 s e he => exact (failsInText_takeEscape s).error he
  | case4 s d r hr e he _ ih => exact ih.error he
  | case5 => exact failsInText_ok _
  | case6 => exact failsInText_next _ _
  | case7 c s _ _ _ e he ih => exact ih.error he
  | case8 => exact failsInText_ok _

theorem failsInText_scaledNumber (negative : Bool) (n : Nat) (e : Int) (s : List Char) :
    FailsInText (scaledNumber negative n e s) := by
  unfold scaledNumber
  split <;> simp

theorem failsInText_takeScale (negative : Bool) (n : Nat) (e : Int) (s : List Char) :
    FailsInText (takeScale negative n e s) := by
  have hdigits : ∀ down s, FailsInText (takeExponentDigits negative n e down s) := by
    intro down s
    unfold takeExponentDigits
    split
    · split <;> simp
    · dsimp only
      split
      · exact failsInText_scaledNumber _ _ _ _
      · split_ifs <;> simp
  have hexponent : ∀ s, FailsInText (takeExponent negative n e s) := by
    intro s
    unfold takeExponent
    split <;> exact hdigits _ _
  unfold takeScale
  split
  · exact hexponent _
  · exact hexponent _
  · exact failsInText_scaledNumber _ _ _ _

theorem failsInText_takeNumber (negative : Bool) (s : List Char) :
    FailsInText (takeNumber negative s) := by
  unfold takeNumber
  split
  · split <;> simp
  · exact failsInText_next _ _
  · dsimp only
    split
    · unfold takeFraction
      split
      · split <;> simp
      · exact failsInText_takeScale _ _ _ _
    · exact failsInText_takeScale _ _ _ _
    · exact failsInText_takeScale _ _ _ _
    · split_ifs
      · exact failsInText_ok _
      · exact failsInText_scaledNumber _ _ _ _

theorem failsInText_takeScalar (s : List Char) : FailsInText (takeScalar s) := by
  cases s with
  | nil => exact failsInText_here _ _
  | cons c s =>
    rw [takeScalar]
    split_ifs
    · exact (failsInText_takeString s).map _
    · exact (failsInText_takeLiteral _ s).map _
    · exact (failsInText_takeLiteral _ s).map _
    · exact (failsInText_takeLiteral _ s).map _
    · exact (failsInText_takeNumber true s).map _
    · exact (failsInText_takeNumber false (c :: s)).map _
    · exact failsInText_next _ _

theorem failsInText_nextItem (first : Bool) (s : List Char) : FailsInText (nextItem first s) := by
  unfold nextItem
  split
  · exact failsInText_here _ _
  · split_ifs
    · exact failsInText_ok _
    · exact failsInText_ok _
    · split
      · exact failsInText_here _ _
      · split_ifs <;> simp
    · exact failsInText_next _ _

theorem failsInText_nextKey (first : Bool) (s : List Char) : FailsInText (nextKey first s) := by
  have hkey : ∀ s, FailsInText (takeKey s) := by
    intro s
    unfold takeKey
    split
    · exact failsInText_here _ _
    · next c s =>
      split_ifs
      · exact (failsInText_takeString s).map _
      · exact failsInText_next _ _
  unfold nextKey
  split
  · exact failsInText_here _ _
  · split_ifs
    · exact failsInText_ok _
    · exact hkey _
    · split
      · exact failsInText_next _ _
      · exact hkey _
    · exact failsInText_next _ _

theorem failsInText_takeColon (s : List Char) : FailsInText (takeColon s) := by
  unfold takeColon
  split
  · exact failsInText_here _ _
  · split_ifs <;> simp

theorem failsInText_expectEnd (s : List Char) : FailsInText (expectEnd s) := by
  unfold expectEnd
  split <;> simp

/-- A list fails in its text if its items do. -/
theorem failsInText_items {α : Type} {reader : Reader α} (h : ∀ s, FailsInText (reader.run s))
    (first : Bool) (s : List Char) : FailsInText (reader.items first s) := by
  fun_induction Reader.items reader first s with
  | case1 first s e he => exact (failsInText_nextItem first s).error he
  | case2 => exact failsInText_ok _
  | case3 first s r hn e he =>
    rw [(h r).settle he]
    exact (h r).error he
  | case4 first s r hn a t hr e he ih => exact ih.error he
  | case5 => exact failsInText_ok _

/-- An object fails in its text if all of its keys are read and their values fail in the text. -/
theorem failsInText_readFields {σ : Type} {entry : σ → String → Reader σ}
    (h : ∀ state name s, FailsInText ((entry state name).run s)) (first : Bool) (state : σ)
    (s : List Char) :
    FailsInText (readFields (fun state name => .ok (entry state name)) first state s) := by
  fun_induction readFields (fun state name => .ok (entry state name)) first state s with
  | case1 first state s e he => exact (failsInText_nextKey first s).error he
  | case2 => exact failsInText_ok _
  | case3 first state s name r hn m hm => cases hm
  | case4 first state s name r hn value hvalue e he => exact (failsInText_takeColon r).error he
  | case5 first state s name r hn value hvalue t ht e he =>
    cases hvalue
    rw [(h state name t).settle he]
    exact (h state name t).error he
  | case6 first state s name r hn value hvalue t ht state' u hu ih => exact ih

theorem failsInText_takeValue {inner : Option (Reader Json)}
    (h : ∀ reader ∈ inner, ∀ s, FailsInText (reader.run s)) (c : Char) (s : List Char) :
    FailsInText (takeValue inner c s) := by
  unfold takeValue
  split_ifs
  · cases inner with
    | none => exact failsInText_next _ _
    | some reader => exact (failsInText_items (h reader rfl) true s).map _
  · cases inner with
    | none => exact failsInText_next _ _
    | some reader =>
      refine (failsInText_readFields (fun fields name s => ?_) true [] s).map _
      exact (h reader rfl s).map _
  · exact failsInText_takeScalar (c :: s)

theorem run_valueReader_of_nil {depth : Nat} {s : List Char} (hs : skipBlanks s = []) :
    (valueReader depth).run s = .error (.here .endOfValue []) := by
  cases depth <;> simp only [valueReader, startingWith, hs]

theorem run_valueReader_of_cons {depth : Nat} {s r : List Char} {c : Char}
    (hs : skipBlanks s = c :: r) :
    (valueReader depth).run s = takeValue (innerReader depth) c r := by
  cases depth <;> simp only [valueReader, startingWith, hs, innerReader]

theorem failsInText_innerReader (depth : Nat) :
    ∀ reader ∈ innerReader depth, ∀ s, FailsInText (reader.run s) := by
  induction depth with
  | zero =>
    intro reader hreader
    cases hreader
  | succ depth ih =>
    rintro _ ⟨⟩ s
    cases hs : skipBlanks s with
    | nil =>
      rw [run_valueReader_of_nil hs]
      exact failsInText_here _ _
    | cons c r =>
      rw [run_valueReader_of_cons hs]
      exact failsInText_takeValue ih c r

/-- **Only the text of a value can be at fault.** -/
theorem failsInText_valueReader (depth : Nat) (s : List Char) :
    FailsInText ((valueReader depth).run s) :=
  failsInText_innerReader (depth + 1) _ rfl s

end Json

end EventTaxonomy
