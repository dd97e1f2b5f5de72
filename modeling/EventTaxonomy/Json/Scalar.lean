import EventTaxonomy.Json.Fault

/-!
# Reading literals, strings and numbers

The parts of a document without brackets. Every function takes the text that is still unread and
returns what it read with the rest.

A number is read the way a 64-bit machine keeps it: its digits fill a 64-bit significand as long as
they fit (`absorb`), the digits that do not fit only move the decimal point, and the significand is
scaled by a power of ten in double precision (`scaled`).
-/

namespace EventTaxonomy

namespace Json

/-- A character that may stand between the parts of a document. -/
def isBlank (c : Char) : Bool := c = ' ' || c = '\n' || c = '\t' || c = '\r'

/-- The text from its first character that is not blank. -/
def skipBlanks (s : List Char) : List Char := s.dropWhile isBlank

theorem length_skipBlanks (s : List Char) : (skipBlanks s).length ≤ s.length :=
  (List.dropWhile_sublist isBlank).length_le

/-! ### Literals -/

/-- Takes the letters of a literal. -/
def takeLiteral : List Char → List Char → Except Fault (List Char)
  | [], s => .ok s
  | _ :: _, [] => .error (.here .endOfValue [])
  | w :: word, c :: s =>
    if c = w then takeLiteral word s else .error (.next .expectedLiteral (c :: s))

theorem length_takeLiteral {word s r : List Char} (h : takeLiteral word s = .ok r) :
    r.length ≤ s.length := by
  induction word generalizing s with
  | nil => simp_all [takeLiteral]
  | cons w word ih =>
    cases s with
    | nil => simp [takeLiteral] at h
    | cons c s =>
      simp only [takeLiteral] at h
      split at h
      · have := ih h
        simp only [List.length_cons]
        omega
      · simp at h

/-! ### Strings -/

/-- The value of a hexadecimal digit. -/
def hexValue? (c : Char) : Option Nat :=
  if '0' ≤ c && c ≤ '9' then some (c.toNat - 48)
  else if 'a' ≤ c && c ≤ 'f' then some (c.toNat - 87)
  else if 'A' ≤ c && c ≤ 'F' then some (c.toNat - 55)
  else none

/-- The value of four hexadecimal digits. -/
def hexValue4? (a b c d : Char) : Option Nat := do
  return (← hexValue? a) * 4096 + (← hexValue? b) * 256 + (← hexValue? c) * 16 + (← hexValue? d)

/-- The fault of a text whose next four bytes are not hexadecimal digits. -/
def hexFault (s : List Char) : Fault :=
  if byteCount s < 4 then .here .endOfString []
  else ⟨.malformed .invalidEscape, .settled (byteCount s - 4)⟩

/-- Takes four hexadecimal digits. -/
def takeHex (s : List Char) : Except Fault (Nat × List Char) :=
  match s with
  | a :: b :: c :: d :: r =>
    match hexValue4? a b c d with
    | some n => .ok (n, r)
    | none => .error (hexFault s)
  | _ => .error (hexFault s)

theorem length_takeHex {s r : List Char} {n : Nat} (h : takeHex s = .ok (n, r)) :
    r.length < s.length := by
  unfold takeHex at h
  split at h
  · split at h
    · simp only [Except.ok.injEq, Prod.mk.injEq] at h
      simp only [List.length_cons, ← h.2]
      omega
    · simp at h
  · simp at h

/-- A code unit that opens a surrogate pair. -/
def isLeading (n : Nat) : Bool := 0xD800 ≤ n && n ≤ 0xDBFF

/-- A code unit that closes a surrogate pair. -/
def isTrailing (n : Nat) : Bool := 0xDC00 ≤ n && n ≤ 0xDFFF

/-- The character of a surrogate pair. -/
def pairChar (a b : Nat) : Char := Char.ofNat (0x10000 + (a - 0xD800) * 1024 + (b - 0xDC00))

/-- Takes the second half of a surrogate pair, its escape included. -/
def takeTrailing (a : Nat) : List Char → Except Fault (Char × List Char)
  | [] => .error (.here .endOfString [])
  | ['\\'] => .error (.here .endOfString [])
  | '\\' :: 'u' :: s =>
    match takeHex s with
    | .error e => .error e
    | .ok (b, r) =>
      if isTrailing b then .ok (pairChar a b, r) else .error (.here .loneSurrogate r)
  | '\\' :: s => .error (.next .unfinishedPair s)
  | s => .error (.next .unfinishedPair s)

/-- Takes the code of a character after `\u`, of two escapes if they form a pair. -/
def takeUnicode (s : List Char) : Except Fault (Char × List Char) :=
  match takeHex s with
  | .error e => .error e
  | .ok (a, r) =>
    if isTrailing a then .error (.here .loneSurrogate r)
    else if isLeading a then takeTrailing a r
    else .ok (Char.ofNat a, r)

/-- The character that a letter after a backslash stands for. -/
def escape? (c : Char) : Option Char :=
  if c = '"' || c = '\\' || c = '/' then some c
  else if c = 'b' then some '\x08'
  else if c = 'f' then some '\x0c'
  else if c = 'n' then some '\n'
  else if c = 'r' then some '\r'
  else if c = 't' then some '\t'
  else none

/-- Takes an escape, the backslash of which is already read. -/
def takeEscape : List Char → Except Fault (Char × List Char)
  | [] => .error (.here .endOfString [])
  | c :: s =>
    if c = 'u' then takeUnicode s
    else match escape? c with
      | some e => .ok (e, s)
      | none => .error (.next .invalidEscape (c :: s))

theorem length_takeTrailing {a : Nat} {s r : List Char} {c : Char}
    (h : takeTrailing a s = .ok (c, r)) : r.length < s.length := by
  unfold takeTrailing at h
  split at h
  · simp at h
  · simp at h
  · next s =>
    split at h
    · simp at h
    · next b t ht =>
      have := length_takeHex ht
      split at h
      · simp only [Except.ok.injEq, Prod.mk.injEq] at h
        simp only [List.length_cons, ← h.2]
        omega
      · simp at h
  · simp at h
  · simp at h

theorem length_takeUnicode {s r : List Char} {c : Char} (h : takeUnicode s = .ok (c, r)) :
    r.length < s.length := by
  unfold takeUnicode at h
  split at h
  · simp at h
  · next a t ht =>
    have hs := length_takeHex ht
    split at h
    · simp at h
    · split at h
      · have := length_takeTrailing h
        omega
      · simp only [Except.ok.injEq, Prod.mk.injEq] at h
        rw [← h.2]
        exact hs

theorem length_takeEscape {s r : List Char} {c : Char} (h : takeEscape s = .ok (c, r)) :
    r.length < s.length := by
  cases s with
  | nil => simp [takeEscape] at h
  | cons d s =>
    simp only [takeEscape] at h
    simp only [List.length_cons]
    split at h
    · have := length_takeUnicode h
      omega
    · split at h
      · simp only [Except.ok.injEq, Prod.mk.injEq] at h
        simp [h.2]
      · simp at h

/-- Takes the rest of a string, the opening quote of which is already read. -/
def takeString : List Char → Except Fault (List Char × List Char)
  | [] => .error (.here .endOfString [])
  | c :: s =>
    if c = '"' then .ok ([], s)
    else if c = '\\' then
      match _h : takeEscape s with
      | .error e => .error e
      | .ok (d, r) =>
        match takeString r with
        | .error e => .error e
        | .ok (cs, t) => .ok (d :: cs, t)
    else if c.toNat < 0x20 then .error (.next .controlCharacter (c :: s))
    else
      match takeString s with
      | .error e => .error e
      | .ok (cs, t) => .ok (c :: cs, t)
termination_by s => s.length
decreasing_by
  · have := length_takeEscape _h
    simp only [List.length_cons]
    omega
  · simp

theorem length_takeString {s cs r : List Char} (h : takeString s = .ok (cs, r)) :
    r.length < s.length := by
  fun_induction takeString s generalizing cs r with
  | case1 => simp at h
  | case2 => simp_all
  | case3 => simp at h
  | case4 => simp at h
  | case5 s d t ht cs' u hu _ ih =>
    have h1 := length_takeEscape ht
    have h2 := ih hu
    simp only [Except.ok.injEq, Prod.mk.injEq] at h
    simp only [List.length_cons, ← h.2]
    omega
  | case6 => simp at h
  | case7 => simp at h
  | case8 c s _ _ _ cs' u hu ih =>
    have h2 := ih hu
    simp only [Except.ok.injEq, Prod.mk.injEq] at h
    simp only [List.length_cons, ← h.2]
    omega

/-! ### Numbers -/

/-- The largest 64-bit word. -/
def wordMax : Nat := Nat.pow 2 64 - 1

/-- The largest exponent that is kept. -/
def exponentMax : Nat := Nat.pow 2 31 - 1

/-- The value of a decimal digit. -/
def digitValue (c : Char) : Nat := c.toNat - 48

/-- Appends digits to `n` as long as the result stays within `limit`; also the digits left. -/
def absorb (limit n : Nat) : List Char → Nat × List Char
  | [] => (n, [])
  | c :: ds =>
    let m := n * 10 + digitValue c
    if limit < m then (n, c :: ds) else absorb limit m ds

/-- A power of ten in double precision. -/
def tenTo (k : Nat) : Float := Float.ofScientific 1 false k

/-- Divides by `10 ^ k`, by at most `10 ^ 308` at a time. -/
def shrink (x : Float) (k : Nat) : Float :=
  if k ≤ 308 then x / tenTo k
  else if x == 0 then x
  else shrink (x / tenTo 308) (k - 308)
termination_by k

/-- The double `n * 10 ^ e`, or nothing beyond the largest double. -/
def scaled (n : Nat) (e : Int) : Option Float :=
  let x := Float.ofNat n
  if e < 0 then some (shrink x (-e).toNat)
  else if e ≤ 308 then
    let y := x * tenTo e.toNat
    if y.isInf then none else some y
  else if x == 0 then some x
  else none

/-- A double with its sign. -/
def floatNumber (negative : Bool) (x : Float) : Number := .float (if negative then -x else x)

/-- The number of an integer literal that fits a word. -/
def wordNumber (negative : Bool) (n : Nat) : Number :=
  if negative then
    if n = 0 || Nat.pow 2 63 < n then floatNumber true (Float.ofNat n) else .int (-n)
  else .int n

/-- The number with the significand `n` and the exponent `e`, the text of which ends before
`rest`. -/
def scaledNumber (negative : Bool) (n : Nat) (e : Int) (rest : List Char) :
    Except Fault (Number × List Char) :=
  match scaled n e with
  | some x => .ok (floatNumber negative x, rest)
  | none => .error (.here .numberOutOfRange rest)

/-- Takes the exponent of a number after its sign. -/
def takeExponentDigits (negative : Bool) (n : Nat) (e : Int) (down : Bool) (s : List Char) :
    Except Fault (Number × List Char) :=
  match s.takeWhile Char.isDigit with
  | [] =>
    match s with
    | [] => .error (.here .endOfValue [])
    | _ :: _ => .error (.next .invalidNumber s)
  | d :: ds =>
    let rest := s.dropWhile Char.isDigit
    let read := absorb exponentMax 0 (d :: ds)
    match read.2 with
    | [] => scaledNumber negative n (if down then e - read.1 else e + read.1) rest
    | _ :: more =>
      if n = 0 || down then .ok (floatNumber negative 0, rest)
      else .error (.here .numberOutOfRange (more ++ rest))

/-- Takes the exponent of a number after its letter. -/
def takeExponent (negative : Bool) (n : Nat) (e : Int) : List Char →
    Except Fault (Number × List Char)
  | '+' :: s => takeExponentDigits negative n e false s
  | '-' :: s => takeExponentDigits negative n e true s
  | s => takeExponentDigits negative n e false s

/-- Ends a number that is not an integer: with an exponent, or as it is. -/
def takeScale (negative : Bool) (n : Nat) (e : Int) : List Char →
    Except Fault (Number × List Char)
  | 'e' :: s => takeExponent negative n e s
  | 'E' :: s => takeExponent negative n e s
  | s => scaledNumber negative n e s

/-- Takes the digits after the point. -/
def takeFraction (negative : Bool) (n : Nat) (e : Int) (s : List Char) :
    Except Fault (Number × List Char) :=
  match s.takeWhile Char.isDigit with
  | [] =>
    match s with
    | [] => .error (.here .endOfValue [])
    | _ :: _ => .error (.next .invalidNumber s)
  | d :: ds =>
    let read := absorb wordMax n (d :: ds)
    takeScale negative read.1 (e - ((d :: ds).length - read.2.length : Nat))
      (s.dropWhile Char.isDigit)

/-- Takes a number, the sign of which is already read. -/
def takeNumber (negative : Bool) (s : List Char) : Except Fault (Number × List Char) :=
  match s.takeWhile Char.isDigit with
  | [] =>
    match s with
    | [] => .error (.here .endOfValue [])
    | _ :: _ => .error (.next .invalidNumber s)
  | '0' :: _ :: _ => .error (.next .invalidNumber (s.drop 1))
  | d :: ds =>
    let rest := s.dropWhile Char.isDigit
    let read := absorb wordMax 0 (d :: ds)
    match rest with
    | '.' :: r => takeFraction negative read.1 read.2.length r
    | 'e' :: _ => takeScale negative read.1 read.2.length rest
    | 'E' :: _ => takeScale negative read.1 read.2.length rest
    | _ =>
      if read.2.isEmpty then .ok (wordNumber negative read.1, rest)
      else scaledNumber negative read.1 read.2.length rest

theorem length_scaledNumber {negative : Bool} {n : Nat} {e : Int} {s r : List Char} {x : Number}
    (h : scaledNumber negative n e s = .ok (x, r)) : r.length ≤ s.length := by
  unfold scaledNumber at h
  split at h
  · simp only [Except.ok.injEq, Prod.mk.injEq] at h
    simp [h.2]
  · simp at h

theorem length_dropDigits (s : List Char) : (s.dropWhile Char.isDigit).length ≤ s.length :=
  (List.dropWhile_sublist Char.isDigit).length_le

theorem length_dropDigits_lt {s ds : List Char} {d : Char}
    (h : s.takeWhile Char.isDigit = d :: ds) : (s.dropWhile Char.isDigit).length < s.length := by
  have := congrArg List.length (List.takeWhile_append_dropWhile (p := Char.isDigit) (l := s))
  simp only [h, List.length_append, List.length_cons] at this
  omega

theorem length_takeExponentDigits {negative down : Bool} {n : Nat} {e : Int} {s r : List Char}
    {x : Number} (h : takeExponentDigits negative n e down s = .ok (x, r)) :
    r.length ≤ s.length := by
  have hs := length_dropDigits s
  unfold takeExponentDigits at h
  split at h
  · split at h <;> simp at h
  · dsimp only at h
    split at h
    · have := length_scaledNumber h
      omega
    · split at h
      · simp only [Except.ok.injEq, Prod.mk.injEq] at h
        rw [← h.2]
        exact hs
      · simp at h

theorem length_takeExponent {negative : Bool} {n : Nat} {e : Int} {s r : List Char} {x : Number}
    (h : takeExponent negative n e s = .ok (x, r)) : r.length ≤ s.length := by
  unfold takeExponent at h
  split at h <;> have := length_takeExponentDigits h <;> simp_all <;> omega

theorem length_takeScale {negative : Bool} {n : Nat} {e : Int} {s r : List Char} {x : Number}
    (h : takeScale negative n e s = .ok (x, r)) : r.length ≤ s.length := by
  unfold takeScale at h
  split at h
  · have := length_takeExponent h
    simp only [List.length_cons]
    omega
  · have := length_takeExponent h
    simp only [List.length_cons]
    omega
  · exact length_scaledNumber h

theorem length_takeFraction {negative : Bool} {n : Nat} {e : Int} {s r : List Char} {x : Number}
    (h : takeFraction negative n e s = .ok (x, r)) : r.length ≤ s.length := by
  unfold takeFraction at h
  split at h
  · split at h <;> simp at h
  · have := length_takeScale h
    have := length_dropDigits s
    omega

theorem length_takeNumber {negative : Bool} {s r : List Char} {x : Number}
    (h : takeNumber negative s = .ok (x, r)) : r.length < s.length := by
  unfold takeNumber at h
  split at h
  · split at h <;> simp at h
  · simp at h
  · next d ds _ hd =>
    have hs := length_dropDigits_lt hd
    dsimp only at h
    split at h
    · next t ht =>
      have := length_takeFraction h
      simp only [ht, List.length_cons] at hs
      omega
    · have := length_takeScale h
      omega
    · have := length_takeScale h
      omega
    · split at h
      · simp only [Except.ok.injEq, Prod.mk.injEq] at h
        rw [← h.2]
        exact hs
      · have := length_scaledNumber h
        omega

/-! ### Scalars -/

/-- Takes a value that has no brackets. -/
def takeScalar : List Char → Except Fault (Json × List Char)
  | [] => .error (.here .endOfValue [])
  | c :: s =>
    if c = '"' then (takeString s).map fun (cs, r) => (.string (String.ofList cs), r)
    else if c = 'n' then (takeLiteral ['u', 'l', 'l'] s).map fun r => (.null, r)
    else if c = 't' then (takeLiteral ['r', 'u', 'e'] s).map fun r => (.bool true, r)
    else if c = 'f' then (takeLiteral ['a', 'l', 's', 'e'] s).map fun r => (.bool false, r)
    else if c = '-' then (takeNumber true s).map fun (n, r) => (.number n, r)
    else if c.isDigit then (takeNumber false (c :: s)).map fun (n, r) => (.number n, r)
    else .error (.next .expectedValue (c :: s))

theorem map_eq_ok {ε α β : Type} {x : Except ε α} {f : α → β} {b : β} :
    x.map f = .ok b ↔ ∃ a, x = .ok a ∧ f a = b := by
  cases x <;> simp [Except.map]

@[simp] theorem mapError_ok {ε δ α : Type} (f : ε → δ) (a : α) :
    (Except.ok a).mapError f = .ok a := rfl

@[simp] theorem mapError_error {ε δ α : Type} (f : ε → δ) (e : ε) :
    (Except.error e : Except ε α).mapError f = .error (f e) := rfl

theorem mapError_eq_ok {ε δ α : Type} {x : Except ε α} {f : ε → δ} {a : α} :
    x.mapError f = .ok a ↔ x = .ok a := by
  cases x <;> simp

theorem length_takeScalar {s r : List Char} {v : Json} (h : takeScalar s = .ok (v, r)) :
    r.length < s.length := by
  cases s with
  | nil => simp [takeScalar] at h
  | cons c s =>
    simp only [takeScalar] at h
    simp only [List.length_cons]
    repeat' split at h
    · obtain ⟨⟨cs, t⟩, ht, he⟩ := map_eq_ok.1 h
      have := length_takeString ht
      cases he
      dsimp only
      omega
    · obtain ⟨t, ht, he⟩ := map_eq_ok.1 h
      have := length_takeLiteral ht
      cases he
      omega
    · obtain ⟨t, ht, he⟩ := map_eq_ok.1 h
      have := length_takeLiteral ht
      cases he
      omega
    · obtain ⟨t, ht, he⟩ := map_eq_ok.1 h
      have := length_takeLiteral ht
      cases he
      omega
    · obtain ⟨⟨n, t⟩, ht, he⟩ := map_eq_ok.1 h
      have := length_takeNumber ht
      cases he
      dsimp only
      omega
    · obtain ⟨⟨n, t⟩, ht, he⟩ := map_eq_ok.1 h
      have := length_takeNumber ht
      cases he
      simpa using this
    · simp at h

end Json

end EventTaxonomy
