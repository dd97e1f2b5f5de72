import EventTaxonomy.Json.Scalar

/-!
# Reading documents

A `Reader` takes a value off the front of a text; it always takes at least one character, which is
why the loops over the items of a list (`Reader.items`) and the fields of an object (`readFields`)
end. `valueReader` reads any value, and `parse` a whole text.

A part of a document that is read for its shape may be refused before the text is at fault. The
place of such a refusal is settled by the list or object around it, which first looks for its own
end: see `listEnd` and `objectEnd`.
-/

namespace EventTaxonomy

namespace Json

/-- A function that takes a value off the front of a text and shortens it. -/
structure Reader (α : Type) where
  run : List Char → Except Fault (α × List Char)
  shortens : ∀ {s r : List Char} {a : α}, run s = .ok (a, r) → r.length < s.length

namespace Reader

variable {α β : Type}

/-- Reads, and applies a function to what was read. -/
def map (f : α → β) (reader : Reader α) : Reader β where
  run s := (reader.run s).map fun (a, r) => (f a, r)
  shortens h := by
    obtain ⟨⟨a, t⟩, ht, he⟩ := map_eq_ok.1 h
    cases he
    exact reader.shortens ht

end Reader

/-! ### Lists -/

/-- What comes next in a list. -/
inductive ListStep where
  /-- The closing bracket, already taken. -/
  | done (rest : List Char)
  /-- An item. -/
  | item (rest : List Char)

/-- Looks for the next item of a list; `first` if there is none before it. -/
def nextItem (first : Bool) (s : List Char) : Except Fault ListStep :=
  match skipBlanks s with
  | [] => .error (.here .endOfList [])
  | c :: r =>
    if c = ']' then .ok (.done r)
    else if first then .ok (.item (c :: r))
    else if c = ',' then
      match skipBlanks r with
      | [] => .error (.here .endOfValue [])
      | d :: t =>
        if d = ']' then .error (.next .trailingComma (d :: t)) else .ok (.item (d :: t))
    else .error (.next .expectedListEnd (c :: r))

/-- The text left once a list has looked for its closing bracket. -/
def listEnd (s : List Char) : List Char :=
  match skipBlanks s with
  | [] => []
  | c :: r => if c = ']' then r else if c = ',' then skipBlanks r else c :: r

/-- Takes the closing bracket of a list that is to have no more items. -/
def closeList (s : List Char) : Except Fault (List Char) :=
  match skipBlanks s with
  | [] => .error (.here .endOfList [])
  | c :: r =>
    if c = ']' then .ok r
    else if c = ',' then
      match skipBlanks r with
      | [] => .error (.here .trailingCharacters [])
      | d :: t =>
        .error (.next (if d = ']' then .trailingComma else .trailingCharacters) (d :: t))
    else .error (.next .trailingCharacters (c :: r))

theorem length_nextItem_done {first : Bool} {s r : List Char}
    (h : nextItem first s = .ok (.done r)) : r.length < s.length := by
  have hs := length_skipBlanks s
  unfold nextItem at h
  split at h
  · simp at h
  · next c t ht =>
    simp only [ht, List.length_cons] at hs
    split at h
    · simp only [Except.ok.injEq, ListStep.done.injEq] at h
      rw [← h]
      omega
    · repeat' split at h
      all_goals simp at h

theorem length_nextItem_item {first : Bool} {s r : List Char}
    (h : nextItem first s = .ok (.item r)) : r.length ≤ s.length := by
  have hs := length_skipBlanks s
  unfold nextItem at h
  split at h
  · simp at h
  · next c t ht =>
    simp only [ht, List.length_cons] at hs
    split at h
    · simp at h
    · split at h
      · simp only [Except.ok.injEq, ListStep.item.injEq] at h
        rw [← h]
        exact hs
      · split at h
        · have hr := length_skipBlanks t
          split at h
          · simp at h
          · next d u hu =>
            simp only [hu] at hr
            split at h
            · simp at h
            · simp only [Except.ok.injEq, ListStep.item.injEq] at h
              rw [← h]
              omega
        · simp at h

theorem length_closeList {s r : List Char} (h : closeList s = .ok r) : r.length < s.length := by
  have hs := length_skipBlanks s
  unfold closeList at h
  split at h
  · simp at h
  · next c t ht =>
    simp only [ht, List.length_cons] at hs
    split at h
    · simp only [Except.ok.injEq] at h
      rw [← h]
      omega
    · repeat' split at h
      all_goals simp at h

/-- Reads the items of a list up to its closing bracket, the opening one being read. -/
def Reader.items {α : Type} (reader : Reader α) (first : Bool) (s : List Char) :
    Except Fault (List α × List Char) :=
  match _hn : nextItem first s with
  | .error e => .error e
  | .ok (.done r) => .ok ([], r)
  | .ok (.item r) =>
    match _hr : reader.run r with
    | .error e => .error (e.settle listEnd)
    | .ok (a, t) =>
      match reader.items false t with
      | .error e => .error e
      | .ok (as, u) => .ok (a :: as, u)
termination_by s.length
decreasing_by
  have := length_nextItem_item _hn
  have := reader.shortens _hr
  omega

theorem Reader.length_items {α : Type} {reader : Reader α} {first : Bool} {s r : List Char}
    {as : List α} (h : reader.items first s = .ok (as, r)) : r.length < s.length := by
  fun_induction Reader.items reader first s generalizing as r with
  | case1 => simp at h
  | case2 first s t ht =>
    simp only [Except.ok.injEq, Prod.mk.injEq] at h
    rw [← h.2]
    exact length_nextItem_done ht
  | case3 => simp at h
  | case4 => simp at h
  | case5 first s t ht a u hu bs v hv ih =>
    have h1 := length_nextItem_item ht
    have h2 := reader.shortens hu
    have h3 := ih hv
    simp only [Except.ok.injEq, Prod.mk.injEq] at h
    rw [← h.2]
    omega

/-! ### Objects -/

/-- What comes next in an object. -/
inductive ObjectStep where
  /-- The closing brace, already taken. -/
  | done (rest : List Char)
  /-- A key; `rest` starts after its closing quote. -/
  | key (name : String) (rest : List Char)

/-- Takes a key. -/
def takeKey : List Char → Except Fault ObjectStep
  | [] => .error (.here .endOfValue [])
  | c :: s =>
    if c = '"' then (takeString s).map fun (cs, r) => .key (String.ofList cs) r
    else .error (.next .keyNotString (c :: s))

/-- Looks for the next key of an object; `first` if there is none before it. -/
def nextKey (first : Bool) (s : List Char) : Except Fault ObjectStep :=
  match skipBlanks s with
  | [] => .error (.here .endOfObject [])
  | c :: r =>
    if c = '}' then .ok (.done r)
    else if first then takeKey (c :: r)
    else if c = ',' then
      match skipBlanks r with
      | '}' :: t => .error (.next .trailingComma ('}' :: t))
      | t => takeKey t
    else .error (.next .expectedObjectEnd (c :: r))

/-- Takes the colon after a key. -/
def takeColon (s : List Char) : Except Fault (List Char) :=
  match skipBlanks s with
  | [] => .error (.here .endOfObject [])
  | c :: r => if c = ':' then .ok r else .error (.next .expectedColon (c :: r))

/-- The text left once an object has looked for its closing brace. -/
def objectEnd (s : List Char) : List Char :=
  match skipBlanks s with
  | [] => []
  | c :: r => if c = '}' then r else c :: r

theorem length_takeKey {s r : List Char} {name : String} (h : takeKey s = .ok (.key name r)) :
    r.length < s.length := by
  cases s with
  | nil => simp [takeKey] at h
  | cons c s =>
    simp only [takeKey] at h
    split at h
    · obtain ⟨⟨cs, t⟩, ht, he⟩ := map_eq_ok.1 h
      have := length_takeString ht
      cases he
      simp only [List.length_cons]
      omega
    · simp at h

theorem takeKey_ne_done (s r : List Char) : takeKey s ≠ .ok (.done r) := by
  cases s with
  | nil => simp [takeKey]
  | cons c s =>
    simp only [takeKey]
    split
    · intro h
      obtain ⟨⟨cs, t⟩, _, he⟩ := map_eq_ok.1 h
      cases he
    · simp

theorem length_nextKey_done {first : Bool} {s r : List Char}
    (h : nextKey first s = .ok (.done r)) : r.length < s.length := by
  have hs := length_skipBlanks s
  unfold nextKey at h
  split at h
  · simp at h
  · next c t ht =>
    simp only [ht, List.length_cons] at hs
    split at h
    · simp only [Except.ok.injEq, ObjectStep.done.injEq] at h
      rw [← h]
      omega
    · split at h
      · exact absurd h (takeKey_ne_done _ _)
      · split at h
        · split at h
          · simp at h
          · exact absurd h (takeKey_ne_done _ _)
        · simp at h

theorem length_nextKey_key {first : Bool} {s r : List Char} {name : String}
    (h : nextKey first s = .ok (.key name r)) : r.length < s.length := by
  have hs := length_skipBlanks s
  unfold nextKey at h
  split at h
  · simp at h
  · next c t ht =>
    simp only [ht, List.length_cons] at hs
    split at h
    · simp at h
    · split at h
      · have := length_takeKey h
        simp only [List.length_cons] at this
        omega
      · split at h
        · have hr := length_skipBlanks t
          split at h
          · simp at h
          · have := length_takeKey h
            omega
        · simp at h

theorem length_takeColon {s r : List Char} (h : takeColon s = .ok r) : r.length < s.length := by
  have hs := length_skipBlanks s
  unfold takeColon at h
  split at h
  · simp at h
  · next c t ht =>
    simp only [ht, List.length_cons] at hs
    split at h
    · simp only [Except.ok.injEq] at h
      rw [← h]
      omega
    · simp at h

/-- Reads the fields of an object up to its closing brace, the opening one being read. `entry`
says what a key calls for: a refusal, or a reader that takes its value into the state. -/
def readFields {σ : Type} (entry : σ → String → Except Mismatch (Reader σ)) (first : Bool)
    (state : σ) (s : List Char) : Except Fault (σ × List Char) :=
  match _hn : nextKey first s with
  | .error e => .error e
  | .ok (.done r) => .ok (state, r)
  | .ok (.key name r) =>
    match entry state name with
    | .error m => .error ((Fault.mismatchBefore m r).settle objectEnd)
    | .ok value =>
      match _hc : takeColon r with
      | .error e => .error e
      | .ok t =>
        match _hv : value.run t with
        | .error e => .error (e.settle objectEnd)
        | .ok (state, u) => readFields entry false state u
termination_by s.length
decreasing_by
  have := length_nextKey_key _hn
  have := length_takeColon _hc
  have := value.shortens _hv
  omega

theorem length_readFields {σ : Type} {entry : σ → String → Except Mismatch (Reader σ)}
    {first : Bool} {state state' : σ} {s r : List Char}
    (h : readFields entry first state s = .ok (state', r)) : r.length < s.length := by
  fun_induction readFields entry first state s with
  | case1 => simp at h
  | case2 first state s t ht =>
    simp only [Except.ok.injEq, Prod.mk.injEq] at h
    rw [← h.2]
    exact length_nextKey_done ht
  | case3 => simp at h
  | case4 => simp at h
  | case5 => simp at h
  | case6 first state s name t ht value hentry u hu state' v hv ih =>
    have h1 := length_nextKey_key ht
    have h2 := length_takeColon hu
    have h3 := value.shortens hv
    have h4 := ih h
    omega

/-! ### Values -/

theorem length_of_skipBlanks {α : Type} {take : Char → List Char → Except Fault (α × List Char)}
    (h : ∀ {c s r a}, take c s = .ok (a, r) → r.length ≤ s.length) {s r : List Char} {a : α}
    (hr : (match skipBlanks s with
      | [] => .error (.here .endOfValue [])
      | c :: r => take c r : Except Fault (α × List Char)) = .ok (a, r)) :
    r.length < s.length := by
  have hs := length_skipBlanks s
  split at hr
  · simp at hr
  · next c t ht =>
    have := h hr
    simp only [ht, List.length_cons] at hs
    omega

/-- Skips blanks and hands the first character and the text after it to `take`. -/
def startingWith {α : Type} (take : Char → List Char → Except Fault (α × List Char))
    (h : ∀ {c s r a}, take c s = .ok (a, r) → r.length ≤ s.length) : Reader α where
  run s :=
    match skipBlanks s with
    | [] => .error (.here .endOfValue [])
    | c :: r => take c r
  shortens := length_of_skipBlanks h

/-- Takes any value; `inner` reads what stands in brackets, if brackets may be opened at all. -/
def takeValue (inner : Option (Reader Json)) (c : Char) (s : List Char) :
    Except Fault (Json × List Char) :=
  if c = '[' then
    match inner with
    | none => .error (.next .tooDeep (c :: s))
    | some reader => (reader.items true s).map fun (items, r) => (.array items, r)
  else if c = '{' then
    match inner with
    | none => .error (.next .tooDeep (c :: s))
    | some reader =>
      (readFields (fun fields name => .ok (reader.map fun value => (name, value) :: fields))
        true [] s).map fun (fields, r) => (.object fields.reverse, r)
  else takeScalar (c :: s)

theorem length_takeValue {inner : Option (Reader Json)} {c : Char} {s r : List Char} {v : Json}
    (h : takeValue inner c s = .ok (v, r)) : r.length ≤ s.length := by
  unfold takeValue at h
  split at h
  · split at h
    · simp at h
    · obtain ⟨⟨items, u⟩, hu, he⟩ := map_eq_ok.1 h
      have := Reader.length_items hu
      cases he
      omega
  · split at h
    · split at h
      · simp at h
      · obtain ⟨⟨fields, u⟩, hu, he⟩ := map_eq_ok.1 h
        have := length_readFields hu
        cases he
        omega
    · have := length_takeScalar h
      simp only [List.length_cons] at this
      omega

/-- Reads a value in which `depth` brackets may be open at a time. -/
def valueReader : Nat → Reader Json
  | 0 => startingWith (takeValue none) length_takeValue
  | depth + 1 => startingWith (takeValue (some (valueReader depth))) length_takeValue

/-- The number of brackets that may be open at a time. -/
def maxDepth : Nat := 127

/-- Nothing but blanks may follow a document. -/
def expectEnd (s : List Char) : Except Fault Unit :=
  match skipBlanks s with
  | [] => .ok ()
  | c :: r => .error (.next .trailingCharacters (c :: r))

/-- Reads a whole text. -/
def Reader.whole {α : Type} (reader : Reader α) (text : List Char) : Except Fault α :=
  match reader.run text with
  | .error e => .error e
  | .ok (a, r) =>
    match expectEnd r with
    | .error e => .error e
    | .ok () => .ok a

/-- Reads a whole text, with the position of what is wrong with it. -/
def Reader.parse {α : Type} (reader : Reader α) (text : String) : Except ReadError α :=
  (reader.whole text.toList).mapError (Fault.locate text.toList)

/-- The value of a JSON text, in canonical form. -/
def parse (text : String) : Except ReadError Json :=
  ((valueReader maxDepth).parse text).map canonical

end Json

end EventTaxonomy
