/-!
# JSON values

`Json` is a document as it was written: the fields of an object keep their order, and a key may
come twice. `Json.canonical` is its value as data: every object lists its keys once, in ascending
order, and the last of several fields with one key wins.

* `insertKey`, `lookup` are the map operations on field lists kept in key order;
* `Json.canonical` sorts a whole document;
* `Json.equal` compares two values, numbers by kind and then by value.
-/

namespace EventTaxonomy

/-- A number. An integer that fits a 64-bit word keeps its value; everything else, and negative
zero, is a double. -/
inductive Number where
  | int (n : Int)
  | float (x : Float)
  deriving Inhabited

/-- A JSON document. -/
inductive Json where
  | null
  | bool (b : Bool)
  | number (n : Number)
  | string (s : String)
  | array (items : List Json)
  | object (fields : List (String × Json))
  deriving Inhabited

/-- Fields of an object. -/
abbrev Fields := List (String × Json)

/-! ### Field lists in key order -/

/-- Puts a value under a key of a list in ascending key order; an entry of that key gives way. -/
def insertKey {α : Type} (key : String) (value : α) : List (String × α) → List (String × α)
  | [] => [(key, value)]
  | (k, v) :: rest =>
    if key < k then (key, value) :: (k, v) :: rest
    else if key = k then (key, value) :: rest
    else (k, v) :: insertKey key value rest

/-- The value under a key, the first one if there are several. -/
def lookup {α : Type} (key : String) : List (String × α) → Option α
  | [] => none
  | (k, v) :: rest => if k = key then some v else lookup key rest

/-- Keys in strictly ascending order. -/
def KeysAscend {α : Type} (fields : List (String × α)) : Prop :=
  fields.Pairwise fun a b => a.1 < b.1

namespace Json

/-- A natural number. -/
def nat (n : Nat) : Json := .number (.int n)

/-- `null`, or the value. -/
def ofOption {α : Type} (f : α → Json) : Option α → Json
  | none => .null
  | some a => f a

/-! ### The canonical form -/

mutual

/-- The document with the keys of every object in ascending order, each once: the last field
with a key wins. -/
def canonical : Json → Json
  | .array items => .array (canonicalItems items)
  | .object fields => .object (canonicalFields [] fields)
  | .null => .null
  | .bool b => .bool b
  | .number n => .number n
  | .string s => .string s

/-- Each item in canonical form. -/
def canonicalItems : List Json → List Json
  | [] => []
  | item :: items => canonical item :: canonicalItems items

/-- Enters the fields into `acc` one after the other. -/
def canonicalFields (acc : Fields) : Fields → Fields
  | [] => acc
  | (key, value) :: fields => canonicalFields (insertKey key (canonical value) acc) fields

end

end Json

/-! ### Equality -/

namespace Number

/-- Numbers are equal if they are of one kind and of one value; the two zeros of a double are
equal. -/
def equal : Number → Number → Bool
  | .int m, .int n => m == n
  | .float x, .float y => x == y
  | _, _ => false

end Number

namespace Json

mutual

/-- Equality of values. -/
def equal : Json → Json → Bool
  | .null, .null => true
  | .bool a, .bool b => a == b
  | .number a, .number b => a.equal b
  | .string a, .string b => a == b
  | .array a, .array b => equalItems a b
  | .object a, .object b => equalFields a b
  | _, _ => false

/-- Equality item by item. -/
def equalItems : List Json → List Json → Bool
  | [], [] => true
  | a :: as, b :: bs => equal a b && equalItems as bs
  | _, _ => false

/-- Equality field by field. -/
def equalFields : Fields → Fields → Bool
  | [], [] => true
  | (k, a) :: as, (l, b) :: bs => k == l && equal a b && equalFields as bs
  | _, _ => false

end

end Json

end EventTaxonomy
