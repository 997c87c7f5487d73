import RestTables.Number.Shortest

/-
Module: RestTables.Json.Basic
Purpose: JSON values. Whole numbers stay exact; an object is its list of members, which `Json.Object.insert`
  keeps in the order of their keys.
Main exports: Json, Json.Number, Json.Object, Object.insert, Object.get?
-/

namespace RestTables

/-- A JSON number: a whole number that was written as one, or a double. -/
inductive Json.Number where
  | int (n : Int)
  | float (x : Binary64)
deriving Repr, DecidableEq

/-- A JSON value. -/
inductive Json where
  | null
  | bool (b : Bool)
  | num (n : Json.Number)
  | str (s : String)
  | arr (items : List Json)
  | obj (members : List (String × Json))
deriving Repr, Inhabited

namespace Json

mutual

/-- Equality of values can be decided. -/
def decEq : (a b : Json) → Decidable (a = b)
  | .null, .null => isTrue rfl
  | .bool a, .bool b => if h : a = b then isTrue (by rw [h]) else isFalse (by simp [h])
  | .num a, .num b => if h : a = b then isTrue (by rw [h]) else isFalse (by simp [h])
  | .str a, .str b => if h : a = b then isTrue (by rw [h]) else isFalse (by simp [h])
  | .arr a, .arr b =>
    match decEqList a b with
    | isTrue h => isTrue (by rw [h])
    | isFalse h => isFalse (by simp [h])
  | .obj a, .obj b =>
    match decEqMembers a b with
    | isTrue h => isTrue (by rw [h])
    | isFalse h => isFalse (by simp [h])
  | .null, .bool _ | .null, .num _ | .null, .str _ | .null, .arr _ | .null, .obj _ => isFalse (by simp)
  | .bool _, .null | .bool _, .num _ | .bool _, .str _ | .bool _, .arr _ | .bool _, .obj _ => isFalse (by simp)
  | .num _, .null | .num _, .bool _ | .num _, .str _ | .num _, .arr _ | .num _, .obj _ => isFalse (by simp)
  | .str _, .null | .str _, .bool _ | .str _, .num _ | .str _, .arr _ | .str _, .obj _ => isFalse (by simp)
  | .arr _, .null | .arr _, .bool _ | .arr _, .num _ | .arr _, .str _ | .arr _, .obj _ => isFalse (by simp)
  | .obj _, .null | .obj _, .bool _ | .obj _, .num _ | .obj _, .str _ | .obj _, .arr _ => isFalse (by simp)

/-- Equality of lists of values can be decided. -/
def decEqList : (a b : List Json) → Decidable (a = b)
  | [], [] => isTrue rfl
  | [], _ :: _ => isFalse (by simp)
  | _ :: _, [] => isFalse (by simp)
  | x :: a, y :: b =>
    match decEq x y, decEqList a b with
    | isTrue h, isTrue k => isTrue (by rw [h, k])
    | isFalse h, _ => isFalse (by simp [h])
    | _, isFalse k => isFalse (by simp [k])

/-- Equality of lists of members can be decided. -/
def decEqMembers : (a b : List (String × Json)) → Decidable (a = b)
  | [], [] => isTrue rfl
  | [], _ :: _ => isFalse (by simp)
  | _ :: _, [] => isFalse (by simp)
  | (k, x) :: a, (l, y) :: b =>
    match decEq x y, decEqMembers a b with
    | isTrue h, isTrue m =>
      if e : k = l then isTrue (by rw [h, m, e]) else isFalse (by simp [e])
    | isFalse h, _ => isFalse (by simp [h])
    | _, isFalse m => isFalse (by simp [m])

end

instance : DecidableEq Json := decEq

/-- The value is null. -/
def isNull : Json → Bool
  | .null => true
  | _ => false

/-- The text of a string value. -/
def text? : Json → Option String
  | .str s => some s
  | _ => none

/-- The items of an array. -/
def items? : Json → Option (List Json)
  | .arr items => some items
  | _ => none

/-- A whole number. -/
def int (n : Int) : Json := .num (.int n)

/-- A natural number. -/
def nat (n : Nat) : Json := .num (.int n)

/-- A double; JSON has no infinities, so they become null. -/
def float (x : Binary64) : Json := if x.isFinite then .num (.float x) else .null

/-- A list of strings. -/
def strings (ss : List String) : Json := .arr (ss.map .str)

/-- Null stands for nothing. -/
def ofOption (f : α → Json) : Option α → Json
  | some a => f a
  | none => .null

/-- The number as a signed integer of 64 bits, where it is one. -/
def Number.int64? : Number → Option Int64
  | .int n => if -(twoTo 63) ≤ n ∧ n < twoTo 63 then some (Int64.ofInt n) else none
  | .float _ => none

/-- The number as a double. -/
def Number.toBinary64 : Number → Binary64
  | .int n => Binary64.ofInt n
  | .float x => x

/-! ## Objects -/

/-- The members of an object. -/
abbrev Object := List (String × Json)

namespace Object

/-- The keys go up strictly. -/
def Sorted (o : Object) : Prop := o.Pairwise fun a b => a.1 < b.1

/-- The value of a key. -/
def get? (o : Object) (key : String) : Option Json := o.lookup key

/-- Sets the value of a key, in the key's place. -/
def insert (key : String) (value : Json) : Object → Object
  | [] => [(key, value)]
  | (k, v) :: rest =>
    if key < k then (key, value) :: (k, v) :: rest
    else if key = k then (key, value) :: rest
    else (k, v) :: insert key value rest

/-- The members in the order of their keys, the last of each key. -/
def ofMembers (members : List (String × Json)) : Object := members.foldl (fun o m => o.insert m.1 m.2) []

/-- The keys in order. -/
def keys (o : Object) : List String := o.map (·.1)

end Object

mutual

/-- Every object in the value has its members in the order of their keys. -/
def sorted : Json → Json
  | .arr items => .arr (sortedList items)
  | .obj members => .obj (sortedMembers members)
  | v => v

/-- All of a list sorted. -/
def sortedList : List Json → List Json
  | [] => []
  | v :: rest => sorted v :: sortedList rest

/-- Members in order, the last of each key. -/
def sortedMembers : List (String × Json) → Object
  | [] => []
  | (k, v) :: rest =>
    let rest := sortedMembers rest
    if rest.get? k = none then rest.insert k (sorted v) else rest

end

end Json

end RestTables
