import BeamSearch.Lib.Double
import BeamSearch.Lib.KeyedList

/-
  JSON values.

  An object is a map from keys to values; the order of its
  entries says nothing.

  Main declarations:
    * `Json`
    * `Fields`, `insert`, `remove`
    * `insertAll`, `lookup_insertAll`
-/

/-
  A value of the library that the source parses with. An
  integer and a double are told apart, as there.
-/
inductive Json where
  | null
  | bool (value : Bool)
  | integer (value : Int)
  | double (value : Text.Double)
  | string (value : String)
  | array (items : List Json)
  | object (fields : List (String × Json))

namespace Json

open KeyedList

----------------
-- Equality
----------------

mutual

/- Whether two values are the same, field by field. -/
def same : Json → Json → Bool
  | .null, .null => true
  | .bool a, .bool b => a == b
  | .integer a, .integer b => a == b
  | .double a, .double b => decide (a = b)
  | .string a, .string b => a == b
  | .array a, .array b => sameItems a b
  | .object a, .object b => sameFields a b
  | _, _ => false

/- The same, item by item. -/
def sameItems : List Json → List Json → Bool
  | [], [] => true
  | a :: as, b :: bs => same a b && sameItems as bs
  | _, _ => false

/- The same, with the keys in the same order. -/
def sameFields :
    List (String × Json) → List (String × Json) → Bool
  | [], [] => true
  | (k, a) :: as, (l, b) :: bs =>
      k == l && same a b && sameFields as bs
  | _, _ => false

end

mutual

/-
  The test decides equality. The three theorems recurse with
  the values.
-/
theorem same_iff : (a b : Json) → (same a b = true ↔ a = b)
  | .null, b => by cases b <;> simp [same]
  | .bool a, b => by cases b <;> simp [same]
  | .integer a, b => by cases b <;> simp [same]
  | .double a, b => by cases b <;> simp [same]
  | .string a, b => by cases b <;> simp [same]
  | .array a, b => by cases b <;> simp [same, sameItems_iff a]
  | .object a, b => by
      cases b <;> simp [same, sameFields_iff a]

/- The same of the items. -/
theorem sameItems_iff :
    (a b : List Json) → (sameItems a b = true ↔ a = b)
  | [], b => by cases b <;> simp [sameItems]
  | a :: as, b => by
      cases b <;> simp [sameItems, same_iff a, sameItems_iff as]

/- The same of the fields. -/
theorem sameFields_iff :
    (a b : List (String × Json)) →
      (sameFields a b = true ↔ a = b)
  | [], b => by cases b <;> simp [sameFields]
  | (k, a) :: as, b => by
      cases b <;>
        simp [sameFields, same_iff a, sameFields_iff as,
          Prod.ext_iff]

end

instance : DecidableEq Json := fun a b =>
  decidable_of_iff _ (same_iff a b)

----------------
-- Objects
----------------

/- The fields of an object, in the order they are kept. -/
abbrev Fields : Type :=
  List (String × Json)

/- A field that is there keeps its place; else it comes last. -/
def insert (key : String) (value : Json) (fields : Fields) :
    Fields :=
  put key value fields

/- The fields without the key. -/
def remove (key : String) (fields : Fields) : Fields :=
  drop key fields

/- Every entry of `overlay` in its order. -/
def insertAll (overlay fields : Fields) : Fields :=
  overlay.foldl
    (fun fields field => insert field.1 field.2 fields) fields

/- What a key of an object holds; a missing one holds null. -/
def index (key : String) : Json → Json
  | .object fields => (fields.lookup key).getD .null
  | _ => .null

/- Only an object has fields. -/
def asFields : Json → Option Fields
  | .object fields => some fields
  | _ => none

/- Only an array has items. -/
def asArray : Json → Option (List Json)
  | .array items => some items
  | _ => none

/- An integer below zero is no unsigned number. -/
def asU64 : Json → Option Nat
  | .integer (.ofNat n) => some n
  | _ => none

/- Only a string is read as text. -/
def asStr : Json → Option String
  | .string value => some value
  | _ => none

/- What was inserted is what is read. -/
theorem lookup_insert_self
    (key : String)
    (value : Json)
    (fields : Fields) :
    (insert key value fields).lookup key = some value :=
  lookup_put_self key value fields

/- An insert touches no other key. -/
theorem lookup_insert_of_ne
    {key other : String}
    (hNe : other ≠ key)
    (value : Json)
    (fields : Fields) :
    (insert key value fields).lookup other =
      fields.lookup other :=
  lookup_put_of_ne hNe value fields

/- An insert leaves no key twice. -/
theorem nodup_insert
    (key : String)
    (value : Json)
    {fields : Fields}
    (hNodup : (fields.map Prod.fst).Nodup) :
    ((insert key value fields).map Prod.fst).Nodup :=
  nodup_put key value hNodup

/- The overlay wins where it has the key. -/
theorem lookup_insertAll
    {overlay : Fields}
    (hNodup : (overlay.map Prod.fst).Nodup)
    (fields : Fields)
    (key : String) :
    (insertAll overlay fields).lookup key =
      (overlay.lookup key).or (fields.lookup key) := by
  induction overlay generalizing fields with
  | nil => rfl
  | cons field overlay ih =>
      rw [List.map_cons, List.nodup_cons] at hNodup
      rw [insertAll, List.foldl_cons]
      change
        (insertAll overlay (insert field.1 field.2 fields)).lookup
            key =
          _
      rw [ih hNodup.2]
      by_cases hKey : key = field.1
      · subst hKey
        rw [lookup_eq_none_of_not_mem hNodup.1, Option.none_or,
          lookup_insert_self, List.lookup_cons_self,
          Option.some_or]
      · rw [lookup_insert_of_ne hKey, lookup_cons_of_ne hKey]

end Json
