import ProvideIndex.StringMap
import ProvideIndex.Value.Binary64

/-!
# Data values

The values that a cassette holds: null, truth values, numbers, texts, lists and objects. A whole
number fits 64 bits, with a sign or without.
-/

namespace ProvideIndex

/-- A whole number of 64 bits, with a sign or without: from `-2 ^ 63` up to `2 ^ 64`. -/
abbrev Whole := { n : Int // -9223372036854775808 ≤ n ∧ n < 18446744073709551616 }

inductive Number where
  | whole (n : Whole)
  | float (x : Binary64)
  deriving DecidableEq, Repr

inductive Value where
  | null
  | bool (b : Bool)
  | number (n : Number)
  | string (text : String)
  | list (items : List Value)
  | object (fields : List (String × Value))
  deriving Repr

namespace Value

/-- The whole number, if it is in range. -/
def whole? (n : Int) : Option Value :=
  if h : -9223372036854775808 ≤ n ∧ n < 18446744073709551616 then
    some (.number (.whole ⟨n, h⟩))
  else none

def ofUInt64 (n : UInt64) : Value :=
  .number (.whole ⟨n.toNat, by have := n.toNat_lt; omega⟩)

def ofInt32 (n : Int32) : Value :=
  .number (.whole ⟨n.toInt, by have := n.le_toInt; have := n.toInt_lt; omega⟩)

/-- An object of the fields; of two fields with one name the later counts. -/
def ofFields (fields : List (String × Value)) : Value :=
  .object (fields.foldl (fun all (name, value) => StringMap.put name value all) [])

/-- A field of an object. -/
def field? (value : Value) (name : String) : Option Value :=
  match value with
  | .object fields => StringMap.find? name fields
  | _ => none

def string? : Value → Option String
  | .string text => some text
  | _ => none

def bool? : Value → Option Bool
  | .bool b => some b
  | _ => none

/-- The whole number, if it fits 64 bits with a sign. -/
def signed? : Value → Option Int
  | .number (.whole n) => if n.val < 9223372036854775808 then some n.val else none
  | _ => none

end Value

end ProvideIndex
