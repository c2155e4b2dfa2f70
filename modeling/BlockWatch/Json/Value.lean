import BlockWatch.Number.Decimal

/-!
# Structured values

The values that configuration, genesis and key files hold. Whole numbers are exact as long as they
fit a signed or an unsigned 64-bit word; all other numbers are binary floating point. The members
of an object are kept in the order of their keys, which `insert` maintains.
-/

namespace BlockWatch.Json

/-- A whole number that fits a signed or an unsigned 64-bit word. -/
structure Integer where
  value : Int
  inRange : -9223372036854775808 ≤ value ∧ value < 18446744073709551616
deriving DecidableEq

/-- The whole number, if a 64-bit word holds it. -/
def Integer.ofInt? (n : Int) : Option Integer :=
  if h : -9223372036854775808 ≤ n ∧ n < 18446744073709551616 then some ⟨n, h⟩ else none

def Integer.ofWord (n : UInt64) : Integer :=
  ⟨n.toNat, by have := n.toNat_lt; omega⟩

/-- A value. -/
inductive Value
  | null
  | boolean (flag : Bool)
  | integer (n : Integer)
  | float (x : Binary64)
  | string (text : String)
  | array (items : List Value)
  | object (members : List (String × Value))

instance : Inhabited Value := ⟨.null⟩

/-- The members of an object. -/
abbrev Members : Type := List (String × Value)

namespace Members

/-- The value of a key. -/
def find? (key : String) : Members → Option Value
  | [] => none
  | (name, value) :: rest => if name = key then some value else find? key rest

/-- Replaces the value of a key, or puts the new member before the first greater key. -/
def insert (key : String) (value : Value) : Members → Members
  | [] => [(key, value)]
  | (name, old) :: rest =>
    if name = key then (key, value) :: rest
    else if key < name then (key, value) :: (name, old) :: rest
    else (name, old) :: insert key value rest

end Members

def Value.ofWord (n : UInt64) : Value := .integer (.ofWord n)

def Value.ofPort (n : UInt16) : Value :=
  .integer ⟨n.toNat, by have := n.toNat_lt; omega⟩

end BlockWatch.Json
