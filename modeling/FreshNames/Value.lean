import FreshNames.Text.CodeTable

/-!
# Loosely typed values

What a caller may hand over where an alphabet is wanted: nothing, truth values, numbers, texts, and
lists and records of values.

* `Binary64` - a number in binary floating point;
* `Value.items?` - what a value gives when it is gone through, if it can be;
* `Value.isHashable` - lists and records cannot be kept in a set;
* `Value.same` - equality across types: a truth value equals the number zero or one, and a number in
  floating point equals the whole number of its value.
-/

set_option autoImplicit false

namespace FreshNames

/-! ## Numbers in floating point -/

/-- A number in binary floating point with sixty-four bits: `m * 2 ^ e`, where the mantissa has at
    most fifty-three binary digits, or an infinity.  The same number may be given in several ways.
    That which is no number is left out; it is not even equal to itself. -/
inductive Binary64
  | finite (mantissa exponent : Int)
      (fits : mantissa.natAbs < Nat.pow 2 53 ∧ -1074 ≤ exponent ∧ exponent ≤ 971)
  | infinity (isNegative : Bool)
  deriving DecidableEq

/-- What a number of any type amounts to: exactly `m * 2 ^ e`, or an infinity. -/
inductive Amount
  | finite (mantissa exponent : Int)
  | infinite (isNegative : Bool)
  deriving DecidableEq

/-- Do two numbers amount to the same?  Finite ones are brought to the smaller exponent. -/
def Amount.same : Amount → Amount → Bool
  | finite m d, finite n e =>
    m * Int.pow 2 (d - min d e).toNat == n * Int.pow 2 (e - min d e).toNat
  | infinite r, infinite s => r == s
  | _, _ => false

/-- What a number in floating point amounts to. -/
def Binary64.amount : Binary64 → Amount
  | finite m e _ => .finite m e
  | infinity isNegative => .infinite isNegative

/-! ## Values -/

/-- A value of any type. -/
inductive Value
  | null
  | bool (b : Bool)
  | int (n : Int)
  | float (x : Binary64)
  | text (t : Text)
  | list (items : List Value)
  | record (fields : List (Text × Value))
  deriving Inhabited

namespace Value

/-- The name of the type of a value. -/
def typeName : Value → String
  | null => "NoneType"
  | bool _ => "bool"
  | int _ => "int"
  | float _ => "float"
  | text _ => "str"
  | list _ => "list"
  | record _ => "dict"

/-- What a value gives when it is gone through: a text its characters, a list its items, a record
    its keys. -/
def items? : Value → Option (List Value)
  | text t => some (t.map fun c => text [c])
  | list vs => some vs
  | record fields => some (fields.map fun f => text f.1)
  | _ => none

/-- Can the value be kept in a set? -/
def isHashable : Value → Bool
  | list _ => false
  | record _ => false
  | _ => true

/-- What the value amounts to, if it is a number. -/
def amount? : Value → Option Amount
  | bool b => some (.finite (if b then 1 else 0) 0)
  | int n => some (.finite n 0)
  | float x => some x.amount
  | _ => none

/-- Equality of values that can be kept in a set. -/
def same (v w : Value) : Bool :=
  match v, w with
  | null, null => true
  | text s, text t => s == t
  | v, w =>
    match v.amount?, w.amount? with
    | some a, some b => a.same b
    | _, _ => false

end Value

end FreshNames
