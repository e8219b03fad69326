/-!
# TOML values

A document is a table. The entries of a table have different keys and stand in the order in which
the keys first occur.
-/

namespace ChatRelay

/-- A value of a document. A number with a fraction or an exponent, a date and a time keep their
written form. -/
inductive Toml where
  | string (text : String)
  | integer (n : Int)
  | float (text : String)
  | boolean (b : Bool)
  | moment (text : String)
  | array (items : List Toml)
  | table (entries : List (String × Toml))
  deriving Repr, Inhabited

namespace Toml

/-- The least and the greatest integer of a document. -/
def integerBounds : Int × Int := (-0x8000000000000000, 0x7fffffffffffffff)

/-- The text that a value is. -/
def text? : Toml → Option String
  | .string text => some text
  | _ => none

/-- The 64-bit natural number that a value is. -/
def nat64? : Toml → Option UInt64
  | .integer n => if 0 ≤ n ∧ n < UInt64.size then some (UInt64.ofNat n.toNat) else none
  | _ => none

/-- The truth value that a value is. -/
def boolean? : Toml → Option Bool
  | .boolean b => some b
  | _ => none

/-- The texts that a value lists. -/
def texts? : Toml → Option (List String)
  | .array items => items.mapM text?
  | _ => none

end Toml

end ChatRelay
