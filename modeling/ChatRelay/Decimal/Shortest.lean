/-!
# Shortest decimals of binary fractions

A finite double stands for all reals that round to it. Among the decimals in that interval the one
on the coarsest decimal grid is chosen, and of two neighbours on that grid the nearer one. All
comparisons are between naturals.
-/

namespace ChatRelay.Decimal

/-- A positive decimal: `digits` times ten to the power `exponent`. -/
structure Scaled where
  digits : Nat
  exponent : Int
  deriving DecidableEq, Repr

/-- A finite double's magnitude: `significand` times two to the power `exponent`, and whether the
doubles below it lie half as far away as those above. -/
structure Magnitude where
  significand : Nat
  exponent : Int
  narrowBelow : Bool
  deriving DecidableEq, Repr

/-- The magnitude of the finite double with the given bits. -/
def Magnitude.ofBits (bits : UInt64) : Magnitude :=
  let low : Nat := bits.toNat % 0x8000000000000000
  let biased : Nat := low / 0x10000000000000
  let fraction : Nat := low % 0x10000000000000
  if biased = 0 then ⟨fraction, -1074, false⟩
  else ⟨fraction + 0x10000000000000, (biased : Int) - 1075, fraction = 0 ∧ 1 < biased⟩

/-- The point nearest to `value` on the grid of multiples of ten to the power `exponent`, if it
rounds to `value`. In units of a quarter of the last binary place the interval reaches two up and
two down, or one down where the doubles below are denser; its ends belong to it when the significand
is even. -/
def gridPoint? (value : Magnitude) (exponent : Int) : Option Scaled :=
  let binary := value.exponent - 2
  let grid := Nat.pow 10 exponent.toNat * Nat.pow 2 (-binary).toNat
  let unit := Nat.pow 2 binary.toNat * Nat.pow 10 (-exponent).toNat
  let centre := 4 * value.significand * unit
  let low := centre - (if value.narrowBelow then unit else 2 * unit)
  let high := centre + 2 * unit
  let holds (n : Nat) : Bool :=
    if value.significand % 2 = 0 then low ≤ n ∧ n ≤ high else low < n ∧ n < high
  let below := centre / grid
  let above := below + 1
  let below? := 0 < below ∧ holds (below * grid)
  let above? := holds (above * grid)
  if below? ∧ (¬ above? ∨ centre - below * grid ≤ above * grid - centre) then
    some ⟨below, exponent⟩
  else if above? then some ⟨above, exponent⟩
  else none

/-- The first point found on the grids from ten to the power `exponent` downwards. -/
def search (value : Magnitude) : Nat → Int → Option Scaled
  | 0, _ => none
  | n + 1, exponent =>
    match gridPoint? value exponent with
    | some decimal => some decimal
    | none => search value n (exponent - 1)

/-- The shortest decimal of a positive double: grids from `10 ^ 309` down to `10 ^ -330` suffice. -/
def shortest (value : Magnitude) : Scaled := (search value 640 309).getD ⟨0, 0⟩

end ChatRelay.Decimal
