import ChatRelay.Bytes

/-!
# The curve secp256k1

Points of y² = x³ + 7 over the prime field of order `fieldOrder`; the generator spans a group of
prime order `order`. Sums are computed on projective triples (x / z², y / z³), which need no
inversion until the end. Scalars are consumed bit by bit, the most significant one first.
-/

namespace ChatRelay.Curve

/-- The order of the coordinate field. -/
def fieldOrder : Nat := 0xfffffffffffffffffffffffffffffffffffffffffffffffffffffffefffffc2f

/-- The order of the group that the generator spans. -/
def order : Nat := 0xfffffffffffffffffffffffffffffffebaaedce6af48a03bbfd25e8cd0364141

/-- The `n` low bits of a number, the most significant one first. -/
def bits : Nat → Nat → List Bool
  | 0, _ => []
  | n + 1, x => x.testBit n :: bits n x

/-- `x ^ e` modulo `m`, for an exponent below `2 ^ 256`. -/
def powMod (m x e : Nat) : Nat :=
  (bits 256 e).foldl
    (fun acc bit =>
      let acc := acc * acc % m
      if bit then acc * x % m else acc)
    1

/-- The inverse of `x` modulo the prime `m`, as a power. -/
def inverseMod (m x : Nat) : Nat := powMod m x (m - 2)

/-- The difference modulo `m` of numbers below `m`. -/
def subMod (m a b : Nat) : Nat := (a + (m - b)) % m

/-- The right-hand side of the curve's equation. -/
def cubic (x : Nat) : Nat := (x * x % fieldOrder * x + 7) % fieldOrder

/-- A point other than the neutral one. -/
structure Point where
  x : Nat
  y : Nat
  x_lt : x < fieldOrder
  y_lt : y < fieldOrder
  onCurve : y * y % fieldOrder = cubic x
  deriving DecidableEq, Repr

/-- The point with the given coordinates, if there is one. -/
def Point.ofCoordinates? (x y : Nat) : Option Point :=
  if h : x < fieldOrder ∧ y < fieldOrder ∧ y * y % fieldOrder = cubic x then
    some ⟨x, y, h.1, h.2.1, h.2.2⟩
  else none

/-- The generator. -/
def generator : Point where
  x := 0x79be667ef9dcbbac55a06295ce870b07029bfcdb2dce28d959f2815b16f81798
  y := 0x483ada7726a3c4655da4fbfc0e1108a8fd17b448a68554199c47d08ffb10d4b8
  x_lt := by decide
  y_lt := by decide
  onCurve := by decide

instance : Inhabited Point := ⟨generator⟩

/-- The point with abscissa `x` whose ordinate is odd or even as asked. The ordinate is a power of
its square, as the field's order leaves remainder three when divided by four. -/
def Point.lift? (x : Nat) (odd : Bool) : Option Point :=
  let root := powMod fieldOrder (cubic x) ((fieldOrder + 1) / 4)
  let y := if (root % 2 == 1) == odd then root else fieldOrder - root
  ofCoordinates? x y

/-- A point in projective form; `z = 0` is the neutral point. -/
structure Triple where
  x : Nat
  y : Nat
  z : Nat
  deriving Repr

namespace Triple

/-- The neutral point. -/
def neutral : Triple := ⟨1, 1, 0⟩

/-- A point in projective form. -/
def ofPoint (p : Point) : Triple := ⟨p.x, p.y, 1⟩

/-- Twice a point. -/
def double (p : Triple) : Triple :=
  let m := fieldOrder
  let yy := p.y * p.y % m
  let s := 4 * (p.x * yy) % m
  let t := 3 * (p.x * p.x) % m
  let x := subMod m (t * t % m) (2 * s % m)
  let y := subMod m (t * subMod m s x % m) (8 * (yy * yy) % m)
  ⟨x, y, 2 * (p.y * p.z) % m⟩

/-- The sum of two points. -/
def add (p q : Triple) : Triple :=
  let m := fieldOrder
  if p.z = 0 then q
  else if q.z = 0 then p
  else
    let pz := p.z * p.z % m
    let qz := q.z * q.z % m
    let u := p.x * qz % m
    let v := q.x * pz % m
    let s := p.y * (qz * q.z % m) % m
    let t := q.y * (pz * p.z % m) % m
    if u = v then
      if s = t then p.double else neutral
    else
      let h := subMod m v u
      let r := subMod m t s
      let hh := h * h % m
      let hhh := h * hh % m
      let w := u * hh % m
      let x := subMod m (subMod m (r * r % m) hhh) (2 * w % m)
      let y := subMod m (r * subMod m w x % m) (s * hhh % m)
      ⟨x, y, p.z * q.z % m * h % m⟩

/-- `k` times a point, for a scalar below `2 ^ 256`. -/
def smul (k : Nat) (p : Triple) : Triple :=
  (bits 256 k).foldl
    (fun acc bit =>
      let acc := acc.double
      if bit then acc.add p else acc)
    neutral

/-- The point's coordinates; nothing for the neutral point. -/
def toPoint? (p : Triple) : Option Point :=
  if p.z = 0 then none
  else
    let i := inverseMod fieldOrder p.z
    let ii := i * i % fieldOrder
    Point.ofCoordinates? (p.x * ii % fieldOrder) (p.y * (ii * i % fieldOrder) % fieldOrder)

end Triple

/-- `k` times the generator; nothing for the neutral point. -/
def smulGenerator? (k : Nat) : Option Point := (Triple.smul k (.ofPoint generator)).toPoint?

end ChatRelay.Curve
