import ChatRelay.Curve

/-!
# Keys

A secret key is a scalar between zero and the group's order, a public key a point. A public key is
written compressed (the parity of its ordinate and its abscissa), in full, or as its abscissa alone;
the last form stands for the point with an even ordinate.
-/

namespace ChatRelay

/-- A scalar that is not zero modulo the group's order. -/
structure SecretKey where
  scalar : Nat
  pos : 0 < scalar
  lt : scalar < Curve.order
  deriving DecidableEq, Repr

/-- A point, as a key. -/
abbrev PublicKey := Curve.Point

/-- A point with an even ordinate, known by its abscissa. -/
structure XOnlyKey where
  point : Curve.Point
  even : point.y % 2 = 0
  deriving DecidableEq, Repr

namespace PublicKey

/-- The compressed form: 2 or 3 for an even or odd ordinate, then the abscissa. -/
def compressed (key : PublicKey) : Bytes :=
  (if key.y % 2 = 0 then 2 else 3) :: Bytes.ofNat 32 key.x

/-- The full form: 4 and both coordinates. -/
def uncompressed (key : PublicKey) : Bytes := 4 :: Bytes.ofNat 32 key.x ++ Bytes.ofNat 32 key.y

/-- Reads a key of 33 octets (compressed) or 65 (full, where 6 and 7 also state the ordinate's
parity). -/
def ofBytes? (bytes : Bytes) : Option PublicKey :=
  match bytes with
  | [] => none
  | form :: coordinates =>
    let x := Bytes.toNat (coordinates.take 32)
    if coordinates.length = 32 then
      if form = 2 ∨ form = 3 then Curve.Point.lift? x (form = 3) else none
    else if coordinates.length = 64 then
      let y := Bytes.toNat (coordinates.drop 32)
      if form = 4 ∨ (form = 6 ∧ y % 2 = 0) ∨ (form = 7 ∧ y % 2 = 1) then
        Curve.Point.ofCoordinates? x y
      else none
    else none

end PublicKey

namespace XOnlyKey

/-- The abscissa in 32 octets. -/
def toBytes (key : XOnlyKey) : Bytes := Bytes.ofNat 32 key.point.x

/-- The key with a given abscissa. -/
def ofNat? (x : Nat) : Option XOnlyKey :=
  match Curve.Point.lift? x false with
  | none => none
  | some point => if even : point.y % 2 = 0 then some ⟨point, even⟩ else none

/-- Reads a key of 32 octets. -/
def ofBytes? (bytes : Bytes) : Option XOnlyKey :=
  if bytes.length = 32 then ofNat? bytes.toNat else none

end XOnlyKey

namespace SecretKey

/-- The key with a given scalar. -/
def ofNat? (scalar : Nat) : Option SecretKey :=
  if h : 0 < scalar ∧ scalar < Curve.order then some ⟨scalar, h.1, h.2⟩ else none

/-- Reads a secret key of 32 octets. -/
def ofBytes? (bytes : Bytes) : Option SecretKey :=
  if bytes.length = 32 then ofNat? bytes.toNat else none

/-- The scalar in 32 octets. -/
def toBytes (secret : SecretKey) : Bytes := Bytes.ofNat 32 secret.scalar

/-- The multiple of the generator by the secret scalar. As that is no multiple of the group's order,
the product is a point and the default is not reached. -/
def publicKey (secret : SecretKey) : PublicKey :=
  (Curve.smulGenerator? secret.scalar).getD default

/-- The scalar whose point has the public key's abscissa and an even ordinate. -/
def evenScalar (secret : SecretKey) : Nat :=
  if secret.publicKey.y % 2 = 0 then secret.scalar else Curve.order - secret.scalar

/-- The public key known by its abscissa. -/
def xOnlyKey (secret : SecretKey) : XOnlyKey :=
  (XOnlyKey.ofNat? secret.publicKey.x).getD ⟨Curve.generator, by decide⟩

end SecretKey

end ChatRelay
