import ChatRelay.Curve.Key
import ChatRelay.Digest

/-!
# Schnorr signatures

Signatures of BIP-340: the abscissa of the nonce's point and a scalar. The auxiliary randomness is
zero throughout, so that signing is a function.
-/

namespace ChatRelay.Schnorr

/-- The scalar that binds a nonce, a key and a digest. -/
def challenge (nonceX : Bytes) (key : XOnlyKey) (digest : FixedBytes 32) : Nat :=
  (taggedHash (Bytes.ofText "BIP0340/challenge") (nonceX ++ key.toBytes ++ digest.toList)).toNat
    % Curve.order

/-- The nonce for a secret scalar and a digest, before its sign is chosen. -/
def nonce (scalar : Nat) (key : XOnlyKey) (digest : FixedBytes 32) : Nat :=
  let mask := taggedHash (Bytes.ofText "BIP0340/aux") (List.replicate 32 0)
  let masked := (Bytes.ofNat 32 scalar).zipWith (· ^^^ ·) mask.toList
  (taggedHash (Bytes.ofText "BIP0340/nonce") (masked ++ key.toBytes ++ digest.toList)).toNat
    % Curve.order

/-- The signature of a digest. A nonce of zero has negligible probability and gives zeros. -/
def sign (secret : SecretKey) (digest : FixedBytes 32) : FixedBytes 64 :=
  let scalar := secret.evenScalar
  let key := secret.xOnlyKey
  let drawn := nonce scalar key digest
  match Curve.smulGenerator? drawn with
  | none => FixedBytes.replicate 64 0
  | some point =>
    let k := if point.y % 2 = 0 then drawn else Curve.order - drawn
    let e := challenge (Bytes.ofNat 32 point.x) key digest
    ⟨Bytes.ofNat 32 point.x ++ Bytes.ofNat 32 ((k + e * scalar) % Curve.order), by simp⟩

/-- Whether a signature of a digest is one by the key's owner. -/
def verify (key : XOnlyKey) (digest : FixedBytes 32) (signature : FixedBytes 64) : Bool :=
  let r := signature.toList.take 32
  let s := Bytes.toNat (signature.toList.drop 32)
  if Curve.fieldOrder ≤ Bytes.toNat r ∨ Curve.order ≤ s then false
  else
    let e := challenge r key digest
    let sum :=
      (Curve.Triple.smul s (.ofPoint Curve.generator)).add
        (Curve.Triple.smul (Curve.order - e) (.ofPoint key.point))
    match sum.toPoint? with
    | none => false
    | some point => point.y % 2 == 0 && point.x == Bytes.toNat r

end ChatRelay.Schnorr
