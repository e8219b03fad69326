import ChatRelay.Curve.Key
import ChatRelay.Digest

/-!
# ECDSA

Signatures are two scalars of 32 octets each. The nonce is derived from key and digest by a keyed
hash (RFC 6979), so that signing is a function. Of the two scalars that verify, the lower is made
and only the lower is accepted.
-/

namespace ChatRelay.Ecdsa

/-- The state of the nonce generator: chaining key and value. -/
structure Generator where
  key : Bytes
  value : Bytes

namespace Generator

/-- Mixes `data` under a separating octet into the state. -/
def absorb (g : Generator) (separator : UInt8) (data : Bytes) : Generator :=
  let key := (hmacSha256 g.key (g.value ++ separator :: data)).toList
  ⟨key, (hmacSha256 key g.value).toList⟩

/-- The generator seeded by the secret scalar and the digest. -/
def seed (secret digest : Bytes) : Generator :=
  let start : Generator := ⟨List.replicate 32 0, List.replicate 32 1⟩
  (start.absorb 0 (secret ++ digest)).absorb 1 (secret ++ digest)

/-- The next candidate and the state behind it. -/
def next (g : Generator) : Bytes × Generator :=
  let value := (hmacSha256 g.key g.value).toList
  (value, { g with value })

/-- The state after a refused candidate. -/
def refuse (g : Generator) : Generator := g.absorb 0 []

end Generator

/-- The signature with a given nonce, unless one of its scalars is zero. -/
def signWith? (secret : SecretKey) (digest nonce : Nat) : Option (Nat × Nat) :=
  match Curve.smulGenerator? nonce with
  | none => none
  | some point =>
    let r := point.x % Curve.order
    let s := Curve.inverseMod Curve.order nonce * ((digest + r * secret.scalar) % Curve.order)
      % Curve.order
    if r = 0 ∨ s = 0 then none
    else some (r, if Curve.order / 2 < s then Curve.order - s else s)

/-- The signature by the first usable one of at most `attempts` candidates. -/
def search (secret : SecretKey) (digest : Nat) : Nat → Generator → Option (Nat × Nat)
  | 0, _ => none
  | attempts + 1, g =>
    let (candidate, g) := g.next
    let nonce := candidate.toNat
    let found :=
      if 0 < nonce ∧ nonce < Curve.order then signWith? secret digest nonce else none
    match found with
    | some signature => some signature
    | none => search secret digest attempts g.refuse

/-- The scalars of the signature of a digest. A candidate is refused with probability below
`2 ^ -127`, so that the bound on attempts is not met. -/
def scalars? (secret : SecretKey) (digest : FixedBytes 32) : Option (Nat × Nat) :=
  search secret digest.toNat 16 (Generator.seed secret.toBytes digest.toList)

/-- The two scalars one behind the other. -/
def encode (scalars : Nat × Nat) : FixedBytes 64 :=
  ⟨Bytes.ofNat 32 scalars.1 ++ Bytes.ofNat 32 scalars.2, by simp⟩

/-- The signature of a digest. -/
def sign (secret : SecretKey) (digest : FixedBytes 32) : FixedBytes 64 :=
  encode ((scalars? secret digest).getD (0, 0))

/-- Whether a signature of a digest is one by the key's owner. -/
def verify (key : PublicKey) (digest : FixedBytes 32) (signature : FixedBytes 64) : Bool :=
  let r := Bytes.toNat (signature.toList.take 32)
  let s := Bytes.toNat (signature.toList.drop 32)
  if r = 0 ∨ s = 0 ∨ Curve.order ≤ r ∨ Curve.order / 2 < s then false
  else
    let w := Curve.inverseMod Curve.order s
    let u := digest.toNat % Curve.order * w % Curve.order
    let v := r * w % Curve.order
    let sum :=
      (Curve.Triple.smul u (.ofPoint Curve.generator)).add (Curve.Triple.smul v (.ofPoint key))
    match sum.toPoint? with
    | none => false
    | some point => point.x % Curve.order == r

end ChatRelay.Ecdsa
