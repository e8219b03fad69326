/-!
# Byte strings

Byte strings are lists of octets. A byte string of one fixed length is a type of its own, so that a
digest, a signature or a serialized outpoint carries its length with it. Numbers are written in a
given number of octets, most significant first; the other byte order is the reverse.
-/

namespace ChatRelay

/-- A string of octets. -/
abbrev Bytes := List UInt8

namespace Bytes

/-- The octets of `x` modulo `256 ^ n`, most significant first, exactly `n` of them. -/
def ofNat : Nat → Nat → Bytes
  | 0, _ => []
  | n + 1, x => ofNat n (x / 256) ++ [UInt8.ofNat (x % 256)]

/-- The octets of `x` modulo `256 ^ n`, least significant first, exactly `n` of them. -/
def ofNatLittle (n x : Nat) : Bytes := (ofNat n x).reverse

/-- The number whose octets are given, most significant first. -/
def toNat (bytes : Bytes) : Nat := bytes.foldl (fun acc b => acc * 256 + b.toNat) 0

/-- The number whose octets are given, least significant first. -/
def toNatLittle (bytes : Bytes) : Nat := toNat bytes.reverse

@[simp] theorem length_ofNat (n x : Nat) : (ofNat n x).length = n := by
  induction n generalizing x with
  | zero => rfl
  | succ n ih => simp [ofNat, ih]

@[simp] theorem length_ofNatLittle (n x : Nat) : (ofNatLittle n x).length = n := by
  simp [ofNatLittle]

/-- The UTF-8 encoding of a text. -/
def ofText (text : String) : Bytes := text.toUTF8.data.toList

/-- The text that the octets encode, if they are well-formed UTF-8. -/
def toText? (bytes : Bytes) : Option String := String.fromUTF8? ⟨bytes.toArray⟩

/-- Octet strings in dictionary order, an extension after its prefix. -/
def precedes : Bytes → Bytes → Bool
  | [], _ => true
  | _ :: _, [] => false
  | a :: as, b :: bs => if a == b then precedes as bs else a < b

end Bytes

/-- A byte string of length `n`. -/
structure FixedBytes (n : Nat) where
  toList : Bytes
  length_toList : toList.length = n
  deriving DecidableEq

namespace FixedBytes

variable {n : Nat}

@[ext] theorem ext {a b : FixedBytes n} (h : a.toList = b.toList) : a = b := by
  cases a; cases b; cases h; rfl

/-- A byte string as one of length `n`, when that is its length. -/
def ofList? (n : Nat) (bytes : Bytes) : Option (FixedBytes n) :=
  if h : bytes.length = n then some ⟨bytes, h⟩ else none

/-- The last `n` octets of a number, most significant first. -/
def ofNat (n x : Nat) : FixedBytes n := ⟨Bytes.ofNat n x, Bytes.length_ofNat n x⟩

/-- The number written by the octets, most significant first. -/
def toNat (bytes : FixedBytes n) : Nat := bytes.toList.toNat

/-- The same octets in the opposite order. -/
def reverse (bytes : FixedBytes n) : FixedBytes n :=
  ⟨bytes.toList.reverse, by simp [bytes.length_toList]⟩

/-- `n` copies of one octet. -/
def replicate (n : Nat) (b : UInt8) : FixedBytes n := ⟨List.replicate n b, by simp⟩

instance : Inhabited (FixedBytes n) := ⟨replicate n 0⟩

instance : Repr (FixedBytes n) := ⟨fun bytes p => reprPrec bytes.toList p⟩

end FixedBytes

end ChatRelay
