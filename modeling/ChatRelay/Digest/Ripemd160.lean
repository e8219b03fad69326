import ChatRelay.Bytes

/-!
# RIPEMD-160

The digest of Dobbertin, Bosselaers and Preneel: each block of sixteen words is mixed along two
lines of five rounds with sixteen steps each, and the two results are added crosswise to the
chaining value.
-/

namespace ChatRelay

namespace Ripemd160

/-- The order in which the left line reads the message words. -/
def leftOrder : List Nat := [
  0, 1, 2, 3, 4, 5, 6, 7, 8, 9, 10, 11, 12, 13, 14, 15,
  7, 4, 13, 1, 10, 6, 15, 3, 12, 0, 9, 5, 2, 14, 11, 8,
  3, 10, 14, 4, 9, 15, 8, 1, 2, 7, 0, 6, 13, 11, 5, 12,
  1, 9, 11, 10, 0, 8, 12, 4, 13, 3, 7, 15, 14, 5, 6, 2,
  4, 0, 5, 9, 7, 12, 2, 10, 14, 1, 3, 8, 11, 6, 15, 13]

/-- The order in which the right line reads the message words. -/
def rightOrder : List Nat := [
  5, 14, 7, 0, 9, 2, 11, 4, 13, 6, 15, 8, 1, 10, 3, 12,
  6, 11, 3, 7, 0, 13, 5, 10, 14, 15, 8, 12, 4, 9, 1, 2,
  15, 5, 1, 3, 7, 14, 6, 9, 11, 8, 12, 2, 10, 0, 4, 13,
  8, 6, 4, 1, 3, 11, 15, 0, 5, 12, 2, 13, 9, 7, 10, 14,
  12, 15, 10, 4, 1, 5, 8, 7, 6, 2, 13, 14, 0, 3, 9, 11]

/-- The rotations of the left line. -/
def leftShifts : List UInt32 := [
  11, 14, 15, 12, 5, 8, 7, 9, 11, 13, 14, 15, 6, 7, 9, 8,
  7, 6, 8, 13, 11, 9, 7, 15, 7, 12, 15, 9, 11, 7, 13, 12,
  11, 13, 6, 7, 14, 9, 13, 15, 14, 8, 13, 6, 5, 12, 7, 5,
  11, 12, 14, 15, 14, 15, 9, 8, 9, 14, 5, 6, 8, 6, 5, 12,
  9, 15, 5, 11, 6, 8, 13, 12, 5, 12, 13, 14, 11, 8, 5, 6]

/-- The rotations of the right line. -/
def rightShifts : List UInt32 := [
  8, 9, 9, 11, 13, 15, 15, 5, 7, 7, 8, 11, 14, 14, 12, 6,
  9, 13, 15, 7, 12, 8, 9, 11, 7, 7, 12, 7, 6, 15, 13, 11,
  9, 7, 15, 11, 8, 6, 6, 14, 12, 13, 5, 14, 13, 13, 7, 5,
  15, 5, 8, 11, 14, 14, 6, 14, 6, 9, 12, 9, 12, 5, 15, 8,
  8, 5, 12, 9, 12, 5, 14, 6, 8, 13, 6, 5, 15, 13, 11, 11]

/-- The additive constants of the left line's five rounds. -/
def leftConstants : List UInt32 := [0x00000000, 0x5a827999, 0x6ed9eba1, 0x8f1bbcdc, 0xa953fd4e]

/-- The additive constants of the right line's five rounds. -/
def rightConstants : List UInt32 := [0x50a28be6, 0x5c4dd124, 0x6d703ef3, 0x7a6d76e9, 0x00000000]

/-- The chaining value: five words. -/
structure Chain where
  a : UInt32
  b : UInt32
  c : UInt32
  d : UInt32
  e : UInt32
  deriving DecidableEq, Repr

/-- The chaining value before the first block. -/
def initial : Chain := ⟨0x67452301, 0xefcdab89, 0x98badcfe, 0x10325476, 0xc3d2e1f0⟩

/-- Rotation to the left. -/
def rotateLeft (x n : UInt32) : UInt32 := (x <<< n) ||| (x >>> (32 - n))

/-- The bitwise function of round `i`; the right line uses them in the opposite order. -/
def mix (i : Nat) (x y z : UInt32) : UInt32 :=
  match i with
  | 0 => x ^^^ y ^^^ z
  | 1 => (x &&& y) ||| ((~~~ x) &&& z)
  | 2 => (x ||| (~~~ y)) ^^^ z
  | 3 => (x &&& z) ||| (y &&& (~~~ z))
  | _ => x ^^^ (y ||| (~~~ z))

/-- One step of a line: the round's function `i`, its constant, the message word and the
rotation. -/
def step (i : Nat) (k w r : UInt32) (s : Chain) : Chain :=
  let t := rotateLeft (s.a + mix i s.b s.c s.d + w + k) r + s.e
  ⟨s.e, t, s.b, rotateLeft s.c 10, s.d⟩

/-- The eighty steps of one line; `pick` gives the function of a round. -/
def line (pick : Nat → Nat) (order : List Nat) (shifts constants : List UInt32)
    (block : List UInt32) (s : Chain) : Chain :=
  ((order.zip shifts).zipIdx).foldl
    (fun s x => step (pick (x.2 / 16)) (constants.getD (x.2 / 16) 0) (block.getD x.1.1 0) x.1.2 s) s

/-- Mixes one block of sixteen words into the chaining value. -/
def compress (s : Chain) (block : List UInt32) : Chain :=
  let l := line id leftOrder leftShifts leftConstants block s
  let r := line (4 - ·) rightOrder rightShifts rightConstants block s
  ⟨s.b + l.c + r.d, s.c + l.d + r.e, s.d + l.e + r.a, s.e + l.a + r.b, s.a + l.b + r.c⟩

/-- Reads words of four octets, least significant first. -/
def words : Bytes → List UInt32
  | a :: b :: c :: d :: rest =>
    (a.toUInt32 ||| (b.toUInt32 <<< 8) ||| (c.toUInt32 <<< 16) ||| (d.toUInt32 <<< 24)) :: words rest
  | _ => []

/-- The octets that follow a message of `length` octets. -/
def padding (length : Nat) : Bytes :=
  0x80 :: List.replicate ((119 - length % 64) % 64) 0 ++ Bytes.ofNatLittle 8 (8 * length)

/-- Mixes the first `n` blocks of `bytes` into the chaining value. -/
def absorb : Nat → Chain → Bytes → Chain
  | 0, s, _ => s
  | n + 1, s, bytes => absorb n (compress s (words (bytes.take 64))) (bytes.drop 64)

/-- A word as four octets, least significant first. -/
def octets (w : UInt32) : Bytes :=
  [w.toUInt8, (w >>> 8).toUInt8, (w >>> 16).toUInt8, (w >>> 24).toUInt8]

/-- The chaining value as octets. -/
def Chain.digest (s : Chain) : FixedBytes 20 :=
  ⟨octets s.a ++ octets s.b ++ octets s.c ++ octets s.d ++ octets s.e, by simp [octets]⟩

end Ripemd160

/-- The RIPEMD-160 digest of a byte string. -/
def ripemd160 (message : Bytes) : FixedBytes 20 :=
  let padded := message ++ Ripemd160.padding message.length
  (Ripemd160.absorb (padded.length / 64) Ripemd160.initial padded).digest

end ChatRelay
