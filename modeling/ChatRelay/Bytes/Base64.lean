import ChatRelay.Bytes

/-!
# Base64

Three octets become four characters of an alphabet of sixty-four; one or two octets at the end are
padded with equality signs.
-/

namespace ChatRelay.Base64

/-- The alphabet. -/
def alphabet : List Char :=
  "ABCDEFGHIJKLMNOPQRSTUVWXYZabcdefghijklmnopqrstuvwxyz0123456789+/".toList

/-- The character for a number below sixty-four. -/
def symbol (n : Nat) : Char := alphabet.getD (n % 64) 'A'

/-- The characters for a byte string. -/
def encodeChars : Bytes → List Char
  | [] => []
  | [a] =>
    let n := a.toNat * 16
    [symbol (n / 64), symbol n, '=', '=']
  | [a, b] =>
    let n := (a.toNat * 256 + b.toNat) * 4
    [symbol (n / 4096), symbol (n / 64), symbol n, '=']
  | a :: b :: c :: rest =>
    let n := (a.toNat * 256 + b.toNat) * 256 + c.toNat
    symbol (n / 262144) :: symbol (n / 4096) :: symbol (n / 64) :: symbol n :: encodeChars rest

/-- The text for a byte string. -/
def encode (bytes : Bytes) : String := String.ofList (encodeChars bytes)

end ChatRelay.Base64
