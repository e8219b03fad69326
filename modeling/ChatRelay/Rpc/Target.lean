import ChatRelay.Bytes.Hex

/-!
# Request targets

What follows the authority of a URL becomes the target of a request: dot segments are resolved, a
fragment is dropped, and characters that may not stand there are written as percent signs with two
upper-case digits.
-/

namespace ChatRelay.Rpc.Target

/-- Whether an octet is written as it is, where the given characters may not stand. -/
def isPlain (reserved : List Char) (octet : UInt8) : Bool :=
  32 < octet.toNat && octet.toNat < 127 && !reserved.any fun c => c.toNat = octet.toNat

/-- An octet as a percent sign and two digits. -/
def percent (octet : UInt8) : List Char :=
  let digit (n : Nat) : Char := "0123456789ABCDEF".toList.getD n '0'
  ['%', digit (octet.toNat / 16), digit (octet.toNat % 16)]

/-- Characters with those replaced that may not stand among them. -/
def encode (reserved text : List Char) : List Char :=
  (Bytes.ofText (String.ofList text)).flatMap fun octet =>
    if isPlain reserved octet then [Char.ofNat octet.toNat] else percent octet

/-- What may not stand in a path. -/
def pathReserved : List Char := ['"', '#', '<', '>', '?', Char.ofNat 96, '\x7b', '\x7d']

/-- What may not stand in a query. -/
def queryReserved : List Char := ['"', '#', '<', '>', '\'']

/-- A text cut at slashes and backslashes; `segment` is the current segment, newest character
first. -/
def segments (segment : List Char) : List Char → List (List Char)
  | [] => [segment.reverse]
  | c :: rest =>
    if c = '/' ∨ c = '\\' then segment.reverse :: segments [] rest else segments (c :: segment) rest

/-- A segment with every escaped dot as a dot, if it holds nothing else. -/
def dots (segment : List Char) : Nat :=
  match (String.ofList (segment.map Char.toLower)).replace "%2e" "." with
  | "." => 1
  | ".." => 2
  | _ => 0

/-- Resolves dot segments; `kept` holds the segments before, newest first. A dot segment at the end
leaves an empty segment. -/
def resolve (kept : List (List Char)) : List (List Char) → List (List Char)
  | [] => kept.reverse
  | segment :: rest =>
    let kept :=
      match dots segment with
      | 1 => kept
      | 2 => kept.drop 1
      | _ => segment :: kept
    if rest.isEmpty ∧ dots segment ≠ 0 then ([] :: kept).reverse else resolve kept rest

/-- The target for what follows the authority of a URL. Nothing if it would change the authority. -/
def ofSuffix? (suffix : String) : Option String :=
  let text := suffix.toList.filter fun c => c ≠ '\t' ∧ c ≠ '\n' ∧ c ≠ '\r'
  let text := (text.reverse.dropWhile fun c => c.toNat ≤ 32).reverse
  let text := text.takeWhile (· ≠ '#')
  let path := text.takeWhile (· ≠ '?')
  let query :=
    match text.dropWhile (· ≠ '?') with
    | '?' :: query => '?' :: encode queryReserved query
    | _ => []
  match path with
  | [] => some (String.ofList ('/' :: query))
  | c :: rest =>
    if c = '/' ∨ c = '\\' then
      let resolved := (resolve [] (segments [] rest)).flatMap fun s => '/' :: encode pathReserved s
      some (String.ofList (resolved ++ query))
    else none

end ChatRelay.Rpc.Target
