import ChatRelay.Bytes

/-!
# Locking scripts

A locking script states what spends an output. Two forms bind an output to one key: the hash of a
key, and a Taproot output key. Every other script is unsupported.
-/

namespace ChatRelay

/-- How a locking script binds an output to one key. -/
inductive ScriptKind where
  /-- Duplicate, hash, compare with this hash, check a signature. -/
  | keyHash (hash : FixedBytes 20)
  /-- A Taproot output key. It need not be the abscissa of a point. -/
  | taproot (key : FixedBytes 32)
  | unsupported
  deriving DecidableEq, Repr

namespace ScriptKind

/-- The script that pays to the hash of a key. -/
def keyHashScript (hash : FixedBytes 20) : Bytes :=
  [0x76, 0xa9, 0x14] ++ hash.toList ++ [0x88, 0xac]

/-- The script that pays to a Taproot output key. -/
def taprootScript (key : FixedBytes 32) : Bytes := [0x51, 0x20] ++ key.toList

/-- The form of a script. -/
def classify (script : Bytes) : ScriptKind :=
  if script.length = 25 ∧ script.take 3 = [0x76, 0xa9, 0x14] ∧ script.drop 23 = [0x88, 0xac] then
    match FixedBytes.ofList? 20 ((script.drop 3).take 20) with
    | some hash => .keyHash hash
    | none => .unsupported
  else if script.length = 34 ∧ script.take 2 = [0x51, 0x20] then
    match FixedBytes.ofList? 32 (script.drop 2) with
    | some key => .taproot key
    | none => .unsupported
  else .unsupported

/-- The short name of a form. -/
def name : ScriptKind → String
  | .keyHash _ => "p2pkh"
  | .taproot _ => "p2tr"
  | .unsupported => "unsupported"

/-- The hash or key that a script holds. -/
def data? : ScriptKind → Option Bytes
  | .keyHash hash => some hash.toList
  | .taproot key => some key.toList
  | .unsupported => none

end ScriptKind

end ChatRelay
