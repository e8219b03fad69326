import ChatRelay.Bytes.Hex
import ChatRelay.Numeral

/-!
# Outpoints

An outpoint names a transaction output: the transaction's identifier and the output's index. Its
serialized form is the identifier and the index, least significant octet first. In text the
identifier is shown with its octets in the opposite order, followed by a colon and the decimal
index.
-/

namespace ChatRelay

/-- A reference to one output of one transaction. -/
structure Outpoint where
  /-- The transaction's identifier in the order in which it is serialized. -/
  txid : FixedBytes 32
  index : UInt32
  deriving DecidableEq, Repr, Inhabited

namespace Outpoint

/-- The length of a serialized outpoint. -/
def serializedLength : Nat := 36

/-- The serialized form: identifier, then index with its least significant octet first. -/
def toBytes (outpoint : Outpoint) : Bytes :=
  outpoint.txid.toList ++ Bytes.ofNatLittle 4 outpoint.index.toNat

@[simp] theorem length_toBytes (outpoint : Outpoint) :
    outpoint.toBytes.length = serializedLength := by
  simp [toBytes, outpoint.txid.length_toList, serializedLength]

/-- Reads a serialized outpoint: every byte string of the right length is one. -/
def ofBytes? (bytes : Bytes) : Option Outpoint :=
  if bytes.length = serializedLength then
    (FixedBytes.ofList? 32 (bytes.take 32)).map fun txid =>
      ⟨txid, UInt32.ofNat (Bytes.toNatLittle (bytes.drop 32))⟩
  else none

/-- The identifier as it is shown. -/
def displayTxid (outpoint : Outpoint) : String := Hex.encode outpoint.txid.reverse.toList

/-- The text of an outpoint. -/
def display (outpoint : Outpoint) : String :=
  outpoint.displayTxid ++ ":" ++ toString outpoint.index.toNat

/-- The text by which an outpoint appears inside other values. -/
def describe (outpoint : Outpoint) : String := "Outpoint(" ++ outpoint.display ++ ")"

/-- The outpoint with an identifier given as it is shown. -/
def ofDisplayTxid (txid : String) (index : UInt32) : Except Hex.Error Outpoint :=
  (Hex.decodeFixed 32 txid).map fun shown => ⟨shown.reverse, index⟩

/-- Why a text names no outpoint. -/
inductive ParseError where
  | missingSeparator
  | txid (cause : Hex.Error)
  | index (cause : Numeral.Error)
  deriving DecidableEq, Repr

/-- The report of a fault. -/
def ParseError.message : ParseError → String
  | .missingSeparator => "expected <txid>:<vout>"
  | .txid cause => "invalid txid: " ++ cause.message
  | .index cause => "invalid output index: " ++ cause.message

/-- What stands before and after the last `separator`. -/
def splitAtLast (separator : Char) : List Char → Option (List Char × List Char)
  | [] => none
  | c :: rest =>
    match splitAtLast separator rest with
    | some (before, behind) => some (c :: before, behind)
    | none => if c = separator then some ([], rest) else none

/-- Reads the text of an outpoint. The index is judged before the identifier. -/
def parse (text : String) : Except ParseError Outpoint :=
  match splitAtLast ':' text.toList with
  | none => .error .missingSeparator
  | some (txid, index) =>
    match Numeral.read (UInt32.size - 1) index with
    | .error cause => .error (.index cause)
    | .ok index => (ofDisplayTxid (String.ofList txid) (UInt32.ofNat index)).mapError .txid

/-- Outpoints by their serialized forms in dictionary order. -/
def sort (outpoints : List Outpoint) : List Outpoint :=
  let keyed := outpoints.map fun outpoint => (outpoint.toBytes, outpoint)
  (keyed.mergeSort fun a b => a.1.precedes b.1).map (·.2)

/-- The number of different outpoints in a list in which equal ones are neighbours. -/
def countDistinct : List Outpoint → Nat
  | [] => 0
  | [_] => 1
  | a :: b :: rest => countDistinct (b :: rest) + if a = b then 0 else 1

end Outpoint

end ChatRelay
