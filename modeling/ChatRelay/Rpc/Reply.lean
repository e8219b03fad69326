import ChatRelay.Json.Reader
import ChatRelay.Ledger
import ChatRelay.Rpc.Status

/-!
# Replies

A reply to a remote call is an HTTP status and a body. The body is read before the status is looked
at, because errors are reported with both. A response has an optional result and an optional error,
each given at most once; it may be written as an object, with other fields beside them, or as an
array of the two.
-/

namespace ChatRelay.Rpc

/-- A reply. -/
structure Reply where
  status : Nat
  body : String
  deriving DecidableEq, Repr

/-- The error that a response reports. -/
structure Fault where
  code : Int
  message : String
  deriving DecidableEq, Repr

/-- A response: an absent part is none, and so is null. -/
structure Response where
  result : Option Json
  error : Option Fault
  deriving Repr

/-- The value of a named field: nothing inside if it is absent. Refused if the field is given twice
or some field's name is no text. -/
def member? (name : String) (fields : List (Option String × Json.Tree)) :
    Option (Option Json.Tree) :=
  if fields.all (·.1.isSome) then
    match fields.filter fun field => field.1 == some name with
    | [] => some none
    | [(_, value)] => some (some value)
    | _ => none
  else none

/-- The two members of a record: an object's fields, or the items of an array of two. -/
def pair? (first second : String) : Json.Tree → Option (Option Json.Tree × Option Json.Tree)
  | .array [a, b] => some (some a, some b)
  | .object fields =>
    match member? first fields, member? second fields with
    | some a, some b => some (a, b)
    | _, _ => none
  | _ => none

/-- Reads an error's code: an integer of 64 bits that is written as one. -/
def code? : Json.Tree → Option Int
  | .number n =>
    match n.value? with
    | some (.natural n) => if n < 0x8000000000000000 then some n else none
    | some (.negative n) => some (-(n : Int) - 1)
    | _ => none
  | _ => none

/-- Reads an error. Both of its parts must be there. -/
def Fault.ofTree? (tree : Json.Tree) : Option Fault := do
  let (code, message) ← pair? "code" "message" tree
  match message with
  | some (.string (some message)) => return ⟨← code? (← code), message⟩
  | _ => none

/-- How deep the parts of a response may be nested. -/
def depth : Nat := 127

/-- Reads a part that may be absent or null. -/
def optional? {α : Type} (read : Json.Tree → Option α) : Option Json.Tree → Option (Option α)
  | none => some none
  | some .null => some none
  | some tree => (read tree).map some

/-- Reads a response. -/
def Response.ofTree? (tree : Json.Tree) : Option Response := do
  let (result, error) ← pair? "result" "error" tree
  return ⟨← optional? (Json.Tree.value? depth) result, ← optional? Fault.ofTree? error⟩

/-- Reads the body of a reply. A byte-order mark before it is skipped. -/
def Response.read? (body : String) : Option Response :=
  let body :=
    match body.toList with
    | '\ufeff' :: rest => String.ofList rest
    | _ => body
  (Json.readTree body).bind Response.ofTree?

/-- What is read of a reply: nothing if its status says that it has no body. -/
def Reply.text (reply : Reply) : String :=
  if reply.status = 204 ∨ reply.status = 304 then "" else reply.body

/-- What a call comes to: the result, null if there is none, unless no reply came, its body is no
response, or it reports an error. -/
def outcome (method : String) : Option Reply → Except LedgerError Json
  | none => .error (.transport method)
  | some reply =>
    match Response.read? reply.text with
    | none =>
      .error (.transport (method ++ ": HTTP " ++ statusText reply.status ++ " with non-JSON body"))
    | some response =>
      match response.error with
      | some fault => .error (.rpc fault.code fault.message)
      | none => .ok (response.result.getD .null)

end ChatRelay.Rpc
