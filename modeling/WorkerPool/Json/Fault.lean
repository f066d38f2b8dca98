import WorkerPool.Json.Number
import WorkerPool.Json.Text
import WorkerPool.Json.Value

/-!
# What is wrong with a document

A `Fault` is the first problem that a reader of a JSON document meets, and the `Spot` where it met it:
a path into the document, and the edge of what the path leads to. `Fault.detail` is the text of the
problem.
-/

namespace WorkerPool.Json

/-- A value as messages describe it. -/
inductive Found where
  | null
  | bool (value : Bool)
  | integer (value : Int)
  | real (value : Float)
  | text (value : String)
  | sequence
  | map

/-- The description of a value. -/
def Found.describe : Found → String
  | null => "null"
  | bool value => "boolean `" ++ toString value ++ "`"
  | integer value => "integer `" ++ toString value ++ "`"
  | real value => "floating point `" ++ messageLayout.writeFloat value ++ "`"
  | text value => "string " ++ WorkerPool.Text.quote value
  | sequence => "sequence"
  | map => "map"

/-- What a problem consists of. -/
inductive Problem where
  /-- The text is not JSON. -/
  | malformed
  | invalidType (found : Found) (expected : String)
  | invalidValue (found : Found) (expected : String)
  | numberOutOfRange
  | duplicateField (name : String)
  | missingField (name : String)
  | unknownField (name : String) (fields : List String)
  | unknownVariant (name : String) (variants : List String)
  | invalidLength (length : Nat) (expected : String)
  /-- There are more items than fields. -/
  | trailing
  /-- Neither the name of a variant nor an object with one. -/
  | expectedValue
  | unfinishedSurrogate
  | loneSurrogate
  /-- A problem with a text of its own. -/
  | other (message : String)

/-- Names between backquotes, as a choice. -/
def oneOf (names : List String) : String :=
  let quoted := names.map fun name => "`" ++ name ++ "`"
  match quoted with
  | [a, b] => a ++ " or " ++ b
  | _ => "one of " ++ ", ".intercalate quoted

/-- The text of a problem. -/
def Problem.detail : Problem → String
  | malformed => "malformed JSON"
  | invalidType found expected => "invalid type: " ++ found.describe ++ ", expected " ++ expected
  | invalidValue found expected => "invalid value: " ++ found.describe ++ ", expected " ++ expected
  | numberOutOfRange => "number out of range"
  | duplicateField name => "duplicate field `" ++ name ++ "`"
  | missingField name => "missing field `" ++ name ++ "`"
  | unknownField name fields => "unknown field `" ++ name ++ "`, expected " ++ oneOf fields
  | unknownVariant name variants => "unknown variant `" ++ name ++ "`, expected " ++ oneOf variants
  | invalidLength length expected => "invalid length " ++ toString length ++ ", expected " ++ expected
  | trailing => "trailing characters"
  | expectedValue => "expected value"
  | unfinishedSurrogate => "unexpected end of hex escape"
  | loneSurrogate => "lone leading surrogate in hex escape"
  | other message => message

/-- Where, around what a path leads to, a problem was met. -/
inductive Edge where
  /-- Before the value. -/
  | before
  /-- After the first character of the value. -/
  | first
  /-- After the value. -/
  | after
  /-- That many bytes before the end of the value. -/
  | shortOfEnd (bytes : Nat)
  /-- Before the token that follows the value. -/
  | following
  /-- After that many bytes of the text between the quotes. -/
  | inText (bytes : Nat)
  /-- After the key of the member. -/
  | afterKey
  /-- Before the colon that follows the key of the member. -/
  | colon
  /-- After that many bytes of the key of the member. -/
  | inKey (bytes : Nat)
deriving DecidableEq, Repr

/-- A place in a document: the number of the member or item to go to, at each level, and the edge. -/
structure Spot where
  path : List Nat := []
  edge : Edge
deriving DecidableEq, Repr

/-- The first problem that a reader of a document meets. -/
structure Fault where
  problem : Problem
  spot : Spot

namespace Fault

/-- The text of a fault. -/
def detail (fault : Fault) : String :=
  fault.problem.detail

/-- A problem at an edge of the value being read. -/
def here (problem : Problem) (edge : Edge) : Fault :=
  { problem, spot := { edge } }

/-- A problem with the member or item of that number, seen from what holds it. -/
def within (index : Nat) (fault : Fault) : Fault :=
  { fault with spot := { fault.spot with path := index :: fault.spot.path } }

/-- A number that no floating-point number is near. -/
def outOfRange (n : Numeral) : Fault :=
  here .numberOutOfRange (.shortOfEnd n.unread)

/-- A text that its pieces do not spell. -/
def ofText (edge : Nat → Edge) : TextFault → Fault
  | .unfinished bytes => here .unfinishedSurrogate (edge bytes)
  | .lone bytes => here .loneSurrogate (edge bytes)

end Fault

end WorkerPool.Json
