import WorkerPool.Json.Fault

/-!
# Reading values of known types

A `Decoder α` reads a JSON value as an `α` or meets a fault. Words, truth values, texts, variants and
optional values are read here, and records by a list of their `Field`s: from an object, whose members
may come in any order, or from an array of the fields in the order of the list.
-/

namespace WorkerPool.Json

/-- Reads a JSON value as something else. -/
abbrev Decoder (α : Type) := Json → Except Fault α

namespace Decoder

/-- The fault of a value that is of the wrong type. -/
def mismatch (expected : String) : Json → Fault
  | .null => .here (.invalidType .null expected) .after
  | .bool b => .here (.invalidType (.bool b) expected) .after
  | .number n =>
    match n.value with
    | .natural v => .here (.invalidType (.integer v) expected) .after
    | .negative v => .here (.invalidType (.integer (-v)) expected) .after
    | .real x => .here (.invalidType (.real x) expected) .after
    | .outOfRange => .outOfRange n
  | .text pieces =>
    match decode pieces with
    | .ok content => .here (.invalidType (.text content) expected) .after
    | .error fault => .ofText .inText fault
  | .array _ => .here (.invalidType .sequence expected) .before
  | .object _ => .here (.invalidType .map expected) .before

/-- Read a natural number below a bound, which the type `expected` holds. -/
def natural (bound : Nat) (expected : String) : Decoder Nat
  | .number n =>
    match n.value with
    | .natural v =>
      if v < bound then .ok v else .error (.here (.invalidValue (.integer v) expected) .after)
    | .negative v => .error (.here (.invalidValue (.integer (-v)) expected) .after)
    | .real x => .error (.here (.invalidType (.real x) expected) .after)
    | .outOfRange => .error (.outOfRange n)
  | other => .error (mismatch expected other)

/-- Read a 64-bit word, which messages call `expected`. -/
def word64 (expected : String) : Decoder UInt64 := fun j =>
  (natural UInt64.size expected j).map (·.toUInt64)

/-- Read a 32-bit word, which messages call `expected`. -/
def word32 (expected : String) : Decoder UInt32 := fun j =>
  (natural UInt32.size expected j).map (·.toUInt32)

/-- Read a number as floating point. -/
def float : Decoder Float
  | .number n =>
    match n.value with
    | .natural v => .ok v.toUInt64.toFloat
    | .negative v => .ok (-v.toUInt64.toFloat)
    | .real x => .ok x
    | .outOfRange => .error (.outOfRange n)
  | other => .error (mismatch "f64" other)

/-- Read a truth value. -/
def bool : Decoder Bool
  | .bool b => .ok b
  | other => .error (mismatch "a boolean" other)

/-- Read a text. -/
def text : Decoder String
  | .text pieces => (decode pieces).mapError (Fault.ofText .inText)
  | other => .error (mismatch "a string" other)

/-- Read a value that may be null. -/
def optional {α : Type} (decoder : Decoder α) : Decoder (Option α)
  | .null => .ok none
  | other => (decoder other).map some

/-- The variant of a name. -/
def variantOf {α : Type} (variants : List (String × α)) (edge : Edge) (name : String) :
    Except Fault α :=
  match variants.lookup name with
  | some value => .ok value
  | none => .error (.here (.unknownVariant name (variants.map (·.1))) edge)

/-- Read one of several variants: its name, or an object in which its name is the only key and the
value is null. -/
def variant {α : Type} (variants : List (String × α)) : Decoder α
  | .text pieces => do
    variantOf variants .after (← (decode pieces).mapError (Fault.ofText .inText))
  | .object ((key, value) :: rest) => do
    let name ← (decode key).mapError fun fault => (Fault.ofText .inKey fault).within 0
    let found ← (variantOf variants .afterKey name).mapError (Fault.within 0)
    match value, rest with
    | .null, [] => return found
    | .null, _ :: _ => throw (.within 0 (.here .expectedValue .following))
    | other, _ => throw ((mismatch "unit" other).within 0)
  | .object [] => .error (.within 0 (.here .expectedValue .first))
  | _ => .error (.here .expectedValue .first)

end Decoder

/-- A field of a record: its name, and how its value changes the record. -/
structure Field (α : Type) where
  name : String
  read : Json → α → Except Fault α

/-- The field of a name that sets a part of a record to what a decoder reads. -/
def Field.of {α β : Type} (name : String) (decoder : Decoder β) (set : α → β → α) : Field α where
  name := name
  read j record := (decoder j).map (set record)

/-- A record that is read from a document. -/
structure RecordShape (α : Type) where
  /-- What messages call the record. -/
  expected : String
  fields : List (Field α)
  /-- Whether a key that names no field is passed over. -/
  skipsUnknown : Bool := true
  /-- What is wrong with a record whose fields are each as they should be. -/
  flaw? : α → Option Problem := fun _ => none

namespace RecordShape

variable {α : Type} (shape : RecordShape α)

/-- Read the members of an object from the one with that number on; `seen` are the fields that were
read before. The value is the record and the fields that were read. -/
def readMembers : (index : Nat) → (seen : List String) → List (List Piece × Json) → α →
    Except Fault (α × List String)
  | _, seen, [], record => .ok (record, seen)
  | index, seen, (key, value) :: rest, record => do
    let name ← (decode key).mapError fun fault => (Fault.ofText .inKey fault).within index
    match shape.fields.find? (·.name == name) with
    | none =>
      if shape.skipsUnknown then readMembers (index + 1) seen rest record
      else
        throw (.within index
          (.here (.unknownField name (shape.fields.map (·.name))) .afterKey))
    | some field =>
      if seen.contains name then
        throw (.within index (.here (.duplicateField name) .colon))
      else
        let record ← (field.read value record).mapError (Fault.within index)
        readMembers (index + 1) (name :: seen) rest record

/-- Read the items of an array, the first of which has that number, as the given fields, as far as
there are both items and fields. The value is the record and the number of items read. -/
def readItems : (index : Nat) → List (Field α) → List Json → α → Except Fault (α × Nat)
  | index, _, [], record => .ok (record, index)
  | index, [], _, record => .ok (record, index)
  | index, field :: fields, value :: rest, record => do
    let record ← (field.read value record).mapError (Fault.within index)
    readItems (index + 1) fields rest record

/-- A record all whose fields were read, unless something is wrong with it as a whole. -/
def checked (record : α) : Except Fault α :=
  match shape.flaw? record with
  | some problem => .error (.here problem .after)
  | none => .ok record

/-- Refuse an array with more items than there are fields. -/
def refuseMore (items : List Json) : Except Fault Unit :=
  if shape.fields.length < items.length then
    .error (.within shape.fields.length (.here .trailing .first))
  else .ok ()

/-- Read a record, where fields that are missing keep what they have. -/
def readOver (record : α) : Decoder α
  | .object members => do shape.checked (← shape.readMembers 0 [] members record).1
  | .array items => do
    let record ← shape.checked (← readItems 0 shape.fields items record).1
    shape.refuseMore items
    return record
  | other => .error (Decoder.mismatch shape.expected other)

/-- Read a record of which no field may be missing; `lengthText` is what messages expect of an array.
What `record` holds is replaced. -/
def readWhole (lengthText : String) (record : α) : Decoder α
  | .object members => do
    let (record, seen) ← shape.readMembers 0 [] members record
    match shape.fields.find? fun field => !seen.contains field.name with
    | some field => throw (.here (.missingField field.name) .after)
    | none => shape.checked record
  | .array items => do
    let (record, count) ← readItems 0 shape.fields items record
    if count < shape.fields.length then
      throw (.here (.invalidLength count lengthText) .after)
    else
      let record ← shape.checked record
      shape.refuseMore items
      return record
  | other => .error (Decoder.mismatch shape.expected other)

end RecordShape

/-- Read a text as a document. -/
def readDocument {α : Type} (decoder : Decoder α) (text : String) : Except Fault α :=
  match Json.ofText? text with
  | some j => decoder j
  | none => .error (.here .malformed .before)

end WorkerPool.Json
