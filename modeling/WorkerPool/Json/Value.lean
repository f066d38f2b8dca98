import WorkerPool.Json.Token

/-!
# JSON values

`Json` is what a JSON text says, with texts and numbers as they are written and the members of an
object in the order of the text, repeated keys included. `Reader.push` builds a value from tokens, one
by one, on a stack of the arrays and objects that are open; there is no bound on their number, and no
recursion. `Json.ofText?` is a value exactly for the texts of the JSON grammar.
-/

namespace WorkerPool

open WorkerPool.Json in
/-- What a JSON text says. -/
inductive Json where
  | null
  | bool (value : Bool)
  | number (numeral : Numeral)
  | text (pieces : List Piece)
  | array (items : List Json)
  | object (members : List (List Piece × Json))

namespace Json

/-- An array or object that is open while the value inside it is read. What it holds already is kept
last first. -/
inductive Frame where
  | array (items : List Json)
  | member (members : List (List Piece × Json)) (key : List Piece)

/-- What a reader waits for, inside the frames that are open. -/
inductive Reader where
  /-- A value. -/
  | value (frames : List Frame)
  /-- The first item of an array, or its end. -/
  | firstItem (frames : List Frame)
  /-- What follows an item: a comma or the end. -/
  | afterItem (items : List Json) (frames : List Frame)
  /-- The first key of an object, or its end. -/
  | firstKey (frames : List Frame)
  /-- Another key. -/
  | key (members : List (List Piece × Json)) (frames : List Frame)
  /-- The colon after a key. -/
  | colon (members : List (List Piece × Json)) (key : List Piece) (frames : List Frame)
  /-- What follows a member: a comma or the end. -/
  | afterMember (members : List (List Piece × Json)) (frames : List Frame)
  /-- Nothing more. -/
  | done (value : Json)

namespace Reader

/-- Go on after a whole value has been read. -/
def complete (v : Json) : List Frame → Reader
  | [] => done v
  | .array items :: frames => afterItem (v :: items) frames
  | .member members k :: frames => afterMember ((k, v) :: members) frames

/-- Begin a value with a token. -/
def beginValue (frames : List Frame) : Token → Option Reader
  | .null => some (complete .null frames)
  | .bool b => some (complete (.bool b) frames)
  | .number n => some (complete (.number n) frames)
  | .text pieces => some (complete (.text pieces) frames)
  | .openBracket => some (firstItem frames)
  | .openBrace => some (firstKey frames)
  | _ => none

/-- Take one token. -/
def push : Reader → Token → Option Reader
  | value frames, token => beginValue frames token
  | firstItem frames, .closeBracket => some (complete (.array []) frames)
  | firstItem frames, token => beginValue (.array [] :: frames) token
  | afterItem items frames, .comma => some (value (.array items :: frames))
  | afterItem items frames, .closeBracket => some (complete (.array items.reverse) frames)
  | firstKey frames, .closeBrace => some (complete (.object []) frames)
  | firstKey frames, .text k => some (colon [] k frames)
  | key members frames, .text k => some (colon members k frames)
  | colon members k frames, .colon => some (value (.member members k :: frames))
  | afterMember members frames, .comma => some (key members frames)
  | afterMember members frames, .closeBrace => some (complete (.object members.reverse) frames)
  | _, _ => none

/-- The value, once nothing more is waited for. -/
def finish? : Reader → Option Json
  | done v => some v
  | _ => none

end Reader

/-- The value that tokens make up. -/
def ofTokens? (tokens : List Token) : Option Json :=
  (tokens.foldlM Reader.push (.value [])).bind Reader.finish?

/-- The value that a text says, `none` for a text that is not JSON. -/
def ofText? (text : String) : Option Json :=
  (scan? text.toList).bind ofTokens?

end Json

end WorkerPool
