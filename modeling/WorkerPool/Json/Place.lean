import WorkerPool.Json.Fault

/-!
# Places in a text

A `Spot` in a document is found again in the text of the document: the tokens are scanned once more
with the bytes at which they start and stop, the path is followed from token to token, and the byte of
the edge is counted out in lines and columns.
-/

namespace WorkerPool.Json

/-- A token and the bytes at which it starts and stops. -/
structure PlacedToken where
  token : Token
  start : Nat
  stop : Nat

/-- What the placing scanner has come to; tokens are kept last first. -/
structure Placing where
  mode : ScanMode := .between
  tokens : List PlacedToken := []
  /-- The bytes read. -/
  offset : Nat := 0
  /-- Where the token began that the scanner is in the middle of. -/
  start : Nat := 0

namespace Placing

/-- Whether a mode is the middle of a token. -/
def inToken : ScanMode → Bool
  | .between => false
  | _ => true

/-- Whether a mode is the middle of a token that ends before the character that ends it. -/
def endsBefore : ScanMode → Bool
  | .word _ | .numeral _ => true
  | _ => false

/-- Take one character. The first of the tokens that it ends is the one the scanner was in the middle
of, if it was; any other token is the character itself. -/
def push (p : Placing) (c : Char) : Option Placing := do
  let (tokens, mode) ← p.mode.push c
  let after := p.offset + c.utf8Size
  let place (index : Nat) (token : Token) : PlacedToken :=
    if index = 0 && inToken p.mode then
      { token, start := p.start, stop := if endsBefore p.mode then p.offset else after }
    else { token, start := p.offset, stop := after }
  return {
    mode
    tokens := (tokens.mapIdx place).reverse ++ p.tokens
    offset := after
    start := if inToken p.mode && tokens.isEmpty then p.start else p.offset }

/-- The tokens of everything read. -/
def finish? (p : Placing) : Option (List PlacedToken) := do
  let tokens ← p.mode.finish?
  return p.tokens.reverse ++ tokens.map ({ token := ·, start := p.start, stop := p.offset })

end Placing

/-- The tokens of a text with their places. -/
def place? (text : String) : Option (List PlacedToken) :=
  (text.toList.foldlM Placing.push {}).bind Placing.finish?

/-- Split tokens after the first value; `depth` is the number of arrays and objects that are open. -/
def splitValue : (depth : Nat) → List PlacedToken → List PlacedToken × List PlacedToken
  | _, [] => ([], [])
  | depth, t :: rest =>
    let depth :=
      match t.token with
      | .openBrace | .openBracket => depth + 1
      | .closeBrace | .closeBracket => depth - 1
      | _ => depth
    if depth = 0 then ([t], rest)
    else
      let (value, rest) := splitValue depth rest
      (t :: value, rest)

/-- The tokens from an item or the key of a member on, `index` items or members further. -/
def skipElements : (index : Nat) → List PlacedToken → List PlacedToken
  | 0, tokens => tokens
  | index + 1, tokens =>
    let (first, rest) := splitValue 0 tokens
    match rest with
    | { token := .colon, .. } :: value => skipElements index ((splitValue 0 value).2.drop 1)
    | _ => if first.isEmpty then [] else skipElements index (rest.drop 1)

/-- The tokens from the value of an element on: past the key of a member. -/
def elementValue (tokens : List PlacedToken) : List PlacedToken :=
  match tokens with
  | _ :: { token := .colon, .. } :: value => value
  | _ => tokens

/-- The tokens from what a path leads to on, beginning at the key of a member. -/
def follow : (path : List Nat) → List PlacedToken → List PlacedToken
  | [], tokens => tokens
  | index :: path, tokens => follow path (skipElements index ((elementValue tokens).drop 1))

/-- The byte of an edge of the element at which tokens begin. -/
def edgeOffset (tokens : List PlacedToken) (edge : Edge) : Nat :=
  let value := elementValue tokens
  let startOf (ts : List PlacedToken) : Nat := (ts.head?.map (·.start)).getD 0
  let endOf (ts : List PlacedToken) : Nat := ((splitValue 0 ts).1.getLast?.map (·.stop)).getD 0
  match edge with
  | .before => startOf value
  | .first => startOf value + 1
  | .after => endOf value
  | .shortOfEnd bytes => endOf value - bytes
  | .following => startOf (splitValue 0 value).2
  | .inText bytes => startOf value + 1 + bytes
  | .afterKey => (tokens.head?.map (·.stop)).getD 0
  | .colon => startOf (tokens.drop 1)
  | .inKey bytes => startOf tokens + 1 + bytes

/-- The line and the column of a byte, the first line being 1; the column counts bytes. -/
def lineColumn (text : String) (offset : Nat) : Nat × Nat :=
  let read := text.toUTF8.toList.take offset
  let lines := read.countP (· == 10)
  (lines + 1, (read.reverse.takeWhile (· != 10)).length)

/-- The line and the column of a spot in a text. -/
def locate (text : String) (spot : Spot) : Nat × Nat :=
  lineColumn text (edgeOffset (follow spot.path ((place? text).getD [])) spot.edge)

/-- The text of a fault in a document, with its place unless the whole is malformed. -/
def Fault.message (fault : Fault) (text : String) : String :=
  match fault.problem with
  | .malformed => fault.detail
  | _ =>
    let (line, column) := locate text fault.spot
    fault.detail ++ " at line " ++ toString line ++ " column " ++ toString column

end WorkerPool.Json
