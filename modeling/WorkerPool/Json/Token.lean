/-!
# The tokens of a JSON text

A JSON text is scanned character by character into tokens. A text between quotes is kept as the
`Piece`s it is written in, and a number as its digits, so that nothing is lost that a later stage may
ask for: whether the pieces spell a text, and whether the digits fit a number, is decided there.

`Scanner.push` takes one character and `scan?` all of them.
-/

namespace WorkerPool.Json

/-- One character of a text as it is written between quotes. -/
inductive Piece where
  /-- The character itself. -/
  | plain (char : Char)
  /-- A backslash and one letter; `char` is the character meant. -/
  | short (char : Char)
  /-- A backslash, a `u` and four hexadecimal digits. -/
  | code (unit : Nat)
deriving DecidableEq, Repr

/-- The number of bytes in which a piece is written. -/
def Piece.width : Piece → Nat
  | plain char => char.utf8Size
  | short _ => 2
  | code _ => 6

/-- A number as it is written: sign, digits before the point, digits after it, and the exponent with
its sign. -/
structure Numeral where
  negative : Bool
  whole : List Nat
  fraction : Option (List Nat) := none
  /-- Whether the exponent is negative, and its digits. -/
  exponent : Option (Bool × List Nat) := none
deriving DecidableEq, Repr

/-- A token of a JSON text. -/
inductive Token where
  | openBrace
  | closeBrace
  | openBracket
  | closeBracket
  | colon
  | comma
  | null
  | bool (value : Bool)
  | number (numeral : Numeral)
  | text (pieces : List Piece)
deriving DecidableEq, Repr

/-- The white space between tokens. -/
def isSpace (c : Char) : Bool :=
  c = ' ' || c = '\t' || c = '\n' || c = '\r'

/-- The value of a decimal digit. -/
def digit? (c : Char) : Option Nat :=
  if '0' ≤ c ∧ c ≤ '9' then some (c.toNat - '0'.toNat) else none

/-- The value of a hexadecimal digit. -/
def hexDigit? (c : Char) : Option Nat :=
  if '0' ≤ c ∧ c ≤ '9' then some (c.toNat - '0'.toNat)
  else if 'a' ≤ c ∧ c ≤ 'f' then some (c.toNat - 'a'.toNat + 10)
  else if 'A' ≤ c ∧ c ≤ 'F' then some (c.toNat - 'A'.toNat + 10)
  else none

/-- The digits at the front of some characters. -/
def digitsOf (cs : List Char) : List Nat :=
  (cs.takeWhile fun c => (digit? c).isSome).filterMap digit?

/-- What comes after the digits at the front. -/
def afterDigits (cs : List Char) : List Char :=
  cs.dropWhile fun c => (digit? c).isSome

namespace Numeral

/-- The exponent, which is all that is left. -/
def exponent? : List Char → Option (Option (Bool × List Nat))
  | [] => some none
  | e :: rest =>
    if e = 'e' ∨ e = 'E' then
      let (negative, digits) :=
        match rest with
        | '+' :: digits => (false, digits)
        | '-' :: digits => (true, digits)
        | digits => (false, digits)
      if digitsOf digits = [] ∨ afterDigits digits ≠ [] then none
      else some (some (negative, digitsOf digits))
    else none

/-- The digits after the point, if there is one, and what comes after them. -/
def fraction? : List Char → Option (Option (List Nat) × List Char)
  | '.' :: rest =>
    if digitsOf rest = [] then none else some (some (digitsOf rest), afterDigits rest)
  | rest => some (none, rest)

/-- Digits without a superfluous zero in front. -/
def isPlain : List Nat → Bool
  | [] => false
  | [_] => true
  | first :: _ => first ≠ 0

/-- A number without its sign. -/
def unsigned? (negative : Bool) (cs : List Char) : Option Numeral := do
  if !isPlain (digitsOf cs) then failure
  let (fraction, rest) ← fraction? (afterDigits cs)
  let exponent ← exponent? rest
  return { negative, whole := digitsOf cs, fraction, exponent }

/-- The number that some characters spell. -/
def ofChars? : List Char → Option Numeral
  | '-' :: rest => unsigned? true rest
  | cs => unsigned? false cs

end Numeral

/-- What the scanner is in the middle of; characters and pieces are kept last first. -/
inductive ScanMode where
  | between
  | word (letters : List Char)
  | numeral (chars : List Char)
  | text (pieces : List Piece)
  | escape (pieces : List Piece)
  | hex (pieces : List Piece) (left value : Nat)

namespace ScanMode

/-- The word that letters spell. -/
def word? (letters : List Char) : Option Token :=
  match letters.reverse with
  | ['n', 'u', 'l', 'l'] => some .null
  | ['t', 'r', 'u', 'e'] => some (.bool true)
  | ['f', 'a', 'l', 's', 'e'] => some (.bool false)
  | _ => none

/-- Whether a character goes on with a number. -/
def isNumeralChar (c : Char) : Bool :=
  (digit? c).isSome || c = '-' || c = '+' || c = '.' || c = 'e' || c = 'E'

/-- Take a character between tokens. -/
def begin (c : Char) : Option (List Token × ScanMode) :=
  if isSpace c then some ([], between)
  else if c = '{' then some ([.openBrace], between)
  else if c = '}' then some ([.closeBrace], between)
  else if c = '[' then some ([.openBracket], between)
  else if c = ']' then some ([.closeBracket], between)
  else if c = ':' then some ([.colon], between)
  else if c = ',' then some ([.comma], between)
  else if c = '"' then some ([], text [])
  else if c = '-' ∨ (digit? c).isSome then some ([], numeral [c])
  else if 'a' ≤ c ∧ c ≤ 'z' then some ([], word [c])
  else none

/-- The character that a backslash and a letter stand for. -/
def short? (c : Char) : Option Char :=
  match c with
  | '"' => some '"'
  | '\\' => some '\\'
  | '/' => some '/'
  | 'b' => some '\x08'
  | 'f' => some '\x0c'
  | 'n' => some '\n'
  | 'r' => some '\r'
  | 't' => some '\t'
  | _ => none

/-- Take one character; what comes of it are the tokens that it ends, and the mode after it. -/
def push (mode : ScanMode) (c : Char) : Option (List Token × ScanMode) :=
  match mode with
  | between => begin c
  | word letters =>
    if 'a' ≤ c ∧ c ≤ 'z' then some ([], word (c :: letters))
    else do
      let token ← word? letters
      let (tokens, mode) ← begin c
      return (token :: tokens, mode)
  | numeral chars =>
    if isNumeralChar c then some ([], numeral (c :: chars))
    else do
      let n ← Numeral.ofChars? chars.reverse
      let (tokens, mode) ← begin c
      return (.number n :: tokens, mode)
  | text pieces =>
    if c = '"' then some ([.text pieces.reverse], between)
    else if c = '\\' then some ([], escape pieces)
    else if c.toNat < 0x20 then none
    else some ([], text (.plain c :: pieces))
  | escape pieces =>
    if c = 'u' then some ([], hex pieces 4 0)
    else (short? c).map fun char => ([], text (.short char :: pieces))
  | hex pieces left value => do
    let value := value * 16 + (← hexDigit? c)
    if left ≤ 1 then return ([], text (.code value :: pieces))
    else return ([], hex pieces (left - 1) value)

/-- The tokens that the end of the text ends. -/
def finish? : ScanMode → Option (List Token)
  | between => some []
  | word letters => (word? letters).map ([·])
  | numeral chars => (Numeral.ofChars? chars.reverse).map ([.number ·])
  | _ => none

end ScanMode

/-- What has been scanned so far; tokens are kept last first. -/
structure Scanner where
  mode : ScanMode := .between
  tokens : List Token := []

namespace Scanner

/-- Take one character. -/
def push (s : Scanner) (c : Char) : Option Scanner := do
  let (tokens, mode) ← s.mode.push c
  return { mode, tokens := tokens.reverse ++ s.tokens }

/-- The tokens of everything read. -/
def finish? (s : Scanner) : Option (List Token) := do
  let tokens ← s.mode.finish?
  return s.tokens.reverse ++ tokens

end Scanner

/-- The tokens of a text. -/
def scan? (text : List Char) : Option (List Token) :=
  (text.foldlM Scanner.push {}).bind Scanner.finish?

end WorkerPool.Json
