import WorkerPool.Json.Value

/-!
# The grammar of JSON

Which characters write which value is said here from the side of the value, without reading anything:
`Json.tokens` are the tokens of a value, `Token.WrittenAs` are the ways of writing a token, and between
tokens there may be white space. `Json.SaidBy` puts the three together. A value can be written in many
ways, because white space, escapes and signs of exponents are left to whoever writes.
-/

namespace WorkerPool

open Json

namespace Json

/-! ## Texts -/

/-- The hexadecimal digits, in small letters. -/
def smallHexDigits : List Char :=
  ['0', '1', '2', '3', '4', '5', '6', '7', '8', '9', 'a', 'b', 'c', 'd', 'e', 'f']

/-- The hexadecimal digits, in capital letters. -/
def capitalHexDigits : List Char :=
  ['0', '1', '2', '3', '4', '5', '6', '7', '8', '9', 'A', 'B', 'C', 'D', 'E', 'F']

/-- A character is the hexadecimal digit of that value. -/
def IsHexDigit (value : Nat) (c : Char) : Prop :=
  smallHexDigits[value]? = some c ∨ capitalHexDigits[value]? = some c

/-- The letters that may follow a backslash, each with the character that is meant. -/
def shortEscapes : List (Char × Char) :=
  [('"', '"'), ('\\', '\\'), ('/', '/'), ('b', '\x08'), ('f', '\x0c'), ('n', '\n'), ('r', '\r'),
    ('t', '\t')]

/-- The ways of writing a piece of a text. -/
inductive Piece.WrittenAs : Piece → List Char → Prop
  /-- Quotes, backslashes and control characters cannot stand for themselves. -/
  | plain {c : Char} (notQuote : c ≠ '"') (notBackslash : c ≠ '\\') (notControl : 0x20 ≤ c.toNat) :
      WrittenAs (.plain c) [c]
  | short {letter c : Char} (listed : (letter, c) ∈ shortEscapes) : WrittenAs (.short c) ['\\', letter]
  | code {a b c d : Char} {v w x y : Nat} (first : IsHexDigit v a) (second : IsHexDigit w b)
      (third : IsHexDigit x c) (fourth : IsHexDigit y d) :
      WrittenAs (.code (((v * 16 + w) * 16 + x) * 16 + y)) ['\\', 'u', a, b, c, d]

/-- The ways of writing pieces one after the other. -/
inductive PiecesWrittenAs : List Piece → List Char → Prop
  | nil : PiecesWrittenAs [] []
  | cons {piece : Piece} {pieces : List Piece} {cs rest : List Char} (first : piece.WrittenAs cs)
      (others : PiecesWrittenAs pieces rest) : PiecesWrittenAs (piece :: pieces) (cs ++ rest)

/-! ## Numbers -/

/-- At least one decimal digit, and how the digits are written. -/
structure DigitsWrittenAs (digits : List Nat) (cs : List Char) : Prop where
  nonempty : digits ≠ []
  decimal : ∀ d ∈ digits, d < 10
  written : cs = digits.map Nat.digitChar

/-- The ways of writing what follows the whole part of a number. -/
inductive FractionWrittenAs : Option (List Nat) → List Char → Prop
  | absent : FractionWrittenAs none []
  | given {digits : List Nat} {cs : List Char} (written : DigitsWrittenAs digits cs) :
      FractionWrittenAs (some digits) ('.' :: cs)

/-- The ways of writing the sign of an exponent. -/
inductive ExponentSign : Bool → List Char → Prop
  | absent : ExponentSign false []
  | plus : ExponentSign false ['+']
  | minus : ExponentSign true ['-']

/-- The ways of writing an exponent. -/
inductive ExponentWrittenAs : Option (Bool × List Nat) → List Char → Prop
  | absent : ExponentWrittenAs none []
  | given {e : Char} {negative : Bool} {digits : List Nat} {sign cs : List Char} (mark : e = 'e' ∨ e = 'E')
      (signed : ExponentSign negative sign) (written : DigitsWrittenAs digits cs) :
      ExponentWrittenAs (some (negative, digits)) (e :: (sign ++ cs))

/-- The sign of a number. -/
def signOf (negative : Bool) : List Char :=
  if negative then ['-'] else []

/-- The ways of writing a number; there is no superfluous zero in front. -/
inductive Numeral.WrittenAs : Numeral → List Char → Prop
  | intro {negative : Bool} {whole : List Nat} {fraction : Option (List Nat)}
      {exponent : Option (Bool × List Nat)} {ws fs es : List Char} (inWhole : DigitsWrittenAs whole ws)
      (noZero : whole = [0] ∨ whole.head? ≠ some 0) (inFraction : FractionWrittenAs fraction fs)
      (inExponent : ExponentWrittenAs exponent es) :
      WrittenAs { negative, whole, fraction, exponent } (signOf negative ++ (ws ++ (fs ++ es)))

/-! ## Tokens -/

/-- The ways of writing a token. -/
inductive Token.WrittenAs : Token → List Char → Prop
  | openBrace : WrittenAs .openBrace ['{']
  | closeBrace : WrittenAs .closeBrace ['}']
  | openBracket : WrittenAs .openBracket ['[']
  | closeBracket : WrittenAs .closeBracket [']']
  | colon : WrittenAs .colon [':']
  | comma : WrittenAs .comma [',']
  | null : WrittenAs .null ['n', 'u', 'l', 'l']
  | true : WrittenAs (.bool true) ['t', 'r', 'u', 'e']
  | false : WrittenAs (.bool false) ['f', 'a', 'l', 's', 'e']
  | number {n : Numeral} {cs : List Char} (written : n.WrittenAs cs) : WrittenAs (.number n) cs
  | text {pieces : List Piece} {cs : List Char} (written : PiecesWrittenAs pieces cs) :
      WrittenAs (.text pieces) ('"' :: (cs ++ ['"']))

/-- The ways of writing tokens one after the other, with white space before, between and after them. -/
inductive Layout : List Token → List Char → Prop
  | nil {space : List Char} (blank : ∀ c ∈ space, isSpace c = true) : Layout [] space
  | cons {token : Token} {tokens : List Token} {space cs rest : List Char}
      (blank : ∀ c ∈ space, isSpace c = true) (first : token.WrittenAs cs) (others : Layout tokens rest) :
      Layout (token :: tokens) (space ++ (cs ++ rest))

end Json

/-! ## Values -/

mutual

/-- The tokens of a value. -/
def Json.tokens : Json → List Token
  | .null => [.null]
  | .bool b => [.bool b]
  | .number n => [.number n]
  | .text pieces => [.text pieces]
  | .array items => .openBracket :: (itemTokens items ++ [.closeBracket])
  | .object members => .openBrace :: (memberTokens members ++ [.closeBrace])

/-- The tokens of the items of an array, with commas between them. -/
def Json.itemTokens : List Json → List Token
  | [] => []
  | [item] => item.tokens
  | item :: next :: rest => item.tokens ++ .comma :: itemTokens (next :: rest)

/-- The tokens of the members of an object, with commas between them. -/
def Json.memberTokens : List (List Piece × Json) → List Token
  | [] => []
  | [(key, value)] => .text key :: .colon :: value.tokens
  | (key, value) :: next :: rest =>
    .text key :: .colon :: (value.tokens ++ .comma :: memberTokens (next :: rest))

end

/-- A text is JSON for a value. -/
def Json.SaidBy (j : Json) (text : String) : Prop :=
  Json.Layout j.tokens text.toList

end WorkerPool
