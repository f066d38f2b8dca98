import WorkerPool.Json.Token
import WorkerPool.Text.Quoted

/-!
# Texts in JSON

The pieces of a text spell characters, except that a code in the range of surrogates needs a partner:
a leading one must be followed by a trailing one, and the two together spell one character.
`decode` reads pieces; `encode` writes characters with as few escapes as JSON admits, and
`decode_encode` says that it reads back.
-/

namespace WorkerPool.Json

/-- What keeps pieces from spelling a text, and after how many of their bytes it shows. -/
inductive TextFault where
  /-- A leading surrogate that no code follows. -/
  | unfinished (bytes : Nat)
  /-- A surrogate without its partner. -/
  | lone (bytes : Nat)
deriving DecidableEq, Repr

/-- Whether a code is a leading surrogate. -/
def isLeading (unit : Nat) : Bool :=
  0xD800 ≤ unit && unit ≤ 0xDBFF

/-- Whether a code is a trailing surrogate. -/
def isTrailing (unit : Nat) : Bool :=
  0xDC00 ≤ unit && unit ≤ 0xDFFF

/-- The character that two surrogates spell. -/
def joinSurrogates (leading trailing : Nat) : Char :=
  Char.ofNat ((leading - 0xD800) * 0x400 + (trailing - 0xDC00) + 0x10000)

/-- The bytes of a leading surrogate up to where it shows that no code follows: after the character
that follows, and one further if that is a backslash. -/
def unfinishedAt (bytes : Nat) : List Piece → Nat
  | .short _ :: _ => bytes + 8
  | _ => bytes + 7

/-- The characters that pieces spell; `bytes` have been read before them. -/
def decodeFrom (bytes : Nat) : List Piece → Except TextFault (List Char)
  | [] => .ok []
  | .plain c :: rest => return c :: (← decodeFrom (bytes + c.utf8Size) rest)
  | .short c :: rest => return c :: (← decodeFrom (bytes + 2) rest)
  | .code unit :: rest =>
    if isTrailing unit then .error (.lone (bytes + 6))
    else if isLeading unit then
      match rest with
      | .code partner :: rest =>
        if isTrailing partner then
          return joinSurrogates unit partner :: (← decodeFrom (bytes + 12) rest)
        else .error (.lone (bytes + 12))
      | rest => .error (.unfinished (unfinishedAt bytes rest))
    else
      return Char.ofNat unit :: (← decodeFrom (bytes + 6) rest)

/-- The text that pieces spell. -/
def decode (pieces : List Piece) : Except TextFault String :=
  (decodeFrom 0 pieces).map String.ofList

/-- The piece in which a character is written. -/
def encodeChar (c : Char) : Piece :=
  if c = '"' ∨ c = '\\' ∨ c = '\x08' ∨ c = '\x0c' ∨ c = '\n' ∨ c = '\r' ∨ c = '\t' then .short c
  else if c.toNat < 0x20 then .code c.toNat
  else .plain c

/-- The pieces in which characters are written. -/
def encode (cs : List Char) : List Piece :=
  cs.map encodeChar

/-- The letter that stands for a character after a backslash. -/
def shortLetter (c : Char) : Char :=
  if c = '\x08' then 'b'
  else if c = '\x0c' then 'f'
  else if c = '\n' then 'n'
  else if c = '\r' then 'r'
  else if c = '\t' then 't'
  else c

/-- The four hexadecimal digits of a code. -/
def fourDigits (unit : Nat) : List Char :=
  let digits := Text.hexDigits unit
  List.replicate (4 - digits.length) '0' ++ digits

/-- A piece as it is written. -/
def Piece.write : Piece → List Char
  | plain c => [c]
  | short c => ['\\', shortLetter c]
  | code unit => ['\\', 'u'] ++ fourDigits unit

/-- A text as it is written in JSON, with its quotes. -/
def writeText (text : String) : String :=
  String.ofList ('"' :: ((encode text.toList).flatMap Piece.write ++ ['"']))

/-- Characters are read back from what is written for them, wherever in a document that stands. -/
theorem decodeFrom_encode (cs : List Char) (bytes : Nat) :
    decodeFrom bytes (encode cs) = .ok cs := by
  induction cs generalizing bytes with
  | nil => rfl
  | cons c rest ih =>
    simp only [encode, List.map_cons, encodeChar]
    split
    · rw [decodeFrom]
      change (decodeFrom (bytes + 2) (encode rest)).bind _ = _
      rw [ih]
      rfl
    · split
      · next small =>
        have notTrailing : isTrailing c.toNat = false := by
          simp only [isTrailing, Bool.and_eq_false_iff, decide_eq_false_iff_not]
          omega
        have notLeading : isLeading c.toNat = false := by
          simp only [isLeading, Bool.and_eq_false_iff, decide_eq_false_iff_not]
          omega
        rw [decodeFrom.eq_def]
        simp only [notTrailing, notLeading, Bool.false_eq_true, if_false]
        change (decodeFrom (bytes + 6) (encode rest)).bind _ = _
        rw [ih, Char.ofNat_toNat]
        rfl
      · rw [decodeFrom]
        change (decodeFrom (bytes + c.utf8Size) (encode rest)).bind _ = _
        rw [ih]
        rfl

/-- A text is read back from what is written for it. -/
theorem decode_encode (text : String) : decode (encode text.toList) = .ok text := by
  simp [decode, decodeFrom_encode, Except.map]

end WorkerPool.Json
