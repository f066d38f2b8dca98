import Mathlib.Data.List.Chain
import WorkerPool.Proofs.Spelling

/-!
# Scanning what is written

Whatever writes some tokens is scanned into these tokens (`scan?_of_layout`), and what is scanned into some
tokens writes them (`layout_of_scan?`).

A word or a number ends only where the next character does not go on with it, so after its last character
the scanner is still in the middle of it. `Scanner.Holding` is what the scanner has come to when some tokens
are written: the token that is not yet ended counts as held. Two such tokens may not follow each other, which
is why the tokens have to be `Apart`. For the way back, `Scanner.Scanned` says what the characters are that a
scanner has taken, those of an unfinished token included.
-/

namespace WorkerPool.Json

/-! ## What the scanner holds -/

/-- A character that ends a word or a number. -/
structure Breaks (c : Char) : Prop where
  word : ¬('a' ≤ c ∧ c ≤ 'z')
  numeral : ScanMode.isNumeralChar c = false

/-- Whether the end of a token shows only by what follows it. -/
def Token.runsOn : Token → Bool
  | .null | .bool _ | .number _ => true
  | _ => false

/-- Of two tokens that follow each other, one at least shows where it begins or ends. -/
def Apart (tokens : List Token) : Prop :=
  tokens.IsChain fun first second => first.runsOn = false ∨ second.runsOn = false

/-- What the scanner has come to when some tokens are written. -/
inductive Scanner.Holding : Scanner → List Token → Prop
  | ended (tokens : List Token) : Holding { mode := .between, tokens := tokens.reverse } tokens
  | word {letters : List Char} {token : Token} (tokens : List Token)
      (spelled : ScanMode.word? letters = some token) :
      Holding { mode := .word letters, tokens := tokens.reverse } (tokens ++ [token])
  | numeral {chars : List Char} {n : Numeral} (tokens : List Token)
      (spelled : Numeral.ofChars? chars.reverse = some n) :
      Holding { mode := .numeral chars, tokens := tokens.reverse } (tokens ++ [.number n])

theorem runsOn_of_word? {letters : List Char} {token : Token} (h : ScanMode.word? letters = some token) :
    token.runsOn = true := by
  unfold ScanMode.word? at h
  split at h <;> cases h <;> rfl

namespace Scanner.Holding

variable {s : Scanner} {tokens : List Token}

/-- A scanner that has put a token away holds it after the others. -/
theorem concat (before : List Token) (token : Token) :
    Scanner.Holding { tokens := token :: before.reverse } (before ++ [token]) := by
  have ended := Scanner.Holding.ended (before ++ [token])
  rwa [List.reverse_concat] at ended

/-- At the end of the text a scanner gives what it holds. -/
theorem finish? (h : s.Holding tokens) : s.finish? = some tokens := by
  cases h with
  | ended => simp [Scanner.finish?, ScanMode.finish?]
  | word _ spelled => simp [Scanner.finish?, ScanMode.finish?, spelled]
  | numeral _ spelled => simp [Scanner.finish?, ScanMode.finish?, spelled]

/-- A character that breaks is taken as between tokens. -/
theorem push_of_breaks (h : s.Holding tokens) {c : Char} (breaks : Breaks c) :
    s.push c = Scanner.push { tokens := tokens.reverse } c := by
  cases h with
  | ended => rfl
  | word before spelled =>
    simp only [Scanner.push, ScanMode.push, if_neg breaks.word, spelled]
    cases ScanMode.begin c <;> simp
  | numeral before spelled =>
    simp only [Scanner.push, ScanMode.push, breaks.numeral, spelled]
    cases ScanMode.begin c <;> simp

/-- After a token that shows its end, the scanner is between tokens. -/
theorem eq_between (h : s.Holding tokens) (shown : ∀ token ∈ tokens.getLast?, token.runsOn = false) :
    s = { tokens := tokens.reverse } := by
  cases h with
  | ended => rfl
  | word before spelled =>
    have runsOn := runsOn_of_word? spelled
    simp [shown _ List.getLast?_concat] at runsOn
  | numeral before spelled =>
    have runsOn : (Token.number _).runsOn = false := shown _ List.getLast?_concat
    cases runsOn

end Scanner.Holding

/-! ## Tokens -/

/-- Between tokens a character begins the next one. -/
theorem push_between (before : List Token) (c : Char) :
    Scanner.push { tokens := before } c =
      (ScanMode.begin c).map fun begun => { mode := begun.2, tokens := begun.1.reverse ++ before } := by
  simp only [Scanner.push, ScanMode.push]
  cases ScanMode.begin c <;> rfl

/-- A piece of a text is taken as it is written, in any of the ways to write it. -/
theorem scan_piece {piece : Piece} {cs : List Char} (h : piece.WrittenAs cs) (pieces : List Piece)
    (tokens : List Token) :
    cs.foldlM Scanner.push { mode := .text pieces, tokens } =
      some { mode := .text (piece :: pieces), tokens } := by
  cases h with
  | plain notQuote notBackslash notControl =>
    simp [Scanner.push, ScanMode.push, notQuote, notBackslash, Nat.not_lt.mpr notControl]
  | short listed =>
    obtain ⟨meant, other⟩ := short?_of_mem listed
    simp [Scanner.push, ScanMode.push, meant, other]
  | code first second third fourth =>
    simp [Scanner.push, ScanMode.push, hexDigit?_of_isHexDigit first, hexDigit?_of_isHexDigit second,
      hexDigit?_of_isHexDigit third, hexDigit?_of_isHexDigit fourth]

/-- The pieces of a text are taken one after the other. -/
theorem scan_pieces {pieces : List Piece} {cs : List Char} (h : PiecesWrittenAs pieces cs)
    (before : List Piece) (tokens : List Token) :
    cs.foldlM Scanner.push { mode := .text before, tokens } =
      some { mode := .text (pieces.reverse ++ before), tokens } := by
  induction h generalizing before with
  | nil => rfl
  | cons first others ih => simp [List.foldlM_append, scan_piece first, ih]

/-- A number goes on with each character that may stand in one. -/
theorem scan_numeral {cs : List Char} (more : ∀ c ∈ cs, ScanMode.isNumeralChar c = true)
    (chars : List Char) (tokens : List Token) :
    cs.foldlM Scanner.push { mode := .numeral chars, tokens } =
      some { mode := .numeral (cs.reverse ++ chars), tokens } := by
  induction cs generalizing chars with
  | nil => rfl
  | cons c rest ih =>
    obtain ⟨first, others⟩ := List.forall_mem_cons.mp more
    simp [Scanner.push, ScanMode.push, first, ih others]

/-- What is written as digits may stand in a number. -/
theorem DigitsWrittenAs.isNumeralChar {digits : List Nat} {cs : List Char} (h : DigitsWrittenAs digits cs) :
    ∀ c ∈ cs, ScanMode.isNumeralChar c = true := by
  intro c member
  simp [ScanMode.isNumeralChar, h.isSome c member]

/-- All that a number is written with may stand in a number. -/
theorem Numeral.WrittenAs.isNumeralChar {n : Numeral} {cs : List Char} (h : n.WrittenAs cs) :
    ∀ c ∈ cs, ScanMode.isNumeralChar c = true := by
  obtain @⟨negative, whole, fraction, exponent, ws, fs, es, inWhole, noZero, inFraction, inExponent⟩ := h
  have inSign : ∀ c ∈ signOf negative, ScanMode.isNumeralChar c = true := by
    cases negative <;> simp [signOf, ScanMode.isNumeralChar]
  have inPoint : ∀ c ∈ fs, ScanMode.isNumeralChar c = true := by
    cases inFraction with
    | absent => exact List.forall_mem_nil _
    | given written => exact List.forall_mem_cons.mpr ⟨rfl, written.isNumeralChar⟩
  have inPower : ∀ c ∈ es, ScanMode.isNumeralChar c = true := by
    cases inExponent with
    | absent => exact List.forall_mem_nil _
    | given mark signed written =>
      refine List.forall_mem_cons.mpr ⟨by rcases mark with rfl | rfl <;> rfl, ?_⟩
      refine List.forall_mem_append.mpr ⟨?_, written.isNumeralChar⟩
      cases signed <;> simp [ScanMode.isNumeralChar]
  simp only [List.forall_mem_append]
  exact ⟨inSign, inWhole.isNumeralChar, inPoint, inPower⟩

theorem begin_digitChar : ∀ {d : Nat}, d < 10 →
    ScanMode.begin (Nat.digitChar d) = some ([], .numeral [Nat.digitChar d])
  | 0, _ | 1, _ | 2, _ | 3, _ | 4, _ | 5, _ | 6, _ | 7, _ | 8, _ | 9, _ => rfl

/-- A number begins with its sign or a digit. -/
theorem Numeral.WrittenAs.exists_cons {n : Numeral} {cs : List Char} (h : n.WrittenAs cs) :
    ∃ c rest, cs = c :: rest ∧ ScanMode.begin c = some ([], .numeral [c]) := by
  obtain @⟨negative, whole, fraction, exponent, ws, fs, es, inWhole, noZero, inFraction, inExponent⟩ := h
  cases negative with
  | true => exact ⟨'-', _, rfl, rfl⟩
  | false =>
    obtain ⟨c, rest, rfl, -⟩ := inWhole.exists_cons
    have member : c ∈ whole.map Nat.digitChar := inWhole.written ▸ List.mem_cons_self
    obtain ⟨d, mem, rfl⟩ := List.mem_map.mp member
    exact ⟨Nat.digitChar d, _, rfl, begin_digitChar (inWhole.decimal d mem)⟩

/-- What writes a token is scanned into it, beginning between tokens. -/
theorem scan_token {token : Token} {cs : List Char} (h : token.WrittenAs cs) (before : List Token) :
    ∃ s, cs.foldlM Scanner.push { tokens := before.reverse } = some s ∧ s.Holding (before ++ [token]) := by
  cases h with
  | openBrace | closeBrace | openBracket | closeBracket | colon | comma =>
    exact ⟨_, rfl, .concat before _⟩
  | null | true | false => exact ⟨_, rfl, .word before rfl⟩
  | number written =>
    obtain ⟨c, rest, rfl, begins⟩ := written.exists_cons
    have more := (List.forall_mem_cons.mp written.isNumeralChar).2
    refine ⟨{ mode := .numeral (rest.reverse ++ [c]), tokens := before.reverse }, ?_, ?_⟩
    · simp [push_between, begins, scan_numeral more]
    · exact .numeral before (by simpa using ofChars?_of_writtenAs written)
  | @text pieces cs written =>
    refine ⟨{ tokens := .text pieces :: before.reverse }, ?_, .concat before _⟩
    have quote : ScanMode.begin '"' = some ([], .text []) := rfl
    simp [quote, List.foldlM_append, scan_pieces written, Scanner.push, ScanMode.push]

/-- A token that shows where it begins ends a word or a number before it. -/
theorem exists_breaks {token : Token} {cs : List Char} (h : token.WrittenAs cs)
    (shown : token.runsOn = false) : ∃ c rest, cs = c :: rest ∧ Breaks c := by
  cases h with
  | null | true | false | number => cases shown
  | openBrace | closeBrace | openBracket | closeBracket | colon | comma | text =>
    exact ⟨_, _, rfl, by decide, by decide⟩

/-! ## Whole texts -/

/-- Blanks change nothing of what is held. -/
theorem scan_space {space : List Char} (blank : ∀ c ∈ space, isSpace c = true) {s : Scanner}
    {tokens : List Token} (h : s.Holding tokens) :
    ∃ s', space.foldlM Scanner.push s = some s' ∧ s'.Holding tokens := by
  induction space generalizing s with
  | nil => exact ⟨s, rfl, h⟩
  | cons c rest ih =>
    obtain ⟨first, others⟩ := List.forall_mem_cons.mp blank
    have breaks : Breaks c := by
      simp only [isSpace, Bool.or_eq_true, decide_eq_true_eq] at first
      rcases first with ((rfl | rfl) | rfl) | rfl <;> exact ⟨by decide, by decide⟩
    have passed : s.push c = some { tokens := tokens.reverse } := by
      rw [h.push_of_breaks breaks, push_between, ScanMode.begin, if_pos first]
      rfl
    obtain ⟨s', run, holding⟩ := ih others (.ended tokens)
    exact ⟨s', by simpa [passed] using run, holding⟩

/-- A written token is held after the others, if it or the one before it shows where they meet. -/
theorem scan_after {token : Token} {cs : List Char} (written : token.WrittenAs cs) {s : Scanner}
    {tokens : List Token} (h : s.Holding tokens)
    (apart : ∀ last ∈ tokens.getLast?, last.runsOn = false ∨ token.runsOn = false) :
    ∃ s', cs.foldlM Scanner.push s = some s' ∧ s'.Holding (tokens ++ [token]) := by
  obtain ⟨s', run, holding⟩ := scan_token written tokens
  refine ⟨s', ?_, holding⟩
  cases shown : token.runsOn with
  | false =>
    obtain ⟨c, rest, rfl, breaks⟩ := exists_breaks written shown
    simpa [h.push_of_breaks breaks] using run
  | true =>
    have last : ∀ last ∈ tokens.getLast?, last.runsOn = false := by simpa [shown] using apart
    rw [h.eq_between last, run]

/-- A text laid out from tokens that keep apart is held as these tokens. -/
theorem scan_layout {tokens : List Token} {cs : List Char} (layout : Layout tokens cs) {s : Scanner}
    {before : List Token} (h : s.Holding before) (apart : Apart (before ++ tokens)) :
    ∃ s', cs.foldlM Scanner.push s = some s' ∧ s'.Holding (before ++ tokens) := by
  induction layout generalizing s before with
  | nil blank => simpa using scan_space blank h
  | @cons token tokens space cs rest blank first others ih =>
    obtain ⟨spaced, spaceRun, holding⟩ := scan_space blank h
    have seam := (List.isChain_append.mp apart).2.2
    obtain ⟨taken, tokenRun, holding⟩ :=
      scan_after first holding fun last mem => seam last mem token rfl
    obtain ⟨s', run, holding⟩ := ih holding (by simpa using apart)
    exact ⟨s', by simp [List.foldlM_append, spaceRun, tokenRun, run], by simpa using holding⟩

/-- Whatever writes some tokens is scanned into these tokens. -/
theorem scan?_of_layout {tokens : List Token} {cs : List Char} (layout : Layout tokens cs)
    (apart : Apart tokens) : scan? cs = some tokens := by
  obtain ⟨s, run, holding⟩ := scan_layout layout (.ended []) apart
  have run : cs.foldlM Scanner.push {} = some s := run
  rw [scan?, run]
  exact holding.finish?

/-! ## What is scanned is written -/

/-- A text with one piece more is written with that piece at the end. -/
theorem PiecesWrittenAs.concat {pieces : List Piece} {piece : Piece} {cs ds : List Char}
    (h : PiecesWrittenAs pieces cs) (last : piece.WrittenAs ds) :
    PiecesWrittenAs (pieces ++ [piece]) (cs ++ ds) := by
  induction h with
  | nil => simpa using PiecesWrittenAs.nil.cons last
  | cons first _ ih =>
    rw [List.append_assoc]
    exact .cons first ih

namespace Layout

variable {tokens : List Token} {cs : List Char}

/-- A blank may stand at the end of a layout. -/
theorem append_space (layout : Layout tokens cs) {c : Char} (blank : isSpace c = true) :
    Layout tokens (cs ++ [c]) := by
  induction layout with
  | nil space => exact .nil (List.forall_mem_append.mpr ⟨space, by simpa using blank⟩)
  | cons space first _ ih =>
    rw [List.append_assoc, List.append_assoc]
    exact .cons space first ih

/-- A token may be written at the end of a layout. -/
theorem concat (layout : Layout tokens cs) {token : Token} {ds : List Char} (last : token.WrittenAs ds) :
    Layout (tokens ++ [token]) (cs ++ ds) := by
  induction layout with
  | nil space =>
    have ended : Layout [token] (_ ++ (ds ++ [])) := .cons space last (.nil nofun)
    rwa [List.append_nil] at ended
  | cons space first _ ih =>
    rw [List.append_assoc, List.append_assoc]
    exact .cons space first ih

end Layout

/-- What has been written of the token that a scanner is in the middle of. -/
inductive ScanMode.Amid : ScanMode → List Char → Prop
  | between : Amid .between []
  | word (letters : List Char) : Amid (.word letters) letters.reverse
  | numeral (chars : List Char) : Amid (.numeral chars) chars.reverse
  | text {pieces : List Piece} {cs : List Char} (written : PiecesWrittenAs pieces.reverse cs) :
      Amid (.text pieces) ('"' :: cs)
  | escape {pieces : List Piece} {cs : List Char} (written : PiecesWrittenAs pieces.reverse cs) :
      Amid (.escape pieces) ('"' :: (cs ++ ['\\']))
  | hex {pieces : List Piece} {cs digits : List Char} {values : List Nat} {left : Nat}
      (written : PiecesWrittenAs pieces.reverse cs) (each : List.Forall₂ IsHexDigit values digits)
      (count : digits.length + left = 4) (more : 1 ≤ left) :
      Amid (.hex pieces left (values.foldl (fun n v => n * 16 + v) 0))
        ('"' :: (cs ++ '\\' :: 'u' :: digits))

/-- What has been scanned is what is written: the tokens, and what there is of another one. -/
def Scanner.Scanned (s : Scanner) (cs : List Char) : Prop :=
  ∃ whole part, cs = whole ++ part ∧ Layout s.tokens.reverse whole ∧ s.mode.Amid part

namespace Scanner.Scanned

variable {cs : List Char} {tokens : List Token} {c : Char}

/-- The character after whole tokens. -/
theorem begin (layout : Layout tokens.reverse cs) {begun : List Token × ScanMode}
    (h : ScanMode.begin c = some begun) :
    Scanner.Scanned { mode := begun.2, tokens := begun.1.reverse ++ tokens } (cs ++ [c]) := by
  have single : ∀ token : Token, token.WrittenAs [c] →
      Scanner.Scanned { mode := .between, tokens := [token].reverse ++ tokens } (cs ++ [c]) := by
    intro token written
    refine ⟨cs ++ [c], [], (List.append_nil _).symm, ?_, .between⟩
    simpa using layout.concat written
  have opened : ∀ mode : ScanMode, mode.Amid [c] →
      Scanner.Scanned { mode, tokens := [].reverse ++ tokens } (cs ++ [c]) :=
    fun mode amid => ⟨cs, [c], rfl, layout, amid⟩
  unfold ScanMode.begin at h
  rcases ite_eq_iff.mp h with ⟨blank, h⟩ | ⟨-, h⟩
  · cases h
    exact ⟨cs ++ [c], [], (List.append_nil _).symm, layout.append_space blank, .between⟩
  iterate 6
    rcases ite_eq_iff.mp h with ⟨rfl, h⟩ | ⟨-, h⟩
    · cases h
      exact single _ (by constructor)
  rcases ite_eq_iff.mp h with ⟨rfl, h⟩ | ⟨-, h⟩
  · cases h
    exact opened _ (.text .nil)
  rcases ite_eq_iff.mp h with ⟨-, h⟩ | ⟨-, h⟩
  · cases h
    exact opened _ (.numeral [c])
  rcases ite_eq_iff.mp h with ⟨-, h⟩ | ⟨-, h⟩
  · cases h
    exact opened _ (.word [c])
  · cases h

variable {whole part : List Char} {pieces : List Piece} {moved : List Token × ScanMode}

/-- The character after a token whose end shows only by what follows it. -/
theorem ended (layout : Layout tokens.reverse whole) {token : Token} (written : token.WrittenAs part)
    (h : (do let (more, mode) ← ScanMode.begin c; return (token :: more, mode)) = some moved) :
    Scanner.Scanned { mode := moved.2, tokens := moved.1.reverse ++ tokens } (whole ++ part ++ [c]) := by
  obtain ⟨begun, began, h⟩ := Option.bind_eq_some_iff.mp h
  cases h
  have longer : Layout (token :: tokens).reverse (whole ++ part) := by
    rw [List.reverse_cons]
    exact layout.concat written
  simpa using begin longer began

/-- The next character of a text. -/
theorem text (layout : Layout tokens.reverse whole) (written : PiecesWrittenAs pieces.reverse cs)
    (h : ScanMode.push (.text pieces) c = some moved) :
    Scanner.Scanned { mode := moved.2, tokens := moved.1.reverse ++ tokens } (whole ++ '"' :: cs ++ [c]) := by
  simp only [ScanMode.push] at h
  split at h
  · next quote =>
    cases h
    subst quote
    refine ⟨whole ++ '"' :: (cs ++ ['"']), [], by simp, ?_, .between⟩
    simpa using layout.concat (.text written)
  · next notQuote =>
    split at h
    · next backslash =>
      cases h
      subst backslash
      exact ⟨whole, _, List.append_assoc .., layout, .escape written⟩
    · next notBackslash =>
      split at h
      · cases h
      · next notControl =>
        cases h
        refine ⟨whole, _, List.append_assoc .., layout, .text ?_⟩
        rw [List.reverse_cons]
        exact written.concat (.plain notQuote notBackslash (Nat.not_lt.mp notControl))

/-- The character after a backslash. -/
theorem escape (layout : Layout tokens.reverse whole) (written : PiecesWrittenAs pieces.reverse cs)
    (h : ScanMode.push (.escape pieces) c = some moved) :
    Scanner.Scanned { mode := moved.2, tokens := moved.1.reverse ++ tokens }
      (whole ++ '"' :: (cs ++ ['\\']) ++ [c]) := by
  simp only [ScanMode.push] at h
  split at h
  · next u =>
    cases h
    subst u
    refine ⟨whole, '"' :: (cs ++ '\\' :: 'u' :: []), by simp, layout, ?_⟩
    exact .hex written .nil rfl (by decide)
  · obtain ⟨char, meant, h⟩ := Option.map_eq_some_iff.mp h
    cases h
    refine ⟨whole, '"' :: (cs ++ ['\\', c]), by simp, layout, .text ?_⟩
    rw [List.reverse_cons]
    exact written.concat (.short (mem_shortEscapes meant))

/-- The next hexadecimal digit of a code, the fourth of which ends it. -/
theorem hex (layout : Layout tokens.reverse whole) (written : PiecesWrittenAs pieces.reverse cs)
    {digits : List Char} {values : List Nat} {left : Nat} (each : List.Forall₂ IsHexDigit values digits)
    (count : digits.length + left = 4) (more : 1 ≤ left)
    (h : ScanMode.push (.hex pieces left (values.foldl (fun n v => n * 16 + v) 0)) c = some moved) :
    Scanner.Scanned { mode := moved.2, tokens := moved.1.reverse ++ tokens }
      (whole ++ '"' :: (cs ++ '\\' :: 'u' :: digits) ++ [c]) := by
  obtain ⟨v, digit, h⟩ := Option.bind_eq_some_iff.mp h
  have last : IsHexDigit v c := isHexDigit_of_hexDigit? digit
  split at h
  · next full =>
    cases h
    obtain ⟨a, b, d, rfl⟩ : ∃ a b d, digits = [a, b, d] := List.length_eq_three.mp (by omega)
    rcases each with _ | ⟨first, _ | ⟨second, _ | ⟨third, ⟨⟩⟩⟩⟩
    refine ⟨whole, '"' :: (cs ++ ['\\', 'u', a, b, d, c]), by simp, layout, .text ?_⟩
    rw [List.reverse_cons]
    exact written.concat (by simpa using Piece.WrittenAs.code first second third last)
  · next notFull =>
    cases h
    refine ⟨whole, '"' :: (cs ++ '\\' :: 'u' :: (digits ++ [c])), by simp, layout, ?_⟩
    have fold : values.foldl (fun n v => n * 16 + v) 0 * 16 + v =
        (values ++ [v]).foldl (fun n v => n * 16 + v) 0 := by
      rw [List.foldl_concat]
    rw [fold]
    refine .hex written (List.rel_append each (.cons last .nil)) ?_ (by omega)
    rw [List.length_append, List.length_singleton]
    omega

/-- Whatever a scanner takes has been scanned. The cases are the states of a scanner. -/
theorem push {s s' : Scanner} (h : s.Scanned cs) (pushed : s.push c = some s') : s'.Scanned (cs ++ [c]) := by
  obtain ⟨mode, tokens⟩ := s
  obtain ⟨whole, part, rfl, layout, amid⟩ := h
  obtain ⟨moved, next, same⟩ := Option.bind_eq_some_iff.mp pushed
  obtain rfl := Option.some.inj same
  cases amid with
  | between =>
    rw [List.append_nil]
    exact begin layout next
  | word letters =>
    simp only [ScanMode.push] at next
    split at next
    · cases next
      exact ⟨whole, (c :: letters).reverse, by simp, layout, .word _⟩
    · obtain ⟨token, spelled, next⟩ := Option.bind_eq_some_iff.mp next
      exact ended layout (writtenAs_of_word? spelled) next
  | numeral chars =>
    simp only [ScanMode.push] at next
    split at next
    · cases next
      exact ⟨whole, (c :: chars).reverse, by simp, layout, .numeral _⟩
    · obtain ⟨n, spelled, next⟩ := Option.bind_eq_some_iff.mp next
      exact ended layout (.number (writtenAs_of_ofChars? spelled)) next
  | text written => exact text layout written next
  | escape written => exact escape layout written next
  | hex written each count more => exact hex layout written each count more next

/-- All the characters that a scanner takes one after the other have been scanned. -/
theorem foldlM {s s' : Scanner} (h : s.Scanned cs) {ds : List Char}
    (run : ds.foldlM Scanner.push s = some s') : s'.Scanned (cs ++ ds) := by
  induction ds generalizing s cs with
  | nil =>
    obtain rfl := Option.some.inj run
    rwa [List.append_nil]
  | cons c ds ih =>
    obtain ⟨next, pushed, run⟩ := Option.bind_eq_some_iff.mp run
    simpa using ih (h.push pushed) run

/-- A scanner that finishes has scanned a layout of the tokens it gives. -/
theorem finish? {s : Scanner} (h : s.Scanned cs) (finished : s.finish? = some tokens) : Layout tokens cs := by
  obtain ⟨mode, before⟩ := s
  obtain ⟨whole, part, rfl, layout, amid⟩ := h
  obtain ⟨ended, atEnd, same⟩ := Option.bind_eq_some_iff.mp finished
  obtain rfl := Option.some.inj same
  cases amid with
  | between =>
    cases atEnd
    simpa using layout
  | word letters =>
    obtain ⟨token, spelled, rfl⟩ := Option.map_eq_some_iff.mp atEnd
    exact layout.concat (writtenAs_of_word? spelled)
  | numeral chars =>
    obtain ⟨n, spelled, rfl⟩ := Option.map_eq_some_iff.mp atEnd
    exact layout.concat (.number (writtenAs_of_ofChars? spelled))
  | text | escape | hex => cases atEnd

end Scanner.Scanned

/-- What is scanned into some tokens writes these tokens. -/
theorem layout_of_scan? {cs : List Char} {tokens : List Token} (h : scan? cs = some tokens) :
    Layout tokens cs := by
  obtain ⟨s, run, finished⟩ := Option.bind_eq_some_iff.mp h
  have start : Scanner.Scanned {} [] := ⟨[], [], rfl, .nil nofun, .between⟩
  exact (start.foldlM run).finish? finished

end WorkerPool.Json
