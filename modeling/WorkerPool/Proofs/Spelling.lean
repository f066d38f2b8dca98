import WorkerPool.Proofs.Grammar

/-!
# Numbers, words and escapes

The scanner collects the characters of a number and of a word and reads them when it has come to their end,
and it reads an escape in a text letter by letter. What is read is what the grammar says is written, and
nothing else is read.
-/

namespace WorkerPool.Json

/-! ## Escapes -/

instance (value : Nat) (c : Char) : Decidable (IsHexDigit value c) :=
  inferInstanceAs (Decidable (_ ∨ _))

/-- A character that is read as a hexadecimal digit is one, of that value. -/
theorem isHexDigit_of_hexDigit? {c : Char} {value : Nat} (h : hexDigit? c = some value) :
    IsHexDigit value c := by
  have each : ∀ n < 103, ∀ v ∈ hexDigit? (Char.ofNat n), IsHexDigit v (Char.ofNat n) := by decide
  have bound : c.toNat < 103 := by
    unfold hexDigit? at h
    have nine : '9'.toNat = 57 := rfl
    have f : 'f'.toNat = 102 := rfl
    have capital : 'F'.toNat = 70 := rfl
    simp only [Char.le_def, UInt32.le_iff_toNat_le] at h
    grind [Char.toNat]
  have found := each c.toNat bound value
  rw [Char.ofNat_toNat] at found
  exact found h

/-- A hexadecimal digit is read as such, whatever case it is in. -/
theorem hexDigit?_of_isHexDigit {value : Nat} {c : Char} (h : IsHexDigit value c) :
    hexDigit? c = some value := by
  have small : ∀ v < 16, smallHexDigits[v]?.bind hexDigit? = some v := by decide
  have capital : ∀ v < 16, capitalHexDigits[v]?.bind hexDigit? = some v := by decide
  rcases h with found | found
  · have bound : value < 16 := (List.getElem?_eq_some_iff.mp found).1
    simpa [found] using small value bound
  · have bound : value < 16 := (List.getElem?_eq_some_iff.mp found).1
    simpa [found] using capital value bound

/-- A letter that is read as a short escape is in the table of them. -/
theorem mem_shortEscapes {letter c : Char} (h : ScanMode.short? letter = some c) :
    (letter, c) ∈ shortEscapes := by
  unfold ScanMode.short? at h
  split at h <;> cases h <;> decide

/-- The short escapes of the table are read, and none of them is the letter that begins the other kind. -/
theorem short?_of_mem {letter c : Char} (listed : (letter, c) ∈ shortEscapes) :
    ScanMode.short? letter = some c ∧ letter ≠ 'u' := by
  have each : ∀ escape ∈ shortEscapes, ScanMode.short? escape.1 = some escape.2 ∧ escape.1 ≠ 'u' := by
    decide
  exact each _ listed

/-! ## Words -/

/-- A word that is read is written with these letters. -/
theorem writtenAs_of_word? {letters : List Char} {token : Token} (h : ScanMode.word? letters = some token) :
    token.WrittenAs letters.reverse := by
  unfold ScanMode.word? at h
  split at h <;> cases h
  all_goals
    next spelled =>
      rw [spelled]
      constructor

/-! ## Digits -/

theorem digit?_digitChar : ∀ d < 10, digit? (Nat.digitChar d) = some d := by
  decide

/-- What is read as a digit is one of the ten. -/
theorem eq_digitChar_of_digit? {c : Char} {d : Nat} (h : digit? c = some d) : d < 10 ∧ c = Nat.digitChar d := by
  unfold digit? at h
  split at h
  · next range =>
    obtain rfl := Option.some.inj h
    have low : 48 ≤ c.toNat := range.1
    have high : c.toNat ≤ 57 := range.2
    have zero : '0'.toNat = 48 := rfl
    refine ⟨by omega, ?_⟩
    apply Char.toNat_inj.mp
    rw [Nat.toNat_digitChar_of_lt_ten (by omega), zero]
    omega
  · cases h

theorem filterMap_digit? {digits : List Nat} (decimal : ∀ d ∈ digits, d < 10) :
    (digits.map Nat.digitChar).filterMap digit? = digits := by
  induction digits with
  | nil => rfl
  | cons d rest ih =>
    obtain ⟨first, others⟩ := List.forall_mem_cons.mp decimal
    rw [List.map_cons, List.filterMap_cons_some (digit?_digitChar d first), ih others]

/-- Characters that do not go on with digits. -/
def EndsDigits (cs : List Char) : Prop :=
  ∀ c ∈ cs.head?, digit? c = none

theorem DigitsWrittenAs.isSome {digits : List Nat} {cs : List Char} (h : DigitsWrittenAs digits cs) :
    ∀ c ∈ cs, (digit? c).isSome = true := by
  intro c member
  rw [h.written] at member
  obtain ⟨d, mem, rfl⟩ := List.mem_map.mp member
  rw [digit?_digitChar d (h.decimal d mem)]
  rfl

/-- The digits at the beginning of a text are those that are written there, if nothing goes on with them. -/
theorem DigitsWrittenAs.digitsOf_append {digits : List Nat} {cs rest : List Char}
    (h : DigitsWrittenAs digits cs) (ends : EndsDigits rest) : digitsOf (cs ++ rest) = digits := by
  have stop : rest.takeWhile (fun c => (digit? c).isSome) = [] := by
    cases rest with
    | nil => rfl
    | cons c _ => simp [ends c rfl]
  rw [digitsOf, List.takeWhile_append_of_pos h.isSome, stop, List.append_nil, h.written,
    filterMap_digit? h.decimal]

/-- What is left of a text after its digits is what stands after them. -/
theorem DigitsWrittenAs.afterDigits_append {digits : List Nat} {cs rest : List Char}
    (h : DigitsWrittenAs digits cs) (ends : EndsDigits rest) : afterDigits (cs ++ rest) = rest := by
  rw [afterDigits, List.dropWhile_append_of_pos h.isSome]
  cases rest with
  | nil => rfl
  | cons c _ => simp [ends c rfl]

theorem DigitsWrittenAs.digitsOf_eq {digits : List Nat} {cs : List Char} (h : DigitsWrittenAs digits cs) :
    digitsOf cs = digits := by
  have nothing : EndsDigits [] := nofun
  simpa using h.digitsOf_append nothing

theorem DigitsWrittenAs.afterDigits_eq {digits : List Nat} {cs : List Char}
    (h : DigitsWrittenAs digits cs) : afterDigits cs = [] := by
  have nothing : EndsDigits [] := nofun
  simpa using h.afterDigits_append nothing

theorem DigitsWrittenAs.exists_cons {digits : List Nat} {cs : List Char} (h : DigitsWrittenAs digits cs) :
    ∃ c rest, cs = c :: rest ∧ (digit? c).isSome = true := by
  cases cs with
  | nil => exact absurd (List.map_eq_nil_iff.mp h.written.symm) h.nonempty
  | cons c rest => exact ⟨c, rest, rfl, h.isSome c List.mem_cons_self⟩

theorem digitsOf_cons_some {c : Char} {d : Nat} (h : digit? c = some d) (cs : List Char) :
    digitsOf (c :: cs) = d :: digitsOf cs ∧ afterDigits (c :: cs) = afterDigits cs := by
  simp [digitsOf, afterDigits, h]

theorem digitsOf_cons_none {c : Char} (h : digit? c = none) (cs : List Char) :
    digitsOf (c :: cs) = [] ∧ afterDigits (c :: cs) = c :: cs := by
  simp [digitsOf, afterDigits, h]

/-- Any characters are the digits at their front, as they are written, and what comes after them. -/
theorem digitsOf_append_afterDigits (cs : List Char) :
    (digitsOf cs).map Nat.digitChar ++ afterDigits cs = cs ∧ ∀ d ∈ digitsOf cs, d < 10 := by
  induction cs with
  | nil => exact ⟨rfl, nofun⟩
  | cons c cs ih =>
    cases digit : digit? c with
    | none =>
      rw [(digitsOf_cons_none digit cs).1, (digitsOf_cons_none digit cs).2]
      exact ⟨rfl, nofun⟩
    | some d =>
      obtain ⟨small, rfl⟩ := eq_digitChar_of_digit? digit
      rw [(digitsOf_cons_some digit cs).1, (digitsOf_cons_some digit cs).2]
      exact ⟨congrArg _ ih.1, List.forall_mem_cons.mpr ⟨small, ih.2⟩⟩

/-- The digits of a text, unless there are none, are written as they stand there. -/
theorem writtenAs_digitsOf {cs : List Char} (nonempty : digitsOf cs ≠ []) :
    DigitsWrittenAs (digitsOf cs) ((digitsOf cs).map Nat.digitChar) :=
  ⟨nonempty, (digitsOf_append_afterDigits cs).2, rfl⟩

/-! ## Numbers -/

/-- A digit is none of the characters that are no digits. -/
theorem ne_of_isSome_digit? {c d : Char} (h : (digit? c).isSome = true) (other : digit? d = none) : c ≠ d := by
  rintro rfl
  simp [other] at h

/-- An exponent is read as it is written, in each of the ways to write it. -/
theorem exponent?_of_writtenAs {exponent : Option (Bool × List Nat)} {cs : List Char}
    (h : ExponentWrittenAs exponent cs) : Numeral.exponent? cs = some exponent := by
  cases h with
  | absent => rfl
  | @given e negative digits sign cs mark signed written =>
    obtain ⟨c, rest, rfl, digit⟩ := written.exists_cons
    have notPlus : c ≠ '+' := ne_of_isSome_digit? digit rfl
    have notMinus : c ≠ '-' := ne_of_isSome_digit? digit rfl
    cases signed <;>
      simp [Numeral.exponent?, mark, notPlus, notMinus, written.digitsOf_eq, written.afterDigits_eq,
        written.nonempty]

/-- An exponent does not go on with digits: it is absent or begins with its letter. -/
theorem ExponentWrittenAs.endsDigits {exponent : Option (Bool × List Nat)} {cs : List Char}
    (h : ExponentWrittenAs exponent cs) : EndsDigits cs := by
  cases h with
  | absent => nofun
  | given mark =>
    rintro c ⟨⟩
    rcases mark with rfl | rfl <;> rfl

/-- A fraction does not go on with digits: it is absent or begins with its point. -/
theorem FractionWrittenAs.endsDigits {fraction : Option (List Nat)} {cs rest : List Char}
    (h : FractionWrittenAs fraction cs) (ends : EndsDigits rest) : EndsDigits (cs ++ rest) := by
  cases h with
  | absent => exact ends
  | given =>
    rintro c ⟨⟩
    rfl

/-- A fraction is read as it is written, and what stands after it is left. -/
theorem fraction?_of_writtenAs {fraction : Option (List Nat)} {exponent : Option (Bool × List Nat)}
    {cs rest : List Char} (h : FractionWrittenAs fraction cs) (others : ExponentWrittenAs exponent rest) :
    Numeral.fraction? (cs ++ rest) = some (fraction, rest) := by
  cases h with
  | absent =>
    cases others with
    | absent => rfl
    | given mark => rcases mark with rfl | rfl <;> rfl
  | given written =>
    simp [Numeral.fraction?, written.digitsOf_append others.endsDigits,
      written.afterDigits_append others.endsDigits, written.nonempty]

/-- A whole part that does not begin with a zero, unless it is zero, is one that may be written. -/
theorem isPlain_of_head {digits : List Nat} (nonempty : digits ≠ [])
    (noZero : digits = [0] ∨ digits.head? ≠ some 0) : Numeral.isPlain digits = true := by
  rcases noZero with rfl | other
  · rfl
  · match digits with
    | [] => exact absurd rfl nonempty
    | [_] => rfl
    | first :: _ :: _ =>
      have nonzero : first ≠ 0 := fun zero => other (congrArg some zero)
      simpa [Numeral.isPlain] using nonzero

/-- A number is read as it is written: sign, whole part, fraction and exponent, one after the other. -/
theorem ofChars?_of_writtenAs {n : Numeral} {cs : List Char} (h : n.WrittenAs cs) :
    Numeral.ofChars? cs = some n := by
  obtain @⟨negative, whole, fraction, exponent, ws, fs, es, inWhole, noZero, inFraction, inExponent⟩ := h
  have ends : EndsDigits (fs ++ es) := inFraction.endsDigits inExponent.endsDigits
  have unsigned : Numeral.unsigned? negative (ws ++ (fs ++ es)) =
      some { negative, whole, fraction, exponent } := by
    have plain : Numeral.isPlain whole = true := isPlain_of_head inWhole.nonempty noZero
    rw [Numeral.unsigned?, inWhole.digitsOf_append ends, inWhole.afterDigits_append ends, plain,
      fraction?_of_writtenAs inFraction inExponent]
    simp [exponent?_of_writtenAs inExponent]
  cases negative with
  | true => exact unsigned
  | false =>
    obtain ⟨c, rest, rfl, digit⟩ := inWhole.exists_cons
    have notMinus : c ≠ '-' := ne_of_isSome_digit? digit rfl
    simpa [Numeral.ofChars?, signOf, notMinus] using unsigned

/-- An exponent that is read is written like that. The cases are the letter, the sign and the digits. -/
theorem exponent_of_exponent? {cs : List Char} {exponent : Option (Bool × List Nat)}
    (h : Numeral.exponent? cs = some exponent) : ExponentWrittenAs exponent cs := by
  unfold Numeral.exponent? at h
  split at h
  · cases h
    exact .absent
  · next e rest =>
    split at h
    · next mark =>
      -- Whatever the sign was, what is left has to be digits.
      have ends : ∀ {negative : Bool} {sign digits : List Char}, ExponentSign negative sign →
          rest = sign ++ digits →
          (if digitsOf digits = [] ∨ afterDigits digits ≠ [] then none
            else some (some (negative, digitsOf digits))) = some exponent →
          ExponentWrittenAs exponent (e :: rest) := by
        intro negative sign digits signed same h
        split at h
        · cases h
        · next whole =>
          simp only [ne_eq, not_or, Decidable.not_not] at whole
          have written := writtenAs_digitsOf whole.1
          have all := (digitsOf_append_afterDigits digits).1
          rw [whole.2, List.append_nil] at all
          rw [all] at written
          cases h
          exact same ▸ .given mark signed written
      split at h
      next negative digits read =>
        split at read <;> cases read
        · exact ends .plus rfl h
        · exact ends .minus rfl h
        · exact ends .absent rfl h
    · cases h

/-- A fraction that is read is written before what is left. -/
theorem fraction_of_fraction? {cs rest : List Char} {fraction : Option (List Nat)}
    (h : Numeral.fraction? cs = some (fraction, rest)) :
    ∃ front, cs = front ++ rest ∧ FractionWrittenAs fraction front := by
  unfold Numeral.fraction? at h
  split at h
  · next after =>
    split at h
    · cases h
    · next some =>
      cases h
      exact ⟨_, congrArg _ (digitsOf_append_afterDigits after).1.symm, .given (writtenAs_digitsOf some)⟩
  · cases h
    exact ⟨[], rfl, .absent⟩

/-- A whole part that may be written does not begin with a zero, unless it is zero. -/
theorem noZero_of_isPlain {digits : List Nat} (h : Numeral.isPlain digits = true) :
    digits ≠ [] ∧ (digits = [0] ∨ digits.head? ≠ some 0) := by
  match digits with
  | [d] => cases d <;> simp
  | d :: _ :: _ => cases d <;> simp_all [Numeral.isPlain]

/-- A number that is read is written like that. -/
theorem writtenAs_of_ofChars? {cs : List Char} {n : Numeral} (h : Numeral.ofChars? cs = some n) :
    n.WrittenAs cs := by
  have unsigned : ∀ negative cs, Numeral.unsigned? negative cs = some n →
      n.WrittenAs (signOf negative ++ cs) := by
    intro negative cs h
    cases plain : Numeral.isPlain (digitsOf cs) with
    | false =>
      simp only [Numeral.unsigned?, plain] at h
      cases h
    | true =>
      simp only [Numeral.unsigned?, plain, Bool.not_true, Bool.false_eq_true, if_false] at h
      obtain ⟨⟨fraction, rest⟩, inFraction, h⟩ := Option.bind_eq_some_iff.mp h
      obtain ⟨exponent, inExponent, h⟩ := Option.bind_eq_some_iff.mp h
      obtain ⟨front, split, inFraction⟩ := fraction_of_fraction? inFraction
      obtain ⟨some, noZero⟩ := noZero_of_isPlain plain
      have all := (digitsOf_append_afterDigits cs).1
      have written : Numeral.WrittenAs { negative, whole := digitsOf cs, fraction, exponent }
          (signOf negative ++ ((digitsOf cs).map Nat.digitChar ++ (front ++ rest))) :=
        .intro (writtenAs_digitsOf some) noZero inFraction (exponent_of_exponent? inExponent)
      rw [← split, all] at written
      exact Option.some.inj h ▸ written
  unfold Numeral.ofChars? at h
  split at h
  · exact unsigned true _ h
  · exact unsigned false _ h

end WorkerPool.Json
