import WorkerPool.Json.Decoder

/-!
# What values mean

For each type of values that a document can hold, the meaning of JSON is a relation between `Json` and the
type: which value is meant, and, for the JSON that is not related to any, that none is. A decoder is
`Exact` if it reads what is meant and nothing else, and the decoders of texts, words, truth values, optional
values and variants are.
-/

namespace WorkerPool.Json

/-! ## Results -/

section Results

variable {ε ε' α β : Type} {x : Except ε α}

/-- After a success, what follows is done. -/
theorem ok_bind (a : α) (f : α → Except ε β) : Except.ok a >>= f = f a :=
  rfl

/-- A sequence succeeds if both of its parts do. -/
theorem bind_eq_ok {f : α → Except ε β} {b : β} : x >>= f = .ok b ↔ ∃ a, x = .ok a ∧ f a = .ok b := by
  cases x <;> simp [bind, Except.bind]

/-- A result is mapped only if there is one. -/
theorem map_eq_ok {f : α → β} {b : β} : x.map f = .ok b ↔ ∃ a, x = .ok a ∧ f a = b := by
  cases x <;> simp [Except.map]

/-- Mapping the error of a success changes nothing. -/
theorem ok_mapError (f : ε → ε') (a : α) : (Except.ok a).mapError f = .ok a :=
  rfl

/-- A success is a success under any mapping of errors. -/
theorem mapError_eq_ok {f : ε → ε'} {a : α} : x.mapError f = .ok a ↔ x = .ok a := by
  cases x with
  | ok value => rw [ok_mapError, Except.ok.injEq, Except.ok.injEq]
  | error e => constructor <;> (intro same; cases same)

end Results

/-! ## Texts -/

/-- Pieces spell characters: a code that is no surrogate spells a character of its own, and a leading and a
trailing surrogate spell one together. -/
inductive Spells : List Piece → List Char → Prop
  | nil : Spells [] []
  | plain {c : Char} {pieces : List Piece} {cs : List Char} (rest : Spells pieces cs) :
      Spells (.plain c :: pieces) (c :: cs)
  | short {c : Char} {pieces : List Piece} {cs : List Char} (rest : Spells pieces cs) :
      Spells (.short c :: pieces) (c :: cs)
  | code {unit : Nat} {pieces : List Piece} {cs : List Char} (notTrailing : isTrailing unit = false)
      (notLeading : isLeading unit = false) (rest : Spells pieces cs) :
      Spells (.code unit :: pieces) (Char.ofNat unit :: cs)
  | pair {leading trailing : Nat} {pieces : List Piece} {cs : List Char}
      (first : isLeading leading = true) (second : isTrailing trailing = true) (rest : Spells pieces cs) :
      Spells (.code leading :: .code trailing :: pieces) (joinSurrogates leading trailing :: cs)

/-- No surrogate is both a leading and a trailing one. -/
theorem not_isTrailing_of_isLeading {unit : Nat} (h : isLeading unit = true) : isTrailing unit = false := by
  simp only [isLeading, Bool.and_eq_true, decide_eq_true_eq] at h
  simp only [isTrailing, Bool.and_eq_false_iff, decide_eq_false_iff_not]
  omega

/-- Pieces that spell characters are decoded into them, from whatever byte they begin. -/
theorem decodeFrom_of_spells {pieces : List Piece} {cs : List Char} (h : Spells pieces cs) (bytes : Nat) :
    decodeFrom bytes pieces = .ok cs := by
  induction h generalizing bytes with
  | nil => rfl
  | plain _ ih | short _ ih =>
    rw [decodeFrom, ih]
    rfl
  | code notTrailing notLeading _ ih =>
    rw [decodeFrom.eq_def]
    simp only [notLeading, notTrailing, ih]
    rfl
  | pair first second _ ih =>
    rw [decodeFrom.eq_def]
    simp only [first, second, not_isTrailing_of_isLeading first, ih]
    rfl

/-- What pieces are decoded into, they spell. -/
theorem spells_of_decodeFrom {bytes : Nat} {pieces : List Piece} {cs : List Char}
    (h : decodeFrom bytes pieces = .ok cs) : Spells pieces cs := by
  fun_induction decodeFrom bytes pieces generalizing cs with
  | case1 =>
    cases h
    exact .nil
  | case2 _ _ _ ih =>
    obtain ⟨rest, read, ⟨⟩⟩ := bind_eq_ok.mp h
    exact .plain (ih read)
  | case3 _ _ _ ih =>
    obtain ⟨rest, read, ⟨⟩⟩ := bind_eq_ok.mp h
    exact .short (ih read)
  | case4 | case6 | case7 => cases h
  | case5 _ _ _ leading _ _ trailing ih =>
    obtain ⟨rest, read, ⟨⟩⟩ := bind_eq_ok.mp h
    exact .pair leading trailing (ih read)
  | case8 _ _ _ notTrailing notLeading ih =>
    obtain ⟨rest, read, ⟨⟩⟩ := bind_eq_ok.mp h
    exact .code (Bool.eq_false_iff.mpr notTrailing) (Bool.eq_false_iff.mpr notLeading) (ih read)

/-- Pieces are read as the text that they spell. -/
theorem decode_eq_ok {pieces : List Piece} {text : String} :
    decode pieces = .ok text ↔ Spells pieces text.toList := by
  rw [decode, map_eq_ok]
  constructor
  · rintro ⟨cs, read, rfl⟩
    rw [String.toList_ofList]
    exact spells_of_decodeFrom read
  · intro spells
    exact ⟨text.toList, decodeFrom_of_spells spells 0, String.ofList_toList⟩

/-- Pieces spell one text at most. -/
theorem Spells.unique {pieces : List Piece} {text text' : String} (h : Spells pieces text.toList)
    (h' : Spells pieces text'.toList) : text = text' :=
  Except.ok.inj ((decode_eq_ok.mpr h).symm.trans (decode_eq_ok.mpr h'))

/-- What is written for a text spells it. -/
theorem spells_encode (text : String) : Spells (encode text.toList) text.toList :=
  decode_eq_ok.mp (decode_encode text)

/-! ## Meanings -/

/-- A text means the characters that it spells. -/
def MeansText (j : Json) (text : String) : Prop :=
  ∃ pieces, j = .text pieces ∧ Spells pieces text.toList

/-- A number without sign, fraction and exponent means what its digits spell. -/
def MeansNatural (j : Json) (n : Nat) : Prop :=
  ∃ digits, j = .number { negative := false, whole := digits } ∧ Decimal.ofDigits digits = n

/-- A natural number means the 64-bit word that holds it. -/
def MeansWord64 (j : Json) (word : UInt64) : Prop :=
  MeansNatural j word.toNat

/-- A natural number means the 32-bit word that holds it. -/
def MeansWord32 (j : Json) (word : UInt32) : Prop :=
  MeansNatural j word.toNat

/-- A truth value means itself. -/
def MeansBool (j : Json) (b : Bool) : Prop :=
  j = .bool b

/-- Null means that there is no value. -/
def MeansOptional {α : Type} (Means : Json → α → Prop) (j : Json) : Option α → Prop
  | none => j = .null
  | some value => Means j value

/-- The name of a variant means the variant, and so does an object with the name as its only key and null as
its value. -/
inductive MeansVariant {α : Type} (variants : List (String × α)) : Json → α → Prop
  | name {pieces : List Piece} {name : String} {value : α} (spells : Spells pieces name.toList)
      (found : variants.lookup name = some value) : MeansVariant variants (.text pieces) value
  | tagged {key : List Piece} {name : String} {value : α} (spells : Spells key name.toList)
      (found : variants.lookup name = some value) : MeansVariant variants (.object [(key, .null)]) value

namespace Decoder

/-- A decoder reads what is meant, and nothing else. -/
def Exact {α : Type} (decoder : Decoder α) (Means : Json → α → Prop) : Prop :=
  ∀ j value, decoder j = .ok value ↔ Means j value

/-- The decoder of texts takes just the texts that spell something, for what they spell. -/
theorem exact_text : Exact text MeansText := by
  intro j value
  cases j with
  | text pieces => simp [text, MeansText, mapError_eq_ok, decode_eq_ok]
  | _ => simp [text, MeansText]

/-- The decoder of truth values takes just those. -/
theorem exact_bool : Exact bool MeansBool := by
  intro j value
  cases j <;> simp [bool, MeansBool]

/-- More digits do not make a number smaller. -/
theorem le_foldl_digits (s : Nat) (digits : List Nat) : s ≤ digits.foldl (fun n d => n * 10 + d) s := by
  induction digits generalizing s with
  | nil => exact Nat.le_refl s
  | cons d rest ih =>
    have more := ih (s * 10 + d)
    rw [List.foldl_cons]
    omega

/-- All digits are taken into a word just if the number that they spell fits into it. The induction is on the digits
that are left, for any word that holds those before them. -/
theorem absorb_eq_nil_iff {s v : Nat} {digits : List Nat} (held : s ≤ Decimal.greatestWord) :
    Decimal.absorb s digits = (v, []) ↔
      digits.foldl (fun n d => n * 10 + d) s = v ∧ v ≤ Decimal.greatestWord := by
  induction digits generalizing s with
  | nil =>
    rw [Decimal.absorb, List.foldl_nil, Prod.mk.injEq]
    exact ⟨fun ⟨same, _⟩ => ⟨same, same ▸ held⟩, fun ⟨same, _⟩ => ⟨same, rfl⟩⟩
  | cons d rest ih =>
    rw [Decimal.absorb, List.foldl_cons]
    by_cases fits : s * 10 + d ≤ Decimal.greatestWord
    · rw [if_pos fits]
      exact ih fits
    · -- The digit is left over, and the number is too great already.
      have more := le_foldl_digits (s * 10 + d) rest
      rw [if_neg fits]
      refine iff_of_false (fun same => nomatch (Prod.mk.inj same).2) ?_
      rintro ⟨same, small⟩
      omega

/-- A number is read as a natural number if it has neither sign nor fraction nor exponent and fits a word. -/
theorem value_eq_natural {n : Numeral} {v : Nat} :
    n.value = .natural v ↔
      n = { negative := false, whole := n.whole } ∧ Decimal.ofDigits n.whole = v ∧ v < UInt64.size := by
  obtain ⟨negative, whole, fraction, exponent⟩ := n
  have taken := @absorb_eq_nil_iff 0 v whole (Nat.zero_le _)
  have bound : v ≤ Decimal.greatestWord ↔ v < UInt64.size := Nat.lt_succ_iff.symm
  rw [bound] at taken
  unfold Numeral.value
  generalize Numeral.toFloat? _ = real
  simp only [Decimal.ofDigits, ← taken]
  generalize Decimal.absorb 0 whole = read
  obtain ⟨magnitude, left⟩ := read
  cases fraction with
  | some => cases real <;> simp
  | none =>
    cases exponent with
    | some => cases real <;> simp
    | none =>
      cases left with
      | cons => cases real <;> simp
      | nil =>
        cases negative with
        | true => cases real <;> grind
        | false => simp

/-- The decoder of numbers takes just the whole numbers below its bound, written without a fraction or a sign
before zero. -/
theorem exact_natural {bound : Nat} (fits : bound ≤ UInt64.size) (expected : String) :
    Exact (natural bound expected) fun j n => MeansNatural j n ∧ n < bound := by
  intro j v
  cases j with
  | number n =>
    have read : natural bound expected (.number n) = .ok v ↔ n.value = .natural v ∧ v < bound := by
      simp only [natural]
      cases n.value <;> grind
    rw [read, value_eq_natural]
    constructor
    · rintro ⟨⟨shape, same, -⟩, small⟩
      exact ⟨⟨n.whole, congrArg Json.number shape, same⟩, small⟩
    · rintro ⟨⟨digits, shape, same⟩, small⟩
      obtain rfl := Json.number.inj shape
      exact ⟨⟨rfl, same, by omega⟩, small⟩
  | _ => simp [natural, MeansNatural]

/-- Words of 64 bits are decoded from just the numbers that fit them. -/
theorem exact_word64 (expected : String) : Exact (word64 expected) MeansWord64 := by
  intro j word
  rw [word64, map_eq_ok, MeansWord64]
  constructor
  · rintro ⟨n, read, rfl⟩
    obtain ⟨meant, small⟩ := (exact_natural (Nat.le_refl _) expected j n).mp read
    rwa [Nat.toUInt64_eq, UInt64.toNat_ofNat_of_lt' small]
  · intro meant
    have read := (exact_natural (Nat.le_refl _) expected j word.toNat).mpr ⟨meant, word.toNat_lt⟩
    exact ⟨word.toNat, read, UInt64.ofNat_toNat⟩

/-- Words of 32 bits are decoded from just the numbers that fit them. -/
theorem exact_word32 (expected : String) : Exact (word32 expected) MeansWord32 := by
  intro j word
  rw [word32, map_eq_ok, MeansWord32]
  constructor
  · rintro ⟨n, read, rfl⟩
    obtain ⟨meant, small⟩ := (exact_natural (by decide) expected j n).mp read
    rwa [Nat.toUInt32_eq, UInt32.toNat_ofNat_of_lt' small]
  · intro meant
    have read := (exact_natural (by decide) expected j word.toNat).mpr ⟨meant, word.toNat_lt⟩
    exact ⟨word.toNat, read, UInt32.ofNat_toNat⟩

/-- A value that may be absent is decoded from null as absent, and from all else as the value itself would be. -/
theorem exact_optional {α : Type} {decoder : Decoder α} {Means : Json → α → Prop}
    (exact : Exact decoder Means) (notNull : ∀ value, ¬Means .null value) :
    Exact (optional decoder) (MeansOptional Means) := by
  intro j value
  by_cases null : j = .null
  · subst null
    cases value with
    | none => simp [optional, MeansOptional]
    | some value => simp [optional, MeansOptional, notNull value]
  · have other : optional decoder j = (decoder j).map some := by
      cases j with
      | null => exact absurd rfl null
      | _ => rfl
    rw [other, map_eq_ok]
    cases value with
    | none => simp [MeansOptional, null]
    | some value => simp [MeansOptional, exact j]

/-- A name stands for the variant that the table has for it. -/
theorem variantOf_eq_ok {α : Type} {variants : List (String × α)} {edge : Edge} {name : String} {value : α} :
    variantOf variants edge name = .ok value ↔ variants.lookup name = some value := by
  unfold variantOf
  split <;> next found => simp [found]

/-- A variant is decoded from its name as a text, or from an object with its name as the only key and null
beneath. -/
theorem exact_variant {α : Type} (variants : List (String × α)) :
    Exact (variant variants) (MeansVariant variants) := by
  intro j value
  constructor
  · intro read
    unfold variant at read
    split at read
    · obtain ⟨name, spelled, found⟩ := bind_eq_ok.mp read
      exact .name (decode_eq_ok.mp (mapError_eq_ok.mp spelled)) (variantOf_eq_ok.mp found)
    · next key inner rest =>
      obtain ⟨name, spelled, read⟩ := bind_eq_ok.mp read
      obtain ⟨variant, found, read⟩ := bind_eq_ok.mp read
      split at read
      · obtain rfl := Except.ok.inj read
        have listed := variantOf_eq_ok.mp (mapError_eq_ok.mp found)
        exact .tagged (decode_eq_ok.mp (mapError_eq_ok.mp spelled)) listed
      · cases read
      · cases read
    · cases read
    · cases read
  · intro meant
    cases meant with
    | name spells found =>
      have spelled := decode_eq_ok.mpr spells
      exact bind_eq_ok.mpr ⟨_, mapError_eq_ok.mpr spelled, variantOf_eq_ok.mpr found⟩
    | tagged spells found =>
      have spelled := decode_eq_ok.mpr spells
      have listed : variantOf variants .afterKey _ = .ok _ := variantOf_eq_ok.mpr found
      exact bind_eq_ok.mpr
        ⟨_, mapError_eq_ok.mpr spelled, bind_eq_ok.mpr ⟨_, mapError_eq_ok.mpr listed, rfl⟩⟩

end Decoder

end WorkerPool.Json
