import WorkerPool.Proofs.Documents

/-!
# Writing configurations

What is written for a configuration is JSON for `PoolConfig.toJson`, in which every setting is given, and that
means the configuration. So it loads as the configuration that was written (`PoolConfig.load_write`), whatever
the texts and the numbers in it are.
-/

namespace WorkerPool

open Json

namespace Json

/-! ## Numbers -/

/-- The number that means a natural number. -/
def ofNat (n : Nat) : Json :=
  .number { negative := false, whole := digitsOf (Nat.toDigits 10 n) }

/-- One digit more is worth itself, and the others ten times as much. -/
theorem ofDigits_concat (digits : List Nat) (d : Nat) :
    Decimal.ofDigits (digits ++ [d]) = Decimal.ofDigits digits * 10 + d := by
  rw [Decimal.ofDigits, List.foldl_concat]
  rfl

/-- The digits of a number, which have no superfluous zero in front. -/
theorem exists_digits (n : Nat) :
    ∃ digits, DigitsWrittenAs digits (Nat.toDigits 10 n) ∧ Decimal.ofDigits digits = n ∧
      (digits = [0] ∨ digits.head? ≠ some 0) := by
  induction n using Nat.strongRecOn with
  | ind n ih =>
    by_cases small : n < 10
    · refine ⟨[n], ⟨nofun, by simpa using small, ?_⟩, by simp [Decimal.ofDigits], ?_⟩
      · rw [Nat.toDigits_of_lt_base small]
        rfl
      · cases n <;> simp
    · obtain ⟨digits, written, spelled, noZero⟩ := ih (n / 10) (by omega)
      have last : n % 10 < 10 := Nat.mod_lt n (by decide)
      refine ⟨digits ++ [n % 10], ⟨by simp, ?_, ?_⟩, ?_, .inr ?_⟩
      · exact List.forall_mem_append.mpr ⟨written.decimal, by simpa using last⟩
      · rw [Nat.toDigits_of_base_le (by decide) (by omega), written.written, List.map_append]
        rfl
      · rw [ofDigits_concat, spelled]
        omega
      · rcases noZero with rfl | noZero
        · simp [Decimal.ofDigits] at spelled
          omega
        · rwa [List.head?_append_of_ne_nil _ written.nonempty]

/-- The number written for a natural number means it. -/
theorem meansNatural_ofNat (n : Nat) : MeansNatural (ofNat n) n := by
  obtain ⟨digits, written, spelled, -⟩ := exists_digits n
  exact ⟨_, rfl, written.digitsOf_eq ▸ spelled⟩

/-! ## Tokens one after the other -/

theorem Layout.append {tokens more : List Token} {cs ds : List Char} (first : Layout tokens cs)
    (second : Layout more ds) : Layout (tokens ++ more) (cs ++ ds) := by
  induction first with
  | nil space =>
    cases second with
    | nil space' => exact .nil (List.forall_mem_append.mpr ⟨space, space'⟩)
    | cons space' written others =>
      rw [← List.append_assoc]
      exact .cons (List.forall_mem_append.mpr ⟨space, space'⟩) written others
  | cons space written _ ih =>
    rw [List.append_assoc, List.append_assoc]
    exact .cons space written ih

theorem Layout.single {token : Token} {cs : List Char} (written : token.WrittenAs cs) : Layout [token] cs := by
  have layout : Layout [token] ([] ++ (cs ++ [])) := .cons nofun written (.nil nofun)
  rwa [List.append_nil] at layout

/-- A natural number is said by its digits. -/
theorem saidBy_ofNat (n : Nat) : (ofNat n).SaidBy (toString n) := by
  obtain ⟨digits, written, -, noZero⟩ := exists_digits n
  have number : Numeral.WrittenAs { negative := false, whole := digits }
      (signOf false ++ (Nat.toDigits 10 n ++ ([] ++ []))) := .intro written noZero .absent .absent
  rw [List.append_nil, List.append_nil] at number
  have shown : (toString n).toList = Nat.toDigits 10 n := String.toList_ofList
  rw [SaidBy, ofNat, written.digitsOf_eq, shown]
  exact .single (.number number)

/-! ## Texts -/

/-- A control character is escaped with two zeros and its two hexadecimal digits. -/
theorem fourDigits_of_lt : ∀ n < 0x20,
    fourDigits n = ['0', '0', Nat.digitChar (n / 16), Nat.digitChar (n % 16)] := by
  decide

/-- Each character is written in a way in which its piece may be written. -/
theorem writtenAs_encodeChar (c : Char) : (encodeChar c).WrittenAs (encodeChar c).write := by
  unfold encodeChar
  split
  · next special => rcases special with rfl | rfl | rfl | rfl | rfl | rfl | rfl <;> exact .short (by decide)
  · next notSpecial =>
    split
    · next control =>
      have digits : ∀ n < 0x20, IsHexDigit (n / 16) (Nat.digitChar (n / 16)) ∧
          IsHexDigit (n % 16) (Nat.digitChar (n % 16)) := by decide
      obtain ⟨third, fourth⟩ := digits c.toNat control
      have zero : IsHexDigit 0 '0' := by decide
      have written := Piece.WrittenAs.code zero zero third fourth
      have same : ((0 * 16 + 0) * 16 + c.toNat / 16) * 16 + c.toNat % 16 = c.toNat := by omega
      rw [same] at written
      rw [Piece.write, fourDigits_of_lt c.toNat control]
      exact written
    · next notControl =>
      simp only [not_or] at notSpecial
      exact .plain notSpecial.1 notSpecial.2.1 (Nat.not_lt.mp notControl)

/-- The pieces of a text are written one after the other. -/
theorem writtenAs_encode (cs : List Char) : PiecesWrittenAs (encode cs) ((encode cs).flatMap Piece.write) := by
  induction cs with
  | nil => exact .nil
  | cons c cs ih => exact .cons (writtenAs_encodeChar c) ih

/-- A text is written as a token between quotes. -/
theorem writtenAs_writeText (text : String) :
    (Token.text (encode text.toList)).WrittenAs (writeText text).toList := by
  rw [writeText, String.toList_ofList]
  exact .text (writtenAs_encode text.toList)

theorem saidBy_writeText (text : String) : (Json.text (encode text.toList)).SaidBy (writeText text) :=
  .single (writtenAs_writeText text)

theorem meansText_encode (text : String) : MeansText (.text (encode text.toList)) text :=
  ⟨_, rfl, spells_encode text⟩

theorem saidBy_bool (b : Bool) : (Json.bool b).SaidBy (toString b) := by
  cases b
  · exact .single .false
  · exact .single .true

/-! ## Objects -/

/-- The object of some fields. -/
def ofFields (fields : List (String × Json)) : Json :=
  .object (fields.map fun field => (encode field.1.toList, field.2))

/-- A key and a value, with a colon between them. -/
theorem layout_member (key : String) {text : String} {value : Json} (said : value.SaidBy text) :
    Layout (.text (encode key.toList) :: .colon :: value.tokens) (writeText key ++ ":" ++ text).toList := by
  rw [String.toList_append, String.toList_append, List.append_assoc]
  exact (Layout.single (writtenAs_writeText key)).append ((Layout.single .colon).append said)

/-- Fields that are written as values are written as the object of these. -/
theorem saidBy_writeObject {texts : List (String × String)} {fields : List (String × Json)}
    (written : List.Forall₂ (fun text field => text.1 = field.1 ∧ field.2.SaidBy text.2) texts fields) :
    (ofFields fields).SaidBy (writeObject texts) := by
  have members : Layout (memberTokens (fields.map fun field => (encode field.1.toList, field.2)))
      (",".intercalate (texts.map fun text => writeText text.1 ++ ":" ++ text.2)).toList := by
    rw [String.toList_intercalate, List.map_map]
    induction written with
    | nil => exact .nil nofun
    | @cons text field texts fields first others ih =>
      obtain ⟨same, said⟩ := first
      have member := layout_member field.1 said
      cases others with
      | nil =>
        rw [← same] at member
        simpa [memberTokens, ← same] using member
      | cons =>
        have comma : Layout [.comma] ",".toList := .single .comma
        have more := member.append (comma.append ih)
        simpa [memberTokens, same] using more
  have opened : Layout [.openBrace] "\x7b".toList := .single .openBrace
  have closed : Layout [.closeBrace] "\x7d".toList := .single .closeBrace
  have whole := opened.append (members.append closed)
  rw [SaidBy, ofFields, Json.tokens, writeObject, String.toList_append, String.toList_append,
    List.append_assoc]
  exact whole

/-- The members of some fields are those of settings with these names. -/
theorem labels_ofFields {α : Type} {settings : List (Setting α)} {fields : List (String × Json)}
    (names : List.Forall₂ (fun s field => s.name = field.1) settings fields) :
    Labels settings (fields.map (·.2)) (fields.map fun field => (encode field.1.toList, field.2)) := by
  induction names with
  | nil => exact .nil
  | @cons s field settings fields same _ ih => exact .cons (same ▸ spells_encode s.name) ih

/-- An object that gives every setting of a record means the record. -/
theorem describes_ofFields {α : Type} {settings : List (Setting α)} (independent : Independent settings)
    {fields : List (String × Json)} {default record : α}
    (means : List.Forall₂ (fun s field => s.name = field.1 ∧ s.Means field.2 (s.get record)) settings fields) :
    Describes settings default (ofFields fields) record := by
  have labels := labels_ofFields (means.imp fun _ _ given => given.1)
  have length : settings.length ≤ (fields.map (·.2)).length := by rw [List.length_map, means.length_eq]
  have values : List.Forall₂ (fun s value => s.Means value (s.get record)) settings (fields.map (·.2)) :=
    List.forall₂_map_right_iff.mpr (means.imp fun _ _ given => given.2)
  refine (labels.describes_iff independent.distinct).mp (.array labels.short ?_ ?_)
  · exact fun _ entry => List.forall₂_zip values entry
  · rw [List.drop_eq_nil_of_le length]
    nofun

/-- An absent number is null. -/
def ofOptional : Option UInt64 → Json
  | some n => ofNat n.toNat
  | none => .null

/-- An optional number is said by its digits or by null. -/
theorem saidBy_writeOptional (value : Option UInt64) : (ofOptional value).SaidBy (writeOptional value) := by
  cases value with
  | none => exact .single .null
  | some n => exact saidBy_ofNat n.toNat

theorem meansOptional_ofOptional (value : Option UInt64) :
    MeansOptional MeansWord64 (ofOptional value) value := by
  cases value with
  | none => rfl
  | some n => exact meansNatural_ofNat n.toNat

end Json

/-! ## Configurations -/

/-- The JSON that is written for metrics settings. -/
def MetricsConfig.toJson (c : MetricsConfig) : Json :=
  Json.ofFields [
    ("backend", .text (encode c.backend.name.toList)),
    ("report_interval_secs", ofOptional c.reportIntervalSecs),
    ("report_every_tasks", ofOptional c.reportEveryTasks),
    ("report_on_stop", .bool c.reportOnStop)]

/-- The JSON that is written for logging settings. -/
def LoggingConfig.toJson (c : LoggingConfig) : Json :=
  Json.ofFields [
    ("level", .text (encode c.level.name.toList)),
    ("colored", .bool c.colored),
    ("include_timestamps", .bool c.includeTimestamps),
    ("include_targets", .bool c.includeTargets)]

/-- The JSON that is written for the settings of a pool. -/
def PoolConfig.toJson (c : PoolConfig) : Json :=
  Json.ofFields [
    ("name", .text (encode c.name.toList)),
    ("num_workers", ofNat c.numWorkers.toNat),
    ("poll_interval_ms", ofNat c.pollIntervalMs.toNat),
    ("idle_interval_ms", ofNat c.idleIntervalMs.toNat),
    ("max_retries", ofNat c.maxRetries.toNat),
    ("retry_base_delay_ms", ofNat c.retryBaseDelayMs.toNat),
    ("metrics", c.metrics.toJson),
    ("logging", c.logging.toJson)]

theorem MetricsConfig.saidBy_write (c : MetricsConfig) : c.toJson.SaidBy c.write :=
  saidBy_writeObject <|
    .cons ⟨rfl, saidBy_writeText _⟩ <| .cons ⟨rfl, saidBy_writeOptional _⟩ <|
    .cons ⟨rfl, saidBy_writeOptional _⟩ <| .cons ⟨rfl, saidBy_bool _⟩ .nil

theorem LoggingConfig.saidBy_write (c : LoggingConfig) : c.toJson.SaidBy c.write :=
  saidBy_writeObject <|
    .cons ⟨rfl, saidBy_writeText _⟩ <| .cons ⟨rfl, saidBy_bool _⟩ <|
    .cons ⟨rfl, saidBy_bool _⟩ <| .cons ⟨rfl, saidBy_bool _⟩ .nil

/-- What is written for the settings of a pool says their JSON. -/
theorem PoolConfig.saidBy_write (c : PoolConfig) : c.toJson.SaidBy c.write :=
  saidBy_writeObject <|
    .cons ⟨rfl, saidBy_writeText _⟩ <| .cons ⟨rfl, saidBy_ofNat _⟩ <| .cons ⟨rfl, saidBy_ofNat _⟩ <|
    .cons ⟨rfl, saidBy_ofNat _⟩ <| .cons ⟨rfl, saidBy_ofNat _⟩ <| .cons ⟨rfl, saidBy_ofNat _⟩ <|
    .cons ⟨rfl, c.metrics.saidBy_write⟩ <| .cons ⟨rfl, c.logging.saidBy_write⟩ .nil

theorem MetricsConfig.describes_toJson (c default : MetricsConfig) :
    Describes MetricsConfig.settings default c.toJson c := by
  have backend : MeansVariant MetricsBackend.names (.text (encode c.backend.name.toList)) c.backend :=
    .name (spells_encode _) (by cases c.backend <;> rfl)
  exact describes_ofFields MetricsConfig.independent <|
    .cons ⟨rfl, backend⟩ <| .cons ⟨rfl, meansOptional_ofOptional _⟩ <|
    .cons ⟨rfl, meansOptional_ofOptional _⟩ <| .cons ⟨rfl, rfl⟩ .nil

theorem LoggingConfig.describes_toJson (c default : LoggingConfig) :
    Describes LoggingConfig.settings default c.toJson c := by
  have level : MeansVariant LogLevel.names (.text (encode c.level.name.toList)) c.level :=
    .name (spells_encode _) (by cases c.level <;> rfl)
  exact describes_ofFields LoggingConfig.independent <|
    .cons ⟨rfl, level⟩ <| .cons ⟨rfl, rfl⟩ <| .cons ⟨rfl, rfl⟩ <| .cons ⟨rfl, rfl⟩ .nil

/-- The JSON of the settings of a pool describes them, whatever the defaults are. -/
theorem PoolConfig.describes_toJson (c default : PoolConfig) :
    Describes PoolConfig.settings default c.toJson c :=
  describes_ofFields PoolConfig.independent <|
    .cons ⟨rfl, meansText_encode _⟩ <| .cons ⟨rfl, meansNatural_ofNat _⟩ <|
    .cons ⟨rfl, meansNatural_ofNat _⟩ <| .cons ⟨rfl, meansNatural_ofNat _⟩ <|
    .cons ⟨rfl, meansNatural_ofNat _⟩ <| .cons ⟨rfl, meansNatural_ofNat _⟩ <|
    .cons ⟨rfl, c.metrics.describes_toJson {}⟩ <| .cons ⟨rfl, c.logging.describes_toJson {}⟩ .nil

/-- A configuration loads from what is written for it, and so writing what was loaded from some text and loading
it again changes nothing. -/
theorem PoolConfig.load_write [Machine] :
    (∀ c : PoolConfig, PoolConfig.load c.write = .ok c) ∧
      ∀ text, (PoolConfig.load text >>= fun c => PoolConfig.load c.write) = PoolConfig.load text := by
  have written : ∀ c : PoolConfig, PoolConfig.load c.write = .ok c :=
    fun c => load_eq_ok.mpr ⟨c.toJson, c.saidBy_write, c.describes_toJson {}⟩
  refine ⟨written, fun text => ?_⟩
  cases PoolConfig.load text with
  | error => rfl
  | ok c => rw [ok_bind, written c]

end WorkerPool
