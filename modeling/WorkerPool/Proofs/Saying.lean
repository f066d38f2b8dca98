import WorkerPool.Proofs.Scanning

/-!
# Reading what a text says

A text is read as a value exactly if it is JSON for that value (`Json.ofText?_eq_some`).

In one direction, the tokens of a value are read back into the value, whatever is open around it
(`reads_tokens`). In the other, `Reader.Read` says which tokens bring a reader to where it is: those of what
it holds, each array and object opened, with a comma after what is in it already.
-/

namespace WorkerPool

open Json

namespace Json

/-! ## The tokens of a value are apart -/

/-- A token that shows where it ends may stand before any others. -/
theorem Apart.cons {token : Token} {tokens : List Token} (shown : token.runsOn = false)
    (others : Apart tokens) : Apart (token :: tokens) :=
  List.isChain_cons.mpr ⟨fun _ _ => .inl shown, others⟩

/-- A token that shows where it begins and ends keeps apart what stands on its two sides. -/
theorem Apart.append_cons {token : Token} {before after : List Token} (first : Apart before)
    (shown : token.runsOn = false) (second : Apart after) : Apart (before ++ token :: after) := by
  refine List.isChain_append.mpr ⟨first, second.cons shown, ?_⟩
  intro _ _ next head
  obtain rfl : token = next := by simpa using head
  exact .inr shown

mutual

/-- The tokens of a value keep apart. -/
theorem apart_tokens : ∀ j : Json, Apart j.tokens
  | .null | .bool _ | .number _ | .text _ => List.isChain_singleton _
  | .array items => (Apart.append_cons (apart_itemTokens items) rfl (List.isChain_nil)).cons rfl
  | .object members => (Apart.append_cons (apart_memberTokens members) rfl (List.isChain_nil)).cons rfl

/-- The tokens of an array's items keep apart, by the commas. -/
theorem apart_itemTokens : ∀ items : List Json, Apart (itemTokens items)
  | [] => List.isChain_nil
  | [item] => apart_tokens item
  | item :: next :: others => (apart_tokens item).append_cons rfl (apart_itemTokens (next :: others))

/-- The tokens of an object's members keep apart, by the commas and colons. -/
theorem apart_memberTokens : ∀ members : List (List Piece × Json), Apart (memberTokens members)
  | [] => List.isChain_nil
  | [(_, value)] => ((apart_tokens value).cons rfl).cons rfl
  | (_, value) :: next :: others =>
    (((apart_tokens value).append_cons rfl (apart_memberTokens (next :: others))).cons rfl).cons rfl

end

/-! ## The tokens of a value are read back -/

/-- Some tokens take a reader from one state to another. -/
def Reader.Reads (r : Reader) (tokens : List Token) (r' : Reader) : Prop :=
  tokens.foldlM Reader.push r = some r'

namespace Reader.Reads

variable {r r' r'' : Reader} {token : Token} {tokens others : List Token}

theorem cons (first : r.push token = some r') (more : r'.Reads tokens r'') : r.Reads (token :: tokens) r'' := by
  simpa [Reader.Reads, first] using more

theorem append (first : r.Reads tokens r') (more : r'.Reads others r'') : r.Reads (tokens ++ others) r'' := by
  rw [Reader.Reads, List.foldlM_append, first]
  exact more

theorem last (first : r.push token = some r') : r.Reads [token] r' :=
  cons first rfl

end Reader.Reads

/-- A value begins with a token that is no closing bracket, so the first item of an array is read like any
other. -/
theorem reads_firstItem {items : List Json} (nonempty : items ≠ []) {rest : List Token} {frames : List Frame}
    {r : Reader} (read : (Reader.value (.array [] :: frames)).Reads (itemTokens items ++ rest) r) :
    (Reader.firstItem frames).Reads (itemTokens items ++ rest) r := by
  match items with
  | [item] => cases item <;> exact read
  | item :: _ :: _ => cases item <;> exact read

/-- The first key of an object is read like any other. -/
theorem reads_firstKey {members : List (List Piece × Json)} (nonempty : members ≠ []) {rest : List Token}
    {frames : List Frame} {r : Reader}
    (read : (Reader.key [] frames).Reads (memberTokens members ++ rest) r) :
    (Reader.firstKey frames).Reads (memberTokens members ++ rest) r := by
  match members with
  | [(_, _)] => exact read
  | (_, _) :: _ :: _ => exact read

mutual

/-- From where a value may stand, the tokens of a value complete that value. -/
theorem reads_tokens : ∀ (j : Json) (frames : List Frame),
    (Reader.value frames).Reads j.tokens (Reader.complete j frames)
  | .null, _ | .bool _, _ | .number _, _ | .text _, _ => rfl
  | .array items, frames =>
    if empty : items = [] then by
      subst empty
      exact rfl
    else
      .cons rfl (reads_firstItem empty (reads_itemTokens items empty [] frames))
  | .object members, frames =>
    if empty : members = [] then by
      subst empty
      exact rfl
    else
      .cons rfl (reads_firstKey empty (reads_memberTokens members empty [] frames))

/-- Inside an array, the tokens of further items and its bracket complete it with those items at the end. -/
theorem reads_itemTokens : ∀ (items : List Json), items ≠ [] → ∀ (done : List Json) (frames : List Frame),
    (Reader.value (.array done :: frames)).Reads (itemTokens items ++ [.closeBracket])
      (Reader.complete (.array (done.reverse ++ items)) frames)
  | [], nonempty, _, _ => absurd rfl nonempty
  | [item], _, done, frames => by
    rw [← List.reverse_cons]
    exact (reads_tokens item _).append (.last rfl)
  | item :: next :: others, _, done, frames => by
    have more := reads_itemTokens (next :: others) nofun (item :: done) frames
    rw [List.reverse_cons, List.append_assoc] at more
    rw [itemTokens, List.append_assoc]
    exact (reads_tokens item _).append (.cons rfl more)

/-- Inside an object, the tokens of further members and its brace complete it with those members at the end. -/
theorem reads_memberTokens : ∀ (members : List (List Piece × Json)), members ≠ [] →
    ∀ (done : List (List Piece × Json)) (frames : List Frame),
      (Reader.key done frames).Reads (memberTokens members ++ [.closeBrace])
        (Reader.complete (.object (done.reverse ++ members)) frames)
  | [], nonempty, _, _ => absurd rfl nonempty
  | [(key, value)], _, done, frames => by
    rw [← List.reverse_cons]
    exact .cons rfl (.cons rfl ((reads_tokens value _).append (.last rfl)))
  | (key, value) :: next :: others, _, done, frames => by
    have more := reads_memberTokens (next :: others) nofun ((key, value) :: done) frames
    rw [List.reverse_cons, List.append_assoc] at more
    have comma : (Reader.afterMember ((key, value) :: done) frames).push .comma =
        some (.key ((key, value) :: done) frames) := rfl
    rw [memberTokens, List.cons_append, List.cons_append, List.append_assoc]
    exact .cons rfl (.cons rfl ((reads_tokens value _).append (.cons comma more)))

end

/-- The tokens of a value are read as that value. -/
theorem ofTokens?_tokens (j : Json) : ofTokens? j.tokens = some j := by
  have read : j.tokens.foldlM Reader.push (.value []) = some (.done j) := reads_tokens j []
  rw [ofTokens?, read]
  rfl

/-! ## What is read was written -/

/-- The comma after what an array or an object holds already. -/
def commaAfter {α : Type} (before : List α) : List Token :=
  if before.isEmpty then [] else [.comma]

/-- The tokens that open the arrays and objects that are open. -/
def frameTokens : List Frame → List Token
  | [] => []
  | .array items :: frames =>
    frameTokens frames ++ .openBracket :: (itemTokens items.reverse ++ commaAfter items)
  | .member members key :: frames =>
    frameTokens frames ++ .openBrace :: (memberTokens members.reverse ++ (commaAfter members ++ [.text key, .colon]))

/-- A reader has come to where it is by reading these tokens. -/
inductive Reader.Read : Reader → List Token → Prop
  | value (frames : List Frame) : Read (.value frames) (frameTokens frames)
  | firstItem (frames : List Frame) : Read (.firstItem frames) (frameTokens frames ++ [.openBracket])
  | afterItem (items : List Json) (frames : List Frame) (nonempty : items ≠ []) :
      Read (.afterItem items frames) (frameTokens frames ++ .openBracket :: itemTokens items.reverse)
  | firstKey (frames : List Frame) : Read (.firstKey frames) (frameTokens frames ++ [.openBrace])
  | key (members : List (List Piece × Json)) (frames : List Frame) (nonempty : members ≠ []) :
      Read (.key members frames) (frameTokens frames ++ .openBrace :: (memberTokens members.reverse ++ [.comma]))
  | colon (members : List (List Piece × Json)) (key : List Piece) (frames : List Frame) :
      Read (.colon members key frames)
        (frameTokens frames ++ .openBrace :: (memberTokens members.reverse ++ (commaAfter members ++ [.text key])))
  | afterMember (members : List (List Piece × Json)) (frames : List Frame) (nonempty : members ≠ []) :
      Read (.afterMember members frames) (frameTokens frames ++ .openBrace :: memberTokens members.reverse)
  | done (v : Json) : Read (.done v) v.tokens

/-- One item more is set off by a comma, unless it is the first. -/
theorem itemTokens_concat (items : List Json) (item : Json) :
    itemTokens (items ++ [item]) = itemTokens items ++ (commaAfter items ++ item.tokens) := by
  induction items with
  | nil => rfl
  | cons first rest ih =>
    cases rest with
    | nil => rfl
    | cons next rest => simpa [itemTokens, commaAfter] using ih

/-- One member more is set off by a comma, unless it is the first. -/
theorem memberTokens_concat (members : List (List Piece × Json)) (key : List Piece) (value : Json) :
    memberTokens (members ++ [(key, value)]) =
      memberTokens members ++ (commaAfter members ++ .text key :: .colon :: value.tokens) := by
  induction members with
  | nil => rfl
  | cons first rest ih =>
    obtain ⟨firstKey, firstValue⟩ := first
    cases rest with
    | nil => simp [memberTokens, commaAfter]
    | cons next rest => simpa [memberTokens, commaAfter] using ih

theorem commaAfter_of_ne_nil {α : Type} {before : List α} (nonempty : before ≠ []) :
    commaAfter before = [.comma] := by
  simp [commaAfter, nonempty]

namespace Reader.Read

variable {r r' : Reader} {tokens : List Token} {token : Token}

/-- The tokens of a value bring a reader to where a whole value has been read. -/
theorem complete (v : Json) (frames : List Frame) :
    (Reader.complete v frames).Read (frameTokens frames ++ v.tokens) := by
  match frames with
  | [] => exact .done v
  | .array items :: frames =>
    have read := Reader.Read.afterItem (v :: items) frames (List.cons_ne_nil _ _)
    rw [List.reverse_cons, itemTokens_concat] at read
    simpa [frameTokens, commaAfter, Reader.complete] using read
  | .member members k :: frames =>
    have read := Reader.Read.afterMember ((k, v) :: members) frames (List.cons_ne_nil _ _)
    rw [List.reverse_cons, memberTokens_concat] at read
    simpa [frameTokens, commaAfter, Reader.complete] using read

/-- To begin a value is to have read the token it begins with. -/
theorem beginValue {frames : List Frame} (began : Reader.beginValue frames token = some r') :
    r'.Read (frameTokens frames ++ [token]) := by
  cases token with
  | null => exact Option.some.inj began ▸ complete .null frames
  | bool b => exact Option.some.inj began ▸ complete (.bool b) frames
  | number n => exact Option.some.inj began ▸ complete (.number n) frames
  | text pieces => exact Option.some.inj began ▸ complete (.text pieces) frames
  | openBracket => exact Option.some.inj began ▸ .firstItem frames
  | openBrace => exact Option.some.inj began ▸ .firstKey frames
  | closeBrace | closeBracket | colon | comma => cases began

/-- Every token that a reader takes has been read, after those before it. The cases are the states of a reader. -/
theorem push (read : r.Read tokens) (pushed : r.push token = some r') : r'.Read (tokens ++ [token]) := by
  cases read with
  | value frames => exact beginValue pushed
  | firstItem frames =>
    -- An array may be closed before its first item; any other token begins that item.
    have begun : ∀ {token}, Reader.beginValue (.array [] :: frames) token = some r' →
        r'.Read (frameTokens frames ++ [.openBracket] ++ [token]) := by
      intro token began
      simpa [frameTokens, itemTokens, commaAfter] using beginValue began
    cases token with
    | closeBracket =>
      cases pushed
      simpa [Json.tokens, itemTokens] using complete (.array []) frames
    | _ => exact begun pushed
  | afterItem items frames nonempty =>
    cases token with
    | comma =>
      cases pushed
      have read := Reader.Read.value (.array items :: frames)
      simpa [frameTokens, commaAfter_of_ne_nil nonempty] using read
    | closeBracket =>
      cases pushed
      simpa [Json.tokens] using complete (.array items.reverse) frames
    | _ => cases pushed
  | firstKey frames =>
    cases token with
    | closeBrace =>
      cases pushed
      simpa [Json.tokens, memberTokens] using complete (.object []) frames
    | text k =>
      cases pushed
      simpa [memberTokens, commaAfter] using Reader.Read.colon [] k frames
    | _ => cases pushed
  | key members frames nonempty =>
    cases token with
    | text k =>
      cases pushed
      simpa [commaAfter_of_ne_nil nonempty] using Reader.Read.colon members k frames
    | _ => cases pushed
  | colon members k frames =>
    cases token with
    | colon =>
      cases pushed
      simpa [frameTokens] using Reader.Read.value (.member members k :: frames)
    | _ => cases pushed
  | afterMember members frames nonempty =>
    cases token with
    | comma =>
      cases pushed
      simpa using Reader.Read.key members frames nonempty
    | closeBrace =>
      cases pushed
      simpa [Json.tokens] using complete (.object members.reverse) frames
    | _ => cases pushed
  | done v => cases pushed

/-- All the tokens that a reader takes one after the other have been read. -/
theorem foldlM (read : r.Read tokens) {more : List Token} (run : more.foldlM Reader.push r = some r') :
    r'.Read (tokens ++ more) := by
  induction more generalizing r tokens with
  | nil =>
    obtain rfl := Option.some.inj run
    rwa [List.append_nil]
  | cons token more ih =>
    obtain ⟨next, pushed, run⟩ := Option.bind_eq_some_iff.mp run
    simpa using ih (read.push pushed) run

end Reader.Read

/-- The tokens that make up a value are the tokens of the value. -/
theorem tokens_of_ofTokens? {tokens : List Token} {j : Json} (h : ofTokens? tokens = some j) :
    tokens = j.tokens := by
  obtain ⟨r, run, finished⟩ := Option.bind_eq_some_iff.mp h
  have read : r.Read tokens := (Reader.Read.value []).foldlM run
  cases read with
  | done v => rw [Option.some.inj finished]
  | _ => cases finished

end Json

/-- A text is read as a value exactly if it is JSON for that value. -/
theorem Json.ofText?_eq_some {text : String} {j : Json} : Json.ofText? text = some j ↔ j.SaidBy text := by
  constructor
  · intro read
    obtain ⟨tokens, scanned, read⟩ := Option.bind_eq_some_iff.mp read
    obtain rfl := tokens_of_ofTokens? read
    exact layout_of_scan? scanned
  · intro said
    rw [Json.ofText?, scan?_of_layout said (apart_tokens j)]
    exact ofTokens?_tokens j

end WorkerPool
