import Mathlib.Data.List.Forall2
import Mathlib.Data.List.Nodup
import Mathlib.Data.List.Pairwise
import WorkerPool.Proofs.Decoding

/-!
# What records mean

A record is described by its `Setting`s. An object means the record in which each setting is what the member
with its key means, and the one of the default if there is no such member; an array means what the object
means that gives its items to the first settings (`Describes`). What is the first to be wrong with a document
is a second occurrence of a key when `Repeats` says so.

A shape whose fields read settings one by one reads an object or an array exactly if it means a record
(`RecordShape.Reads.exact`), and reports a second occurrence of a key if that is what is wrong first
(`RecordShape.Reads.repeated`).
-/

namespace WorkerPool.Json

/-- The members of an object. -/
abbrev Members : Type := List (List Piece × Json)

/-- A setting of a record. -/
structure Setting (α : Type) where
  /-- The key that gives it. -/
  name : String
  Part : Type
  get : α → Part
  set : α → Part → α
  /-- Which values mean which settings. -/
  Means : Json → Part → Prop
  /-- That the first problem with a value is a second occurrence of a key, and where in the value. -/
  Repeats : Json → List Nat → String → Prop := fun _ _ _ => False

/-! ## Objects and arrays -/

/-- One of the members has that key and that value. -/
def GivenIn (members : Members) (name : String) (value : Json) : Prop :=
  ∃ key, (key, value) ∈ members ∧ Spells key name.toList

/-- Every key spells a text. -/
def Legible (members : Members) : Prop :=
  ∀ member ∈ members, ∃ name : String, Spells member.1 name.toList

/-- A setting of a record is what one of the members means, or the one of the default if no member gives it. -/
def Setting.Given {α : Type} (s : Setting α) (members : Members) (default record : α) : Prop :=
  (∃ value, GivenIn members s.name value ∧ s.Means value (s.get record)) ∨
    (∀ value, ¬GivenIn members s.name value) ∧ s.get record = s.get default

section

variable {α : Type} (settings : List (Setting α))

/-- No key of a setting occurs twice. -/
def Once (members : Members) : Prop :=
  members.Pairwise fun first second =>
    ∀ s ∈ settings, ¬(Spells first.1 s.name.toList ∧ Spells second.1 s.name.toList)

/-- Every value that is given for a setting means one. -/
def Valid (members : Members) : Prop :=
  ∀ s ∈ settings, ∀ value, GivenIn members s.name value → ∃ part, s.Means value part

/-- Members with which nothing is wrong: every key spells a text, no key of a setting occurs twice, and every
value given for a setting means one. -/
structure Orderly (members : Members) : Prop where
  legible : Legible members
  once : Once settings members
  valid : Valid settings members

/-- Items that mean the first settings, one by one. -/
def ValidItems (items : List Json) : Prop :=
  items.length ≤ settings.length ∧ ∀ entry ∈ settings.zip items, ∃ part, entry.1.Means entry.2 part

/-- What a value means as a record. -/
inductive Describes (default : α) : Json → α → Prop
  | object {members : Members} {record : α} (legible : Legible members) (once : Once settings members)
      (given : ∀ s ∈ settings, s.Given members default record) : Describes default (.object members) record
  | array {items : List Json} {record : α} (short : items.length ≤ settings.length)
      (given : ∀ entry ∈ settings.zip items, entry.1.Means entry.2 (entry.1.get record))
      (others : ∀ s ∈ settings.drop items.length, s.get record = s.get default) :
      Describes default (.array items) record

/-- The first problem with a value, read as a record, is a second occurrence of that key, which a path leads
to. What comes before it is as it should be. -/
inductive RepeatsKey : Json → List Nat → String → Prop
  | here {before after : Members} {key : List Piece} {value earlier : Json} {s : Setting α}
      (orderly : Orderly settings before) (known : s ∈ settings) (first : GivenIn before s.name earlier)
      (second : Spells key s.name.toList) :
      RepeatsKey (.object (before ++ (key, value) :: after)) [before.length] s.name
  | inMember {before after : Members} {key : List Piece} {value : Json} {s : Setting α} {path : List Nat}
      {name : String} (orderly : Orderly settings before) (known : s ∈ settings)
      (first : ∀ earlier, ¬GivenIn before s.name earlier) (spells : Spells key s.name.toList)
      (inner : s.Repeats value path name) :
      RepeatsKey (.object (before ++ (key, value) :: after)) (before.length :: path) name
  | inItem {before after : List Json} {value : Json} {s : Setting α} {path : List Nat} {name : String}
      (valid : ValidItems settings before) (known : settings[before.length]? = some s)
      (inner : s.Repeats value path name) :
      RepeatsKey (.array (before ++ value :: after)) (before.length :: path) name

/-- Settings that do not overlap and make up the whole record. -/
structure Independent : Prop where
  distinct : (settings.map (·.name)).Nodup
  get_set : ∀ s ∈ settings, ∀ record part, s.get (s.set record part) = part
  get_set_other : ∀ s ∈ settings, ∀ other ∈ settings, s.name ≠ other.name →
    ∀ record part, other.get (s.set record part) = other.get record
  ext : ∀ record record', (∀ s ∈ settings, s.get record = s.get record') → record = record'

end

/-! ## Members one by one -/

section

variable {α : Type} {settings : List (Setting α)} {key : List Piece} {value : Json} {rest : Members}
  {name : String}

theorem not_givenIn_nil (name : String) (value : Json) : ¬GivenIn [] name value := by
  rintro ⟨_, member, _⟩
  cases member

theorem givenIn_cons {earlier : Json} :
    GivenIn ((key, value) :: rest) name earlier ↔
      earlier = value ∧ Spells key name.toList ∨ GivenIn rest name earlier := by
  simp only [GivenIn, List.mem_cons, Prod.mk.injEq]
  grind

/-- A setting that occurs once is not given again after it has been given. -/
theorem Once.not_givenIn (once : Once settings ((key, value) :: rest)) {s : Setting α} (known : s ∈ settings)
    (spells : Spells key s.name.toList) (later : Json) : ¬GivenIn rest s.name later := by
  rintro ⟨key', member, spells'⟩
  exact (List.pairwise_cons.mp once).1 _ member s known ⟨spells, spells'⟩

/-- A setting that a member gives, and no later one, is what the member means. -/
theorem given_cons_of_spells {s : Setting α} (spells : Spells key s.name.toList)
    (noMore : ∀ later, ¬GivenIn rest s.name later) {default record : α} :
    s.Given ((key, value) :: rest) default record ↔ s.Means value (s.get record) := by
  constructor
  · rintro (⟨given, member, means⟩ | ⟨absent, -⟩)
    · rcases givenIn_cons.mp member with ⟨rfl, -⟩ | later
      · exact means
      · exact absurd later (noMore given)
    · exact absurd (givenIn_cons.mpr (.inl ⟨rfl, spells⟩)) (absent value)
  · exact fun means => .inl ⟨value, givenIn_cons.mpr (.inl ⟨rfl, spells⟩), means⟩

/-- A member with another key gives nothing. -/
theorem given_cons_of_not_spells {s : Setting α} (other : ¬Spells key s.name.toList) {default record : α} :
    s.Given ((key, value) :: rest) default record ↔ s.Given rest default record := by
  have same : ∀ v, GivenIn ((key, value) :: rest) s.name v ↔ GivenIn rest s.name v := by
    intro v
    rw [givenIn_cons, or_iff_right fun ⟨_, spells⟩ => other spells]
  simp only [Setting.Given, same]

/-- A member whose key is that of no setting gives nothing. -/
theorem given_cons_of_unknown {text : String} (spells : Spells key text.toList)
    (unknown : ∀ s ∈ settings, s.name ≠ text) {default record : α} :
    (∀ s ∈ settings, s.Given ((key, value) :: rest) default record) ↔
      ∀ s ∈ settings, s.Given rest default record :=
  forall₂_congr fun s known =>
    given_cons_of_not_spells fun spells' => unknown s known (spells'.unique spells)

/-- Settings of one name are one setting. -/
theorem Independent.eq_of_name (independent : Independent settings) {s t : Setting α} (known : s ∈ settings)
    (knownT : t ∈ settings) (same : s.name = t.name) : s = t :=
  List.inj_on_of_nodup_map independent.distinct known knownT same

/-- A member gives the setting whose key it has, and those after it give the others. -/
theorem Independent.given_cons (independent : Independent settings) {s : Setting α} (known : s ∈ settings)
    (spells : Spells key s.name.toList) (noMore : ∀ later, ¬GivenIn rest s.name later) {default record : α} :
    (∀ t ∈ settings, t.Given ((key, value) :: rest) default record) ↔
      s.Means value (s.get record) ∧
        ∀ t ∈ settings, t.Given rest (s.set default (s.get record)) record := by
  have others : ∀ t ∈ settings, s.name ≠ t.name →
      (t.Given ((key, value) :: rest) default record ↔
        t.Given rest (s.set default (s.get record)) record) := by
    intro t knownT different
    rw [given_cons_of_not_spells fun spells' => different (spells.unique spells'), Setting.Given,
      Setting.Given, independent.get_set_other s known t knownT different]
  constructor
  · intro given
    refine ⟨(given_cons_of_spells spells noMore).mp (given s known), fun t knownT => ?_⟩
    by_cases same : s.name = t.name
    · obtain rfl := independent.eq_of_name known knownT same
      exact .inr ⟨noMore, (independent.get_set s known _ _).symm⟩
    · exact (others t knownT same).mp (given t knownT)
  · rintro ⟨means, given⟩ t knownT
    by_cases same : s.name = t.name
    · obtain rfl := independent.eq_of_name known knownT same
      exact (given_cons_of_spells spells noMore).mpr means
    · exact (others t knownT same).mpr (given t knownT)

/-- Setting one of the settings leaves those before it and those after it as they are. -/
theorem Independent.get_set_of_mem_rest (independent : Independent settings) {s t : Setting α}
    {done more : List (Setting α)} (whole : settings = done ++ s :: more) (member : t ∈ done ++ more) (record : α)
    (part : s.Part) : t.get (s.set record part) = t.get record := by
  have known : s ∈ settings := by simp [whole]
  have knownT : t ∈ settings := by
    rw [whole]
    grind
  have different : s.name ≠ t.name := by
    have distinct := independent.distinct
    rw [whole, List.map_append, List.map_cons, List.nodup_middle, List.nodup_cons, ← List.map_append] at distinct
    exact fun same => distinct.1 (same ▸ List.mem_map_of_mem member)
  exact independent.get_set_other s known t knownT different record part

/-- What is set, and given by no member, stays. -/
theorem Independent.get_of_not_givenIn (independent : Independent settings) {s : Setting α} (known : s ∈ settings)
    (noMore : ∀ later, ¬GivenIn rest s.name later) {record result : α} {part : s.Part}
    (given : s.Given rest (s.set record part) result) : s.get result = part := by
  rcases given with ⟨later, more, -⟩ | ⟨-, same⟩
  · exact absurd more (noMore later)
  · rw [same, independent.get_set s known]

/-- Members stay orderly when the first of them is taken away. -/
theorem Orderly.tail (orderly : Orderly settings ((key, value) :: rest)) : Orderly settings rest where
  legible := (List.forall_mem_cons.mp orderly.legible).2
  once := (List.pairwise_cons.mp orderly.once).2
  valid := fun s known v given => orderly.valid s known v (givenIn_cons.mpr (.inr given))

/-- Members with which nothing is wrong give a record. -/
theorem Orderly.exists_given {members : Members} (orderly : Orderly settings members)
    (independent : Independent settings) (default : α) :
    ∃ record, ∀ s ∈ settings, s.Given members default record := by
  induction members generalizing default with
  | nil => exact ⟨default, fun s _ => .inr ⟨not_givenIn_nil s.name, rfl⟩⟩
  | cons member rest ih =>
    obtain ⟨key, value⟩ := member
    obtain ⟨text, spells⟩ := orderly.legible (key, value) List.mem_cons_self
    by_cases known : ∃ s ∈ settings, s.name = text
    · obtain ⟨s, known, rfl⟩ := known
      obtain ⟨part, means⟩ := orderly.valid s known value (givenIn_cons.mpr (.inl ⟨rfl, spells⟩))
      obtain ⟨record, given⟩ := ih orderly.tail (s.set default part)
      have noMore := orderly.once.not_givenIn known spells
      have own := independent.get_of_not_givenIn known noMore (given s known)
      refine ⟨record, (independent.given_cons known spells noMore).mpr ?_⟩
      rw [own]
      exact ⟨means, given⟩
    · obtain ⟨record, given⟩ := ih orderly.tail default
      have unknown : ∀ s ∈ settings, s.name ≠ text := fun s mem same => known ⟨s, mem, same⟩
      exact ⟨record, (given_cons_of_unknown spells unknown).mpr given⟩

/-- Members that are still to be read after those whose keys are in `seen`: nothing is wrong with them, and they
make one record out of another. -/
structure Fits (settings : List (Setting α)) (members : Members) (seen : List String) (record result : α) :
    Prop where
  legible : Legible members
  once : Once settings members
  unseen : ∀ s ∈ settings, s.name ∈ seen → ∀ value, ¬GivenIn members s.name value
  given : ∀ s ∈ settings, s.Given members record result

section

variable {seen : List String} {record result : α}

/-- Before anything is read no key has been seen. -/
theorem unseen_nil {members : Members} :
    ∀ s ∈ settings, s.name ∈ ([] : List String) → ∀ value, ¬GivenIn members s.name value :=
  fun _ _ never => absurd never List.not_mem_nil

theorem Independent.fits_nil (independent : Independent settings) :
    Fits settings [] seen record result ↔ record = result := by
  constructor
  · intro fits
    refine independent.ext record result fun s known => ?_
    rcases fits.given s known with ⟨value, given, _⟩ | ⟨-, same⟩
    · exact absurd given (not_givenIn_nil s.name value)
    · exact same.symm
  · rintro rfl
    exact ⟨List.forall_mem_nil _, .nil, fun s _ _ => not_givenIn_nil s.name,
      fun s _ => .inr ⟨not_givenIn_nil s.name, rfl⟩⟩

/-- A member of no known name changes nothing. -/
theorem fits_cons_of_unknown {text : String} (spells : Spells key text.toList)
    (unknown : ∀ s ∈ settings, s.name ≠ text) :
    Fits settings ((key, value) :: rest) seen record result ↔ Fits settings rest seen record result := by
  have other : ∀ s ∈ settings, ¬Spells key s.name.toList :=
    fun s known spells' => unknown s known (spells'.unique spells)
  constructor
  · rintro ⟨legible, once, unseen, given⟩
    exact ⟨(List.forall_mem_cons.mp legible).2, (List.pairwise_cons.mp once).2,
      fun s known before v later => unseen s known before v (givenIn_cons.mpr (.inr later)),
      (given_cons_of_unknown spells unknown).mp given⟩
  · rintro ⟨legible, once, unseen, given⟩
    refine ⟨List.forall_mem_cons.mpr ⟨⟨text, spells⟩, legible⟩, List.pairwise_cons.mpr ⟨?_, once⟩, ?_,
      (given_cons_of_unknown spells unknown).mpr given⟩
    · exact fun _ _ t known both => other t known both.1
    · intro t known before v
      rw [givenIn_cons]
      rintro (⟨-, spells'⟩ | later)
      · exact other t known spells'
      · exact unseen t known before v later

/-- A member whose key is that of a setting sets it, which no other member does. -/
theorem Independent.fits_cons_of_known (independent : Independent settings) {s : Setting α} (known : s ∈ settings)
    (spells : Spells key s.name.toList) :
    Fits settings ((key, value) :: rest) seen record result ↔
      s.name ∉ seen ∧ ∃ part, s.Means value part ∧
        Fits settings rest (s.name :: seen) (s.set record part) result := by
  constructor
  · rintro ⟨legible, once, unseen, given⟩
    have noMore := once.not_givenIn known spells
    have first : s.name ∉ seen :=
      fun before => unseen s known before value (givenIn_cons.mpr (.inl ⟨rfl, spells⟩))
    obtain ⟨means, given⟩ := (independent.given_cons known spells noMore).mp given
    refine ⟨first, _, means, (List.forall_mem_cons.mp legible).2, (List.pairwise_cons.mp once).2, ?_, given⟩
    intro t knownT before
    rcases List.mem_cons.mp before with same | before
    · rw [same]
      exact noMore
    · exact fun v later => unseen t knownT before v (givenIn_cons.mpr (.inr later))
  · rintro ⟨first, part, means, legible, once, unseen, given⟩
    -- Once its key counts as seen, the setting is given by no later member, so it stays as this one says.
    have noMore : ∀ later, ¬GivenIn rest s.name later := unseen s known List.mem_cons_self
    have own := independent.get_of_not_givenIn known noMore (given s known)
    refine ⟨List.forall_mem_cons.mpr ⟨⟨s.name, spells⟩, legible⟩, List.pairwise_cons.mpr ⟨?_, once⟩, ?_, ?_⟩
    · rintro ⟨key', value'⟩ member t knownT ⟨spells', again⟩
      rw [spells'.unique spells] at again
      exact noMore value' ⟨key', member, again⟩
    · intro t knownT before v
      rw [givenIn_cons]
      rintro (⟨-, spells'⟩ | later)
      · exact first (spells'.unique spells ▸ before)
      · exact unseen t knownT (List.mem_cons_of_mem _ before) v later
    · rw [independent.given_cons known spells noMore, own]
      exact ⟨means, given⟩

end

/-- A key of a setting has one value only. -/
theorem Once.eq_of_givenIn {members : Members} (once : Once settings members) {s : Setting α}
    (known : s ∈ settings) {value value' : Json} (given : GivenIn members s.name value)
    (given' : GivenIn members s.name value') : value = value' := by
  obtain ⟨key, member, spells⟩ := given
  obtain ⟨key', member', spells'⟩ := given'
  by_contra different
  have : Std.Symm fun first second : List Piece × Json =>
      ∀ s ∈ settings, ¬(Spells first.1 s.name.toList ∧ Spells second.1 s.name.toList) :=
    ⟨fun _ _ apart s known both => apart s known both.symm⟩
  have others : (key, value) ≠ (key', value') := fun same => different (Prod.mk.inj same).2
  exact List.Pairwise.forall once member member' others s known ⟨spells, spells'⟩

/-- An object means a record exactly if nothing is wrong with its members. -/
theorem Independent.exists_describes_object (independent : Independent settings) {members : Members}
    {default : α} :
    (∃ record, Describes settings default (.object members) record) ↔ Orderly settings members := by
  constructor
  · rintro ⟨record, legible, once, given⟩
    refine ⟨legible, once, fun s known value givenValue => ?_⟩
    rcases given s known with ⟨value', givenValue', means⟩ | ⟨absent, -⟩
    · exact ⟨_, once.eq_of_givenIn known givenValue givenValue' ▸ means⟩
    · exact absurd givenValue (absent value)
  · intro orderly
    obtain ⟨record, given⟩ := orderly.exists_given independent default
    exact ⟨record, .object orderly.legible orderly.once given⟩

end

/-! ## Arrays are objects without keys -/

/-- The members that give items to the first settings, one by one. -/
inductive Labels {α : Type} : List (Setting α) → List Json → Members → Prop
  | nil {settings : List (Setting α)} : Labels settings [] []
  | cons {s : Setting α} {settings : List (Setting α)} {key : List Piece} {item : Json} {items : List Json}
      {members : Members} (spells : Spells key s.name.toList) (rest : Labels settings items members) :
      Labels (s :: settings) (item :: items) ((key, item) :: members)

namespace Labels

variable {α : Type} {settings : List (Setting α)} {items : List Json} {members : Members}

theorem short (labels : Labels settings items members) : items.length ≤ settings.length := by
  induction labels with
  | nil => exact Nat.zero_le _
  | cons _ _ ih => exact Nat.succ_le_succ ih

/-- Each member spells the name of a setting. -/
theorem exists_spells (labels : Labels settings items members) :
    ∀ member ∈ members, ∃ s ∈ settings, Spells member.1 s.name.toList := by
  induction labels with
  | nil => nofun
  | @cons s _ _ _ _ _ spells _ ih =>
    refine List.forall_mem_cons.mpr ⟨⟨s, List.mem_cons_self, spells⟩, fun member mem => ?_⟩
    obtain ⟨t, known, spells⟩ := ih member mem
    exact ⟨t, List.mem_cons_of_mem _ known, spells⟩

/-- Labelled members have names that can be read. -/
theorem legible (labels : Labels settings items members) : Legible members := by
  intro member mem
  obtain ⟨s, -, spells⟩ := labels.exists_spells member mem
  exact ⟨s.name, spells⟩

/-- The key of the first of different settings is not among the keys of the others. -/
theorem not_givenIn {s : Setting α} (labels : Labels settings items members)
    (fresh : s.name ∉ settings.map (·.name)) (value : Json) : ¬GivenIn members s.name value := by
  rintro ⟨key, mem, spells⟩
  obtain ⟨t, known, spells'⟩ := labels.exists_spells (key, value) mem
  exact fresh (List.mem_map.mpr ⟨t, known, spells'.unique spells⟩)

/-- Labelled members give no setting twice, since no two settings share a name. -/
theorem once (labels : Labels settings items members) (distinct : (settings.map (·.name)).Nodup)
    (known : List (Setting α)) : Once known members := by
  induction labels with
  | nil => exact List.Pairwise.nil
  | @cons s _ key _ _ _ spells rest ih =>
    obtain ⟨fresh, distinct⟩ := List.nodup_cons.mp distinct
    refine List.pairwise_cons.mpr ⟨?_, ih distinct⟩
    rintro ⟨key', value⟩ mem t - ⟨first, second⟩
    rw [first.unique spells] at second
    exact rest.not_givenIn fresh value ⟨key', mem, second⟩

/-- What items mean one by one is what members mean that give them to the settings one by one. -/
theorem given_iff (labels : Labels settings items members) (distinct : (settings.map (·.name)).Nodup)
    {default record : α} :
    (∀ s ∈ settings, s.Given members default record) ↔
      (∀ entry ∈ settings.zip items, entry.1.Means entry.2 (entry.1.get record)) ∧
        ∀ s ∈ settings.drop items.length, s.get record = s.get default := by
  induction labels with
  | nil => simp [Setting.Given, GivenIn]
  | @cons s settings key item items members spells rest ih =>
    obtain ⟨fresh, distinct⟩ := List.nodup_cons.mp distinct
    have others : ∀ t ∈ settings, ¬Spells key t.name.toList :=
      fun t known spells' => fresh (List.mem_map.mpr ⟨t, known, spells'.unique spells⟩)
    have more : (∀ t ∈ settings, t.Given ((key, item) :: members) default record) ↔
        ∀ t ∈ settings, t.Given members default record :=
      forall₂_congr fun t known => given_cons_of_not_spells (others t known)
    rw [List.forall_mem_cons, given_cons_of_spells spells (rest.not_givenIn fresh), more, ih distinct,
      List.zip_cons_cons, List.forall_mem_cons, List.length_cons, List.drop_succ_cons, and_assoc]

/-- An array means what the object means that gives its items to the first settings. -/
theorem describes_iff (labels : Labels settings items members) (distinct : (settings.map (·.name)).Nodup)
    {default record : α} :
    Describes settings default (.array items) record ↔ Describes settings default (.object members) record := by
  constructor
  · rintro (_ | ⟨-, given, others⟩)
    exact .object labels.legible (labels.once distinct settings)
      ((labels.given_iff distinct).mpr ⟨given, others⟩)
  · rintro ⟨-, -, given⟩
    obtain ⟨given, others⟩ := (labels.given_iff distinct).mp given
    exact .array labels.short given others

end Labels

/-- Objects and arrays mean a default with what they give in place of its settings. -/
structure ReplacesDefaults {α : Type} (settings : List (Setting α)) (default : α) : Prop where
  object : ∀ members, Orderly settings members →
    ∃ record, (∀ record', Describes settings default (.object members) record' ↔ record' = record) ∧
      ∀ s ∈ settings, s.Given members default record
  array : ∀ items members, ValidItems settings items → Labels settings items members →
    ∃ record, ∀ record', (Describes settings default (.array items) record' ↔ record' = record) ∧
      (Describes settings default (.object members) record' ↔ record' = record)

/-! ## Reading members -/

/-- What is wrong with a value in which a key occurs for the second time where a path leads to. -/
def secondOccurrence (path : List Nat) (name : String) : Fault where
  problem := .duplicateField name
  spot := { path, edge := .colon }

/-- A field reads a setting: it takes what a value means, and it finds a key that occurs twice. -/
structure Field.Reads {α : Type} (field : Field α) (s : Setting α) : Prop where
  name_eq : field.name = s.name
  exact : ∀ j record record', field.read j record = .ok record' ↔
    ∃ part, s.Means j part ∧ s.set record part = record'
  repeated : ∀ j path name, s.Repeats j path name →
    ∀ record, field.read j record = .error (secondOccurrence path name)

/-- The fields of a shape read settings one by one, unknown keys are passed over, and nothing is wrong with a
record as a whole. -/
structure RecordShape.Reads {α : Type} (shape : RecordShape α) (settings : List (Setting α)) : Prop where
  independent : Independent settings
  fields : List.Forall₂ Field.Reads shape.fields settings
  skipsUnknown : shape.skipsUnknown = true
  noFlaw : ∀ record, shape.flaw? record = none

namespace RecordShape.Reads

variable {α : Type} {shape : RecordShape α} {settings : List (Setting α)} (reads : shape.Reads settings)
  {index : Nat} {seen : List String} {key : List Piece} {value : Json} {rest : Members}
  {record result : α}

include reads

/-- A name is looked up in vain if no setting has it; otherwise the field found reads the setting of that name. -/
theorem find?_fields (name : String) :
    (shape.fields.find? (·.name == name) = none ∧ ∀ s ∈ settings, s.name ≠ name) ∨
      ∃ field, shape.fields.find? (·.name == name) = some field ∧
        ∃ s ∈ settings, s.name = name ∧ field.Reads s := by
  have paired := reads.fields
  generalize shape.fields = fields at paired
  clear reads
  induction paired with
  | nil => exact .inl ⟨rfl, nofun⟩
  | @cons field s fields others reads paired ih =>
    by_cases same : field.name = name
    · have found : (field :: fields).find? (·.name == name) = some field := by simp [same]
      exact .inr ⟨field, found, s, List.mem_cons_self, reads.name_eq ▸ same, reads⟩
    · have skipped : (field :: fields).find? (·.name == name) = fields.find? (·.name == name) := by
        simp [same]
      rw [skipped]
      rcases ih with ⟨none, unknown⟩ | ⟨found, mem, t, known, rest⟩
      · exact .inl ⟨none, List.forall_mem_cons.mpr ⟨reads.name_eq ▸ same, unknown⟩⟩
      · exact .inr ⟨found, mem, t, List.mem_cons_of_mem _ known, rest⟩

/-- The field of a known setting is found under its name. -/
theorem find?_of_mem {s : Setting α} (known : s ∈ settings) :
    ∃ field, shape.fields.find? (·.name == s.name) = some field ∧ field.Reads s := by
  rcases reads.find?_fields s.name with ⟨-, unknown⟩ | ⟨field, found, t, knownT, same, fieldReads⟩
  · exact absurd rfl (unknown s known)
  · obtain rfl := reads.independent.eq_of_name knownT known same
    exact ⟨field, found, fieldReads⟩

/-- Reading passes over a member of no known name. -/
theorem readMembers_of_unknown {name : String} (spells : Spells key name.toList)
    (unknown : ∀ s ∈ settings, s.name ≠ name) :
    shape.readMembers index seen ((key, value) :: rest) record =
      shape.readMembers (index + 1) seen rest record := by
  rcases reads.find?_fields name with ⟨none, -⟩ | ⟨_, _, s, known, same, -⟩
  · rw [RecordShape.readMembers, decode_eq_ok.mpr spells, ok_mapError, ok_bind]
    simp only [none, reads.skipsUnknown, if_true]
  · exact absurd same (unknown s known)

/-- A setting that has been read already is refused when it occurs again. -/
theorem readMembers_of_seen {s : Setting α} (known : s ∈ settings) (spells : Spells key s.name.toList)
    (second : s.name ∈ seen) :
    shape.readMembers index seen ((key, value) :: rest) record = .error (secondOccurrence [index] s.name) := by
  obtain ⟨field, found, -⟩ := reads.find?_of_mem known
  rw [RecordShape.readMembers, decode_eq_ok.mpr spells, ok_mapError, ok_bind]
  simp only [found, List.contains_iff_mem, if_pos second]
  rfl

/-- A setting that occurs for the first time is read by its field, and the rest with its name remembered. -/
theorem readMembers_of_known {s : Setting α} (known : s ∈ settings) (spells : Spells key s.name.toList) :
    ∃ field : Field α, field.Reads s ∧ ∀ index seen value rest record, s.name ∉ seen →
      shape.readMembers index seen ((key, value) :: rest) record =
        (field.read value record).mapError (Fault.within index) >>=
          shape.readMembers (index + 1) (s.name :: seen) rest := by
  obtain ⟨field, found, fieldReads⟩ := reads.find?_of_mem known
  refine ⟨field, fieldReads, fun index seen value rest record first => ?_⟩
  rw [RecordShape.readMembers, decode_eq_ok.mpr spells, ok_mapError, ok_bind]
  simp only [found, List.contains_iff_mem, if_neg first]

omit reads in
/-- A key that spells no text is not read. -/
theorem readMembers_of_illegible (illegible : ∀ text, decode key ≠ .ok text) (read : α × List String) :
    shape.readMembers index seen ((key, value) :: rest) record ≠ .ok read := by
  intro done
  obtain ⟨text, spelled, -⟩ := bind_eq_ok.mp (RecordShape.readMembers.eq_2 .. ▸ done)
  exact illegible text (mapError_eq_ok.mp spelled)

/-- Members are read exactly if they fit. -/
theorem readMembers_exact {members : Members} :
    (∃ seen', shape.readMembers index seen members record = .ok (result, seen')) ↔
      Fits settings members seen record result := by
  induction members generalizing index seen record with
  | nil =>
    rw [reads.independent.fits_nil]
    simp [RecordShape.readMembers]
  | cons member rest ih =>
    obtain ⟨key, value⟩ := member
    by_cases legible : ∃ text, decode key = .ok text
    · obtain ⟨text, spelled⟩ := legible
      have spells := decode_eq_ok.mp spelled
      by_cases known : ∃ s ∈ settings, s.name = text
      · obtain ⟨s, known, rfl⟩ := known
        rw [reads.independent.fits_cons_of_known known spells]
        -- The key is that of a setting: it is refused the second time, and read by its field the first time.
        by_cases second : s.name ∈ seen
        · rw [reads.readMembers_of_seen known spells second]
          refine iff_of_false ?_ fun ⟨first, _⟩ => first second
          rintro ⟨_, ⟨⟩⟩
        · obtain ⟨field, fieldReads, step⟩ := reads.readMembers_of_known known spells
          simp only [step index seen value rest record second, bind_eq_ok, mapError_eq_ok, fieldReads.exact]
          constructor
          · rintro ⟨seen', _, ⟨part, means, rfl⟩, read⟩
            exact ⟨second, part, means, ih.mp ⟨seen', read⟩⟩
          · rintro ⟨_, part, means, fits⟩
            obtain ⟨seen', read⟩ := ih.mpr fits
            exact ⟨seen', _, ⟨part, means, rfl⟩, read⟩
      · have unknown : ∀ s ∈ settings, s.name ≠ text := fun s mem same => known ⟨s, mem, same⟩
        rw [reads.readMembers_of_unknown spells unknown, fits_cons_of_unknown spells unknown]
        exact ih
    · -- A key that spells nothing is neither read nor fits.
      refine iff_of_false ?_ fun fits => ?_
      · rintro ⟨seen', read⟩
        exact readMembers_of_illegible (fun text spelled => legible ⟨text, spelled⟩) _ read
      · obtain ⟨text, spells⟩ := fits.legible (key, value) List.mem_cons_self
        exact legible ⟨text, decode_eq_ok.mpr spells⟩

/-- The keys that have been seen after members are those of settings that are given. -/
theorem mem_seen_iff {members : Members} {seen' : List String}
    (read : shape.readMembers index seen members record = .ok (result, seen')) {s : Setting α}
    (known : s ∈ settings) :
    s.name ∈ seen' ↔ s.name ∈ seen ∨ ∃ value, GivenIn members s.name value := by
  induction members generalizing index seen record with
  | nil =>
    obtain ⟨rfl, rfl⟩ := Prod.mk.inj (Except.ok.inj read)
    simp [not_givenIn_nil]
  | cons member rest ih =>
    obtain ⟨key, value⟩ := member
    obtain ⟨text, spells⟩ := (reads.readMembers_exact.mp ⟨seen', read⟩).legible (key, value) List.mem_cons_self
    have same : Spells key s.name.toList ↔ s.name = text :=
      ⟨fun spells' => spells'.unique spells, fun same => same ▸ spells⟩
    by_cases knownKey : ∃ t ∈ settings, t.name = text
    · obtain ⟨t, knownT, rfl⟩ := knownKey
      have first : t.name ∉ seen := by
        intro second
        rw [reads.readMembers_of_seen knownT spells second] at read
        cases read
      obtain ⟨field, -, step⟩ := reads.readMembers_of_known knownT spells
      rw [step index seen value rest record first] at read
      obtain ⟨taken, -, read⟩ := bind_eq_ok.mp read
      simp only [ih read, List.mem_cons, givenIn_cons, same]
      grind
    · have unknown : ∀ t ∈ settings, t.name ≠ text := fun t mem same => knownKey ⟨t, mem, same⟩
      rw [reads.readMembers_of_unknown spells unknown] at read
      simp only [ih read, givenIn_cons, same, unknown s known, and_false, false_or]

omit reads in
/-- Reading one stretch of members after another is to read the one and go on with the other from there. -/
theorem readMembers_append (before after : Members) :
    shape.readMembers index seen (before ++ after) record =
      shape.readMembers index seen before record >>= fun read =>
        shape.readMembers (index + before.length) read.2 after read.1 := by
  induction before generalizing index seen record with
  | nil => rfl
  | cons member before ih =>
    obtain ⟨key, value⟩ := member
    have length : index + ((key, value) :: before).length = index + 1 + before.length := by
      rw [List.length_cons]
      omega
    rw [List.cons_append, RecordShape.readMembers, RecordShape.readMembers, length, bind_assoc]
    refine bind_congr fun name => ?_
    cases shape.fields.find? (·.name == name) with
    | none =>
      cases shape.skipsUnknown with
      | true => exact ih
      | false => rfl
    | some field =>
      cases seen.contains name with
      | true => rfl
      | false =>
        simp only [Bool.false_eq_true, if_false, bind_assoc]
        exact bind_congr fun record => ih

/-! ## Reading items -/

/-- Items are read as a record exactly if they mean its first settings and leave the others as they are. The
induction is on the settings that are left, `more`, with those before them kept in `done`. -/
theorem readItems_exact {fields : List (Field α)} {done more : List (Setting α)}
    (whole : settings = done ++ more) (paired : List.Forall₂ Field.Reads fields more) (index : Nat)
    (items : List Json) (record result : α) :
    (∃ count, RecordShape.readItems index fields items record = .ok (result, count)) ↔
      (∀ entry ∈ more.zip items, entry.1.Means entry.2 (entry.1.get result)) ∧
        ∀ s ∈ done ++ more.drop items.length, s.get result = s.get record := by
  have get_eq : ∀ {record : α}, (∀ s ∈ settings, s.get result = s.get record) ↔ result = record :=
    fun {record} => ⟨reads.independent.ext result record, fun same _ _ => same ▸ rfl⟩
  induction paired generalizing index items record done with
  | nil =>
    have read : (∃ count, RecordShape.readItems index [] items record = .ok (result, count)) ↔
        result = record := by
      cases items <;> simp [RecordShape.readItems, eq_comm]
    rw [read, ← get_eq, whole]
    simp
  | @cons field s fields more fieldReads paired ih =>
    cases items with
    | nil =>
      have read : (∃ count, RecordShape.readItems index (field :: fields) [] record = .ok (result, count)) ↔
          result = record := by
        simp [RecordShape.readItems, eq_comm]
      rw [read, ← get_eq, whole]
      simp
    | cons value rest =>
      have known : s ∈ settings := by simp [whole]
      -- One item gives its setting, and the others are read into the record with that setting in place.
      have step : (∃ count, RecordShape.readItems index (field :: fields) (value :: rest) record =
            .ok (result, count)) ↔
          ∃ part, s.Means value part ∧ ∃ count,
            RecordShape.readItems (index + 1) fields rest (s.set record part) = .ok (result, count) := by
        simp only [RecordShape.readItems, bind_eq_ok, mapError_eq_ok, fieldReads.exact]
        grind
      have others := fun t (member : t ∈ done ++ more) => reads.independent.get_set_of_mem_rest whole member record
      have sub : ∀ t ∈ done ++ more.drop rest.length, t ∈ done ++ more := by
        intro t member
        rw [List.mem_append] at member ⊢
        exact member.imp_right List.mem_of_mem_drop
      have split : settings = done ++ [s] ++ more := by simp [whole]
      have ih := fun part => ih split (index + 1) rest (s.set record part)
      simp only [step, ih]
      constructor
      · rintro ⟨part, means, given, kept⟩
        -- What later items do, they do to other settings.
        have own : s.get result = part := by
          rw [kept s (by simp), reads.independent.get_set s known]
        refine ⟨List.forall_mem_cons.mpr ⟨own ▸ means, given⟩, fun t member => ?_⟩
        rw [kept t (by simpa using (List.mem_append.mp member).imp_right .inr), others t (sub t member)]
      · rintro ⟨given, kept⟩
        obtain ⟨means, given⟩ := List.forall_mem_cons.mp given
        refine ⟨s.get result, means, given, fun t member => ?_⟩
        by_cases same : t = s
        · rw [same, reads.independent.get_set s known]
        · have member : t ∈ done ++ more.drop rest.length := by simpa [same] using member
          rw [others t (sub t member)]
          exact kept t member

end RecordShape.Reads

/-- Items that each mean a setting are all read. -/
theorem exists_readItems {α : Type} {fields : List (Field α)} {settings : List (Setting α)}
    (paired : List.Forall₂ Field.Reads fields settings) {items : List Json}
    (valid : ValidItems settings items) (index : Nat) (record : α) :
    ∃ result, RecordShape.readItems index fields items record = .ok (result, index + items.length) := by
  induction paired generalizing items index record with
  | nil =>
    obtain rfl : items = [] := List.length_eq_zero_iff.mp (Nat.le_zero.mp valid.1)
    exact ⟨record, rfl⟩
  | @cons field s fields settings reads paired ih =>
    cases items with
    | nil => exact ⟨record, rfl⟩
    | cons value rest =>
      obtain ⟨first, others⟩ := List.forall_mem_cons.mp valid.2
      obtain ⟨part, means⟩ := first
      have taken := (reads.exact value record _).mpr ⟨part, means, rfl⟩
      obtain ⟨result, read⟩ := ih ⟨Nat.le_of_succ_le_succ valid.1, others⟩ (index + 1) (s.set record part)
      refine ⟨result, ?_⟩
      rw [RecordShape.readItems, taken, ok_mapError, ok_bind, read, List.length_cons]
      congr 2
      omega

/-- Reading items in turn is to read the first of them and go on with the fields that are left. -/
theorem readItems_append {α : Type} {index : Nat} {record : α} {fields : List (Field α)} {before : List Json}
    (short : before.length ≤ fields.length) (after : List Json) :
    RecordShape.readItems index fields (before ++ after) record =
      RecordShape.readItems index fields before record >>= fun (record, index) =>
        RecordShape.readItems index (fields.drop before.length) after record := by
  induction before generalizing index fields record with
  | nil => simp [RecordShape.readItems, ok_bind]
  | cons value before ih =>
    match fields with
    | [] => cases short
    | field :: fields =>
      rw [List.cons_append, RecordShape.readItems, RecordShape.readItems, bind_assoc]
      exact bind_congr fun record => ih (Nat.le_of_succ_le_succ short)

/-! ## Reading records -/

namespace RecordShape.Reads

variable {α : Type} {shape : RecordShape α} {settings : List (Setting α)} (reads : shape.Reads settings)

include reads

/-- A shape whose check finds no flaw in any record takes every record. -/
theorem checked_eq (record : α) : shape.checked record = .ok record := by
  rw [RecordShape.checked, reads.noFlaw]

/-- Members with which nothing is wrong are read, and the keys seen are those that are given. -/
theorem readMembers_of_orderly {members : Members} (orderly : Orderly settings members) (default : α) :
    ∃ record seen, shape.readMembers 0 [] members default = .ok (record, seen) ∧
      ∀ s ∈ settings, s.name ∈ seen ↔ ∃ value, GivenIn members s.name value := by
  obtain ⟨record, given⟩ := orderly.exists_given reads.independent default
  obtain ⟨seen, read⟩ := reads.readMembers_exact.mpr ⟨orderly.legible, orderly.once, unseen_nil, given⟩
  exact ⟨record, seen, read, fun s known => by simpa using reads.mem_seen_iff read known⟩

/-- A value is read as a record exactly if it means that record. -/
theorem exact (default record : α) (j : Json) :
    shape.readOver default j = .ok record ↔ Describes settings default j record := by
  cases j with
  | object members =>
    rw [RecordShape.readOver, bind_eq_ok]
    constructor
    · rintro ⟨⟨result, seen⟩, read, same⟩
      obtain rfl : result = record := by simpa [reads.checked_eq] using same
      obtain ⟨legible, once, -, given⟩ := reads.readMembers_exact.mp ⟨seen, read⟩
      exact .object legible once given
    · rintro ⟨legible, once, given⟩
      obtain ⟨seen, read⟩ := reads.readMembers_exact.mpr ⟨legible, once, unseen_nil, given⟩
      exact ⟨_, read, reads.checked_eq record⟩
  | array items =>
    have itemsExact := reads.readItems_exact (List.nil_append settings).symm reads.fields 0 items default record
    have length : shape.fields.length = settings.length := reads.fields.length_eq
    rw [RecordShape.readOver, bind_eq_ok]
    constructor
    · rintro ⟨⟨result, count⟩, read, rest⟩
      simp only [reads.checked_eq, ok_bind, RecordShape.refuseMore] at rest
      split at rest
      · cases rest
      · next short =>
        obtain rfl : result = record := Except.ok.inj rest
        obtain ⟨given, others⟩ := itemsExact.mp ⟨count, read⟩
        exact .array (by omega) given others
    · rintro (_ | ⟨short, given, others⟩)
      obtain ⟨count, read⟩ := itemsExact.mpr ⟨given, others⟩
      refine ⟨_, read, ?_⟩
      simp only [reads.checked_eq, ok_bind, RecordShape.refuseMore]
      rw [if_neg (by omega)]
      rfl
  | _ =>
    rw [RecordShape.readOver]
    · exact iff_of_false nofun nofun
    · nofun
    · nofun

/-- A second occurrence of a key that is what is wrong first with a value is what is reported. -/
theorem repeated {j : Json} {path : List Nat} {name : String} (repeats : RepeatsKey settings j path name)
    (default : α) : shape.readOver default j = .error (secondOccurrence path name) := by
  cases repeats with
  | @here before after key value earlier s orderly known first second =>
    obtain ⟨record, seen, read, became⟩ := reads.readMembers_of_orderly orderly default
    have again : s.name ∈ seen := (became s known).mpr ⟨earlier, first⟩
    rw [RecordShape.readOver, readMembers_append, read, ok_bind, reads.readMembers_of_seen known second again,
      Nat.zero_add]
    rfl
  | @inMember before after key value s path _ orderly known first spells inner =>
    obtain ⟨record, seen, read, became⟩ := reads.readMembers_of_orderly orderly default
    have fresh : s.name ∉ seen := by
      rw [became s known]
      exact fun ⟨earlier, given⟩ => first earlier given
    obtain ⟨field, fieldReads, step⟩ := reads.readMembers_of_known known spells
    rw [RecordShape.readOver, readMembers_append, read, ok_bind, step _ _ _ _ _ fresh,
      fieldReads.repeated _ _ _ inner, Nat.zero_add]
    rfl
  | @inItem before after value s path _ valid known inner =>
    obtain ⟨bound, rfl⟩ := List.getElem?_eq_some_iff.mp known
    have bound' : before.length < shape.fields.length := reads.fields.length_eq ▸ bound
    have fieldReads := reads.fields.get bound' bound
    obtain ⟨result, read⟩ := exists_readItems reads.fields valid 0 default
    have rejected := fieldReads.repeated _ _ _ inner result
    rw [List.get_eq_getElem] at rejected
    rw [RecordShape.readOver, readItems_append (by omega), read, ok_bind, List.drop_eq_getElem_cons bound']
    simp only [RecordShape.readItems, rejected, Nat.zero_add]
    rfl

/-- A value means at most one record. -/
theorem describes_unique {default record record' : α} {j : Json} (h : Describes settings default j record)
    (h' : Describes settings default j record') : record = record' :=
  Except.ok.inj (((reads.exact default record j).mpr h).symm.trans ((reads.exact default record' j).mpr h'))

/-- An array means a record exactly if its items mean the first settings. -/
theorem exists_describes_array {items : List Json} {default : α} :
    (∃ record, Describes settings default (.array items) record) ↔ ValidItems settings items := by
  constructor
  · rintro ⟨record, _ | ⟨short, given, -⟩⟩
    exact ⟨short, fun entry member => ⟨_, given entry member⟩⟩
  · intro valid
    obtain ⟨record, read⟩ := exists_readItems reads.fields valid 0 default
    obtain ⟨given, others⟩ :=
      (reads.readItems_exact (List.nil_append settings).symm reads.fields 0 items default record).mp ⟨_, read⟩
    exact ⟨record, .array valid.1 given others⟩

/-- Objects and arrays mean the default with what they give in place of its settings. -/
theorem replacesDefaults (default : α) : ReplacesDefaults settings default where
  object members orderly := by
    obtain ⟨record, describes⟩ := reads.independent.exists_describes_object.mpr orderly
    refine ⟨record, fun record' => ⟨fun h => reads.describes_unique h describes, ?_⟩, ?_⟩
    · rintro rfl
      exact describes
    · cases describes with
      | object _ _ given => exact given
  array items members valid labels := by
    obtain ⟨record, describes⟩ := reads.exists_describes_array.mpr valid
    have same : ∀ record', Describes settings default (.array items) record' ↔ record' = record := by
      refine fun record' => ⟨fun h => reads.describes_unique h describes, ?_⟩
      rintro rfl
      exact describes
    refine ⟨record, fun record' => ⟨same record', ?_⟩⟩
    rw [← labels.describes_iff reads.independent.distinct]
    exact same record'

end RecordShape.Reads

end WorkerPool.Json
