import TemplateLint.Proofs.Config.Layers
import TemplateLint.Proofs.Value.Layering
import TemplateLint.Proofs.Value.Numbers

/-!
# Configurations that are read

Whatever bytes a configuration is read from, it holds a tree: plain, with all
numbers in stored form.  Literals are the only source of numbers, and every
step of the reader puts values together that it has read before.
-/

namespace TemplateLint

/-! ## What a reader yields -/

section Yields

variable {ε α β : Type} {holds : α → Prop} {holdsToo : β → Prop}

/-- Whatever a reader yields has a property. -/
def Yields (holds : α → Prop) (reading : Except ε α) : Prop :=
  ∀ result, reading = .ok result → holds result

theorem yields_ok {result : α} (here : holds result) :
    Yields holds (.ok result : Except ε α) := by
  rintro _ ⟨⟩
  exact here

theorem yields_error (error : ε) : Yields holds (.error error) := by
  rintro _ ⟨⟩

theorem yields_any (reading : Except ε α) : Yields (fun _ => True) reading :=
  fun _ _ => trivial

theorem Yields.bind {reading : Except ε α} {next : α → Except ε β}
    (first : Yields holds reading)
    (later : ∀ result, holds result → Yields holdsToo (next result)) :
    Yields holdsToo (reading >>= next) := by
  cases reading with
  | error error => exact yields_error error
  | ok result => exact later result (first result rfl)

theorem yields_map {reading : Except ε α} {change : α → β}
    (changed : ∀ result, holdsToo (change result)) :
    Yields holdsToo (reading.map change) := by
  cases reading with
  | error error => exact yields_error error
  | ok result => exact yields_ok (changed result)

end Yields

/-! ## Stored tables -/

namespace Value

theorem areStoredEntries_put {entries : Entries} {key value : Value}
    (stored : AreStoredEntries entries) (storedKey : key.IsStored)
    (storedValue : value.IsStored) : AreStoredEntries (entries.put key value) := by
  induction entries with
  | nil => exact ⟨storedKey, storedValue, trivial⟩
  | cons entry entries induction =>
      rw [Entries.put]
      split
      · exact ⟨stored.1, storedValue, stored.2.2⟩
      · exact ⟨stored.1, stored.2.1, induction stored.2.2⟩

mutual

theorem isStored_plain : (value : Value) → value.IsStored → (plain value).IsStored
  | .null, _ | .bool _, _ | .int _, _ | .text _, _ | .date _, _ | .time _, _
  | .moment _, _ => trivial
  | .float _, stored => stored
  | .list items, stored | .tuple items, stored => areStored_plainItems items stored
  | .table entries, stored | .mapping entries, stored =>
      areStoredEntries_plainEntries [] entries trivial stored

theorem areStored_plainItems : (items : List Value) → AreStored items →
    AreStored (plainItems items)
  | [], _ => trivial
  | item :: later, ⟨stored, storedLater⟩ =>
      ⟨isStored_plain item stored, areStored_plainItems later storedLater⟩

theorem areStoredEntries_plainEntries : (done entries : Entries) →
    AreStoredEntries done → AreStoredEntries entries →
      AreStoredEntries (plainEntries done entries)
  | _, [], stored, _ => stored
  | done, (key, value) :: later, stored, ⟨_, storedValue, storedLater⟩ =>
      areStoredEntries_plainEntries (done.put (.text key.label) (plain value)) later
        (areStoredEntries_put stored trivial (isStored_plain value storedValue))
        storedLater

end

mutual

theorem isStored_overriddenBy {key : Value} {current : Option Value}
    (storedCurrent : ∀ value ∈ current, value.IsStored) :
    (value : Value) → value.IsStored → (overriddenBy key current value).IsStored
  | .null, _ | .bool _, _ | .int _, _ | .text _, _ | .date _, _ | .time _, _
  | .moment _, _ => trivial
  | .float _, stored | .tuple _, stored => stored
  | .list items, stored => by
      unfold overriddenBy
      split
      · next before =>
          have storedBefore : AreStored before := storedCurrent (.list before) rfl
          split
          · refine areStored_iff.mpr fun item member => ?_
            rcases mem_accumulate_iff.mp member with first | ⟨new, -⟩
            · exact isStored_of_mem storedBefore first
            · exact isStored_of_mem stored new
          · exact stored
      · exact stored
  | .table entries, stored | .mapping entries, stored => by
      unfold overriddenBy
      split
      · next base found =>
          obtain ⟨value, held, mapped⟩ := Option.bind_eq_some_iff.mp found
          exact areStoredEntries_mergeEntries
            (areStoredEntries_of_entries? (storedCurrent value held) mapped) entries
            stored
      · exact stored

theorem areStoredEntries_mergeEntries {base : Entries}
    (storedBase : AreStoredEntries base) :
    (entries : List (Value × Value)) → AreStoredEntries entries →
      AreStoredEntries (mergeEntries base entries)
  | [], _ => storedBase
  | (key, value) :: later, ⟨storedKey, stored, storedLater⟩ => by
      refine areStoredEntries_mergeEntries
        (areStoredEntries_put storedBase storedKey ?_) later storedLater
      exact isStored_overriddenBy
        (fun current held => isStored_of_get? storedBase held) value stored

end

/-- Layers of trees are trees. -/
theorem IsTree.merge {base override : Entries} (tree : (table base).IsTree)
    (treeOverride : (table override).IsTree) : (table (base.merge override)).IsTree :=
  ⟨isPlainTable_mergeEntries tree.plain override treeOverride.plain,
    areStoredEntries_mergeEntries tree.stored override treeOverride.stored⟩

end Value

/-! ## The reader of documents -/

namespace Toml

open Value (AreStored AreStoredEntries areStored_iff areStoredEntries_put
  isStored_of_mem isStored_of_get?)

variable {text : Text} {reading : Except Failure (Parsed Value)}

theorem yields_dateOrMoment? (found : dateOrMoment? text = some reading) :
    Yields (·.1.IsStored) reading := by
  rw [dateOrMoment?, Option.map_eq_some_iff] at found
  obtain ⟨⟨date, afterDate⟩, -, rfl⟩ := found
  simp only
  split
  · exact yields_error _
  · split
    · exact yields_ok trivial
    · exact yields_ok trivial

theorem yields_decimalNumber? (found : decimalNumber? text = some reading) :
    Yields (·.1.IsStored) reading := by
  simp only [decimalNumber?, Option.bind_eq_bind, Option.bind_eq_some_iff] at found
  obtain ⟨⟨whole, afterWhole⟩, -, found⟩ := found
  simp only at found
  split at found
  · cases found
    exact yields_ok (Binary64.isStored_ofLiteral _)
  · split at found
    · cases found
      exact yields_error _
    · cases found
      exact yields_ok trivial

theorem isStored_of_basedNumber? {parsed : Parsed Value}
    (found : basedNumber? text = some parsed) : parsed.1.IsStored := by
  have whole {base : Nat} {isDigit : Char → Bool} {rest : Text}
      (read : basedNumber?.read base isDigit rest = some parsed) :
      parsed.1.IsStored := by
    rw [basedNumber?.read, Option.map_eq_some_iff] at read
    obtain ⟨digits, -, rfl⟩ := read
    trivial
  unfold basedNumber? at found
  split at found
  · exact whole found
  · exact whole found
  · exact whole found
  · contradiction

theorem yields_number? (found : number? text = some reading) :
    Yields (·.1.IsStored) reading := by
  rw [number?] at found
  split at found
  · next based =>
      cases found
      exact yields_ok (isStored_of_basedNumber? based)
  · exact yields_decimalNumber? found

theorem isStored_of_specialNumber? {document : Nat} {parsed : Parsed Value}
    (found : specialNumber? document text = some parsed) : parsed.1.IsStored := by
  simp only [specialNumber?] at found
  split at found
  · cases found
    trivial
  · cases found
    trivial
  · contradiction

theorem yields_scalar (document : Nat) (text : Text) :
    Yields (·.1.IsStored) (scalar document text) := by
  unfold scalar
  split
  · exact yields_map fun _ => trivial
  · split
    · exact yields_ok trivial
    · exact yields_ok trivial
    · split
      · next found => exact yields_dateOrMoment? found
      · split
        · exact yields_ok trivial
        · split
          · next found => exact yields_number? found
          · split
            · next found => exact yields_ok (isStored_of_specialNumber? found)
            · exact yields_error _

/-! ## Nested tables -/

variable {change : Entries → Except Problem Entries}

/-- A change below a key keeps tables stored if it does so in place. -/
theorem yields_updateNest {throughLists : Bool}
    (keeps : ∀ entries, AreStoredEntries entries →
      Yields AreStoredEntries (change entries))
    (key : Key) {entries : Entries} (stored : AreStoredEntries entries) :
    Yields AreStoredEntries (updateNest throughLists change key entries) := by
  induction key generalizing entries with
  | nil => exact keeps entries stored
  | cons part rest induction =>
      rw [updateNest]
      split
      · refine (@induction [] trivial).bind fun nested storedNested => ?_
        exact yields_ok (areStoredEntries_put stored trivial storedNested)
      · next nested found =>
          refine (induction (isStored_of_get? stored found)).bind
            fun changed storedNew => ?_
          exact yields_ok (areStoredEntries_put stored trivial storedNew)
      · next items found =>
          have storedItems : AreStored items := isStored_of_get? stored found
          split
          · next nested last =>
              have inside := List.mem_of_getLast? last
              refine (induction (isStored_of_mem storedItems inside)).bind
                fun changed storedNew => ?_
              refine yields_ok (areStoredEntries_put stored trivial ?_)
              rw [Value.IsStored, areStored_iff]
              intro item member
              rcases List.mem_append.mp member with before | new
              · exact isStored_of_mem storedItems
                  ((List.dropLast_prefix items).subset before)
              · cases List.mem_singleton.mp new
                exact storedNew
          · exact yields_error _
      · exact yields_error _

theorem yields_addEntry {name : String} {value : Value} {taken : Problem}
    (storedValue : value.IsStored) (entries : Entries)
    (stored : AreStoredEntries entries) :
    Yields AreStoredEntries (addEntry name value taken entries) := by
  rw [addEntry]
  split
  · exact yields_error _
  · exact yields_ok (areStoredEntries_put stored trivial storedValue)

theorem yields_afterPair {α : Type} {holds : α → Prop} {result : Except Problem α}
    (yields : Yields holds result) : Yields holds (afterPair text result) := by
  cases result with
  | error problem => exact yields_error _
  | ok value => exact yields_ok (yields value rfl)

theorem yields_addInline {frozen : List Key} {key : Key} {value : Value}
    {entries : Entries} (stored : AreStoredEntries entries)
    (storedValue : value.IsStored) :
    Yields AreStoredEntries (addInline entries frozen key value) := by
  rw [addInline]
  split
  · exact yields_error _
  · exact yields_updateNest (yields_addEntry storedValue) _ stored

/-- What is read in a number of steps is stored. -/
structure ReadsStored (document steps : Nat) : Prop where
  value (text : Text) : Yields (·.1.IsStored) (value document steps text)
  items (text : Text) :
    Yields (fun parsed => AreStored parsed.1) (arrayItems document steps text)
  pairs (entries : Entries) (frozen : List Key) (text : Text) :
    AreStoredEntries entries → Yields (fun parsed => AreStoredEntries parsed.1)
      (inlinePairs document steps entries frozen text)
  pair (text : Text) : Yields (·.1.2.IsStored) (pair document steps text)

namespace ReadsStored

variable {document steps : Nat} (reads : ReadsStored document steps)
include reads

theorem value_succ (text : Text) :
    Yields (·.1.IsStored) (Toml.value document (steps + 1) text) := by
  unfold Toml.value
  split
  · contradiction
  · next rest same =>
      cases same
      refine (yields_any _).bind fun start _ => ?_
      exact (reads.items start).bind fun parsed stored => yields_ok stored
  · next rest same =>
      cases same
      split
      · exact yields_ok trivial
      · exact (reads.pairs [] [] _ trivial).bind fun parsed stored => yields_ok stored
  · exact yields_scalar document _

theorem items_succ (text : Text) :
    Yields (fun parsed => AreStored parsed.1)
      (arrayItems document (steps + 1) text) := by
  unfold arrayItems
  split
  · contradiction
  · exact yields_ok trivial
  · next same _ =>
      cases same
      refine (reads.value _).bind fun first stored => ?_
      refine (yields_any _).bind fun next _ => ?_
      split
      · exact yields_ok ⟨stored, trivial⟩
      · refine (yields_any _).bind fun start _ => ?_
        exact (reads.items start).bind fun others storedOthers =>
          yields_ok ⟨stored, storedOthers⟩
      · exact yields_error _

theorem pairs_succ (entries : Entries) (frozen : List Key) (text : Text)
    (stored : AreStoredEntries entries) :
    Yields (fun parsed => AreStoredEntries parsed.1)
      (inlinePairs document (steps + 1) entries frozen text) := by
  rw [inlinePairs]
  refine (reads.pair text).bind fun first storedFirst => ?_
  refine (yields_afterPair (yields_addInline stored storedFirst)).bind
    fun more storedMore => ?_
  simp only
  split
  · exact yields_ok storedMore
  · exact reads.pairs more _ _ storedMore
  · exact yields_error _

theorem pair_succ (text : Text) :
    Yields (·.1.2.IsStored) (Toml.pair document (steps + 1) text) := by
  rw [Toml.pair]
  refine (yields_any _).bind ?_
  rintro ⟨parts, afterKey⟩ -
  simp only
  split
  · exact (reads.value _).bind fun content stored => yields_ok stored
  · exact yields_error _

end ReadsStored

theorem readsStored (document steps : Nat) : ReadsStored document steps := by
  induction steps with
  | zero =>
      refine ⟨fun text => ?_, fun text => ?_, fun entries frozen text stored => ?_,
        fun text => ?_⟩
      · exact yields_error _
      · exact yields_error _
      · exact yields_error _
      · exact yields_error _
  | succ steps reads =>
      exact ⟨reads.value_succ, reads.items_succ, reads.pairs_succ, reads.pair_succ⟩

/-! ## Documents -/

namespace Document

/-- All numbers of a document are in stored form. -/
def IsStored (document : Document) : Prop := AreStoredEntries document.entries

variable {document : Document} {number : Nat}

theorem yields_declareTable (stored : document.IsStored) (key : Key) :
    Yields IsStored (document.declareTable key) := by
  unfold declareTable
  split
  · exact yields_error _
  · exact (yields_updateNest (fun _ same => yields_ok same) key stored).bind
      fun entries storedNew => yields_ok storedNew

theorem yields_appendTable {name : String} (entries : Entries)
    (stored : AreStoredEntries entries) :
    Yields AreStoredEntries (appendTable name entries) := by
  rw [appendTable]
  split
  · exact yields_ok (areStoredEntries_put stored trivial ⟨trivial, trivial⟩)
  · next items found =>
      have storedItems : AreStored items := isStored_of_get? stored found
      refine yields_ok (areStoredEntries_put stored trivial (areStored_iff.mpr ?_))
      intro item member
      rcases List.mem_append.mp member with before | new
      · exact isStored_of_mem storedItems before
      · cases List.mem_singleton.mp new
        trivial
  · exact yields_error _

theorem yields_declareListItem (stored : document.IsStored) (key : Key) :
    Yields IsStored (document.declareListItem key) := by
  unfold declareListItem
  split
  · exact yields_error _
  · exact (yields_updateNest yields_appendTable _ stored).bind
      fun entries storedNew => yields_ok storedNew

theorem yields_addPair {value : Value} (stored : document.IsStored)
    (storedValue : value.IsStored) (key : Key) :
    Yields IsStored (document.addPair key value) := by
  unfold addPair
  simp only
  split
  · exact yields_error _
  · split
    · exact yields_error _
    · exact (yields_updateNest (yields_addEntry storedValue) _ stored).bind
        fun entries storedNew => yields_ok storedNew

theorem yields_tableHeader (stored : document.IsStored) (text : Text) :
    Yields (·.1.IsStored) (document.tableHeader text) := by
  refine (yields_any _).bind ?_
  rintro ⟨parts, rest⟩ -
  have storedClosed : document.closeOpened.IsStored := stored
  refine (yields_afterPair (yields_declareTable storedClosed parts)).bind
    fun changed storedNew => ?_
  split
  · exact yields_ok storedNew
  · exact yields_error _

theorem yields_listHeader (stored : document.IsStored) (text : Text) :
    Yields (·.1.IsStored) (document.listHeader text) := by
  refine (yields_any _).bind ?_
  rintro ⟨parts, rest⟩ -
  have storedClosed : document.closeOpened.IsStored := stored
  refine (yields_afterPair (yields_declareListItem storedClosed parts)).bind
    fun changed storedNew => ?_
  split
  · exact yields_ok storedNew
  · exact yields_error _

theorem yields_statement (stored : document.IsStored) (text : Text) :
    Yields (·.1.IsStored) (document.statement number text) := by
  unfold statement
  split
  · exact yields_listHeader stored _
  · exact yields_tableHeader stored _
  · exact yields_ok stored
  · split
    · refine ((readsStored number _).pair _).bind ?_
      rintro ⟨⟨parts, content⟩, rest⟩ storedContent
      exact (yields_afterPair (yields_addPair stored storedContent parts)).bind
        fun changed storedNew => yields_ok storedNew
    · exact yields_error _
  · exact yields_ok stored

/-- Statement by statement a document stays stored. -/
theorem yields_statements (steps : Nat) (stored : document.IsStored) (text : Text) :
    Yields IsStored (statements number steps document text) := by
  induction steps generalizing document text with
  | zero => exact yields_ok stored
  | succ steps induction =>
      rw [statements]
      split
      · exact yields_ok stored
      · exact induction stored _
      · refine (yields_statement stored _).bind ?_
        rintro ⟨changed, left⟩ storedNew
        refine (yields_any _).bind fun rest _ => ?_
        split
        · exact yields_ok storedNew
        · exact induction storedNew _
        · exact yields_error _

end Document

theorem yields_read (number : Nat) (text : Text) :
    Yields AreStoredEntries (read number text) := by
  have stored : Document.empty.IsStored := trivial
  intro entries found
  rw [read] at found
  split at found
  · next document reading =>
      cases found
      exact Document.yields_statements _ stored _ document reading
  · contradiction

end Toml

namespace RunnerConfig

/-- Every configuration that is read from a file holds a tree. -/
theorem isTree_of_read {number : Nat} {bytes : Utf8.Bytes} {registry : Registry}
    {config : RunnerConfig} (found : read number bytes registry = .ok config) :
    (Value.table config.entries).IsTree := by
  rw [read] at found
  split at found
  · contradiction
  · split at found
    · contradiction
    · contradiction
    · next entries reading =>
        cases found
        exact ⟨isPlain_ofEntries entries registry,
          Value.areStoredEntries_plainEntries [] entries trivial
            (Toml.yields_read _ _ entries reading)⟩

end RunnerConfig

end TemplateLint
