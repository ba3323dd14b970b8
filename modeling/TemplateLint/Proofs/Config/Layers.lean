import Mathlib.Data.List.Induction
import TemplateLint.Config
import TemplateLint.Proofs.Value.Merge

/-!
# Layers of configurations

Several configurations are held at the same time, under numbers in the order
in which they were made.  Whatever is done with them, their trees stay plain.
Therefore merging into a copy and merging in place give the same tree, and no
other configuration changes.
-/

namespace TemplateLint.RunnerConfig

/-- The tree of a configuration is plain. -/
def IsPlain (config : RunnerConfig) : Prop :=
  (Value.table config.entries).IsPlain

variable {base override config : RunnerConfig}

theorem isPlain_ofEntries (entries : Entries) (registry : Registry) :
    (ofEntries entries registry).IsPlain :=
  Value.isPlainTable_plainEntries [] entries trivial

theorem isPlain_of_ofValue {source : Value} {registry : Registry}
    (built : ofValue source registry = .ok config) : config.IsPlain := by
  cases found : source.toEntries with
  | error error =>
      rw [ofValue, found] at built
      cases built
  | ok entries =>
      rw [ofValue, found] at built
      cases built
      exact isPlain_ofEntries entries registry

theorem isPlain_mergeInPlace (plainBase : base.IsPlain)
    (plainOverride : override.IsPlain) : (base.mergeInPlace override).IsPlain :=
  Value.isPlainTable_mergeEntries plainBase override.entries plainOverride

/-- Bringing the merged tree into plain form again does not change it. -/
theorem merge_eq_mergeInPlace (plainBase : base.IsPlain)
    (plainOverride : override.IsPlain) :
    base.merge override = base.mergeInPlace override := by
  have plain : Value.plainEntries [] (base.entries.merge override.entries) =
      base.entries.merge override.entries :=
    Value.plainEntries_of_isPlainTable [] _
      (isPlain_mergeInPlace plainBase plainOverride)
  rw [merge, ofEntries, plain, mergeInPlace]

/-- A configuration does not change by taking over itself. -/
theorem mergeInPlace_self (plain : config.IsPlain) :
    config.mergeInPlace config = config := by
  have same : config.entries.merge config.entries = config.entries :=
    Value.mergeEntries_suffix [] config.entries plain
  rw [mergeInPlace, same]

theorem isPlain_overDefaults (plain : config.IsPlain) :
    config.overDefaults.IsPlain := by
  rw [overDefaults]
  split
  · exact isPlain_ofEntries _ _
  · exact plain

/-! ## Configurations held at the same time -/

/-- What can be done with the configurations that are held. -/
inductive Act where
  | build (source : Value) (registry : Registry)
  | merge (base override : Nat)
  | mergeInPlace (base override : Nat)
  | overDefaults (number : Nat)

/-- The configurations held after an act.  A new one comes last; the defaults
make none unless they are asked for, and an act on a number that is not taken
does nothing. -/
def perform (held : List RunnerConfig) : Act → List RunnerConfig
  | .build source registry =>
      match ofValue source registry with
      | .ok config => held ++ [config]
      | .error _ => held
  | .merge base override =>
      match held[base]?, held[override]? with
      | some first, some second => held ++ [first.merge second]
      | _, _ => held
  | .mergeInPlace base override =>
      match held[base]?, held[override]? with
      | some first, some second => held.set base (first.mergeInPlace second)
      | _, _ => held
  | .overDefaults number =>
      match held[number]? with
      | some config =>
          if config.asksForDefaults then held ++ [config.overDefaults] else held
      | none => held

/-- The configurations held after several acts. -/
def performAll (acts : List Act) : List RunnerConfig := acts.foldl perform []

theorem performAll_concat (acts : List Act) (act : Act) :
    performAll (acts ++ [act]) = perform (performAll acts) act := by
  rw [performAll, List.foldl_append]
  rfl

variable {held : List RunnerConfig}

theorem perform_isPlain (plain : ∀ config ∈ held, config.IsPlain) (act : Act) :
    ∀ config ∈ perform held act, config.IsPlain := by
  have found : ∀ {number : Nat} {config : RunnerConfig},
      held[number]? = some config → config.IsPlain :=
    fun taken => plain _ (List.mem_of_getElem? taken)
  have added : ∀ {new : RunnerConfig}, new.IsPlain →
      ∀ config ∈ held ++ [new], config.IsPlain := by
    intro new plainNew config member
    rcases List.mem_append.mp member with before | last
    · exact plain config before
    · rwa [List.mem_singleton.mp last]
  cases act with
  | build source registry =>
      rw [perform]
      split
      · exact added (isPlain_of_ofValue ‹_›)
      · exact plain
  | merge base override =>
      rw [perform]
      split
      · exact added (isPlain_ofEntries _ _)
      · exact plain
  | mergeInPlace base override =>
      rw [perform]
      split
      · rename_i first second takenFirst takenSecond
        intro config member
        rcases List.mem_or_eq_of_mem_set member with before | rfl
        · exact plain config before
        · exact isPlain_mergeInPlace (found takenFirst) (found takenSecond)
      · exact plain
  | overDefaults number =>
      rw [perform]
      split
      · split
        · exact added (isPlain_overDefaults (found ‹_›))
        · exact plain
      · exact plain

/-- All configurations that are ever held are plain. -/
theorem performAll_isPlain (acts : List Act) :
    ∀ config ∈ performAll acts, config.IsPlain := by
  induction acts using List.reverseRecOn with
  | nil => intro config member; cases member
  | append_singleton acts act induction =>
      rw [performAll_concat]
      exact perform_isPlain induction act

/-- All configurations that are ever held are plain.  Merging one of them into
a copy of another gives what merging in place gives, with all keys in the same
order; the copy leaves every configuration as it is, and merging in place
changes the receiver alone, even where a configuration takes over itself. -/
theorem merging_agrees (acts : List Act) :
    (∀ config ∈ performAll acts, config.IsPlain) ∧
    ∀ base override first second,
      (performAll acts)[base]? = some first →
      (performAll acts)[override]? = some second →
      performAll (acts ++ [.merge base override]) =
        performAll acts ++ [first.merge second] ∧
      (performAll (acts ++ [.mergeInPlace base override]))[base]? =
        some (first.merge second) ∧
      (performAll (acts ++ [.mergeInPlace base override]))[override]? =
        some second ∧
      ∀ other, other ≠ base →
        (performAll (acts ++ [.mergeInPlace base override]))[other]? =
          (performAll acts)[other]? := by
  have plain := performAll_isPlain acts
  refine ⟨plain, ?_⟩
  intro base override first second takenFirst takenSecond
  have plainFirst := plain first (List.mem_of_getElem? takenFirst)
  have plainSecond := plain second (List.mem_of_getElem? takenSecond)
  have agree := merge_eq_mergeInPlace plainFirst plainSecond
  have replaced : performAll (acts ++ [.mergeInPlace base override]) =
      (performAll acts).set base (first.merge second) := by
    rw [performAll_concat, perform, takenFirst, takenSecond, agree]
  have inside : base < (performAll acts).length :=
    (List.getElem?_eq_some_iff.mp takenFirst).1
  refine ⟨?_, ?_, ?_, ?_⟩
  · rw [performAll_concat, perform, takenFirst, takenSecond]
  · rw [replaced, List.getElem?_set_self inside]
  · rw [replaced]
    by_cases same : base = override
    · subst same
      rw [takenFirst, Option.some.injEq] at takenSecond
      subst takenSecond
      rw [List.getElem?_set_self inside, agree, mergeInPlace_self plainFirst]
    · rw [List.getElem?_set_ne same, takenSecond]
  · intro other different
    rw [replaced, List.getElem?_set_ne (Ne.symm different)]

/-- Sources of all kinds, with two keys that become one. -/
theorem merging_agrees_on_nested_sources :
    let acts : List Act :=
      [.build (.mapping [(.int 1, .mapping [(.bool true, .tuple [.text "a"])]),
          (.text "1", .table [(.text "exclude", .list [.text "a"])])]) .empty,
        .build (.table [(.text "EnableDefaultLinters", .bool true),
          (.int 1, .table [(.text "exclude", .tuple [.text "b", .text "a"])])])
          .empty,
        .overDefaults 1, .mergeInPlace 2 0]
    let inPlace := performAll (acts ++ [.mergeInPlace 0 1])
    (inPlace[0]?).map (·.entries) =
      some [(.text "1", .table
          [(.text "exclude", .list [.text "a", .text "b"])]),
        (.text "EnableDefaultLinters", .bool true)] ∧
    (∃ first second, (performAll acts)[1]? = some second ∧
      inPlace[0]? = some (merge first second) ∧ inPlace[1]? = some second) ∧
    ∀ config ∈ performAll acts, config.IsPlain := by
  intro acts inPlace
  obtain ⟨plain, agrees⟩ := merging_agrees acts
  obtain ⟨-, merged, kept, -⟩ := agrees 0 1 _ _ rfl rfl
  exact ⟨rfl, ⟨_, _, rfl, merged, kept⟩, plain⟩

end TemplateLint.RunnerConfig
