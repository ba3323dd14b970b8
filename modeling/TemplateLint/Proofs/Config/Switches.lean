import TemplateLint.Proofs.Config.Excludes

/-!
# Switching linters on and off

A layer of switches has the flag of every registered linter and nothing else.
On top of a configuration it decides every flag, whatever stands in its place
there, and leaves all other options of a linter as they are.
-/

namespace TemplateLint

/-! ## Tables under a key -/

/-- The entries of the table under a name.  Anything else has none. -/
def Entries.tableAt (entries : Entries) (name : String) : Entries :=
  ((entries.named? name).bind Value.entries?).getD []

theorem Value.overriddenBy_table {key : Value} {current : Option Value}
    {entries : Entries} (plain : IsPlainTable entries) :
    overriddenBy key current (.table entries) =
      .table (((current.bind entries?).getD []).merge entries) := by
  rw [overriddenBy]
  cases current.bind entries? with
  | none =>
      rw [Option.getD_none, Entries.merge, mergeEntries_nil_left plain]
  | some base => rfl

theorem Value.entries?_of_falsy {value : Value}
    (falsy : value.isTruthy = false) : value.entries?.getD [] = [] := by
  cases value with
  | table entries =>
      have none : entries = [] := by simpa [isTruthy] using falsy
      rw [none]
      rfl
  | mapping entries =>
      have none : entries = [] := by simpa [isTruthy] using falsy
      rw [none]
      rfl
  | _ => rfl

namespace RunnerConfig

theorem tableAt_of_lookInto {entries inner : Entries} {name : String}
    (found : lookInto ((given? entries name).getD (.table [])) = .ok inner) :
    entries.tableAt name = inner := by
  rw [given?] at found
  rw [Entries.tableAt]
  cases named : entries.named? name with
  | none =>
      rw [named] at found
      cases found
      rfl
  | some value =>
      rw [named] at found
      cases truthy : value.isTruthy with
      | true =>
          simp only [Option.filter_some, truthy, if_true, Option.getD_some]
            at found
          cases value with
          | table own =>
              cases found
              rfl
          | _ => contradiction
      | false =>
          simp only [Option.filter_some, truthy, Bool.false_eq_true, if_false,
            Option.getD_none] at found
          cases found
          exact Value.entries?_of_falsy truthy

/-- The section of a linter as far as it is a table in a table. -/
def writtenSection (config : RunnerConfig) (name : String) : Entries :=
  (config.entries.tableAt "linters").tableAt name

variable {config : RunnerConfig} {name : String} {own : Entries}

theorem writtenSection_of_section? (found : config.section? name = .ok own) :
    config.writtenSection name = own := by
  rw [section?, linters] at found
  cases all : lookInto ((given? config.entries "linters").getD (.table [])) with
  | error error =>
      rw [all] at found
      contradiction
  | ok sections =>
      rw [all] at found
      rw [writtenSection, tableAt_of_lookInto all]
      exact tableAt_of_lookInto found

/-! ## Shared excludes -/

/-- The entries of a section whose excludes are continued by others, unless
they are no list. -/
def withShared (own : Entries) (shared : List Value) : Entries :=
  match (given? own "exclude").getD (.list []) with
  | .list items => own.put Value.excludeKey (.list (items ++ shared))
  | _ => own

theorem sectionWithExcludes_of_section {shared : List Value}
    (found : config.section? name = .ok own)
    (global : config.globalExclude = .ok shared) :
    config.sectionWithExcludes name = .ok (withShared own shared) := by
  rw [sectionWithExcludes, found, withShared]
  simp only [bind, Except.bind, global]
  cases (given? own "exclude").getD (.list []) <;> rfl

theorem named?_withShared_of_ne {shared : List Value} {asked : String}
    (other : "exclude" ≠ asked) :
    (withShared own shared).named? asked = own.named? asked := by
  rw [withShared]
  split
  · exact Entries.named?_put_of_ne own other
  · rfl

theorem named?_exclude_withShared_put {shared : List Value} {value : Value}
    (other : name ≠ "exclude") :
    (withShared (own.put (.text name) value) shared).named? "exclude" =
      (withShared own shared).named? "exclude" := by
  have same : given? (own.put (.text name) value) "exclude" =
      given? own "exclude" := by
    rw [given?, given?, Entries.named?_put_of_ne own other]
  rw [withShared, withShared, same]
  split
  · rw [Value.excludeKey, Entries.named?_put_self, Entries.named?_put_self]
  · exact Entries.named?_put_of_ne own other

theorem checkFields_withShared (schema : OptionSchema) (shared : List Value) :
    LinterConfig.checkFields schema (withShared own shared) =
      LinterConfig.checkFields schema own := by
  rw [withShared]
  split
  · exact LinterConfig.checkFields_put (by simp [LinterConfig.isField]) _
  · rfl

theorem ownOf_withShared (schema : OptionSchema) (shared : List Value) :
    LinterConfig.ownOf schema (withShared own shared) =
      LinterConfig.ownOf schema own := by
  rw [withShared]
  split
  · exact LinterConfig.ownOf_put (by cases schema <;> decide) _
  · rfl

/-! ## Flags -/

/-- Two sections give a linter the same options, except that the second one
has a certain flag. -/
structure SameButFlag (schema : OptionSchema) (before after : Entries)
    (flag : Bool) : Prop where
  enabled : LinterConfig.enabledOf after = .ok flag
  exclude : LinterConfig.excludeOf after = LinterConfig.excludeOf before
  own : LinterConfig.ownOf schema after = LinterConfig.ownOf schema before
  fields : LinterConfig.checkFields schema after =
    LinterConfig.checkFields schema before

theorem sameButFlag_put (schema : OptionSchema) (own : Entries)
    (shared : List Value) (flag : Bool) :
    SameButFlag schema (withShared own shared)
      (withShared (own.put (.text "enabled") (.bool flag)) shared) flag := by
  refine ⟨?_, ?_, ?_, ?_⟩
  · rw [LinterConfig.enabledOf, named?_withShared_of_ne (by decide),
      Entries.named?_put_self]
    rfl
  · simp only [LinterConfig.excludeOf,
      named?_exclude_withShared_put (show "enabled" ≠ "exclude" by decide)]
  · rw [ownOf_withShared, ownOf_withShared]
    exact LinterConfig.ownOf_put (by cases schema <;> decide) _
  · rw [checkFields_withShared, checkFields_withShared]
    exact LinterConfig.checkFields_put (by simp [LinterConfig.isField]) _

/-- Valid options stay valid. -/
theorem SameButFlag.resolve {schema : OptionSchema} {before after : Entries}
    {flag : Bool} {options : LinterConfig}
    (same : SameButFlag schema before after flag)
    (resolved : LinterConfig.resolve schema before = .ok options) :
    LinterConfig.resolve schema after = .ok { options with enabled := flag } := by
  obtain ⟨-, exclude, own, fields⟩ := LinterConfig.resolve_eq_ok_iff.mp resolved
  rw [LinterConfig.resolve_eq_ok_iff]
  exact ⟨same.enabled, same.exclude.trans exclude, same.own.trans own,
    same.fields.trans fields⟩

/-! ## Layers of switches -/

/-- The sections of a layer that has nothing but the flags of some classes. -/
def switches (classes : List LinterClass) (flag : LinterClass → Bool) :
    Entries :=
  classes.map fun linterClass => switched linterClass.name (flag linterClass)

variable {classes : List LinterClass} {flag : LinterClass → Bool}
  {linterClass : LinterClass}

theorem named?_switches_eq_none
    (other : ∀ linterClass ∈ classes, name ≠ linterClass.name) :
    (switches classes flag).named? name = none := by
  rw [Entries.named?_eq_none_iff]
  intro entry member
  obtain ⟨linterClass, inClasses, rfl⟩ := List.mem_map.mp member
  simpa [switched] using (other linterClass inClasses).symm

theorem named?_switches
    (differ : classes.Pairwise fun first second => first.name ≠ second.name)
    (member : linterClass ∈ classes) :
    (switches classes flag).named? linterClass.name =
      some (.table [(.text "enabled", .bool (flag linterClass))]) := by
  induction classes with
  | nil => contradiction
  | cons first classes induction =>
      obtain ⟨others, differ⟩ := List.pairwise_cons.mp differ
      rcases List.mem_cons.mp member with rfl | later
      · exact Entries.named?_cons_self
      · have apart : Value.text first.name ≠ .text linterClass.name := by
          simpa using others linterClass later
        rw [switches, List.map_cons, switched, Entries.named?_cons_of_ne apart]
        exact induction differ later

theorem isPlainTable_switches
    (differ : classes.Pairwise fun first second => first.name ≠ second.name) :
    Value.IsPlainTable (switches classes flag) := by
  induction classes with
  | nil => trivial
  | cons first classes induction =>
      obtain ⟨others, differ⟩ := List.pairwise_cons.mp differ
      refine ⟨⟨first.name, rfl, named?_switches_eq_none others⟩, ?_,
        induction differ⟩
      exact ⟨⟨"enabled", rfl, rfl⟩, trivial, trivial⟩

theorem entries_ofSections {sections : Entries} {registry : Registry}
    (plain : Value.IsPlainTable sections) :
    (ofSections sections registry).entries =
      [(.text "linters", .table sections)] :=
  Value.plainEntries_of_isPlainTable [] _ ⟨⟨"linters", rfl, rfl⟩, plain, trivial⟩

/-- The tree of a configuration under a layer of sections. -/
theorem entries_merge_ofSections {sections : Entries} {registry : Registry}
    (plainConfig : config.IsPlain) (plain : Value.IsPlainTable sections) :
    (config.merge (ofSections sections registry)).entries =
      config.entries.put (.text "linters")
        (.table ((config.entries.tableAt "linters").merge sections)) := by
  have plainLayer : (ofSections sections registry).IsPlain :=
    isPlain_ofEntries _ _
  rw [merge_eq_mergeInPlace plainConfig plainLayer, mergeInPlace,
    entries_ofSections plain]
  simp only [Entries.merge, Value.mergeEntries,
    Value.overriddenBy_table plain]
  rfl

section Merged

variable {registry : Registry}

/-- Under a layer of switches every section has its flag. -/
theorem section?_merge_switches (plain : config.IsPlain)
    (differ : classes.Pairwise fun first second => first.name ≠ second.name)
    (member : linterClass ∈ classes) :
    (config.merge (ofSections (switches classes flag) registry)).section?
        linterClass.name =
      .ok ((config.writtenSection linterClass.name).put (.text "enabled")
        (.bool (flag linterClass))) := by
  have plainSwitches := @isPlainTable_switches classes flag differ
  have plainFlag : Value.IsPlainTable
      [(.text "enabled", .bool (flag linterClass))] :=
    ⟨⟨"enabled", rfl, rfl⟩, trivial, trivial⟩
  apply section?_of_hasSection
  -- whatever is no table on the way is replaced by the layer's tables
  refine ⟨(config.entries.tableAt "linters").merge (switches classes flag),
    ?_, ?_⟩
  · rw [entries_merge_ofSections plain plainSwitches, Entries.named?_put_self]
    rfl
  · rw [Entries.merge, Value.named?_mergeEntries plainSwitches,
      named?_switches differ member]
    simp only [Option.getD_some, Value.overriddenBy_table plainFlag]
    rfl

theorem Lists_merge_switches {patterns : List String} (plain : config.IsPlain)
    (differ : classes.Pairwise fun first second => first.name ≠ second.name)
    (lists : config.entries.Lists patterns) :
    (config.merge (ofSections (switches classes flag) registry)).entries.Lists
      patterns := by
  rw [Entries.Lists, entries_merge_ofSections plain (isPlainTable_switches differ),
    Entries.named?_put_of_ne _ (show "linters" ≠ "exclude" by decide)]
  exact lists

/-- Under a layer of switches the options of a class are those of its written
section, with the flag. -/
theorem sectionWithExcludes_merge_switches {patterns : List String}
    (plain : config.IsPlain)
    (differ : classes.Pairwise fun first second => first.name ≠ second.name)
    (lists : config.entries.Lists patterns) (member : linterClass ∈ classes) :
    (config.merge (ofSections (switches classes flag)
        registry)).sectionWithExcludes linterClass.name =
      .ok (withShared ((config.writtenSection linterClass.name).put
        (.text "enabled") (.bool (flag linterClass)))
        (patterns.map .text)) :=
  sectionWithExcludes_of_section (section?_merge_switches plain differ member)
    (globalExclude_of_lists (Lists_merge_switches plain differ lists))

end Merged

end RunnerConfig

end TemplateLint
