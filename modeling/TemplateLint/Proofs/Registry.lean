import TemplateLint.Registry

/-!
# Registered classes

In a registry that was filled by registering one class after another, every
class is found under its own name, and no two classes have one name.
-/

namespace TemplateLint.Registry

/-- Registries that come about by registering classes. -/
inductive Filled : Registry → Prop where
  | empty : Filled .empty
  | register {registry later : Registry} {linterClass : LinterClass}
      (filled : Filled registry)
      (registered : registry.register linterClass = .ok later) : Filled later

variable {registry later : Registry} {linterClass other : LinterClass}

/-- A class is registered only if no class answers to its name yet; it comes
last. -/
theorem register_eq_ok_iff :
    registry.register linterClass = .ok later ↔
      (∀ other ∈ registry.classes, other.answersTo linterClass.name = false) ∧
        later = ⟨registry.classes ++ [linterClass]⟩ := by
  have free : registry.contains linterClass.name = false ↔
      ∀ other ∈ registry.classes, other.answersTo linterClass.name = false := by
    simp [contains, find?]
  rw [register, ← free]
  cases taken : registry.contains linterClass.name with
  | true => simp
  | false => simp [eq_comm]

/-- Classes that are added behind do not hide any class. -/
theorem find?_append {name : String} (added : List LinterClass)
    (found : registry.find? name = some linterClass) :
    find? ⟨registry.classes ++ added⟩ name = some linterClass := by
  rw [find?] at found
  rw [find?, List.find?_append, found, Option.some_or]

theorem Filled.find?_name (filled : Filled registry)
    (member : linterClass ∈ registry.classes) :
    registry.find? linterClass.name = some linterClass := by
  induction filled with
  | empty => cases member
  | @register registry later newest filled registered induction =>
      obtain ⟨free, rfl⟩ := register_eq_ok_iff.mp registered
      rcases List.mem_append.mp member with before | last
      · exact find?_append [newest] (induction before)
      · obtain rfl := List.mem_singleton.mp last
        have unanswered : registry.classes.find?
            (·.answersTo linterClass.name) = none := by
          simpa using free
        rw [find?, List.find?_append, unanswered, Option.none_or]
        simp [LinterClass.answersTo]

/-- No two classes of a registry have one name. -/
theorem Filled.names_differ (filled : Filled registry) :
    registry.classes.Pairwise fun first second => first.name ≠ second.name := by
  induction filled with
  | empty => exact .nil
  | @register registry later newest filled registered induction =>
      obtain ⟨free, rfl⟩ := register_eq_ok_iff.mp registered
      rw [List.pairwise_append]
      refine ⟨induction, List.pairwise_singleton _ _, ?_⟩
      intro other member last isLast
      rw [List.mem_singleton.mp isLast]
      intro same
      have unanswered := free other member
      simp [LinterClass.answersTo, same] at unanswered

theorem mem_classes_of_find? {name : String}
    (found : registry.find? name = some linterClass) :
    linterClass ∈ registry.classes :=
  List.mem_of_find?_eq_some found

theorem Filled.eq_of_name_eq (filled : Filled registry)
    (member : linterClass ∈ registry.classes)
    (memberOther : other ∈ registry.classes)
    (same : linterClass.name = other.name) : linterClass = other := by
  have found := filled.find?_name member
  rw [same, filled.find?_name memberOther] at found
  exact (Option.some.inj found).symm

theorem Filled.nodup (filled : Filled registry) : registry.classes.Nodup :=
  filled.names_differ.imp fun differ same => differ (congrArg _ same)

/-- Among registered classes, a class is one of some others if it is the same
as one of them. -/
theorem Filled.any_same_iff (filled : Filled registry)
    {enabled : List LinterClass}
    (registered : ∀ other ∈ enabled, other ∈ registry.classes)
    (member : linterClass ∈ registry.classes) :
    enabled.any linterClass.same = true ↔ linterClass ∈ enabled := by
  rw [List.any_eq_true]
  constructor
  · rintro ⟨other, inEnabled, same⟩
    simp only [LinterClass.same, Bool.and_eq_true, decide_eq_true_eq] at same
    rwa [filled.eq_of_name_eq member (registered other inEnabled) same.1]
  · intro inEnabled
    exact ⟨linterClass, inEnabled, by simp [LinterClass.same]⟩

theorem Filled.registerAll (filled : Filled registry) {classes : List LinterClass}
    (registered : registry.registerAll classes = .ok later) : Filled later := by
  induction classes generalizing registry with
  | nil =>
      cases registered
      exact filled
  | cons linterClass classes induction =>
      cases result : registry.register linterClass with
      | error error =>
          simp [Registry.registerAll, result, bind, Except.bind] at registered
      | ok next =>
          apply induction (filled.register result)
          simpa [Registry.registerAll, result, bind, Except.bind] using registered

theorem filled_builtin : Filled builtin := by
  have registered : empty.registerAll LinterClass.builtin = .ok builtin := rfl
  exact Filled.empty.registerAll registered

end TemplateLint.Registry
