import TemplateLint.Value

/-!
# Merging of tables

Entries of the overriding table replace those of the base.  Where both sides
hold a mapping the two are merged in turn, and where both hold a list under
the key `exclude` the list of the base is continued by the new items of the
other.
-/

namespace TemplateLint

namespace Value

/-- The key whose lists accumulate. -/
def excludeKey : Value := .text "exclude"

/-- Items of a list followed by those of another that are not among them. -/
def accumulate (current added : List Value) : List Value :=
  current ++ added.filter fun item => !item.occursIn current

mutual

/-- What stands under a key after an override. -/
def overriddenBy (key : Value) (current : Option Value) : Value → Value
  | table entries =>
      match current.bind entries? with
      | some base => .table (mergeEntries base entries)
      | none => .table entries
  | mapping entries =>
      match current.bind entries? with
      | some base => .table (mergeEntries base entries)
      | none => .mapping entries
  | list items =>
      match current with
      | some (list before) =>
          if key.equal excludeKey then .list (accumulate before items)
          else .list items
      | _ => .list items
  | other => other

/-- The base with every entry of an overriding table. -/
def mergeEntries (base : Entries) : List (Value × Value) → Entries
  | [] => base
  | (key, value) :: later =>
      mergeEntries
        (Entries.put base key (overriddenBy key (Entries.get? base key) value))
        later

end

end Value

/-- Merges an overriding table into a base. -/
def Entries.merge (base override : Entries) : Entries :=
  Value.mergeEntries base override

end TemplateLint
