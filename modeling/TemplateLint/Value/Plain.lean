import TemplateLint.Value.Written

/-!
# Plain form

In plain form every mapping is a plain table whose keys are texts, and every
tuple is a list.  Keys that become the same text share the place of the first
and the value of the last.
-/

namespace TemplateLint

namespace Value

mutual

def plain : Value → Value
  | list items | tuple items => .list (plainItems items)
  | table entries | mapping entries => .table (plainEntries [] entries)
  | scalar => scalar

def plainItems : List Value → List Value
  | [] => []
  | item :: later => plain item :: plainItems later

/-- Plain entries after those already `done`. -/
def plainEntries (done : Entries) : List (Value × Value) → Entries
  | [] => done
  | (key, value) :: later =>
      plainEntries (Entries.put done (.text key.label) (plain value)) later

end

end Value

end TemplateLint
