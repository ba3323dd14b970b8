import TemplateLint.Text

/-!
# JSON values

Objects keep the order of their members.  Whole numbers are numbers; a number
with a point or an exponent is kept as it was written.
-/

namespace TemplateLint

inductive Json where
  | null
  | bool (value : Bool)
  | integer (value : Int)
  | decimal (literal : Text)
  | string (value : String)
  | array (items : List Json)
  | object (members : List (String × Json))
  deriving Inhabited

namespace Json

def field? (key : String) : Json → Option Json
  | object members => (members.find? fun member => member.1 = key).map (·.2)
  | _ => none

def isNull : Json → Bool
  | null => true
  | _ => false

end Json

end TemplateLint
