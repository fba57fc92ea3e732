/-!
# JSON Values

The values the server speaks in. An object keeps the order of its members,
because the columns of a report follow it, and never holds a key twice.

## Main definitions

* `Json`: A value.
* `Json.member?`: The member of an object by key.
* `Json.items`: The items of an array.
-/

namespace TestbedReport

/-- A JSON value. An integer is kept exactly within the range of 64 bits, signed
    or unsigned; every other number is a floating-point number. -/
inductive Json where
  | null
  | bool (value : Bool)
  | integer (value : Int)
  | float (value : Float)
  | text (value : String)
  | array (items : List Json)
  | object (members : List (String × Json))
deriving Inhabited

namespace Json

/-- The member of an object under a key. Other values have no members. -/
def member? (key : String) : Json → Option Json
  | .object members => members.lookup key
  | _ => none

/-- The items of an array. Other values have none. -/
def items : Json → List Json
  | .array items => items
  | _ => []

end Json

end TestbedReport
