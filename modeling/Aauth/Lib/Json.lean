/-!
# JSON values

The tree a JSON text denotes. An object keeps its members in the order
of the text, duplicates included; a lookup takes the last member of a
name, which is what a map built member by member holds. Fractions and
exponents are kept as text: no program over these values computes with
them.
-/

inductive Json where
  | null
  | bool (b : Bool)
  | int (n : Int)
  | float (text : String)
  | str (s : String)
  | arr (items : List Json)
  | obj (members : List (String × Json))

namespace Json

/-- The member of an object, when the value is an object that has it. -/
def get (key : String) : Json → Option Json
  | obj members => (members.reverse.find? (·.1 == key)).map (·.2)
  | _ => none

def asStr : Json → Option String
  | str s => some s
  | _ => none

def asBool : Json → Option Bool
  | bool b => some b
  | _ => none

end Json
