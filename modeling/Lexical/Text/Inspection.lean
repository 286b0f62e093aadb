/-!
# Inspections

A value laid out on one line with the names of its fields, for whoever looks for a fault in
the program and not in the source text. Only the layout of records, lists and options is fixed
here; each type says which fields it shows.
-/

set_option autoImplicit false

namespace Lexical
namespace Text
namespace Inspection

/-- Items with a comma and a space between them. -/
def commaList (items : List String) : String := String.intercalate ", " items

/-- A record: its name, then its fields in braces. There is at least one field. -/
def record (name : String) (fields : List (String × String)) : String :=
  name ++ " \x7b " ++ commaList (fields.map fun f => f.1 ++ ": " ++ f.2) ++ " \x7d"

def list (items : List String) : String := "[" ++ commaList items ++ "]"

def option : Option String → String
  | none => "None"
  | some s => "Some(" ++ s ++ ")"

def bool (b : Bool) : String := if b then "true" else "false"

end Inspection
end Text
end Lexical
