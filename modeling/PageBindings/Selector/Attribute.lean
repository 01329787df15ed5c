/-!
# Selectors for one attribute value

`Selector.forAttribute` writes the selector of the elements whose attribute has a given value.  The value stands in
double quotes; a quote or backslash in it is escaped by a backslash, and a line feed by its code, which a space ends.
-/

namespace PageBindings

/-- How a character of the value is written between the quotes. -/
def selectorChar (c : Char) : List Char :=
  if c = '"' ∨ c = '\\' then ['\\', c]
  else if c = '\n' then ['\\', 'a', ' ']
  else [c]

/-- The selector of the elements whose attribute `name` is `value`. -/
def Selector.forAttribute (name value : String) : String :=
  String.ofList ('[' :: name.toList ++ ['=', '"'] ++ value.toList.flatMap selectorChar ++ ['"', ']'])

end PageBindings
