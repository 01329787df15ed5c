/-!
# Node numbers

The nodes of a page are known by number.  Numbers are given out in order and never again, so that equality of numbers
is identity of nodes.
-/

namespace PageBindings

/-- A node of a page, by number. -/
abbrev NodeId := Nat

end PageBindings
