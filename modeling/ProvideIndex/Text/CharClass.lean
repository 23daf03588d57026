/-!
# Character classes as boundaries

A class of characters is given by the ascending code points at which membership changes: a character
belongs to the class when an odd number of boundaries lies at or below it.
-/

namespace ProvideIndex.Text

abbrev Boundaries := List Nat

def Boundaries.contains (boundaries : Boundaries) (c : Char) : Bool :=
  boundaries.countP (· ≤ c.toNat) % 2 == 1

end ProvideIndex.Text
