/-!
# Sets of characters given by their edges

A `CharSet` is the ascending list of code points at which membership changes: the first edge
opens the first range, the second closes it, and so on.  Properties of the Unicode standard are
written this way in the tables beside this module.
-/
namespace RowMapper.Text

/-- The ascending code points at which membership in the set flips, starting from outside. -/
structure CharSet where
  edges : List Nat

/-- A code point lies in the set when an odd number of edges is at or below it. -/
def CharSet.contains (s : CharSet) (c : Char) : Bool :=
  (s.edges.takeWhile (fun edge => edge ≤ c.toNat)).length % 2 == 1

end RowMapper.Text
