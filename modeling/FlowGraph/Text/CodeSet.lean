/-!
# Sets of code points

A set of code points is given by its boundaries in increasing order: the first
boundary is the first member, the second the first non-member after it, and so
on alternately.  A code point is a member if an odd number of boundaries do not
exceed it.
-/

namespace FlowGraph.Text

/-- A set of code points, as the increasing list of the points at which
membership changes. -/
structure CodeSet where
  boundaries : List Nat

namespace CodeSet

/-- Whether membership holds at `code`, given whether it holds before the first
boundary. -/
def memberFrom (code : Nat) : Bool → List Nat → Bool
  | inside, [] => inside
  | inside, boundary :: rest =>
    if code < boundary then inside else memberFrom code (!inside) rest

def contains (s : CodeSet) (c : Char) : Bool :=
  memberFrom c.toNat false s.boundaries

end CodeSet

end FlowGraph.Text
