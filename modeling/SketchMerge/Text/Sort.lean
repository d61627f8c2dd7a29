/-! # Sorting

    A stable sort by insertion.  It runs by structural recursion, so that what is
    sorted can be evaluated anywhere. -/

namespace SketchMerge

/-- The list with an element put before the first that it is not above. -/
def insertBy (le : α → α → Bool) (a : α) : List α → List α
  | [] => [a]
  | b :: rest => if le a b then a :: b :: rest else b :: insertBy le a rest

/-- The list in ascending order.  Elements that are equal in the order stay in the order
    in which they came. -/
def sortBy (le : α → α → Bool) : List α → List α
  | [] => []
  | a :: rest => insertBy le a (sortBy le rest)

end SketchMerge
