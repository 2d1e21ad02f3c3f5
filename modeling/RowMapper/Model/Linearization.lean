/-!
# The order of ancestors

A class comes before its bases, bases come in the order in which they are named, and the orders of
the bases themselves are kept.  `merge` takes lists that state such orders and joins them: the next
class is the first head of a list that stands behind no other class in any list.  If every head is
behind another one, the orders contradict each other and there is none.
-/
namespace RowMapper.Model

/-- Whether a class stands behind another one in some list. -/
def isBehind (candidate : Nat) (orders : List (List Nat)) : Bool :=
  orders.any fun order => order.tail.contains candidate

/-- The first head that stands behind no other class. -/
def nextAncestor? (orders : List (List Nat)) : Option Nat :=
  (orders.filterMap List.head?).find? fun candidate => !isBehind candidate orders

/-- Takes a class from the front of every list where it stands there. -/
def takeAncestor (chosen : Nat) (orders : List (List Nat)) : List (List Nat) :=
  (orders.map fun order => if order.head? = some chosen then order.tail else order).filter
    fun order => !order.isEmpty

/-- Joins orders; `steps` bounds the number of classes taken. -/
def mergeWithin : Nat → List (List Nat) → Option (List Nat)
  | 0, orders => if orders.isEmpty then some [] else none
  | steps + 1, orders =>
    if orders.isEmpty then some []
    else do
      let chosen ← nextAncestor? orders
      let rest ← mergeWithin steps (takeAncestor chosen orders)
      return chosen :: rest

/-- Joins orders.  Every step takes a class away, so there are no more steps than entries. -/
def merge (orders : List (List Nat)) : Option (List Nat) :=
  let orders := orders.filter fun order => !order.isEmpty
  mergeWithin orders.flatten.length orders

/-- The ancestors of a new class, itself first, given its bases and their ancestors. -/
def linearize (self : Nat) (bases : List Nat) (ancestors : List (List Nat)) : Option (List Nat) :=
  (merge (ancestors ++ [bases])).map (self :: ·)

end RowMapper.Model
