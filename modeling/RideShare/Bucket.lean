import RideShare.Chain

/-!
# Buckets

A bucket is a chain that knows how many members it has. The fleet keeps one for every number of
free seats, and reads its length without walking it.

Emptying a bucket forgets its ends and leaves the links of its former members as they were. Those
links are harmless: a cell is only reached from an end or from another member, and pushing a cell
overwrites its link before anything points to it.
-/

namespace RideShare

/-- The members in the order in which they entered, and how many there are. -/
structure Bucket where
  /-- The ends of the chain of members. -/
  chain : Chain := {}
  /-- The number of members. -/
  count : Nat := 0
  deriving DecidableEq, Inhabited

namespace Bucket

/-- Let cell `i`, which is not a member, enter behind all members. -/
def push (bucket : Bucket) (links : LinkTable) (i : Nat) : Bucket × LinkTable :=
  let (chain, links) := bucket.chain.push links i
  ({ chain, count := bucket.count + 1 }, links)

/-- Let the member `i` leave, wherever it stands. -/
def remove (bucket : Bucket) (links : LinkTable) (i : Nat) : Bucket × LinkTable :=
  let (chain, links) := bucket.chain.unlink links i
  ({ chain, count := bucket.count - 1 }, links)

/-- The member that entered first. -/
def front? (bucket : Bucket) : Option Nat := bucket.chain.first

/-- Whether there is no member. -/
def isEmpty (bucket : Bucket) : Bool := bucket.chain.first.isNone

/-- Forget all members. -/
def clear (_ : Bucket) : Bucket := {}

/-- The members, first to last. -/
def toList (bucket : Bucket) (links : LinkTable) : List Nat := bucket.chain.toList links

/-- The members, last to first. -/
def toListRev (bucket : Bucket) (links : LinkTable) : List Nat := bucket.chain.toListRev links

end Bucket

end RideShare
