import RideShare.NodePool
import Std.Data.HashMap

/-!
# The backlog

Parties that found no seat wait in the order of their arrival. Any of them may leave at any time,
so they are kept on a chain of pooled nodes, with an index from the party's id to its node.

Beside the chain stands the number of waiting parties of each size. It answers whether anybody at
all could use the seats that are left, and so when a walk along the backlog may stop.
-/

namespace RideShare

/-- The waiting parties, first come first. -/
structure Backlog where
  /-- The nodes the parties wait in. -/
  pool : NodePool
  /-- The chain of the nodes in use, the oldest party first. -/
  chain : Chain := {}
  /-- The node of each waiting party. -/
  index : Std.HashMap UInt64 Nat := ∅
  /-- How many parties of each size wait. -/
  histogram : Array Nat := Array.replicate seatLevels 0

namespace Backlog

/-- Nobody waits. There are nodes for `reserve` parties; more are made when needed. -/
def ofReserve (reserve : Nat) : Backlog := { pool := NodePool.ofCapacity reserve }

/-- Whether the party with the given id waits. -/
def contains (backlog : Backlog) (id : UInt64) : Bool := backlog.index.contains id

/-- How many parties of the given size wait. -/
def countOfSize (backlog : Backlog) (size : UInt32) : Nat := backlog.histogram.getD size.toNat 0

/-- The number of waiting parties. -/
def size (backlog : Backlog) : Nat := backlog.index.size

/-- Whether nobody waits. -/
def isEmpty (backlog : Backlog) : Bool := backlog.chain.first.isNone

/-- The waiting parties, the oldest first. -/
def toList (backlog : Backlog) : List Party :=
  (backlog.chain.toList backlog.pool.links).map backlog.pool.get

/-- The waiting parties, the newest first. -/
def toListRev (backlog : Backlog) : List Party :=
  (backlog.chain.toListRev backlog.pool.links).map backlog.pool.get

/-- Whether some waiting party fits on `seats` seats. -/
def anyFits (backlog : Backlog) (seats : UInt32) : Bool :=
  (List.range' 1 (min seats maxSeats).toNat).any fun size ↦ 0 < backlog.histogram.getD size 0

/-- Let a party join at the end, and say whether it did: a party of no proper size, or with the id
of one that waits already, does not. -/
def enqueue (backlog : Backlog) (party : Party) : Bool × Backlog :=
  if !isSeatCount party.size || backlog.contains party.id then
    (false, backlog)
  else
    match backlog with
    | { pool, chain, index, histogram } =>
      let (i, pool) := pool.take
      let (chain, pool) := (pool.put i party).relink (chain.push · i)
      (true,
        { pool
          chain
          index := index.insert party.id i
          histogram := histogram.modify party.size.toNat (· + 1) })

/-- Let the party with the given id leave, wherever it stands, and say whether it was there. -/
def dequeue (backlog : Backlog) (id : UInt64) : Bool × Backlog :=
  match backlog.index[id]? with
  | none => (false, backlog)
  | some i =>
    match backlog with
    | { pool, chain, index, histogram } =>
      let size := (pool.get i).size
      let (chain, pool) := pool.relink (chain.unlink · i)
      (true,
        { pool := pool.give i
          chain
          index := index.erase id
          histogram := histogram.modify size.toNat (· - 1) })

/-- Let everybody leave. The nodes are kept for later parties. -/
def clear (backlog : Backlog) : Backlog := { pool := backlog.pool.reset }

end Backlog

end RideShare
