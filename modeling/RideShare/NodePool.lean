import RideShare.Basic
import RideShare.Chain

/-!
# A pool of nodes

Parties wait in nodes that are taken from a pool and given back to it, so that a queue under heavy
traffic needs no more nodes than it ever held at once, rounded up to whole chunks. Nodes are known
by number, and the pool only ever grows at the end.

Nodes not in use hang together by their `next` links, the one given back last in front. A pool
that runs dry adds one chunk of nodes, in ascending order; so nodes never used before come out
by ascending number, and the numbers count the nodes in the order of their first use.
-/

namespace RideShare

/-- Nodes that hold a party each, together with the table of their links. -/
structure NodePool where
  /-- The number of nodes added at a time. -/
  chunk : Nat
  /-- What the nodes hold. -/
  nodes : Array Party := #[]
  /-- The links of all nodes. A node in use may be put on any chain over this table. -/
  links : LinkTable := #[]
  /-- The first node not in use; the others follow by `next`. -/
  free : Option Nat := none
  /-- The number of nodes in use. -/
  inUse : Nat := 0

namespace NodePool

/-- Links for the `count` nodes from `start` on, each followed by the next one and the last by
`rest`. -/
def ascending (start count : Nat) (rest : Option Nat) : LinkTable :=
  Array.ofFn fun k : Fin count ↦
    { next := if k.val + 1 < count then some (start + k.val + 1) else rest }

/-- Add one chunk, and put it in front of the nodes not in use. -/
def grow : NodePool → NodePool
  | { chunk, nodes, links, free, inUse } =>
    let start := nodes.size
    { chunk
      nodes := nodes ++ Array.replicate chunk default
      links := links ++ ascending start chunk free
      free := some start
      inUse }

/-- A pool of one chunk of `capacity` nodes, but at least one. -/
def ofCapacity (capacity : Nat) : NodePool := grow { chunk := max capacity 1 }

/-- What node `i` holds. -/
def get (pool : NodePool) (i : Nat) : Party := pool.nodes.getD i default

/-- Let node `i` hold `party`. -/
def put (pool : NodePool) (i : Nat) (party : Party) : NodePool :=
  { pool with nodes := pool.nodes.setIfInBounds i party }

/-- Take the first node not in use, growing the pool when there is none. The node comes blank and
unlinked, whatever it held before. -/
def take (pool : NodePool) : Nat × NodePool :=
  match if pool.free.isNone then pool.grow else pool with
  | { chunk, nodes, links, free, inUse } =>
    let i := free.getD nodes.size
    let rest := links.next? i
    (i,
      { chunk
        nodes := nodes.setIfInBounds i default
        links := links.setLink i {}
        free := rest
        inUse := inUse + 1 })

/-- Give node `i`, which is in use, back. It is the next one to be taken. -/
def give (pool : NodePool) (i : Nat) : NodePool :=
  { pool with
    links := pool.links.setLink i { next := pool.free }
    free := some i
    inUse := pool.inUse - 1 }

/-- Take all nodes back. They come out again by ascending number, as from a fresh pool. -/
def reset : NodePool → NodePool
  | { chunk, nodes, .. } =>
    { chunk
      nodes
      links := ascending 0 nodes.size none
      free := if nodes.isEmpty then none else some 0
      inUse := 0 }

/-- Let an operation on chains work on the nodes' links. -/
def relink (pool : NodePool) (f : LinkTable → Chain × LinkTable) : Chain × NodePool :=
  match pool with
  | { chunk, nodes, links, free, inUse } =>
    let (chain, links) := f links
    (chain, { chunk, nodes, links, free, inUse })

/-- The number of nodes, used or not. -/
def capacity (pool : NodePool) : Nat := pool.nodes.size

/-- The number of nodes not in use. -/
def available (pool : NodePool) : Nat := pool.capacity - pool.inUse

end NodePool

end RideShare
