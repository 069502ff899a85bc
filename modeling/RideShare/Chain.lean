/-!
# Chains through a table of links

Several orders are kept over the cells of one array: the vehicles with the same number of free
seats, the parties waiting, the nodes not in use. Each is a *chain*: a first and a last cell, and
for every cell on the way a link to its two neighbours. Any member can be taken out without
walking to it, which is what a list cannot offer.

The links live in a table of their own, apart from what the cells hold, and a chain owns nothing
but its two ends. Many chains can so share one table as long as they share no cell.

## Main definitions

* `Chain.push` and `Chain.unlink` change a chain at a constant cost;
* `Chain.toList` and `Chain.toListRev` read it off, from either end.
-/

namespace RideShare

/-- The neighbours of a cell in the chain it is on. -/
structure Link where
  /-- The cell before, if any. -/
  prev : Option Nat := none
  /-- The cell after, if any. -/
  next : Option Nat := none
  deriving DecidableEq, Inhabited

/-- The links of all cells, by cell number. -/
abbrev LinkTable := Array Link

namespace LinkTable

/-- The cell after `i`. -/
def next? (links : LinkTable) (i : Nat) : Option Nat := (links.getD i {}).next

/-- The cell before `i`. -/
def prev? (links : LinkTable) (i : Nat) : Option Nat := (links.getD i {}).prev

/-- Let `next` follow cell `i`. -/
def setNext (links : LinkTable) (i : Nat) (next : Option Nat) : LinkTable :=
  links.modify i fun link ↦ { link with next }

/-- Let `prev` precede cell `i`. -/
def setPrev (links : LinkTable) (i : Nat) (prev : Option Nat) : LinkTable :=
  links.modify i fun link ↦ { link with prev }

/-- Give cell `i` both its neighbours at once. -/
def setLink (links : LinkTable) (i : Nat) (link : Link) : LinkTable :=
  links.setIfInBounds i link

/-- The cells met from `start` on by following `step`, appended to `met`. The first argument bounds
their number; a chain never has more members than the table has cells. -/
def walk (step : Nat → Option Nat) : Nat → Option Nat → Array Nat → Array Nat
  | 0, _, met => met
  | _ + 1, none, met => met
  | bound + 1, some i, met => walk step bound (step i) (met.push i)

@[simp] theorem walk_none (step : Nat → Option Nat) (bound : Nat) (met : Array Nat) :
    walk step bound none met = met := by
  cases bound <;> rfl

/-- What is appended to does not matter for what is appended. -/
theorem toList_walk (step : Nat → Option Nat) (bound : Nat) (start : Option Nat) (met : Array Nat) :
    (walk step bound start met).toList = met.toList ++ (walk step bound start #[]).toList := by
  induction bound generalizing start met with
  | zero => simp [walk]
  | succ bound ih =>
    cases start with
    | none => simp
    | some i =>
      simp only [walk]
      rw [ih, ih (step i) (#[].push i)]
      simp

@[simp] theorem toList_walk_some (step : Nat → Option Nat) (bound i : Nat) :
    (walk step (bound + 1) (some i) #[]).toList = i :: (walk step bound (step i) #[]).toList := by
  rw [walk, toList_walk]
  simp

@[simp] theorem size_setNext (links : LinkTable) (i : Nat) (o : Option Nat) :
    (links.setNext i o).size = links.size := by
  simp [setNext]

@[simp] theorem size_setPrev (links : LinkTable) (i : Nat) (o : Option Nat) :
    (links.setPrev i o).size = links.size := by
  simp [setPrev]

@[simp] theorem size_setLink (links : LinkTable) (i : Nat) (link : Link) :
    (links.setLink i link).size = links.size := by
  simp [setLink]

end LinkTable

/-- The two ends of a chain. Both are absent when it is empty. -/
structure Chain where
  /-- The member that came first. -/
  first : Option Nat := none
  /-- The member that came last. -/
  last : Option Nat := none
  deriving DecidableEq, Inhabited

namespace Chain

/-- Append cell `i`, which is on no chain. Whatever neighbours it remembers are overwritten. -/
def push (chain : Chain) (links : LinkTable) (i : Nat) : Chain × LinkTable :=
  match chain.last with
  | none => ({ first := some i, last := some i }, links.setLink i {})
  | some last =>
    ({ chain with last := some i }, (links.setNext last (some i)).setLink i { prev := some last })

/-- Take cell `i` out of the chain it is a member of: its neighbours are linked to each other, or
become the ends, and `i` itself forgets them. -/
def unlink (chain : Chain) (links : LinkTable) (i : Nat) : Chain × LinkTable :=
  let link := links.getD i {}
  let (first, links) := match link.prev with
    | some p => (chain.first, links.setNext p link.next)
    | none => (link.next, links)
  let (last, links) := match link.next with
    | some n => (chain.last, links.setPrev n link.prev)
    | none => (link.prev, links)
  ({ first, last }, links.setLink i {})

/-- The members, first to last. -/
def toList (chain : Chain) (links : LinkTable) : List Nat :=
  (LinkTable.walk links.next? links.size chain.first #[]).toList

/-- The members, last to first, read off by the links that point back. -/
def toListRev (chain : Chain) (links : LinkTable) : List Nat :=
  (LinkTable.walk links.prev? links.size chain.last #[]).toList

end Chain

end RideShare
