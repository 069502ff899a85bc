/-!
# Rings

A ring passes values from one writer to one reader, in order, through a fixed number of slots. The
writer owns the place where the next value goes, the reader the place where the next one is taken
from. One slot stays free, so that a full ring can be told from an empty one.

Looking at the other side's place is what costs, so each side works with the place it saw last and
looks again only when that one tells it to stop: the writer when the ring seems full, the reader
when it seems empty. What a side saw last can only be behind the truth, never ahead of it. A reader
may therefore be handed fewer values than there are, but never none while there are some.
-/

namespace RideShare

/-- Slots in a circle, and who stands where. -/
structure Ring (α : Type) where
  /-- The slots. The values stored are those from the reader's place up to the writer's. -/
  slots : Array α
  /-- The writer's place. -/
  write : Nat := 0
  /-- The reader's place, as the writer saw it last. -/
  readSeen : Nat := 0
  /-- The reader's place. -/
  read : Nat := 0
  /-- The writer's place, as the reader saw it last. -/
  writeSeen : Nat := 0
  deriving Inhabited

namespace Ring

variable {α : Type}

/-- The number of slots of a ring of commands. -/
def standardSlots : Nat := 65536

/-- An empty ring of `slots` slots. -/
def ofSlots [Inhabited α] (slots : Nat) : Ring α := { slots := Array.replicate slots default }

/-- How many values a ring can store. -/
def capacity (ring : Ring α) : Nat := ring.slots.size - 1

/-- The place after `i`. -/
def next (ring : Ring α) (i : Nat) : Nat := (i + 1) % ring.slots.size

/-- How many places it is from `i` on to `j`. -/
def distance (ring : Ring α) (i j : Nat) : Nat := (j + ring.slots.size - i) % ring.slots.size

/-- How many values are stored. -/
def size (ring : Ring α) : Nat := ring.distance ring.read ring.write

/-- Whether nothing is stored. -/
def isEmpty (ring : Ring α) : Bool := ring.size == 0

/-- The `count` values from place `i` on. -/
def valuesFrom [Inhabited α] (ring : Ring α) (i count : Nat) : List α :=
  (List.range count).map fun k ↦ ring.slots.getD ((i + k) % ring.slots.size) default

/-- The values stored, the oldest first. -/
def toList [Inhabited α] (ring : Ring α) : List α := ring.valuesFrom ring.read ring.size

/-- Let the writer look at the reader's place if the ring seems full to it. -/
def refreshRead (ring : Ring α) : Ring α :=
  if ring.next ring.write == ring.readSeen then { ring with readSeen := ring.read } else ring

/-- Let the reader look at the writer's place if the ring seems empty to it. -/
def refreshWrite (ring : Ring α) : Ring α :=
  if ring.read == ring.writeSeen then { ring with writeSeen := ring.write } else ring

/-- Store a value unless the ring is full, and say whether it was stored. -/
def enqueue (ring : Ring α) (value : α) : Bool × Ring α :=
  let ring := ring.refreshRead
  let after := ring.next ring.write
  if after == ring.readSeen then
    (false, ring)
  else
    match ring with
    | { slots, write, readSeen, read, writeSeen } =>
      let slots := slots.setIfInBounds write value
      (true, { slots, write := after, readSeen, read, writeSeen })

/-- Take up to `most` values, as far as the reader sees them. -/
def dequeueBatch [Inhabited α] (ring : Ring α) (most : Nat) : List α × Ring α :=
  let ring := ring.refreshWrite
  if ring.read == ring.writeSeen then
    ([], ring)
  else
    let count := min (ring.distance ring.read ring.writeSeen) most
    let values := ring.valuesFrom ring.read count
    (values, { ring with read := (ring.read + count) % ring.slots.size })

/-- Take the oldest value. -/
def dequeue [Inhabited α] (ring : Ring α) : Option α × Ring α :=
  let (values, ring) := ring.dequeueBatch 1
  (values.head?, ring)

end Ring

end RideShare
