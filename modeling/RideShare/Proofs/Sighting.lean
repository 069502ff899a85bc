import RideShare.Proofs.Traffic

/-!
# What the reader of a ring sees

The reader of a ring sees the writer's place as it was when it last looked. Told without places,
this is an account of the past: so many values were stored when the reader looked, so many has it
taken since, and what is left of the former after the latter is what it *sees*. A batch is never
longer than that, and the reader looks again only when it sees nothing.

The account, `Ring.Sighting`, is kept beside the ring, and `Ring.Recalls` says that the two agree:
the reader is as far behind the place it saw as the account has values left. Two things follow. How
long the next batch can be is known from the past alone. And nobody can tell a batch from as many
values taken one by one: after the first of them the reader still sees the others, so it does not
look again before the last one is taken.

## Main statements

* `Ring.Recalls.apply`: every operation keeps the account in step with the ring;
* `Ring.Recalls.offered_eq`: what a batch may hold;
* `Ring.WellPlaced.dequeueEach_eq`: values taken one by one are a batch;
* `Ring.batch_run`: both, for a ring of commands at any point of any run.
-/

namespace RideShare.Ring

variable {α : Type}

/-- What the reader can know of the ring from what it saw and did. -/
structure Sighting where
  /-- How many values were stored when it last looked at the writer's place. -/
  stored : Nat := 0
  /-- How many it has taken since, those for which it looked included. -/
  taken : Nat := 0

/-- How many values the reader sees. -/
def Sighting.seen (sighting : Sighting) : Nat := sighting.stored - sighting.taken

/-- Whether the reader looks at the writer's place before it takes anything. -/
def looks (ring : Ring α) : Bool := ring.read == ring.writeSeen

theorem refreshWrite_eq (ring : Ring α) :
    ring.refreshWrite = if ring.looks then { ring with writeSeen := ring.write } else ring := rfl

/-- Who has just looked does not look again. -/
@[simp] theorem refreshWrite_refreshWrite (ring : Ring α) :
    ring.refreshWrite.refreshWrite = ring.refreshWrite := by
  rw [refreshWrite_eq ring]
  split
  next => rw [refreshWrite_eq, ite_self]
  next hlooks => rw [refreshWrite_eq, if_neg hlooks]

/-! ## The distance to the place seen -/

namespace WellPlaced

variable {ring : Ring α}

theorem looks_iff (h : ring.WellPlaced) :
    ring.looks = true ↔ ring.distance ring.read ring.writeSeen = 0 := by
  have := ring.add_distance h.read_lt h.writeSeen_lt
  have := ring.distance_lt (j := ring.writeSeen) h.read_lt
  have := h.writeSeen_lt
  have := h.read_lt
  rw [looks, beq_iff_eq]
  omega

/-- By as many places as the reader goes on, it comes nearer to the place it saw. -/
theorem distance_advanced (h : ring.WellPlaced) {count : Nat}
    (hcount : count ≤ ring.distance ring.read ring.writeSeen) :
    (ring.advanced count).distance (ring.advanced count).read ring.writeSeen + count =
      ring.distance ring.read ring.writeSeen := by
  obtain ⟨hlt, hread⟩ := h.read_advanced (Nat.le_trans hcount h.writeSeen_behind)
  have := ring.add_distance h.read_lt h.writeSeen_lt
  have := ring.add_distance hlt h.writeSeen_lt
  have := ring.distance_lt (j := ring.writeSeen) hlt
  have := ring.distance_lt (j := ring.writeSeen) h.read_lt
  have := h.writeSeen_lt
  change ring.distance (ring.advanced count).read ring.writeSeen + count = _
  omega

end WellPlaced

/-- The account has as many values left as the reader is behind the place it saw. -/
def Recalls (ring : Ring α) (sighting : Sighting) : Prop :=
  ring.distance ring.read ring.writeSeen + sighting.taken = sighting.stored

namespace Recalls

variable {ring : Ring α} {sighting : Sighting}

theorem seen_eq (h : ring.Recalls sighting) :
    sighting.seen = ring.distance ring.read ring.writeSeen := by
  rw [Sighting.seen, ← h, Nat.add_sub_cancel]

theorem looks_iff (h : ring.Recalls sighting) (hring : ring.WellPlaced) :
    ring.looks = true ↔ sighting.seen = 0 := by
  rw [hring.looks_iff, h.seen_eq]

end Recalls

/-! ## The account of a run -/

section Values

variable [Inhabited α]

/-- The reader of a fresh ring has seen nothing. -/
theorem recalls_ofSlots (slots : Nat) : (ofSlots slots : Ring α).Recalls {} := by
  simp [Recalls, ofSlots, distance]

/-- The account after an operation on the ring. -/
def Sighting.after (sighting : Sighting) (ring : Ring α) (operation : Operation α) : Sighting :=
  let count := (ring.deliver operation).length
  match operation with
  | .enqueue _ => sighting
  | .dequeue | .dequeueBatch _ =>
    if ring.looks then { stored := ring.toList.length, taken := count }
    else { sighting with taken := sighting.taken + count }

/-- The account after some operations on the ring. -/
def Sighting.run (sighting : Sighting) (ring : Ring α) : List (Operation α) → Sighting
  | [] => sighting
  | operation :: rest => (sighting.after ring operation).run (ring.apply operation) rest

theorem Sighting.run_concat (sighting : Sighting) (ring : Ring α) (operations : List (Operation α))
    (operation : Operation α) : sighting.run ring (operations ++ [operation]) =
      (sighting.run ring operations).after (ring.run operations) operation := by
  induction operations generalizing sighting ring with
  | nil => rfl
  | cons first rest ih => exact ih (sighting.after ring first) (ring.apply first)

/-- Take values one by one, `count` times. -/
def dequeueEach (ring : Ring α) : Nat → List (Option α) × Ring α
  | 0 => ([], ring)
  | count + 1 =>
    let (value?, ring) := ring.dequeue
    let (values, ring) := ring.dequeueEach count
    (value? :: values, ring)

/-- It is only before the first value that the reader may look. -/
@[simp] theorem dequeueBatch_refreshWrite (ring : Ring α) (most : Nat) :
    ring.refreshWrite.dequeueBatch most = ring.dequeueBatch most := by
  rw [dequeueBatch, refreshWrite_refreshWrite, dequeueBatch]

theorem dequeueEach_refreshWrite (ring : Ring α) {count : Nat} (hcount : 1 ≤ count) :
    ring.refreshWrite.dequeueEach count = ring.dequeueEach count := by
  obtain ⟨count, rfl⟩ := Nat.exists_eq_add_of_le' hcount
  simp only [dequeueEach, dequeue, dequeueBatch_refreshWrite]

namespace WellPlaced

variable {ring : Ring α}

/-! ## One by one -/

/-- As long as the reader sees values, it takes them without looking. -/
private theorem dequeueEach_of_seen (h : ring.WellPlaced) {count : Nat}
    (hcount : count ≤ ring.distance ring.read ring.writeSeen) :
    ring.dequeueEach count = ((ring.valuesFrom ring.read count).map some, ring.advanced count) := by
  induction count generalizing ring with
  | zero => rw [dequeueEach, h.advanced_zero]; rfl
  | succ count ih =>
    have hquiet : ring.refreshWrite = ring := by
      rw [refreshWrite_eq, if_neg]
      rw [h.looks_iff]
      omega
    have hoffered : min ring.offered 1 = 1 := by
      rw [offered, hquiet]
      omega
    obtain ⟨value, hvalue⟩ : ∃ value, ring.valuesFrom ring.read 1 = [value] :=
      List.length_eq_one_iff.mp (ring.length_valuesFrom _ _)
    have hfirst : ring.dequeue = (some value, ring.advanced 1) := by
      rw [Ring.dequeue, h.dequeueBatch_eq, hoffered, hquiet, hvalue]
      rfl
    have hnearer := h.distance_advanced (Nat.le_trans (Nat.le_add_left 1 count) hcount)
    have hrest := ih (h.advanced (by omega)) (Nat.le_of_add_le_add_right (hnearer ▸ hcount))
    simp only [dequeueEach, hfirst, hrest]
    rw [Nat.add_comm count 1, valuesFrom_add, hvalue, Prod.mk.injEq]
    refine ⟨rfl, ?_⟩
    simp [Ring.advanced, Nat.add_assoc]

/-- A batch that holds values is the same as these values taken one by one. -/
theorem dequeueEach_eq (h : ring.WellPlaced) {most : Nat}
    (hsome : 1 ≤ (ring.dequeueBatch most).1.length) :
    ring.dequeueEach (ring.dequeueBatch most).1.length =
      ((ring.dequeueBatch most).1.map some, (ring.dequeueBatch most).2) := by
  have hcount : (ring.dequeueBatch most).1.length ≤
      ring.refreshWrite.distance ring.refreshWrite.read ring.refreshWrite.writeSeen := by
    rw [h.length_dequeueBatch, distance_refreshWrite, read_refreshWrite]
    exact Nat.min_le_left _ _
  rw [← ring.dequeueEach_refreshWrite hsome, h.refreshWrite.dequeueEach_of_seen hcount,
    h.dequeueBatch_eq, length_valuesFrom, read_refreshWrite]
  simp only [valuesFrom, slots_refreshWrite]

end WellPlaced

/-! ## Keeping the account -/

namespace Recalls

variable {ring : Ring α} {sighting : Sighting}

/-- A batch may hold what the reader sees, or everything if it sees nothing. -/
theorem offered_eq (h : ring.Recalls sighting) (hring : ring.WellPlaced) :
    ring.offered = if sighting.seen = 0 then ring.toList.length else sighting.seen := by
  have hlooks := h.looks_iff hring
  rw [offered, refreshWrite_eq, length_toList, h.seen_eq, if_congr hlooks rfl rfl, h.seen_eq]
  split
  next => rfl
  next => rfl

/-- The reader looks if it has to, and then takes a batch. -/
private theorem dequeueBatch (h : ring.Recalls sighting) (hring : ring.WellPlaced) (most : Nat) :
    (ring.dequeueBatch most).2.Recalls (sighting.after ring (.dequeueBatch most)) := by
  have hlength : (ring.deliver (.dequeueBatch most)).length = min ring.offered most :=
    hring.length_dequeueBatch most
  have hcount : min ring.offered most ≤
      ring.refreshWrite.distance ring.refreshWrite.read ring.refreshWrite.writeSeen := by
    rw [distance_refreshWrite, read_refreshWrite]
    exact Nat.min_le_left _ _
  have hnearer := hring.refreshWrite.distance_advanced hcount
  rw [hring.dequeueBatch_eq, Recalls, Sighting.after, hlength]
  generalize min ring.offered most = count at hnearer ⊢
  change (ring.refreshWrite.advanced count).distance (ring.refreshWrite.advanced count).read
    ring.refreshWrite.writeSeen + _ = _
  cases hlooks : ring.looks with
  | true =>
    rw [refreshWrite_eq, if_pos hlooks] at hnearer ⊢
    rw [if_pos rfl, length_toList]
    exact hnearer
  | false =>
    rw [refreshWrite_eq, if_neg (by simp [hlooks])] at hnearer ⊢
    rw [if_neg Bool.false_ne_true, ← h]
    change _ + (sighting.taken + count) = _
    omega

/-- The account is kept in step with the ring. -/
theorem apply (h : ring.Recalls sighting) (hring : ring.WellPlaced) (operation : Operation α) :
    (ring.apply operation).Recalls (sighting.after ring operation) := by
  cases operation with
  | enqueue value =>
    -- The writer touches neither the reader's place nor what the reader saw.
    have hsame : (ring.enqueue value).2.distance (ring.enqueue value).2.read
        (ring.enqueue value).2.writeSeen = ring.distance ring.read ring.writeSeen := by
      rw [hring.enqueue_eq, refreshRead]
      split <;> split <;> simp [distance, stored]
    exact (congrArg (· + sighting.taken) hsame).trans h
  | dequeue =>
    have hdeliver : ring.deliver .dequeue = ring.deliver (.dequeueBatch 1) := by
      rw [deliver, deliver, hring.fst_dequeue, hring.dequeueBatch_one]
    have hafter : sighting.after ring .dequeue = sighting.after ring (.dequeueBatch 1) := by
      rw [Sighting.after, Sighting.after, hdeliver]
    rw [hafter]
    exact h.dequeueBatch hring 1
  | dequeueBatch most => exact h.dequeueBatch hring most

theorem run (h : ring.Recalls sighting) (hring : ring.WellPlaced)
    (operations : List (Operation α)) :
    (ring.run operations).Recalls (sighting.run ring operations) := by
  induction operations generalizing ring sighting with
  | nil => exact h
  | cons operation rest ih => exact ih (h.apply hring operation) (hring.apply operation)

/-! ### The next batch -/

theorem length_dequeueBatch (h : ring.Recalls sighting) (hring : ring.WellPlaced) (most : Nat) :
    (ring.dequeueBatch most).1.length =
      min most (if sighting.seen = 0 then ring.toList.length else sighting.seen) := by
  rw [hring.length_dequeueBatch, h.offered_eq hring, Nat.min_comm]

/-- The reader sees another place of the writer exactly if it saw nothing. -/
theorem writeSeen_dequeueBatch (h : ring.Recalls sighting) (hring : ring.WellPlaced) (most : Nat) :
    (ring.dequeueBatch most).2.writeSeen =
      if sighting.seen = 0 then ring.write else ring.writeSeen := by
  rw [hring.dequeueBatch_eq]
  change ring.refreshWrite.writeSeen = _
  rw [refreshWrite_eq, if_congr (h.looks_iff hring) rfl rfl]
  split <;> rfl

/-- What is taken is no longer seen. -/
theorem seen_after (h : ring.Recalls sighting) (hring : ring.WellPlaced) (most : Nat) :
    (sighting.after ring (.dequeueBatch most)).seen =
      (if sighting.seen = 0 then ring.toList.length else sighting.seen) -
        (ring.dequeueBatch most).1.length := by
  rw [Sighting.after, if_congr (h.looks_iff hring) rfl rfl]
  split
  next => rfl
  next => exact Nat.sub_add_eq ..

end Recalls

end Values

/-- At any point of any run, what the reader of a ring of commands sees is known from what it saw
and did before, and it looks exactly if it sees nothing. The next batch holds the oldest commands,
as many as the reader then sees and no more than were asked for, and leaves the others; and it
leaves the ring as it would be if these commands had been taken one by one. -/
theorem batch_run (operations : List (Operation Command)) (most : Nat) :
    let ring := forCommands.run operations
    let sighting := Sighting.run {} forCommands operations
    let ready := if sighting.seen = 0 then ring.toList.length else sighting.seen
    let batch := ring.dequeueBatch most
    let count := batch.1.length
    -- The look.
    batch.2.writeSeen = (if sighting.seen = 0 then ring.write else ring.writeSeen) ∧
    (Sighting.run {} forCommands (operations ++ [.dequeueBatch most])).seen = ready - count ∧
    -- The batch.
    count = min most ready ∧
    batch.1 = ring.toList.take count ∧ batch.2.toList = ring.toList.drop count ∧
    (1 ≤ most → (count = 0 ↔ ring.toList = [])) ∧
    -- One by one.
    (1 ≤ count → ring.dequeueEach count = (batch.1.map some, batch.2)) := by
  intro ring sighting ready batch count
  have hfresh : (forCommands : Ring Command).WellPlaced := wellPlaced_ofSlots (by decide)
  obtain ⟨hring, -⟩ := hfresh.run operations
  have h : ring.Recalls sighting := (recalls_ofSlots _).run hfresh operations
  have happend := hring.dequeueBatch_append most
  refine ⟨h.writeSeen_dequeueBatch hring most, ?_, h.length_dequeueBatch hring most, ?_, ?_,
    fun hmost ↦ ?_, hring.dequeueEach_eq⟩
  · rw [Sighting.run_concat]
    exact h.seen_after hring most
  · rw [← happend]
    exact List.take_left.symm
  · rw [← happend]
    exact List.drop_left.symm
  · have hempty := hring.fst_dequeueBatch_eq_nil_iff most
    rw [List.length_eq_zero_iff, hempty, or_iff_right (by omega)]

end RideShare.Ring
