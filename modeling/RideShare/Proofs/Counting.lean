import RideShare.Proofs.Replies

/-!
# Counts are written and never read

No operation looks at the counters. Whatever they stood at before, an operation adds the same to
them, answers the same and leaves the same parties in the same places: `Dispatch.perform_plus`. So
two books that differ in their counters only go on to differ by the same amounts, modulo the size
of a word.
-/

namespace RideShare

namespace Counters

/-- Sums are taken count by count. They wrap around like the counts. -/
instance : Add Counters where
  add c d :=
    { journeysRequested := c.journeysRequested + d.journeysRequested
      assignedOnRequest := c.assignedOnRequest + d.assignedOnRequest
      queued := c.queued + d.queued
      duplicatesRejected := c.duplicatesRejected + d.duplicatesRejected
      invalidSizesRejected := c.invalidSizesRejected + d.invalidSizesRejected
      dropoffsRiding := c.dropoffsRiding + d.dropoffsRiding
      dropoffsWaiting := c.dropoffsWaiting + d.dropoffsWaiting
      dropoffsNotFound := c.dropoffsNotFound + d.dropoffsNotFound
      reallocationPasses := c.reallocationPasses + d.reallocationPasses
      groupsReallocated := c.groupsReallocated + d.groupsReallocated
      reserveConflicts := c.reserveConflicts + d.reserveConflicts
      resets := c.resets + d.resets
      locates := c.locates + d.locates }

theorem add_def (c d : Counters) : c + d =
    { journeysRequested := c.journeysRequested + d.journeysRequested
      assignedOnRequest := c.assignedOnRequest + d.assignedOnRequest
      queued := c.queued + d.queued
      duplicatesRejected := c.duplicatesRejected + d.duplicatesRejected
      invalidSizesRejected := c.invalidSizesRejected + d.invalidSizesRejected
      dropoffsRiding := c.dropoffsRiding + d.dropoffsRiding
      dropoffsWaiting := c.dropoffsWaiting + d.dropoffsWaiting
      dropoffsNotFound := c.dropoffsNotFound + d.dropoffsNotFound
      reallocationPasses := c.reallocationPasses + d.reallocationPasses
      groupsReallocated := c.groupsReallocated + d.groupsReallocated
      reserveConflicts := c.reserveConflicts + d.reserveConflicts
      resets := c.resets + d.resets
      locates := c.locates + d.locates } :=
  rfl

theorem add_assoc (c d e : Counters) : c + d + e = c + (d + e) := by
  simp only [add_def, UInt64.add_assoc]

theorem add_comm (c d : Counters) : c + d = d + c := by
  simp only [add_def, UInt64.add_comm]

@[simp] theorem zero_add (c : Counters) : ({} : Counters) + c = c := by
  simp only [add_def, UInt64.zero_add]

@[simp] theorem add_zero (c : Counters) : c + {} = c := by
  rw [add_comm, zero_add]

end Counters

namespace Dispatch

/-- The books with something added to their counters. -/
def plus (books : Dispatch) (more : Counters) : Dispatch :=
  { books with counters := books.counters + more }

/-- The step with something added to the counters it leaves. -/
def Step.plus {α : Type} (step : Step α) (more : Counters) : Step α :=
  { step with books := step.books.plus more }

@[simp] theorem plus_plus (books : Dispatch) (more others : Counters) :
    (books.plus more).plus others = books.plus (more + others) := by
  simp only [plus, Counters.add_assoc]

theorem plus_comm (books : Dispatch) (more others : Counters) :
    (books.plus more).plus others = (books.plus others).plus more := by
  rw [plus_plus, plus_plus, Counters.add_comm]

/-- To count something and then add is to add and then count it. -/
private theorem count_plus (a b c : UInt64) : a + b + c = a + c + b := by
  rw [UInt64.add_assoc, UInt64.add_comm b, UInt64.add_assoc]

theorem reset_plus (books : Dispatch) (more : Counters) (vehicles : List Vehicle) :
    (books.plus more).reset vehicles = (books.reset vehicles).plus more := by
  simp only [reset, plus, Step.plus, Counters.add_def, count_plus]

theorem requestJourney_plus (books : Dispatch) (more : Counters) (party : Party) :
    (books.plus more).requestJourney party = (books.requestJourney party).plus more := by
  obtain ⟨fleet, backlog, seating, roster, counters⟩ := books
  cases hsize : isSeatCount party.size with
  | false => simp [requestJourney, plus, Step.plus, hsize, Counters.add_def, count_plus]
  | true =>
    cases hknown : roster.contains party.id || backlog.contains party.id with
    | true => simp [requestJourney, plus, Step.plus, hsize, hknown, Counters.add_def, count_plus]
    | false =>
      obtain ⟨vehicle?, fleet', hreserve⟩ : ∃ vehicle? fleet',
        fleet.reserve party.size = (vehicle?, fleet') := ⟨_, _, rfl⟩
      cases vehicle? with
      | some vehicle =>
        simp [requestJourney, plus, Step.plus, hsize, hknown, hreserve, Counters.add_def,
          count_plus]
      | none =>
        obtain ⟨joined, backlog', hjoin⟩ : ∃ joined backlog',
          backlog.enqueue party = (joined, backlog') := ⟨_, _, rfl⟩
        cases joined <;>
          simp [requestJourney, plus, Step.plus, hsize, hknown, hreserve, hjoin,
            Counters.add_def, count_plus]

theorem dropoff_plus (books : Dispatch) (more : Counters) (id : UInt64) :
    (books.plus more).dropoff id = (books.dropoff id).plus more := by
  obtain ⟨fleet, backlog, seating, roster, counters⟩ := books
  cases hsize : roster[id]? with
  | none => simp [dropoff, plus, Step.plus, hsize, Counters.add_def, count_plus]
  | some size =>
    cases hride : seating.get? id with
    | none =>
      obtain ⟨left, backlog', hleave⟩ : ∃ left backlog',
        backlog.dequeue id = (left, backlog') := ⟨_, _, rfl⟩
      simp [dropoff, plus, Step.plus, hsize, hride, hleave, Counters.add_def, count_plus]
    | some vehicle =>
      simp [dropoff, plus, Step.plus, hsize, hride, Counters.add_def, count_plus]

@[simp] theorem whereabouts_plus (books : Dispatch) (more : Counters) (id : UInt64) :
    (books.plus more).whereabouts id = books.whereabouts id :=
  rfl

@[simp] theorem ridingCount_plus (books : Dispatch) (more : Counters) :
    (books.plus more).ridingCount = books.ridingCount :=
  rfl

@[simp] theorem waitingCount_plus (books : Dispatch) (more : Counters) :
    (books.plus more).waitingCount = books.waitingCount :=
  rfl

theorem locate_plus (books : Dispatch) (more : Counters) (id : UInt64) :
    (books.plus more).locate id = ((books.locate id).1, (books.locate id).2.plus more) := by
  simp only [locate, whereabouts_plus]
  simp only [plus, Counters.add_def, count_plus]

/-- No operation looks at the counters. -/
theorem perform_plus (books : Dispatch) (more : Counters) (operation : Operation) :
    (books.plus more).perform operation = (books.perform operation).plus more := by
  cases operation with
  | reset vehicles => rw [perform, reset_plus]; rfl
  | requestJourney party => rw [perform, requestJourney_plus]; rfl
  | dropoff id => rw [perform, dropoff_plus]; rfl
  | locate id => rw [perform, locate_plus]; rfl
  | setManager manager => rfl
  | readClock now => rfl

theorem apply_plus (books : Dispatch) (more : Counters) (operation : Operation) :
    (books.plus more).apply operation = (books.apply operation).plus more := by
  rw [← books_perform, perform_plus]
  exact congrArg (·.plus more) (books.books_perform operation)

end Dispatch

end RideShare
