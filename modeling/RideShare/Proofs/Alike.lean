import RideShare.Proofs.Counting

/-!
# Backlogs that cannot be told apart

A backlog that was used for long keeps its nodes: there may be more of them than parties ever wait
at a time, they hold parties that have left, and the free ones lie in the order in which they were
given back. All of this is out of sight. Two sound backlogs in which the same parties wait in the
same order give the same answers, whatever their nodes, and go on to do so.

Books that are the same but for such backlogs are *alike*. An operation on alike books answers the
same, makes the same records, and leaves alike books: `Dispatch.Alike.perform`.
-/

namespace RideShare

open Journal

/-- The same parties wait in the same order. -/
structure Backlog.Alike (backlog backlog' : Backlog) : Prop where
  /-- The first backlog is sound. -/
  sound : backlog.Sound
  /-- So is the second. -/
  sound' : backlog'.Sound
  /-- They list the same parties. -/
  toList_eq : backlog.toList = backlog'.toList

namespace Backlog.Alike

variable {backlog backlog' : Backlog}

theorem contains_eq (h : backlog.Alike backlog') (id : UInt64) :
    backlog.contains id = backlog'.contains id := by
  rw [Bool.eq_iff_iff, h.sound.contains_iff, h.sound'.contains_iff, h.toList_eq]

theorem size_eq (h : backlog.Alike backlog') : backlog.size = backlog'.size := by
  rw [h.sound.size_eq, h.sound'.size_eq, h.toList_eq]

theorem choose_eq (h : backlog.Alike backlog') (seats : UInt32) :
    backlog.choose seats = backlog'.choose seats := by
  rw [h.sound.choose_eq_fill, h.sound'.choose_eq_fill, h.toList_eq]

theorem fst_enqueue_eq (h : backlog.Alike backlog') (party : Party) :
    (backlog.enqueue party).1 = (backlog'.enqueue party).1 := by
  rw [fst_enqueue, fst_enqueue, h.contains_eq]

theorem fst_dequeue_eq (h : backlog.Alike backlog') (id : UInt64) :
    (backlog.dequeue id).1 = (backlog'.dequeue id).1 := by
  rw [fst_dequeue, fst_dequeue, h.contains_eq]

theorem enqueue (h : backlog.Alike backlog') (party : Party) :
    (backlog.enqueue party).2.Alike (backlog'.enqueue party).2 where
  sound := h.sound.enqueue party
  sound' := h.sound'.enqueue party
  toList_eq := by
    cases hjoins : (backlog.enqueue party).1 with
    | true =>
      rw [h.sound.toList_enqueue hjoins,
        h.sound'.toList_enqueue ((h.fst_enqueue_eq party).symm.trans hjoins), h.toList_eq]
    | false =>
      rw [enqueue_of_refused hjoins,
        enqueue_of_refused ((h.fst_enqueue_eq party).symm.trans hjoins), h.toList_eq]

theorem dequeue (h : backlog.Alike backlog') (id : UInt64) :
    (backlog.dequeue id).2.Alike (backlog'.dequeue id).2 where
  sound := h.sound.dequeue id
  sound' := h.sound'.dequeue id
  toList_eq := by rw [h.sound.toList_dequeue, h.sound'.toList_dequeue, h.toList_eq]

/-- Cleared backlogs are alike, whoever waited in them. -/
theorem clear {backlog backlog' : Backlog} (h : backlog.Sound) (h' : backlog'.Sound) :
    backlog.clear.Alike backlog'.clear where
  sound := h.clear
  sound' := h'.clear
  toList_eq := h.toList_clear.trans h'.toList_clear.symm

end Backlog.Alike

/-! ## Passes -/

/-- Two passes have come equally far. -/
structure Pass.Alike (pass pass' : Pass) : Prop where
  /-- The vehicles are the same. -/
  fleet : pass.fleet = pass'.fleet
  /-- The same parties ride. -/
  seating : pass.seating = pass'.seating
  /-- The same parties wait. -/
  backlog : pass.backlog.Alike pass'.backlog
  /-- The same parties have been seated. -/
  seated : pass.seated = pass'.seated
  /-- The same events have been recorded. -/
  events : pass.events = pass'.events
  /-- The same conflicts have been counted. -/
  conflicts : pass.conflicts = pass'.conflicts

theorem Pass.Alike.seatAll {pass pass' : Pass} (h : pass.Alike pass') (vehicle : UInt64)
    (parties : List Party) :
    (Pass.seatAll vehicle pass parties).Alike (Pass.seatAll vehicle pass' parties) := by
  induction parties generalizing pass pass' with
  | nil => exact h
  | cons party rest ih =>
    obtain ⟨fleet, seating, backlog, seated, events, conflicts⟩ := pass
    obtain ⟨_, _, backlog', _, _, _⟩ := pass'
    obtain ⟨rfl, rfl, hbacklog, rfl, rfl, rfl⟩ := h
    have hbacklog : backlog.Alike backlog' := hbacklog
    have hdequeue := hbacklog.dequeue party.id
    cases hreserved : (fleet.tryReserve vehicle party.size).1 with
    | false =>
      simp only [Pass.seatAll, hreserved, Bool.false_eq_true, if_false]
      exact ⟨rfl, rfl, hbacklog, rfl, rfl, rfl⟩
    | true =>
      cases hleft : (backlog.dequeue party.id).1 with
      | false =>
        have hleft' := (hbacklog.fst_dequeue_eq party.id).symm.trans hleft
        simp only [Pass.seatAll, hreserved, hleft, hleft', if_true, Bool.false_eq_true, if_false]
        exact ih ⟨rfl, rfl, hdequeue, rfl, rfl, rfl⟩
      | true =>
        have hleft' := (hbacklog.fst_dequeue_eq party.id).symm.trans hleft
        simp only [Pass.seatAll, hreserved, hleft, hleft', if_true]
        exact ih ⟨rfl, rfl, hdequeue, rfl, rfl, rfl⟩

/-- The pass over alike backlogs is reported alike. -/
theorem Backlog.Alike.reallocate {backlog backlog' : Backlog} (h : backlog.Alike backlog')
    (fleet : Fleet) (seating : Seating) (vehicle : UInt64) (seats : UInt32) :
    (reallocate fleet seating backlog vehicle seats).1.Alike
        (reallocate fleet seating backlog' vehicle seats).1 ∧
      (reallocate fleet seating backlog vehicle seats).2 =
        (reallocate fleet seating backlog' vehicle seats).2 := by
  have hstart (freed : Fleet) : Pass.Alike { fleet := freed, seating, backlog }
      { fleet := freed, seating, backlog := backlog' } := ⟨rfl, rfl, h, rfl, rfl, rfl⟩
  have hpass := (hstart (fleet.release vehicle seats).2).seatAll vehicle
    (backlog'.choose (fleet.release vehicle seats).1)
  simp only [RideShare.reallocate, h.choose_eq, h.size_eq]
  refine ⟨hpass, ?_⟩
  rw [hpass.seated, hpass.fleet]

/-! ## Books -/

namespace Dispatch

/-- Books that differ in nothing but what cannot be seen of their backlogs. -/
structure Alike (books books' : Dispatch) : Prop where
  /-- The vehicles are the same. -/
  fleet : books.fleet = books'.fleet
  /-- The same parties wait. -/
  backlog : books.backlog.Alike books'.backlog
  /-- The same parties ride. -/
  seating : books.seating = books'.seating
  /-- The same parties are known. -/
  roster : books.roster = books'.roster
  /-- The same has been counted. -/
  counters : books.counters = books'.counters

/-- Steps with the same answer and records, which leave alike books. -/
structure Step.Alike {α : Type} (step step' : Step α) : Prop where
  /-- The books are alike. -/
  books : step.books.Alike step'.books
  /-- The answer is the same. -/
  answer : step.answer = step'.answer
  /-- The records are the same. -/
  batch : step.batch = step'.batch
  /-- So are the parties that were neither riding nor waiting. -/
  strays : step.strays = step'.strays

theorem Step.Alike.map {α β : Type} {step step' : Step α} (h : step.Alike step') (f : α → β) :
    (step.map f).Alike (step'.map f) :=
  ⟨h.books, congrArg f h.answer, h.batch, h.strays⟩

namespace Alike

variable {books books' : Dispatch}

theorem refl (h : books.backlog.Sound) : books.Alike books :=
  ⟨rfl, ⟨h, h, rfl⟩, rfl, rfl, rfl⟩

theorem reset (h : books.Alike books') (vehicles : List Vehicle) :
    (books.reset vehicles).Alike (books'.reset vehicles) := by
  refine ⟨⟨rfl, .clear h.backlog.sound h.backlog.sound', rfl, rfl, ?_⟩, rfl, rfl, rfl⟩
  simp only [Dispatch.reset, h.counters]

theorem requestJourney (h : books.Alike books') (party : Party) :
    (books.requestJourney party).Alike (books'.requestJourney party) := by
  obtain ⟨fleet, backlog, seating, roster, counters⟩ := books
  obtain ⟨_, backlog', _, _, _⟩ := books'
  obtain ⟨rfl, hbacklog, rfl, rfl, rfl⟩ := h
  have hbacklog : backlog.Alike backlog' := hbacklog
  cases hsize : isSeatCount party.size with
  | false =>
    simp only [Dispatch.requestJourney, hsize, Bool.not_false, if_true]
    exact ⟨⟨rfl, hbacklog, rfl, rfl, rfl⟩, rfl, rfl, rfl⟩
  | true =>
    cases hknown : roster.contains party.id || backlog.contains party.id with
    | true =>
      have hknown' := hbacklog.contains_eq party.id ▸ hknown
      simp only [Dispatch.requestJourney, hsize, hknown, hknown', Bool.not_true,
        Bool.false_eq_true, if_true, if_false]
      exact ⟨⟨rfl, hbacklog, rfl, rfl, rfl⟩, rfl, rfl, rfl⟩
    | false =>
      have hknown' := hbacklog.contains_eq party.id ▸ hknown
      cases hfound : (fleet.reserve party.size).1 with
      | some vehicle =>
        simp only [Dispatch.requestJourney, hsize, hknown, hknown', hfound, Bool.not_true,
          Bool.false_eq_true, if_false]
        exact ⟨⟨rfl, hbacklog, rfl, rfl, rfl⟩, rfl, rfl, rfl⟩
      | none =>
        have hjoins := hbacklog.fst_enqueue_eq party
        cases hjoined : (backlog.enqueue party).1 with
        | true =>
          simp only [Dispatch.requestJourney, hsize, hknown, hknown', hfound, hjoined, ← hjoins,
            Bool.not_true, Bool.false_eq_true, if_true, if_false]
          exact ⟨⟨rfl, hbacklog.enqueue party, rfl, rfl, rfl⟩, rfl, rfl, rfl⟩
        | false =>
          simp only [Dispatch.requestJourney, hsize, hknown, hknown', hfound, hjoined, ← hjoins,
            Bool.not_true, Bool.false_eq_true, if_false]
          exact ⟨⟨rfl, hbacklog.enqueue party, rfl, rfl, rfl⟩, rfl, rfl, rfl⟩

theorem dropoff (h : books.Alike books') (id : UInt64) :
    (books.dropoff id).Alike (books'.dropoff id) := by
  obtain ⟨fleet, backlog, seating, roster, counters⟩ := books
  obtain ⟨_, backlog', _, _, _⟩ := books'
  obtain ⟨rfl, hbacklog, rfl, rfl, rfl⟩ := h
  have hbacklog : backlog.Alike backlog' := hbacklog
  cases hsize : roster[id]? with
  | none =>
    simp only [Dispatch.dropoff, hsize]
    exact ⟨⟨rfl, hbacklog, rfl, rfl, rfl⟩, rfl, rfl, rfl⟩
  | some size =>
    cases hride : seating.get? id with
    | none =>
      simp only [Dispatch.dropoff, hsize, hride, hbacklog.fst_dequeue_eq id]
      exact ⟨⟨rfl, hbacklog.dequeue id, rfl, rfl, rfl⟩, rfl, rfl, rfl⟩
    | some vehicle =>
      obtain ⟨hpass, hreport⟩ := hbacklog.reallocate fleet (seating.erase id) vehicle size
      simp only [Dispatch.dropoff, hsize, hride, hreport, hpass.fleet, hpass.seating,
        hpass.events, hpass.conflicts]
      exact ⟨⟨rfl, hpass.backlog, rfl, rfl, rfl⟩, rfl, rfl, rfl⟩

theorem whereabouts_eq (h : books.Alike books') (id : UInt64) :
    books.whereabouts id = books'.whereabouts id := by
  rw [whereabouts, whereabouts, h.roster, h.seating, h.fleet]

theorem plus (h : books.Alike books') (more : Counters) :
    (books.plus more).Alike (books'.plus more) :=
  ⟨h.fleet, h.backlog, h.seating, h.roster, congrArg (· + more) h.counters⟩

/-- An operation does the same to alike books. -/
theorem perform (h : books.Alike books') (operation : Operation) :
    (books.perform operation).Alike (books'.perform operation) := by
  cases operation with
  | reset vehicles => exact (h.reset vehicles).map fun _ ↦ Answer.done
  | requestJourney party => exact (h.requestJourney party).map Answer.journey
  | dropoff id => exact (h.dropoff id).map Answer.dropoff
  | locate id =>
    refine ⟨⟨h.fleet, h.backlog, h.seating, h.roster, ?_⟩, ?_, rfl, rfl⟩
    · simp only [Dispatch.perform, Dispatch.locate, h.counters]
    · exact congrArg Answer.located (h.whereabouts_eq id)
  | setManager manager => exact ⟨h, rfl, rfl, rfl⟩
  | readClock now => exact ⟨h, rfl, rfl, rfl⟩

end Alike

end Dispatch

end RideShare
