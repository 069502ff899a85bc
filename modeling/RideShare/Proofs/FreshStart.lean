import RideShare.Proofs.Alike
import RideShare.Proofs.Audit
import RideShare.Proofs.Clock

/-!
# A reset erases history

An engine that is reset keeps two things of its past: its counts, and the nodes of its backlog. The
counts go on from where they were and are never looked at; the nodes are out of sight. So a used
engine and a fresh one, reset to the same fleet and given the same manager, are *twins*: whatever is
done to both, they answer and publish the same, stamps aside, and their counts stay as far apart as
they were when the used engine was reset.

## Main statements

* `Engine.Twins.apply`: twins stay twins, and `Engine.Twins.answer_eq` and `Engine.Twins.calls_eq`:
  they answer and publish the same;
* `Engine.reset_erases_history`: a used engine and a fresh one become twins by a reset.
-/

namespace RideShare

open Journal

/-! ## What can be seen -/

/-- Two books look the same to everybody who asks, the counters aside. -/
structure Dispatch.SameView (books books' : Dispatch) : Prop where
  /-- The same parties wait, in the same order. -/
  waiting : books.waiting = books'.waiting
  /-- Equally many parties wait. -/
  waitingCount : books.waitingCount = books'.waitingCount
  /-- Equally many parties ride. -/
  ridingCount : books.ridingCount = books'.ridingCount
  /-- Equally many parties are known. -/
  groupCount : books.groupCount = books'.groupCount
  /-- There are equally many vehicles. -/
  vehicleCount : books.vehicleCount = books'.vehicleCount
  /-- Every vehicle has equally many seats free. -/
  availableSeats : ∀ vehicle, books.availableSeats vehicle = books'.availableSeats vehicle
  /-- Every party is found in the same place. -/
  whereabouts : ∀ id, books.whereabouts id = books'.whereabouts id
  /-- The audit says the same. -/
  audit : books.audit = books'.audit

namespace Dispatch.Alike

variable {books books' : Dispatch}

theorem sameView {more : Counters} (h : books.Alike (books'.plus more))
    (hbooks : books.Consistent) (hbooks' : books'.Consistent) : books.SameView books' where
  waiting := h.backlog.toList_eq
  waitingCount := h.backlog.size_eq
  ridingCount := congrArg Seating.size h.seating
  groupCount := congrArg Std.HashMap.size h.roster
  vehicleCount := congrArg Fleet.size h.fleet
  availableSeats vehicle := congrArg (Fleet.availableOf · vehicle) h.fleet
  whereabouts := h.whereabouts_eq
  audit := hbooks.audit.trans hbooks'.audit.symm

/-- Books are alike after a reset to the same fleet, but go on counting from where they were. -/
theorem of_reset (books books' : Dispatch) (hbooks : books.backlog.Sound)
    (hbooks' : books'.backlog.Sound) (hcounters : books'.counters = {}) (vehicles : List Vehicle) :
    (books.reset vehicles).books.Alike ((books'.reset vehicles).books.plus books.counters) where
  fleet := rfl
  backlog := .clear hbooks hbooks'
  seating := rfl
  roster := rfl
  counters := by simp [Dispatch.reset, Dispatch.plus, hcounters, Counters.add_def, UInt64.add_comm]

/-- Publishers learn the same from alike books. -/
theorem call_eq (h : books.Alike books') (now : Reading) (appointment : Appointment) :
    appointment.call (host now) books = appointment.call (host now) books' := by
  obtain ⟨⟨number, publisher⟩, record⟩ := appointment
  cases publisher with
  | locator =>
    refine congrArg (Call.mk _ _) ?_
    cases record with
    | event event =>
      exact congrArg (fun found ↦ some (Emission.located number found))
        (h.whereabouts_eq event.party.id)
    | report report =>
      exact congrArg (fun fleet ↦ some (Emission.seats number (fleet.availableOf report.vehicle)))
        h.fleet
    | reset reset =>
      exact congrArg (fun count ↦ some (Emission.waiting number count)) h.backlog.size_eq
  | recorder => rfl
  | failing message kinds onReport onReset => rfl
  | console verbose => rfl
  | file base => rfl

end Dispatch.Alike

/-- To reset the books twice is to reset them once and count another reset. -/
theorem Dispatch.reset_reset (books : Dispatch) (vehicles : List Vehicle) :
    ((books.reset vehicles).books.reset vehicles).books =
      (books.reset vehicles).books.plus { resets := 1 } := by
  have hclear : books.backlog.clear.clear = books.backlog.clear := rfl
  simp [Dispatch.reset, Dispatch.plus, Counters.add_def, hclear]

namespace Engine

/-! ## Twins -/

/-- Engines in alike books, with the same manager and the same time. The first one has counted more,
by the given amounts. -/
structure Twins (engine engine' : Engine) (more : Counters) : Prop where
  /-- The books are alike. -/
  books : engine.books.Alike (engine'.books.plus more)
  /-- The same publishers are told. -/
  manager : engine.manager = engine'.manager
  /-- It is the same time. -/
  clock : engine.clock = engine'.clock

namespace Twins

variable {engine engine' : Engine} {more : Counters}

theorem perform (h : engine.Twins engine' more) (operation : Operation) :
    (engine.books.perform operation).Alike ((engine'.books.perform operation).plus more) := by
  rw [← Dispatch.perform_plus]
  exact h.books.perform operation

theorem audience_eq (h : engine.Twins engine' more) (operation : Operation) :
    engine.audience operation = engine'.audience operation := by
  cases operation <;> first | exact h.manager | rfl

theorem timeOf_eq (h : engine.Twins engine' more) (operation : Operation) :
    engine.timeOf operation = engine'.timeOf operation := by
  cases operation <;> first | exact h.clock | rfl

theorem schedule_eq (h : engine.Twins engine' more) (operation : Operation) :
    engine.schedule operation = engine'.schedule operation := by
  rw [schedule, schedule, h.audience_eq, h.timeOf_eq, (h.perform operation).batch]
  rfl

theorem answer_eq (h : engine.Twins engine' more) (operation : Operation) :
    (engine.perform operation).answer = (engine'.perform operation).answer := by
  rw [answer_perform, answer_perform, h.schedule_eq, (h.perform operation).answer]
  rfl

theorem books_apply (h : engine.Twins engine' more) (operation : Operation) :
    (engine.books.apply operation).Alike ((engine'.books.apply operation).plus more) := by
  rw [← Dispatch.books_perform, ← Dispatch.books_perform]
  exact (h.perform operation).books

theorem calls_eq (h : engine.Twins engine' more) (operation : Operation) :
    (engine.perform operation).calls = (engine'.perform operation).calls := by
  rw [Engine.calls_eq, Engine.calls_eq, h.schedule_eq, h.timeOf_eq]
  refine List.map_congr_left fun appointment _ ↦ ?_
  rw [(h.books_apply operation).call_eq, Dispatch.call_plus]

theorem apply (h : engine.Twins engine' more) (operation : Operation) :
    (engine.apply operation).Twins (engine'.apply operation) more where
  books := by
    rw [books_apply_eq, books_apply_eq, h.calls_eq, Dispatch.asked, Dispatch.asked,
      Dispatch.plus_comm]
    exact (h.books_apply operation).plus _
  manager := by rw [manager_apply, manager_apply, h.audience_eq]
  clock := by rw [clock_apply, clock_apply, h.timeOf_eq]

theorem run (h : engine.Twins engine' more) (operations : List Operation) :
    (engine.run operations).Twins (engine'.run operations) more := by
  induction operations generalizing engine engine' with
  | nil => exact h
  | cons operation rest ih => exact ih (h.apply operation)

end Twins

/-! ## Resets -/

/-- Nobody asks for a party on a reset. -/
theorem questions_reset (engine : Engine) (vehicles : List Vehicle) :
    questions (engine.perform (.reset vehicles)).calls = 0 := by
  rw [Engine.calls_eq, questions, List.countP_eq_zero]
  intro call hcall
  obtain ⟨⟨⟨number, publisher⟩, record⟩, hkept, rfl⟩ := List.mem_map.mp hcall
  obtain rfl : record = .reset _ :=
    List.mem_singleton.mp (mem_schedule ((isPrefix_keptOf _).subset hkept))
  cases publisher <;> exact Bool.false_ne_true

theorem books_apply_reset (engine : Engine) (vehicles : List Vehicle) :
    (engine.apply (.reset vehicles)).books = (engine.books.reset vehicles).books := by
  rw [books_apply_eq, questions_reset, Dispatch.asked_zero]
  rfl

/-- To reset twice is to reset once and count another reset. -/
theorem run_reset_reset (engine : Engine) (vehicles : List Vehicle) :
    engine.run [.reset vehicles, .reset vehicles] =
      { engine.apply (.reset vehicles) with
        books := (engine.apply (.reset vehicles)).books.plus { resets := 1 } } := by
  have hbooks : ((engine.apply (.reset vehicles)).apply (.reset vehicles)).books =
      (engine.apply (.reset vehicles)).books.plus { resets := 1 } := by
    rw [books_apply_reset, books_apply_reset]
    exact Dispatch.reset_reset _ _
  rw [Engine.books_apply] at hbooks
  rw [run, List.foldl_cons, List.foldl_cons, List.foldl_nil, apply_eq, hbooks]
  rfl

/-- A used engine and a fresh one are twins after the same reset and with the same manager, once it
makes no difference what time it is. -/
theorem twins_of_reset (reserve reserve' : Nat) (past : List Operation) (vehicles : List Vehicle)
    (manager? : Option Manager) :
    (((ofReserve reserve).run past).run [.reset vehicles, .setManager manager?]).stopped.Twins
      ((ofReserve reserve').run [.reset vehicles, .setManager manager?]).stopped
      ((ofReserve reserve).run past).books.counters := by
  refine ⟨?_, rfl, rfl⟩
  have hused := books_apply_reset ((ofReserve reserve).run past) vehicles
  have hfresh := books_apply_reset (ofReserve reserve') vehicles
  have halike := Dispatch.Alike.of_reset _ (ofReserve reserve').books
    (orderly_run reserve past).backlog (Backlog.sound_ofReserve reserve') rfl vehicles
  rw [← hused, ← hfresh] at halike
  exact halike

/-- A reset erases history. Take a used engine and a fresh one, reset both to the same fleet, give
both the same manager or none, and go on with the same operations, whatever the clock says. At any
point, the books look the same, and the next operation is answered the same and published the same,
stamps aside. The counts differ by those of the used engine before its reset. And to reset an engine
twice is to reset it once and count another reset. -/
theorem reset_erases_history (reserve reserve' : Nat) (past : List Operation)
    (vehicles : List Vehicle) (manager? : Option Manager) {operations operations' : List Operation}
    (hsame : operations.map Operation.untimed = operations'.map Operation.untimed) :
    let used := (((ofReserve reserve).run past).run [.reset vehicles, .setManager manager?]).run
      operations
    let fresh := ((ofReserve reserve').run [.reset vehicles, .setManager manager?]).run operations'
    used.books.SameView fresh.books ∧
    used.books.counters = fresh.books.counters + ((ofReserve reserve).run past).books.counters ∧
    (∀ operation operation', operation.untimed = operation'.untimed →
      (used.perform operation).answer = (fresh.perform operation').answer ∧
      (used.perform operation).calls.map Call.unstamped =
        (fresh.perform operation').calls.map Call.unstamped) ∧
    used.run [.reset vehicles, .reset vehicles] =
      { used.apply (.reset vehicles) with
        books := (used.apply (.reset vehicles)).books.plus { resets := 1 } } := by
  intro used fresh
  have htwins : used.stopped.Twins fresh.stopped ((ofReserve reserve).run past).books.counters := by
    have hrun := (twins_of_reset reserve reserve' past vehicles manager?).run
      (operations.map Operation.untimed)
    rwa [run_stopped, hsame, run_stopped] at hrun
  have hbooks : used.books.Consistent := by
    have horderly := orderly_run reserve
      (past ++ [.reset vehicles, .setManager manager?] ++ operations)
    rw [run_append, run_append] at horderly
    exact horderly.toConsistent
  have hbooks' : fresh.books.Consistent := by
    have horderly := orderly_run reserve' ([.reset vehicles, .setManager manager?] ++ operations')
    rw [run_append] at horderly
    exact horderly.toConsistent
  refine ⟨Dispatch.Alike.sameView htwins.books hbooks hbooks', htwins.books.counters,
    fun operation operation' heq ↦ ⟨?_, ?_⟩, used.run_reset_reset vehicles⟩
  · rw [← answer_stopped, htwins.answer_eq, heq, answer_stopped]
  · rw [← calls_stopped, htwins.calls_eq, heq, calls_stopped]

/-- The used engine has let somebody wait and leave, still has somebody waiting, and then goes by a
different clock. -/
theorem reset_erases_history_of_waiting :
    let past : List Operation :=
      [.reset [⟨1, 2⟩], .requestJourney ⟨5, 6⟩, .dropoff 5, .requestJourney ⟨6, 3⟩]
    let manager := Manager.ofPublishers [.recorder, .locator]
    let used := (((ofReserve 0).run past).run [.reset [⟨3, 4⟩], .setManager (some manager)]).run
      [.readClock (some 20), .requestJourney ⟨7, 4⟩]
    let fresh := ((ofReserve 8).run [.reset [⟨3, 4⟩], .setManager (some manager)]).run
      [.readClock (some 10), .requestJourney ⟨7, 4⟩]
    [.readClock (some 20), .requestJourney ⟨7, 4⟩].map Operation.untimed =
      [.readClock (some 10), .requestJourney ⟨7, 4⟩].map Operation.untimed ∧
    used.books.SameView fresh.books ∧
    (used.perform (.dropoff 7)).answer = (fresh.perform (.dropoff 7)).answer ∧
    (used.perform (.dropoff 7)).calls.map Call.unstamped =
      (fresh.perform (.dropoff 7)).calls.map Call.unstamped := by
  intro past manager used fresh
  have hsame : [.readClock (some 20), .requestJourney ⟨7, 4⟩].map Operation.untimed =
      [.readClock (some 10), .requestJourney ⟨7, 4⟩].map Operation.untimed := rfl
  have herased := reset_erases_history 0 8 past [⟨3, 4⟩] (some manager) hsame
  exact ⟨hsame, herased.1, herased.2.2.1 (.dropoff 7) (.dropoff 7) rfl⟩

end Engine

end RideShare
