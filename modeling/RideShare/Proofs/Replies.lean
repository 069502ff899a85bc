import RideShare.Proofs.Run

/-!
# What operations answer

Operations answer in different ways, and some of them tell nobody. To speak of a run as a whole,
`Engine.perform` gives every operation a reply of one kind: what it leaves, what it answers, and
the calls it makes. On the books alone, `Dispatch.perform` does the same without anybody to tell.

The two are tied together by the schedule of the operation, that is, by who is to be told what of
its records: every operation, also one that tells nobody, is carried out on the books to its end,
and after that its schedule is followed.

## Main statements

* `Engine.perform_eq`: an operation of the engine is the operation on the books, published;
* `Engine.delivery`: how far the publishing of an operation gets.
-/

namespace RideShare

open Journal

/-- The answer of any operation. -/
inductive Answer where
  /-- It is done, and there is nothing to say. -/
  | done
  /-- What became of a request. -/
  | journey (result : JourneyResult)
  /-- What became of the end of a journey. -/
  | dropoff (result : DropoffResult)
  /-- Where a party is. -/
  | located (found : Whereabouts)
  deriving DecidableEq

variable {α β : Type}

/-- The step with its answer put differently. -/
def Dispatch.Step.map (f : α → β) (step : Dispatch.Step α) : Dispatch.Step β :=
  { step with answer := f step.answer }

/-- The reply with its answer put differently. -/
def Engine.Reply.map (f : α → β) (reply : Engine.Reply α) : Engine.Reply β :=
  { reply with answer := reply.answer.map f }

namespace Dispatch

/-- Carry out an operation on the books. -/
def perform (books : Dispatch) : Operation → Step Answer
  | .reset vehicles => (books.reset vehicles).map fun _ ↦ .done
  | .requestJourney party => (books.requestJourney party).map .journey
  | .dropoff id => (books.dropoff id).map .dropoff
  | .locate id => { books := (books.locate id).2, answer := .located (books.locate id).1 }
  | .setManager _ => { books, answer := .done }
  | .readClock _ => { books, answer := .done }

theorem books_perform (books : Dispatch) (operation : Operation) :
    (books.perform operation).books = books.apply operation := by
  cases operation <;> rfl

end Dispatch

namespace Engine

/-- Carry out an operation. -/
def perform (engine : Engine) : Operation → Reply Answer
  | .reset vehicles => (engine.reset vehicles).map fun _ ↦ .done
  | .requestJourney party => (engine.requestJourney party).map .journey
  | .dropoff id => (engine.dropoff id).map .dropoff
  | .locate id => (engine.locateReply id).map .located
  | .setManager manager => { engine := engine.setManager manager, answer := .ok .done }
  | .readClock now => { engine := { engine with clock := now }, answer := .ok .done }

theorem engine_perform (engine : Engine) (operation : Operation) :
    (engine.perform operation).engine = engine.apply operation := by
  cases operation <;> rfl

/-- Who is told of an operation. -/
def audience (engine : Engine) : Operation → Option Manager
  | .setManager manager => manager
  | _ => engine.manager

/-- What time it is for an operation. -/
def timeOf (engine : Engine) : Operation → Reading
  | .readClock now => now
  | _ => engine.clock

/-- Who is to be told what of an operation. -/
def schedule (engine : Engine) (operation : Operation) : List Appointment :=
  match engine.audience operation with
  | none => []
  | some manager => manager.schedule
      ((engine.books.perform operation).batch.stamped (engine.timeOf operation)).records

/-- The delivery of an operation's records, once it has run to its end on the books. -/
def delivery (engine : Engine) (operation : Operation) : Delivery Dispatch :=
  Delivery.follow (Dispatch.host (engine.timeOf operation))
    { state := engine.books.apply operation } (engine.schedule operation)

theorem publish_map (f : α → β) (manager : Option Manager) (clock : Reading)
    (step : Dispatch.Step α) :
    (publish manager clock step).map f = publish manager clock (step.map f) := by
  cases manager with
  | none => rfl
  | some manager =>
    simp only [publish, Reply.map, Dispatch.Step.map]
    split <;> rfl

/-- Where there is nothing to tell, nobody is told. -/
theorem publish_of_silent (manager : Option Manager) (clock : Reading) (books : Dispatch)
    (answer : α) : publish manager clock { books, answer } =
      { engine := { books, manager, clock }, answer := .ok answer } := by
  cases manager with
  | none => rfl
  | some manager =>
    have hsilent : manager.deliver (Dispatch.host clock) books
        (({} : Batch).stamped clock).records = { state := books } := by
      rw [Manager.deliver]
      split <;> rfl
    simp only [publish, hsilent]
    rfl

/-- The reply to an operation whose records were delivered. -/
def Reply.ofDelivery (manager : Manager) (clock : Reading) (step : Dispatch.Step α)
    (delivery : Delivery Dispatch) : Reply α :=
  { engine := { books := delivery.state, manager := some manager, clock }
    answer := delivery.failure.elim (.ok step.answer) .error
    warnings := step.strays.map strayWarning
    calls := delivery.calls.toList }

/-- Publishing follows the schedule of the records. -/
theorem publish_some (manager : Manager) (clock : Reading) (step : Dispatch.Step α) :
    publish (some manager) clock step = Reply.ofDelivery manager clock step
      (Delivery.follow (Dispatch.host clock) { state := step.books }
        (manager.schedule (step.batch.stamped clock).records)) := by
  rw [publish, Manager.deliver_eq, Reply.ofDelivery]
  split
  next hgoing => rw [hgoing, Option.elim_none]
  next message hrefused => rw [hrefused, Option.elim_some]

/-- Every operation runs to its end on the books, and then its records are published. -/
theorem perform_eq (engine : Engine) (operation : Operation) :
    engine.perform operation = publish (engine.audience operation) (engine.timeOf operation)
      (engine.books.perform operation) := by
  cases operation with
  | reset vehicles => exact publish_map _ _ _ _
  | requestJourney party => exact publish_map _ _ _ _
  | dropoff id => exact publish_map _ _ _ _
  | locate id => exact (publish_of_silent _ _ _ _).symm
  | setManager manager => exact (publish_of_silent _ _ _ _).symm
  | readClock now => exact (publish_of_silent _ _ _ _).symm

section Perform

variable (engine : Engine) (operation : Operation)

/-- What a reply says about publishing is read off the delivery. -/
private theorem publish_perform :
    (engine.perform operation).engine =
        { books := (engine.delivery operation).state
          manager := engine.audience operation
          clock := engine.timeOf operation } ∧
      (engine.perform operation).answer = (engine.delivery operation).failure.elim
        (.ok (engine.books.perform operation).answer) .error ∧
      (engine.perform operation).calls = (engine.delivery operation).calls.toList := by
  rw [perform_eq, delivery, schedule, ← Dispatch.books_perform]
  cases engine.audience operation with
  | none => exact ⟨rfl, rfl, rfl⟩
  | some manager =>
    rw [publish_some]
    exact ⟨rfl, rfl, rfl⟩

theorem apply_eq : engine.apply operation =
    { books := (engine.delivery operation).state
      manager := engine.audience operation
      clock := engine.timeOf operation } :=
  (engine.engine_perform operation).symm.trans (engine.publish_perform operation).1

theorem calls_perform :
    (engine.perform operation).calls = (engine.delivery operation).calls.toList :=
  (engine.publish_perform operation).2.2

/-- The answer is that of the books, or the error of the first publisher on the schedule that
refuses what it is told. -/
theorem answer_perform : (engine.perform operation).answer =
    ((engine.schedule operation).findSome? Appointment.refusal?).elim
      (.ok (engine.books.perform operation).answer) .error := by
  have hfailure : (engine.delivery operation).failure =
      (engine.schedule operation).findSome? Appointment.refusal? := Delivery.failure_follow rfl _
  rw [← hfailure]
  exact (engine.publish_perform operation).2.1

theorem manager_apply : (engine.apply operation).manager = engine.audience operation := by
  rw [apply_eq]

theorem clock_apply : (engine.apply operation).clock = engine.timeOf operation := by
  rw [apply_eq]

theorem books_apply : (engine.apply operation).books = (engine.delivery operation).state := by
  rw [apply_eq]

end Perform

/-- An engine without publishers is its books. -/
theorem books_apply_of_silent {engine : Engine} {operation : Operation}
    (h : engine.audience operation = none) :
    (engine.apply operation).books = engine.books.apply operation := by
  rw [books_apply, delivery, schedule, h]
  rfl

/-- What is told is a record of the operation, and told to a publisher who is there. -/
theorem mem_schedule {engine : Engine} {operation : Operation} {appointment : Appointment}
    (h : appointment ∈ engine.schedule operation) :
    appointment.record ∈
      ((engine.books.perform operation).batch.stamped (engine.timeOf operation)).records := by
  rw [schedule] at h
  split at h
  next => exact absurd h List.not_mem_nil
  next => exact (Manager.mem_schedule h).2

/-! ## The calls of a run -/

/-- The calls that operations make, in order. -/
def calls (engine : Engine) : List Operation → List Call
  | [] => []
  | operation :: rest => (engine.perform operation).calls ++ (engine.apply operation).calls rest

theorem calls_append (engine : Engine) (operations others : List Operation) :
    engine.calls (operations ++ others) =
      engine.calls operations ++ (engine.run operations).calls others := by
  induction operations generalizing engine with
  | nil => rfl
  | cons operation rest ih =>
    rw [List.cons_append, calls, calls, ih, List.append_assoc]
    rfl

theorem calls_concat (engine : Engine) (operations : List Operation) (operation : Operation) :
    engine.calls (operations ++ [operation]) =
      engine.calls operations ++ ((engine.run operations).perform operation).calls := by
  rw [calls_append, calls, calls, List.append_nil]

end Engine

end RideShare
