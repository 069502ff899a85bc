import RideShare.Proofs.Publishing

/-!
# Time is written down and never read

An engine that is told the time puts it on its events, and publishers put it in front of their rows.
Nobody acts on it: if the clock is stopped and never read again, every operation is answered as
before, and every publisher is told the same and does the same, stamps aside.

## Main statements

* `Engine.run_stopped`: a run with a stopped clock goes through the same books;
* `Engine.answer_stopped` and `Engine.calls_stopped`: what is answered and published on the way.
-/

namespace RideShare

open Journal

namespace Journal

/-! ## Stamps -/

/-- A row without its first column. -/
def withoutStamp (line : String) : String := String.ofList (line.toList.dropWhile (· ≠ ','))

/-- There is no comma in a point in time. -/
theorem ne_comma_of_mem_stampText {time : Reading} {c : Char} (hc : c ∈ time.stampText.toList) :
    c ≠ ',' := by
  have hdigit {n : Nat} (h : c ∈ (toString n).toList) : c ≠ ',' := by
    have hdigits : c ∈ Nat.toDigits 10 n := by simpa [Nat.toString_eq_ofList_toDigits] using h
    rintro rfl
    exact absurd (Nat.isDigit_of_mem_toDigits (by omega) (by omega) hdigits) (by decide)
  cases time with
  | none =>
    rw [show c = 'T' by simpa [Reading.stampText] using hc]
    decide
  | some time =>
    cases time with
    | ofNat n => exact hdigit hc
    | negSucc n =>
      have hsign : Reading.stampText (some (.negSucc n)) = "-" ++ toString (n + 1) := rfl
      rw [hsign, String.toList_append, List.mem_append] at hc
      rcases hc with hc | hc
      · rw [show c = '-' by simpa using hc]
        decide
      · exact hdigit hc

theorem withoutStamp_row (time : Reading) (column : String) (columns : List String) :
    withoutStamp (row (time.stampText :: column :: columns)) = "," ++ row (column :: columns) := by
  have hstamp : ∀ c ∈ time.stampText.toList, decide (c ≠ ',') = true := fun c hc ↦
    decide_eq_true (ne_comma_of_mem_stampText hc)
  rw [row, String.intercalate_cons_cons, ← row, withoutStamp, String.append_assoc,
    String.toList_append, List.dropWhile_append_of_pos hstamp]
  simp

/-- The record without the time at which it was made. -/
def Record.unstamped : Record → Record
  | .event e => .event { e with time := none }
  | record => record

/-- The emission without stamps. -/
def Emission.unstamped : Emission → Emission
  | .kept publisher record => .kept publisher record.unstamped
  | .append path line => .append path (withoutStamp line)
  | emission => emission

/-- The call without stamps. -/
def Call.unstamped (call : Call) : Call where
  publisher := call.publisher
  record := call.record.unstamped
  emission := call.emission.map Emission.unstamped

/-- The appointment without stamps. -/
def Appointment.unstamped (appointment : Appointment) : Appointment :=
  { appointment with record := appointment.record.unstamped }

/-- The rows of a record differ in the stamp at most. -/
theorem withoutStamp_csv (now now' : Reading) (record : Record) :
    withoutStamp (record.csv now) = withoutStamp (record.unstamped.csv now') := by
  cases record with
  | reset reset =>
    exact (withoutStamp_row now _ _).trans (withoutStamp_row now' _ _).symm
  | event event =>
    exact (withoutStamp_row event.time _ _).trans (withoutStamp_row none _ _).symm
  | report report =>
    exact (withoutStamp_row now _ _).trans (withoutStamp_row now' _ _).symm

@[simp] theorem fileEnding_unstamped (record : Record) :
    record.unstamped.fileEnding = record.fileEnding := by
  cases record <;> rfl

theorem records_stamped (batch : Batch) (time : Reading) :
    (batch.stamped time).records.map Record.unstamped = (batch.stamped none).records := by
  simp [Batch.records, Batch.stamped, Record.unstamped, Function.comp_def]

theorem Manager.schedule_unstamped (manager : Manager) (records : List Record) :
    (manager.schedule records).map Appointment.unstamped =
      manager.schedule (records.map Record.unstamped) := by
  rw [schedule, schedule]
  split
  next => simp [List.map_flatMap, List.flatMap_map, Appointment.unstamped, Function.comp_def]
  next => rfl

/-- Nobody refuses a record for its stamp. -/
theorem Appointment.refusal?_unstamped (appointment : Appointment) :
    appointment.unstamped.refusal? = appointment.refusal? := by
  obtain ⟨⟨number, publisher⟩, record⟩ := appointment
  cases publisher <;> cases record <;> rfl

theorem keptOf_unstamped (schedule : List Appointment) :
    keptOf (schedule.map Appointment.unstamped) = (keptOf schedule).map Appointment.unstamped := by
  induction schedule with
  | nil => rfl
  | cons appointment rest ih =>
    rw [List.map_cons, keptOf, keptOf, Appointment.refusal?_unstamped, ih]
    split <;> rfl

/-- What a publisher does depends on the time only as far as stamps go. -/
theorem Appointment.call_unstamped (now now' : Reading) (books : Dispatch)
    (appointment : Appointment) :
    (appointment.call (Dispatch.host now) books).unstamped =
      (appointment.unstamped.call (Dispatch.host now') books).unstamped := by
  obtain ⟨⟨number, publisher⟩, record⟩ := appointment
  cases publisher with
  | file base =>
    simp only [call, Appointment.unstamped, Call.unstamped, Publisher.react, Option.map_some,
      Emission.unstamped, Dispatch.host, fileEnding_unstamped, withoutStamp_csv now now' record]
    cases record <;> rfl
  | recorder => cases record <;> rfl
  | locator => cases record <;> rfl
  | failing message kinds onReport onReset => cases record <;> rfl
  | console verbose => cases record <;> rfl

/-- Stamps do not hide questions. -/
theorem Call.asks_unstamped (call : Call) : call.unstamped.asks = call.asks := by
  obtain ⟨publisher, record, emission⟩ := call
  rcases emission with _ | emission
  · rfl
  · cases emission <;> rfl

theorem questions_unstamped (calls : List Call) :
    questions (calls.map Call.unstamped) = questions calls := by
  rw [questions, List.countP_map]
  exact congrArg (List.countP · calls) (funext Call.asks_unstamped)

end Journal

/-! ## A stopped clock -/

/-- The operation, but the clock is not read. -/
def Operation.untimed : Operation → Operation
  | .readClock _ => .readClock none
  | operation => operation

@[simp] theorem Dispatch.perform_untimed (books : Dispatch) (operation : Operation) :
    books.perform operation.untimed = books.perform operation := by
  cases operation <;> rfl

@[simp] theorem Dispatch.apply_untimed (books : Dispatch) (operation : Operation) :
    books.apply operation.untimed = books.apply operation := by
  cases operation <;> rfl

namespace Engine

/-- The engine, but it does not know the time. -/
def stopped (engine : Engine) : Engine := { engine with clock := none }

@[simp] theorem timeOf_stopped (engine : Engine) (operation : Operation) :
    engine.stopped.timeOf operation.untimed = none := by
  cases operation <;> rfl

@[simp] theorem audience_stopped (engine : Engine) (operation : Operation) :
    engine.stopped.audience operation.untimed = engine.audience operation := by
  cases operation <;> rfl

/-- The same publishers are to be told the same. -/
theorem schedule_stopped (engine : Engine) (operation : Operation) :
    engine.stopped.schedule operation.untimed =
      (engine.schedule operation).map Appointment.unstamped := by
  rw [schedule, schedule, audience_stopped, timeOf_stopped, Dispatch.perform_untimed]
  cases engine.audience operation with
  | none => rfl
  | some manager => exact ((manager.schedule_unstamped _).trans
      (congrArg manager.schedule (records_stamped _ _))).symm

/-- Operations are answered as before. -/
theorem answer_stopped (engine : Engine) (operation : Operation) :
    (engine.stopped.perform operation.untimed).answer = (engine.perform operation).answer := by
  have hrefusal : Appointment.refusal? ∘ Appointment.unstamped = Appointment.refusal? :=
    funext Appointment.refusal?_unstamped
  rw [answer_perform, answer_perform, schedule_stopped, List.findSome?_map, hrefusal,
    Dispatch.perform_untimed]
  rfl

/-- Publishers are told the same and do the same. -/
theorem calls_stopped (engine : Engine) (operation : Operation) :
    (engine.stopped.perform operation.untimed).calls.map Call.unstamped =
      (engine.perform operation).calls.map Call.unstamped := by
  rw [calls_eq, calls_eq, schedule_stopped, keptOf_unstamped, Dispatch.apply_untimed,
    List.map_map, List.map_map, List.map_map]
  exact List.map_congr_left fun appointment _ ↦ (appointment.call_unstamped _ _ _).symm

theorem apply_stopped (engine : Engine) (operation : Operation) :
    engine.stopped.apply operation.untimed = (engine.apply operation).stopped := by
  have hquestions : questions (engine.stopped.perform operation.untimed).calls =
      questions (engine.perform operation).calls := by
    rw [← questions_unstamped, calls_stopped, questions_unstamped]
  have hbooks :
      (engine.stopped.apply operation.untimed).books = (engine.apply operation).books := by
    rw [books_apply_eq, books_apply_eq, hquestions, Dispatch.apply_untimed]
    rfl
  rw [books_apply, books_apply] at hbooks
  rw [apply_eq, apply_eq, hbooks, audience_stopped, timeOf_stopped]
  rfl

/-- A run with a stopped clock goes through the same books. -/
theorem run_stopped (engine : Engine) (operations : List Operation) :
    engine.stopped.run (operations.map Operation.untimed) = (engine.run operations).stopped := by
  induction operations generalizing engine with
  | nil => rfl
  | cons operation rest ih =>
    rw [List.map_cons, run, List.foldl_cons, apply_stopped]
    exact ih (engine.apply operation)

end Engine

end RideShare
