import RideShare.Proofs.FreshStart

/-!
# Where a delivery is cut off

A delivery keeps its schedule up to the first appointment that is refused, and then it is over. What
was not kept by then is not kept later either: the records of an operation are in nobody's hands but
the delivery's, so an engine whose publishers were cut off goes on like one whose publishers had
heard nothing of the operation at all. The two can differ in nothing but the count of questions,
and a publisher does not learn that.

Who was told what is read off the numbers under which publishers were added. These are distinct
whatever was done to a manager, `Manager.Numbered`, so a publisher that nobody cuts off is told
every record, and no record twice.

## Main statements

* `Journal.course_keptOf`: a schedule is kept to its end, or up to the first refusal;
* `Journal.Manager.numbered_run`: publishers have numbers of their own;
* `Journal.Manager.Numbered.told_eq`: a publisher is told every record once;
* `Engine.twins_unheard`: a cut-off leaves no trace;
* `Engine.delivers_up_to_refusal`: all of them, for any operation of any run.
-/

namespace RideShare

open Journal

namespace Journal

/-! ## The course of a schedule -/

/-- How a schedule is kept: which of its appointments are, and the error that cuts it off, if one
does. -/
inductive Course (schedule : List Appointment) : List Appointment → Option String → Prop where
  /-- Nobody refuses, and all appointments are kept. -/
  | whole (haccepted : ∀ appointment ∈ schedule, appointment.refusal? = none) :
      Course schedule schedule none
  /-- The first to refuse is told, and nobody after that. -/
  | cut (before : List Appointment) (last : Appointment) (lost : List Appointment)
      (message : String) (hschedule : schedule = before ++ last :: lost)
      (hbefore : ∀ appointment ∈ before, appointment.refusal? = none)
      (hlast : last.refusal? = some message) : Course schedule (before ++ [last]) (some message)

theorem Course.cons {appointment : Appointment} (h : appointment.refusal? = none)
    {rest kept : List Appointment} {error? : Option String} (hrest : Course rest kept error?) :
    Course (appointment :: rest) (appointment :: kept) error? := by
  cases hrest with
  | whole haccepted => exact .whole (List.forall_mem_cons.mpr ⟨h, haccepted⟩)
  | cut before last lost message hschedule hbefore hlast =>
    exact .cut (appointment :: before) last lost message (congrArg _ hschedule)
      (List.forall_mem_cons.mpr ⟨h, hbefore⟩) hlast

/-- A schedule is kept to its end, or up to the first refusal. -/
theorem course_keptOf (schedule : List Appointment) :
    Course schedule (keptOf schedule) (schedule.findSome? Appointment.refusal?) := by
  induction schedule with
  | nil => exact .whole (by simp)
  | cons appointment rest ih =>
    rw [keptOf, List.findSome?_cons]
    cases hrefusal : appointment.refusal? with
    | none => exact ih.cons hrefusal
    | some message => exact .cut [] appointment rest message rfl (by simp) hrefusal

/-! ## Publishers by number -/

namespace Manager

/-- The numbers of the publishers are distinct, and all of them were given before. -/
structure Numbered (manager : Manager) : Prop where
  /-- No number stands for two publishers. -/
  nodup : (manager.publishers.map Registration.number).Nodup
  /-- The next number is new. -/
  lt_added : ∀ recipient ∈ manager.publishers, recipient.number < manager.added

theorem numbered_empty : ({} : Manager).Numbered where
  nodup := List.nodup_nil
  lt_added _ hrecipient := absurd hrecipient List.not_mem_nil

theorem numbered_clear (manager : Manager) : manager.clear.Numbered where
  nodup := List.nodup_nil
  lt_added _ hrecipient := absurd hrecipient List.not_mem_nil

namespace Numbered

variable {manager : Manager} (h : manager.Numbered)
include h

theorem add (publisher : Publisher) : (manager.add publisher).Numbered where
  nodup := by
    rw [Manager.add, List.map_append, List.map_singleton, List.nodup_append_comm,
      List.singleton_append, List.nodup_cons]
    refine ⟨fun hmem ↦ ?_, h.nodup⟩
    obtain ⟨recipient, hrecipient, heq⟩ := List.mem_map.mp hmem
    exact absurd heq (Nat.ne_of_lt (h.lt_added recipient hrecipient))
  lt_added recipient hrecipient := by
    rcases List.mem_append.mp hrecipient with hold | hnew
    · exact Nat.lt_succ_of_lt (h.lt_added recipient hold)
    · rw [List.mem_singleton.mp hnew]
      exact Nat.lt_succ_self _

theorem setEnabled (enabled : Bool) : (manager.setEnabled enabled).Numbered where
  nodup := h.nodup
  lt_added := h.lt_added

/-- A number stands for one publisher. -/
theorem filter_number {recipient : Registration} (hrecipient : recipient ∈ manager.publishers) :
    (manager.publishers.filter fun other ↦ other.number = recipient.number) = [recipient] := by
  have hsame : ∀ other ∈ manager.publishers,
      decide (other.number = recipient.number) = decide (other = recipient) := by
    intro other hother
    rw [decide_eq_decide]
    exact ⟨List.inj_on_of_nodup_map h.nodup hother hrecipient, congrArg _⟩
  rw [List.filter_congr hsame, List.filter_eq,
    List.count_eq_one_of_mem h.nodup.of_map hrecipient, List.replicate_one]

/-- A publisher is to be told every record, in order and no record twice. -/
theorem told_eq (henabled : manager.enabled = true) {recipient : Registration}
    (hrecipient : recipient ∈ manager.publishers) (records : List Record) :
    ((manager.schedule records).filter fun appointment ↦
      appointment.recipient.number = recipient.number).map Appointment.record = records := by
  rw [schedule, if_pos henabled]
  induction records with
  | nil => rfl
  | cons record rest ih =>
    have hone : (manager.publishers.map fun other ↦ (⟨other, record⟩ : Appointment)).filter
        (fun appointment ↦ appointment.recipient.number = recipient.number) =
        [⟨recipient, record⟩] := by
      rw [List.filter_map]
      exact congrArg (List.map _) (h.filter_number hrecipient)
    rw [List.flatMap_cons, List.filter_append, hone, List.map_append, ih]
    rfl

end Numbered

/-- An operation of a manager, with its arguments. -/
inductive Operation where
  /-- Add a publisher behind all others. -/
  | add (publisher : Publisher)
  /-- Remove all publishers. -/
  | clear
  /-- Deliver again, or no more. -/
  | setEnabled (enabled : Bool)

/-- The manager after an operation. -/
def apply (manager : Manager) : Operation → Manager
  | .add publisher => manager.add publisher
  | .clear => manager.clear
  | .setEnabled enabled => manager.setEnabled enabled

/-- The manager after some operations, the first of them on a manager without publishers. -/
def run (operations : List Operation) : Manager := operations.foldl apply {}

theorem Numbered.apply {manager : Manager} (h : manager.Numbered) (operation : Operation) :
    (manager.apply operation).Numbered := by
  cases operation with
  | add publisher => exact h.add publisher
  | clear => exact manager.numbered_clear
  | setEnabled enabled => exact h.setEnabled enabled

/-- Numbers are distinct whatever was done to a manager. -/
theorem numbered_run (operations : List Operation) : (run operations).Numbered := by
  induction operations using List.reverseRecOn with
  | nil => exact numbered_empty
  | append_singleton operations operation ih =>
    rw [run, List.foldl_append]
    exact ih.apply operation

theorem numbered_ofPublishers (publishers : List Publisher) :
    (ofPublishers publishers).Numbered := by
  have hadded := numbered_run (publishers.map .add)
  rwa [run, List.foldl_map] at hadded

end Manager

end Journal

/-! ## After a cut-off -/

namespace Engine

/-- Without a manager that is enabled and has publishers, nobody is to be told anything. -/
theorem schedule_eq_nil {engine : Engine} {operation : Operation}
    (h : ∀ manager, engine.audience operation = some manager →
      manager.enabled = false ∨ manager.publishers = []) : engine.schedule operation = [] := by
  rw [schedule]
  cases haudience : engine.audience operation with
  | none => rfl
  | some manager =>
    rcases h manager haudience with hdisabled | hempty
    · exact if_neg (by simp [hdisabled])
    · simp [Manager.schedule, hempty]

/-- Twins publish the same from now on. -/
theorem Twins.calls {engine engine' : Engine} {more : Counters} (h : engine.Twins engine' more)
    (operations : List Operation) : engine.calls operations = engine'.calls operations := by
  induction operations generalizing engine engine' with
  | nil => rfl
  | cons operation rest ih => rw [Engine.calls, Engine.calls, h.calls_eq, ih (h.apply operation)]

/-- The engine after an operation of which nobody heard who should have been told. -/
def unheard (engine : Engine) (operation : Operation) : Engine where
  books := engine.books.apply operation
  manager := engine.audience operation
  clock := engine.timeOf operation

/-- However far the publishing of an operation gets, nothing is left of it but the questions. -/
theorem twins_unheard {engine : Engine} (h : engine.books.Orderly) (operation : Operation) :
    (engine.apply operation).Twins (engine.unheard operation)
      { locates := UInt64.ofNat (questions (engine.perform operation).calls) } where
  books := by
    rw [books_apply_eq]
    exact (Dispatch.Alike.refl (h.apply operation).backlog).plus _
  manager := engine.manager_apply operation
  clock := engine.clock_apply operation

/-- Take any operation at any point of any run, and the manager that is to publish it. Every record,
the reset of the fleet before the events and these before the report, is to be told to every
publisher before the next one, and so it is up to the first call that fails, whose error is the
answer. If none fails, every publisher is told every record once. A manager that is disabled or has
no publishers makes no call. Whatever was not told by then is lost: the calls that operations make
later on are those they make if nothing of this operation was told to anybody. Nor is anything left
over from the operations before: the records are those that there are if nobody was ever told
anything. -/
theorem delivers_up_to_refusal (reserve : Nat) (operations : List Operation)
    (operation : Operation) (later : List Operation) :
    let engine := (ofReserve reserve).run operations
    let step := engine.books.perform operation
    let batch := step.batch.stamped (engine.timeOf operation)
    let records := batch.resets.map .reset ++ batch.events.map .event ++ batch.reports.map .report
    let reply := engine.perform operation
    -- Those who are told.
    (∀ manager, engine.audience operation = some manager → manager.enabled = true →
      ∃ kept error?,
        Course (records.flatMap fun record ↦
          manager.publishers.map fun recipient ↦ { recipient, record }) kept error? ∧
        reply.calls = kept.map (Appointment.call (Dispatch.host (engine.timeOf operation))
          (engine.books.apply operation)) ∧
        reply.answer = error?.elim (.ok step.answer) .error ∧
        (error? = none → manager.Numbered → ∀ recipient ∈ manager.publishers,
          (reply.calls.filter fun call ↦ call.publisher = recipient.number).map Call.record =
            records)) ∧
    -- Nobody is told.
    ((∀ manager, engine.audience operation = some manager →
        manager.enabled = false ∨ manager.publishers = []) →
      reply.calls = [] ∧ reply.answer = .ok step.answer) ∧
    -- Later operations, and earlier ones.
    reply.engine.calls later = (engine.unheard operation).calls later ∧
    (ofReserve reserve).calls (operations ++ operation :: later) =
      (ofReserve reserve).calls operations ++ reply.calls ++
        (engine.unheard operation).calls later ∧
    step.batch = (((ofReserve reserve).run (operations.map Operation.silenced)).books.perform
      operation).batch := by
  intro engine step batch records reply
  have hlater : (engine.apply operation).calls later = (engine.unheard operation).calls later :=
    (twins_unheard (orderly_run reserve operations) operation).calls later
  have hcourse : Course (engine.schedule operation) _ _ := course_keptOf _
  have hcalls : reply.calls = (keptOf (engine.schedule operation)).map _ :=
    engine.calls_eq operation
  have hanswer := engine.answer_perform operation
  refine ⟨fun manager haudience henabled ↦ ?_, fun hnobody ↦ ?_, ?_, ?_, ?_⟩
  · have hschedule : engine.schedule operation = manager.schedule records := by
      rw [schedule, haudience]
      rfl
    have hplan : manager.schedule records = records.flatMap fun record ↦
        manager.publishers.map fun recipient ↦ { recipient, record } := if_pos henabled
    rw [hschedule, hplan] at hcourse
    refine ⟨_, _, hcourse, ?_, ?_, fun hwhole hnumbered recipient hrecipient ↦ ?_⟩
    · rw [hcalls, hschedule, hplan]
    · rw [hanswer, hschedule, hplan]
    · rw [hcalls, keptOf_eq_self, List.filter_map, List.map_map, hschedule]
      · exact hnumbered.told_eq henabled hrecipient records
      · rw [hschedule, hplan]
        simpa using hwhole
  · have hschedule := schedule_eq_nil hnobody
    rw [hschedule] at hcalls hanswer
    exact ⟨hcalls, hanswer⟩
  · rw [← hlater, ← engine_perform]
  · rw [calls_append, ← hlater, List.append_assoc]
    rfl
  · have hbooks : engine.books = _ := books_run_eq reserve operations
    change (engine.books.perform operation).batch = _
    rw [hbooks, Dispatch.asked, Dispatch.perform_plus]
    rfl

/-- A party of four alights, and one of two is seated in its place, which one of the publishers
refuses to hear. The third one never learns of it, and nobody gets the report. -/
theorem delivers_up_to_refusal_of_reallocated :
    let manager := Manager.ofPublishers [.recorder, .failing "full" [.reallocated] false false,
      .recorder]
    let engine := (ofReserve 0).run [.reset [⟨1, 4⟩], .requestJourney ⟨7, 4⟩,
      .requestJourney ⟨8, 2⟩, .setManager (some manager)]
    let droppedOff : Record := .event ⟨.droppedOff, ⟨7, 4⟩, 1, none⟩
    let reallocated : Record := .event ⟨.reallocated, ⟨8, 2⟩, 1, none⟩
    manager.enabled = true ∧ manager.Numbered ∧
    (engine.perform (.dropoff 7)).answer = .error "full" ∧
    (engine.perform (.dropoff 7)).calls.map (fun call ↦ (call.publisher, call.record)) =
      [(0, droppedOff), (1, droppedOff), (2, droppedOff), (0, reallocated), (1, reallocated)] ∧
    (engine.perform (.dropoff 7)).engine.calls [.dropoff 8] =
      (engine.unheard (.dropoff 7)).calls [.dropoff 8] := by
  intro manager engine droppedOff reallocated
  obtain ⟨-, -, hlater, -⟩ := delivers_up_to_refusal 0 [.reset [⟨1, 4⟩], .requestJourney ⟨7, 4⟩,
    .requestJourney ⟨8, 2⟩, .setManager (some manager)] (.dropoff 7) [.dropoff 8]
  exact ⟨rfl, Manager.numbered_ofPublishers _, by cbv, by cbv, hlater⟩

end Engine

end RideShare
