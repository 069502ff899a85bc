import RideShare.Journal.Manager

/-!
# The schedule of a delivery

A delivery is a loop over records around a loop over publishers, and either may end early. Written
out in advance it is a single list of *appointments*: every publisher is told the first record,
then every publisher the second one, and so on. `Delivery.follow` keeps the appointments one by one
and stops behind the first that is refused, so whatever holds of a delivery is shown by one
induction along one list.

Who refuses what is known before anybody is told. The first refusal of the schedule is therefore
all there is to say about how a delivery ends.

## Main statements

* `Manager.deliver_eq`: a delivery follows its schedule;
* `Delivery.follow_keeps`: what every call keeps, a delivery keeps;
* `Delivery.failure_follow`: a delivery ends with the first refusal on its schedule.
-/

namespace RideShare.Journal

/-- A publisher that is to be told a record. -/
structure Appointment where
  /-- The publisher. -/
  recipient : Registration
  /-- The record. -/
  record : Record
  deriving DecidableEq

/-- The error with which the publisher refuses the record. -/
def Appointment.refusal? (appointment : Appointment) : Option String :=
  appointment.recipient.publisher.failure? appointment.record

/-- Who is to be told what, in order. A disabled manager has no appointments. -/
def Manager.schedule (manager : Manager) (records : List Record) : List Appointment :=
  if manager.enabled then
    records.flatMap fun record ↦ manager.publishers.map fun recipient ↦ { recipient, record }
  else
    []

/-- The appointments that are kept: those in front of the first that is refused, and that one. -/
def keptOf : List Appointment → List Appointment
  | [] => []
  | appointment :: rest =>
    if appointment.refusal?.isSome then [appointment] else appointment :: keptOf rest

theorem isPrefix_keptOf (schedule : List Appointment) : keptOf schedule <+: schedule := by
  induction schedule with
  | nil => exact List.prefix_rfl
  | cons appointment rest ih =>
    rw [keptOf]
    split
    next => exact ⟨rest, rfl⟩
    next => exact (List.prefix_cons_inj appointment).mpr ih

theorem keptOf_eq_self {schedule : List Appointment}
    (h : ∀ appointment ∈ schedule, appointment.refusal? = none) : keptOf schedule = schedule := by
  induction schedule with
  | nil => rfl
  | cons appointment rest ih =>
    rw [List.forall_mem_cons] at h
    rw [keptOf, h.1, ih h.2]
    rfl

theorem Manager.mem_schedule {manager : Manager} {records : List Record}
    {appointment : Appointment} (h : appointment ∈ manager.schedule records) :
    appointment.recipient ∈ manager.publishers ∧ appointment.record ∈ records := by
  rw [schedule] at h
  split at h
  next =>
    obtain ⟨record, hrecord, hmem⟩ := List.mem_flatMap.mp h
    obtain ⟨recipient, hrecipient, rfl⟩ := List.mem_map.mp hmem
    exact ⟨hrecipient, hrecord⟩
  next => exact absurd h List.not_mem_nil

namespace Delivery

variable {σ : Type} {host : Host σ}

/-- Keep one appointment. -/
def attend (host : Host σ) (delivery : Delivery σ) (appointment : Appointment) : Delivery σ :=
  delivery.call host appointment.record appointment.recipient

/-- Keep the appointments in turn, up to the first one that is refused. -/
def follow (host : Host σ) : Delivery σ → List Appointment → Delivery σ
  | delivery, [] => delivery
  | delivery, appointment :: rest =>
    let delivery := delivery.attend host appointment
    if delivery.failure.isSome then delivery else follow host delivery rest

theorem attend_of_refused {appointment : Appointment} {message : String}
    (h : appointment.refusal? = some message) (delivery : Delivery σ) :
    delivery.attend host appointment =
      { delivery with
        calls := delivery.calls.push
          { publisher := appointment.recipient.number, record := appointment.record
            emission := none }
        failure := some message } := by
  rw [attend, call, show appointment.recipient.publisher.failure? appointment.record = _ from h]

theorem attend_of_accepted {appointment : Appointment} (h : appointment.refusal? = none)
    (delivery : Delivery σ) :
    delivery.attend host appointment =
      { delivery with
        state := (appointment.recipient.publisher.react host appointment.recipient.number
          delivery.state appointment.record).2
        calls := delivery.calls.push
          { publisher := appointment.recipient.number, record := appointment.record
            emission := (appointment.recipient.publisher.react host appointment.recipient.number
              delivery.state appointment.record).1 } } := by
  rw [attend, call, show appointment.recipient.publisher.failure? appointment.record = _ from h]

theorem failure_attend {delivery : Delivery σ} (h : delivery.failure = none)
    (appointment : Appointment) :
    (delivery.attend host appointment).failure = appointment.refusal? := by
  cases hrefusal : appointment.refusal? with
  | none => rw [attend_of_accepted hrefusal, h]
  | some message => rw [attend_of_refused hrefusal]

/-! ## The two loops are one -/

theorem follow_cons {appointment : Appointment} (h : appointment.refusal? = none)
    {delivery : Delivery σ} (hgoing : delivery.failure = none) (rest : List Appointment) :
    delivery.follow host (appointment :: rest) =
      (delivery.attend host appointment).follow host rest := by
  rw [follow]
  simp only [failure_attend hgoing, h, Option.isSome_none, Bool.false_eq_true, if_false]

theorem follow_cons_of_refused {appointment : Appointment} {message : String}
    (h : appointment.refusal? = some message) (delivery : Delivery σ) (rest : List Appointment) :
    delivery.follow host (appointment :: rest) = delivery.attend host appointment := by
  rw [follow]
  simp only [attend_of_refused h, Option.isSome_some, if_true]

/-- A delivery that goes on ends with the first refusal of its schedule. -/
theorem failure_follow {delivery : Delivery σ} (h : delivery.failure = none)
    (schedule : List Appointment) :
    (delivery.follow host schedule).failure = schedule.findSome? Appointment.refusal? := by
  induction schedule generalizing delivery with
  | nil => exact h
  | cons appointment rest ih =>
    rw [List.findSome?_cons]
    cases hrefusal : appointment.refusal? with
    | none =>
      rw [follow_cons hrefusal h]
      exact ih ((failure_attend h appointment).trans hrefusal)
    | some message => rw [follow_cons_of_refused hrefusal, attend_of_refused hrefusal]

theorem follow_append {delivery : Delivery σ} (h : delivery.failure = none)
    (schedule rest : List Appointment) :
    delivery.follow host (schedule ++ rest) =
      if (delivery.follow host schedule).failure.isSome then delivery.follow host schedule
      else (delivery.follow host schedule).follow host rest := by
  induction schedule generalizing delivery with
  | nil => simp [follow, h]
  | cons appointment others ih =>
    rw [List.cons_append]
    cases hrefusal : appointment.refusal? with
    | none =>
      rw [follow_cons hrefusal h, follow_cons hrefusal h]
      exact ih ((failure_attend h appointment).trans hrefusal)
    | some message =>
      rw [follow_cons_of_refused hrefusal, follow_cons_of_refused hrefusal,
        attend_of_refused hrefusal]
      rfl

theorem tellAll_eq_follow (record : Record) (delivery : Delivery σ)
    (recipients : List Registration) :
    delivery.tellAll host record recipients =
      delivery.follow host (recipients.map fun recipient ↦ { recipient, record }) := by
  induction recipients generalizing delivery with
  | nil => rfl
  | cons recipient rest ih =>
    rw [tellAll, List.map_cons, follow, ih]
    rfl

theorem tellEach_eq_follow (publishers : List Registration) {delivery : Delivery σ}
    (h : delivery.failure = none) (records : List Record) :
    delivery.tellEach host publishers records = delivery.follow host
      (records.flatMap fun record ↦ publishers.map fun recipient ↦ { recipient, record }) := by
  induction records generalizing delivery with
  | nil => rfl
  | cons record rest ih =>
    rw [tellEach, List.flatMap_cons, follow_append h, tellAll_eq_follow]
    split
    next => rfl
    next hgoing => exact ih (by simpa using hgoing)

/-- What every call keeps, a delivery keeps. -/
theorem follow_keeps {P : Delivery σ → Prop} {schedule : List Appointment}
    (hattend : ∀ delivery, P delivery → ∀ appointment ∈ schedule,
      P (delivery.attend host appointment))
    {delivery : Delivery σ} (h : P delivery) : P (delivery.follow host schedule) := by
  induction schedule generalizing delivery with
  | nil => exact h
  | cons appointment rest ih =>
    have hfirst := hattend delivery h appointment List.mem_cons_self
    have hrest := ih (fun delivery h other hother ↦
      hattend delivery h other (List.mem_cons_of_mem _ hother)) hfirst
    rw [follow]
    split
    next => exact hfirst
    next => exact hrest

end Delivery

namespace Manager

variable {σ : Type} {host : Host σ}

/-- A delivery follows its schedule. -/
theorem deliver_eq (manager : Manager) (host : Host σ) (state : σ) (records : List Record) :
    manager.deliver host state records =
      Delivery.follow host { state } (manager.schedule records) := by
  rw [deliver, schedule]
  split
  next => exact Delivery.tellEach_eq_follow manager.publishers rfl records
  next => rfl

end Manager

end RideShare.Journal
