import Mathlib.Data.List.Induction
import RideShare.Engine
import RideShare.Proofs.Schedule

/-!
# Publishers that refuse nothing

A delivery ends early only if somebody refuses a record. Where nobody does, every operation of the
engine is answered with what the books answer.

## Main statements

* `Journal.Manager.failure_deliver`: a delivery to publishers that refuse nothing does not fail;
* `Engine.answer_publish`: what is then answered is the answer of the books.
-/

namespace RideShare

open Journal

namespace Journal

variable {σ : Type} {host : Host σ}

/-- None of the publishers ever refuses a record. -/
def Manager.RefusesNothing (manager : Manager) : Prop :=
  ∀ recipient ∈ manager.publishers, ∀ record, recipient.publisher.failure? record = none

theorem Manager.RefusesNothing.refusal?_eq_none {manager : Manager} (h : manager.RefusesNothing)
    {records : List Record} {appointment : Appointment}
    (hmem : appointment ∈ manager.schedule records) : appointment.refusal? = none :=
  h appointment.recipient (mem_schedule hmem).1 appointment.record

theorem Manager.failure_deliver {manager : Manager} (h : manager.RefusesNothing) (state : σ)
    (records : List Record) : (manager.deliver host state records).failure = none := by
  rw [deliver_eq, Delivery.failure_follow rfl, List.findSome?_eq_none_iff]
  exact fun _ hmem ↦ h.refusal?_eq_none hmem

theorem Manager.refusesNothing_ofPublishers {publishers : List Publisher}
    (h : ∀ publisher ∈ publishers, ∀ record, publisher.failure? record = none) :
    (ofPublishers publishers).RefusesNothing := by
  induction publishers using List.reverseRecOn with
  | nil => exact fun recipient hmem ↦ by simp [ofPublishers] at hmem
  | append_singleton publishers publisher ih =>
    rw [List.forall_mem_append] at h
    rw [ofPublishers, List.foldl_append]
    intro recipient hmem
    rcases List.mem_append.mp hmem with hmem | hmem
    · exact ih h.1 recipient hmem
    · rw [List.mem_singleton.mp hmem]
      exact h.2 publisher (List.mem_singleton_self _)

end Journal

namespace Engine

/-- Nobody who is told refuses a record. -/
def RefusesNothing (engine : Engine) : Prop :=
  ∀ manager, engine.manager = some manager → manager.RefusesNothing

theorem answer_publish {α : Type} {manager? : Option Manager}
    (h : ∀ manager, manager? = some manager → manager.RefusesNothing) (clock : Reading)
    (step : Dispatch.Step α) : (publish manager? clock step).answer = .ok step.answer := by
  obtain ⟨books, answer, batch, strays⟩ := step
  cases manager? with
  | none => rfl
  | some manager =>
    simp only [publish, Manager.failure_deliver (h manager rfl)]

theorem manager_publish {α : Type} (manager? : Option Manager) (clock : Reading)
    (step : Dispatch.Step α) : (publish manager? clock step).engine.manager = manager? := by
  cases manager? <;> rfl

end Engine

end RideShare
