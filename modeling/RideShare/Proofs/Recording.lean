import RideShare.Proofs.Delivery
import RideShare.Proofs.Ledger
import RideShare.Proofs.Publishing

/-!
# Keeping all records

The records of a run are enough to keep books by, provided that they are all kept. The recorder has
to be there from the start, the manager must not be disabled, and nobody may end a delivery early.
Then the recorder keeps every record of every operation once and in order, whatever other publishers
are told in between, and a ledger kept from its records follows the books.

## Main statements

* `Journal.Manager.Records.keptBy_schedule`: a recorder keeps what it is told;
* `Engine.ledger_agrees`: a ledger kept during a run agrees with the books.
-/

namespace RideShare

open Journal

namespace Journal

/-- The record that the publisher with the given number keeps, if this is a call of it. -/
def Call.kept? (number : Nat) (call : Call) : Option Record :=
  match call.emission with
  | some (.kept publisher record) => if publisher = number then some record else none
  | _ => none

/-- The records that the publisher with the given number keeps, in order. -/
def keptBy (number : Nat) (calls : List Call) : List Record := calls.filterMap (Call.kept? number)

theorem keptBy_append (number : Nat) (calls others : List Call) :
    keptBy number (calls ++ others) = keptBy number calls ++ keptBy number others :=
  List.filterMap_append

/-- A recorder keeps what it is told, and nobody else keeps anything. -/
theorem Appointment.kept?_call {σ : Type} (host : Host σ) (state : σ) (number : Nat)
    (recipient : Registration) (record : Record) :
    (Appointment.call host state ⟨recipient, record⟩).kept? number =
      if recipient = ⟨number, .recorder⟩ then some record else none := by
  obtain ⟨other, publisher⟩ := recipient
  cases publisher with
  | recorder => simp [call, Publisher.react, Call.kept?]
  | locator => cases record <;> simp [call, Publisher.react, Call.kept?]
  | failing message kinds onReport onReset => simp [call, Publisher.react, Call.kept?]
  | console verbose =>
    rcases Publisher.print?_cases verbose record with hprint | ⟨text, hprint⟩ | ⟨text, hprint⟩ <;>
      simp [call, Publisher.react, Call.kept?, hprint]
  | file base => simp [call, Publisher.react, Call.kept?]

/-- The manager tells everything to a recorder, which goes by this number alone. -/
structure Manager.Records (manager : Manager) (number : Nat) : Prop where
  /-- Records are delivered. -/
  enabled : manager.enabled = true
  /-- The recorder is there. -/
  recorder : manager.publishers.filter (·.number = number) = [⟨number, .recorder⟩]
  /-- Nobody ends a delivery early. -/
  refusesNothing : manager.RefusesNothing

namespace Manager.Records

variable {σ : Type} {manager : Manager} {number : Nat}

/-- The recorder keeps every record once. -/
theorem keptBy_one (h : manager.Records number) (host : Host σ) (state : σ) (record : Record) :
    keptBy number ((manager.publishers.map fun recipient ↦
      (⟨recipient, record⟩ : Appointment)).map (Appointment.call host state)) = [record] := by
  have hsplit : manager.publishers.filterMap (fun recipient ↦
        (Appointment.call host state ⟨recipient, record⟩).kept? number) =
      (manager.publishers.filter (·.number = number)).filterMap (fun recipient ↦
        (Appointment.call host state ⟨recipient, record⟩).kept? number) := by
    rw [List.filterMap_filter]
    refine List.filterMap_congr fun recipient _ ↦ ?_
    rw [Appointment.kept?_call]
    by_cases hnumber : recipient.number = number
    · simp [hnumber]
    · simp [hnumber, show recipient ≠ ⟨number, .recorder⟩ from fun heq ↦ hnumber (heq ▸ rfl)]
  rw [keptBy, List.map_map, List.filterMap_map]
  refine hsplit.trans ?_
  rw [h.recorder, List.filterMap_cons, Appointment.kept?_call, if_pos rfl]
  rfl

/-- The recorder keeps the records it is told. -/
theorem keptBy_schedule (h : manager.Records number) (host : Host σ) (state : σ)
    (records : List Record) : keptBy number ((keptOf (manager.schedule records)).map
      (Appointment.call host state)) = records := by
  rw [keptOf_eq_self fun _ hmem ↦ h.refusesNothing.refusal?_eq_none hmem, Manager.schedule,
    if_pos h.enabled]
  induction records with
  | nil => rfl
  | cons record rest ih =>
    rw [List.flatMap_cons, List.map_append, keptBy_append, ih, h.keptBy_one]
    rfl

end Manager.Records

end Journal

/-- The operation leaves the recorder with the given number in place. -/
def Operation.KeepsRecording (number : Nat) : Operation → Prop
  | .setManager manager? => ∃ manager, manager? = some manager ∧ manager.Records number
  | _ => True

namespace Engine

/-- Everything is told to the recorder with the given number. -/
def Recorded (engine : Engine) (number : Nat) : Prop :=
  ∃ manager, engine.manager = some manager ∧ manager.Records number

namespace Recorded

variable {engine : Engine} {number : Nat} {operation : Operation}

theorem audience (h : engine.Recorded number) (hkeeps : operation.KeepsRecording number) :
    ∃ manager, engine.audience operation = some manager ∧ manager.Records number := by
  cases operation with
  | setManager manager? => exact hkeeps
  | reset vehicles => exact h
  | requestJourney party => exact h
  | dropoff id => exact h
  | locate id => exact h
  | readClock now => exact h

theorem apply (h : engine.Recorded number) (hkeeps : operation.KeepsRecording number) :
    (engine.apply operation).Recorded number := by
  obtain ⟨manager, haudience, hrecords⟩ := h.audience hkeeps
  exact ⟨manager, (engine.manager_apply operation).trans haudience, hrecords⟩

/-- What is kept of an operation are the records it makes. -/
theorem keptBy_perform (h : engine.Recorded number) (hkeeps : operation.KeepsRecording number) :
    keptBy number (engine.perform operation).calls =
      ((engine.books.perform operation).batch.stamped (engine.timeOf operation)).records := by
  obtain ⟨manager, haudience, hrecords⟩ := h.audience hkeeps
  rw [calls_eq, schedule, haudience]
  exact hrecords.keptBy_schedule _ _ _

theorem run (h : engine.Recorded number) {operations : List Operation}
    (hkeeps : ∀ operation ∈ operations, operation.KeepsRecording number) :
    (engine.run operations).Recorded number := by
  induction operations generalizing engine with
  | nil => exact h
  | cons operation rest ih =>
    rw [List.forall_mem_cons] at hkeeps
    exact ih (h.apply hkeeps.1) hkeeps.2

end Recorded

end Engine

/-- A ledger that describes the books before an operation can be brought up to date with what is
kept of it. -/
theorem Ledger.Describes.apply {ledger : Ledger} {engine : Engine} {number : Nat}
    {operation : Operation} (h : ledger.Describes engine.books) (hbooks : engine.books.Consistent)
    (hrecorded : engine.Recorded number) (hkeeps : operation.KeepsRecording number) :
    ledger.LeadsTo (keptBy number (engine.perform operation).calls)
      (engine.apply operation).books := by
  rw [hrecorded.keptBy_perform hkeeps]
  exact (h.perform hbooks operation _).congr (engine.sameRecords_apply operation)

namespace Engine

/-- The ledger kept from all records agrees with the books at any point of a run: every record can
be entered in its turn, and what comes out is who rides where, how many people are in every party,
and who waits in which order. -/
theorem ledger_agrees (reserve : Nat) {number : Nat} {manager : Manager}
    (hmanager : manager.Records number) {operations : List Operation}
    (hkeeps : ∀ operation ∈ operations, operation.KeepsRecording number) :
    ∃ ledger,
      Ledger.replay? {} (keptBy number
        (((ofReserve reserve).setManager (some manager)).calls operations)) = some ledger ∧
      ledger.Agrees (((ofReserve reserve).setManager (some manager)).run operations).books := by
  have hconsistent (operations : List Operation) :
      (((ofReserve reserve).setManager (some manager)).run operations).books.Consistent :=
    (orderly_run reserve (.setManager (some manager) :: operations)).toConsistent
  suffices hleads : Ledger.LeadsTo {} (keptBy number
      (((ofReserve reserve).setManager (some manager)).calls operations))
      (((ofReserve reserve).setManager (some manager)).run operations).books by
    obtain ⟨ledger, hreplay, hdescribes⟩ := hleads
    exact ⟨ledger, hreplay, hdescribes.agrees (hconsistent operations)⟩
  induction operations using List.reverseRecOn with
  | nil =>
    refine ⟨{}, rfl, fun id ↦ ?_, (Backlog.toList_ofReserve reserve).symm⟩
    simp [run, setManager, ofReserve, Dispatch.ofReserve, Dispatch.ride?, Seating.get?]
  | append_singleton operations operation ih =>
    rw [List.forall_mem_append] at hkeeps
    rw [calls_concat, keptBy_append, run_concat]
    refine (ih hkeeps.1).append fun ledger hdescribes ↦ ?_
    have hrecorded : ((ofReserve reserve).setManager (some manager)).Recorded number :=
      ⟨manager, rfl, hmanager⟩
    exact hdescribes.apply (hconsistent operations) (hrecorded.run hkeeps.1)
      (hkeeps.2 operation (List.mem_singleton_self _))

/-- Two parties share a vehicle of four, and a third one is seated when the first has left. -/
theorem ledger_agrees_of_dropoff :
    let manager := Manager.ofPublishers [.locator, .recorder]
    let operations : List Operation :=
      [.reset [⟨1, 4⟩], .requestJourney ⟨7, 3⟩, .requestJourney ⟨8, 1⟩, .requestJourney ⟨9, 2⟩,
        .dropoff 7]
    manager.Records 1 ∧ (∀ operation ∈ operations, operation.KeepsRecording 1) ∧
    (keptBy 1 (((ofReserve 0).setManager (some manager)).calls operations)).length = 7 ∧
    ∃ ledger,
      Ledger.replay? {} (keptBy 1 (((ofReserve 0).setManager (some manager)).calls operations)) =
        some ledger ∧
      ledger.Agrees (((ofReserve 0).setManager (some manager)).run operations).books := by
  intro manager operations
  have hmanager : manager.Records 1 := by
    refine ⟨rfl, by decide, Manager.refusesNothing_ofPublishers ?_⟩
    simp only [List.forall_mem_cons, List.not_mem_nil, false_imp_iff, implies_true, and_true]
    exact ⟨fun _ ↦ rfl, fun _ ↦ rfl⟩
  have hkeeps : ∀ operation ∈ operations, operation.KeepsRecording 1 := by
    simp [operations, Operation.KeepsRecording]
  exact ⟨hmanager, hkeeps, by cbv, ledger_agrees 0 hmanager hkeeps⟩

end Engine

end RideShare
