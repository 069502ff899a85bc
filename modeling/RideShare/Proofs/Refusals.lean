import RideShare.Proofs.Publishing

/-!
# What is refused, and what a refusal leaves

A request is decided by three questions, one after the other: whether a party can have that size,
whether it rides or waits already, and whether a vehicle has room for it. The end of a journey is
decided by where the party is.

This is not what the operations look at. They ask the roster, which could list a party that is
nowhere; and a request asks the backlog once more when the party is about to join it, where it could
still be turned away. Where the places of the books agree, there is no such party, and the backlog
lets in whoever gets that far.

A refusal is counted. Apart from its counters the books are the very same afterwards, down to the
order of the vehicles in their buckets and the nodes of the backlog.

## Main statements

* `Dispatch.Consistent.decidesRequest` and `Dispatch.Consistent.decidesEnd`: each answer, with what
  it takes;
* `Dispatch.Consistent.books_of_refused`: what a refusal leaves;
* `Engine.refuses_exactly`: both, at any point of any run.
-/

namespace RideShare

open Journal

namespace Dispatch

/-! ## What is asked -/

/-- The party rides or waits. -/
def IsPresent (books : Dispatch) (id : UInt64) : Prop :=
  (∃ vehicle, books.Rides id vehicle) ∨ books.Waits id

/-- Some vehicle has that many seats free. -/
def HasRoom (books : Dispatch) (size : UInt32) : Prop :=
  ∃ slot ∈ books.fleet.slots, size ≤ slot.available

/-- Each answer to a request is given in one situation, and in no other. -/
structure DecidesRequest (books : Dispatch) (party : Party) (answer : JourneyResult) : Prop where
  /-- No party has that size. -/
  invalid_iff : answer = .invalidGroupSize ↔ ¬ (1 ≤ party.size ∧ party.size ≤ 6)
  /-- The party rides or waits already. -/
  duplicate_iff : answer = .duplicateGroup ↔
    (1 ≤ party.size ∧ party.size ≤ 6) ∧ books.IsPresent party.id
  /-- There is room for the party. -/
  assigned_iff : answer = .assigned ↔
    (1 ≤ party.size ∧ party.size ≤ 6) ∧ ¬ books.IsPresent party.id ∧ books.HasRoom party.size
  /-- There is none. -/
  queued_iff : answer = .queued ↔
    (1 ≤ party.size ∧ party.size ≤ 6) ∧ ¬ books.IsPresent party.id ∧ ¬ books.HasRoom party.size

/-- Each answer to the end of a journey is given in one situation, and in no other. -/
structure DecidesEnd (books : Dispatch) (id : UInt64) (answer : DropoffResult) : Prop where
  /-- The party neither rides nor waits. -/
  notFound_iff : answer = .groupNotFound ↔ ¬ books.IsPresent id
  /-- It waits. -/
  left_iff : answer = .leftQueue ↔ books.Waits id
  /-- It rides. -/
  droppedOff_iff : answer = .droppedOff ↔ ∃ vehicle, books.Rides id vehicle

namespace Consistent

variable {books : Dispatch}

theorem knows_iff_isPresent (h : books.Consistent) (id : UInt64) :
    books.Knows id ↔ books.IsPresent id :=
  h.knows_iff id

theorem decidesRequest (h : books.Consistent) (party : Party) :
    books.DecidesRequest party (books.requestJourney party).answer := by
  have hproper : (1 ≤ party.size ∧ party.size ≤ 6) ↔ isSeatCount party.size = true := by
    rw [isSeatCount, Bool.and_eq_true, decide_eq_true_eq, decide_eq_true_eq]
    rfl
  have hpresent := h.knows_iff_isPresent party.id
  cases h.requested party with
  | invalid hsize heq => constructor <;> simp [heq, hproper, hsize]
  | duplicate hsize hknows heq => constructor <;> simp [heq, hproper, hsize, ← hpresent, hknows]
  | assigned slot hsize hnew hslot hfit hleast heq =>
    have hroom : books.HasRoom party.size := ⟨slot, h.fleet.mem_slots_iff.mpr hslot, hfit⟩
    constructor <;> simp [heq, hproper, hsize, ← hpresent, hnew, hroom]
  | queued hsize hnew hfull heq =>
    have hroom : ¬ books.HasRoom party.size := by
      rintro ⟨slot, hslot, hfit⟩
      exact UInt32.not_le.mpr (hfull slot hslot) hfit
    constructor <;> simp [heq, hproper, hsize, ← hpresent, hnew, hroom]

theorem decidesEnd (h : books.Consistent) (id : UInt64) :
    books.DecidesEnd id (books.dropoff id).answer := by
  have hpresent := h.knows_iff_isPresent id
  cases h.ended id with
  | unknown hnew heq =>
    have hnobody := mt hpresent.mpr hnew
    have hnot := not_or.mp hnobody
    constructor <;> simp [heq, hnobody, hnot]
  | left size hparty heq =>
    have hwait : books.Waits id := ⟨_, hparty, rfl⟩
    have hnot : ¬ ∃ vehicle, books.Rides id vehicle := by
      rintro ⟨vehicle, hride⟩
      exact h.not_waits hride hwait
    constructor <;> simp [heq, IsPresent, hwait, hnot]
  | alighted size slot pass report hride hslot hsize hpass hreport heq =>
    have hrides : ∃ vehicle, books.Rides id vehicle := ⟨_, hride⟩
    constructor <;> simp [heq, IsPresent, hrides, h.not_waits hride]

end Consistent

end Dispatch

/-! ## What a refusal leaves -/

/-- What is counted when an operation is refused, by its answer. -/
def Answer.refusalCounts? : Answer → Option Counters
  | .journey .invalidGroupSize => some { journeysRequested := 1, invalidSizesRejected := 1 }
  | .journey .duplicateGroup => some { journeysRequested := 1, duplicatesRejected := 1 }
  | .dropoff .groupNotFound => some { dropoffsNotFound := 1 }
  | _ => none

/-- A refusal is counted, and nothing else comes of it. -/
theorem Dispatch.Consistent.books_of_refused {books : Dispatch} (h : books.Consistent)
    {operation : Operation} {counts : Counters}
    (hrefused : (books.perform operation).answer.refusalCounts? = some counts) :
    books.apply operation = books.plus counts := by
  cases operation with
  | requestJourney party =>
    rw [perform] at hrefused
    cases h.requested party with
    | invalid hsize heq | duplicate hsize hknows heq =>
      rw [heq] at hrefused
      cases hrefused
      simp [apply, heq, plus, Counters.add_def]
    | assigned slot hsize hnew hslot hfit hleast heq | queued hsize hnew hfull heq =>
      rw [heq] at hrefused
      cases hrefused
  | dropoff id =>
    rw [perform] at hrefused
    cases h.ended id with
    | unknown hnew heq =>
      rw [heq] at hrefused
      cases hrefused
      simp [apply, heq, plus, Counters.add_def]
    | left size hparty heq | alighted size slot pass report hride hslot hsize hpass hreport heq =>
      rw [heq] at hrefused
      cases hrefused
  -- Nothing else is ever refused.
  | reset vehicles => cases hrefused
  | locate id => cases hrefused
  | setManager manager => cases hrefused
  | readClock now => cases hrefused

/-! ## Runs -/

namespace Engine

/-- The error of the first publisher who refuses what he is told of an operation. -/
def refusal? (engine : Engine) (operation : Operation) : Option String :=
  (engine.schedule operation).findSome? Appointment.refusal?

section Answers

variable (engine : Engine)

/-- An answer that is put differently is the same answer. -/
private theorem eq_of_map_eq {α β : Type} {f : α → β} (hf : Function.Injective f)
    {given : Except String α} {answer : α} {error? : Option String}
    (h : given.map f = error?.elim (.ok (f answer)) .error) :
    given = error?.elim (.ok answer) .error := by
  cases given with
  | error message =>
    cases error? with
    | none => cases h
    | some message' => exact congrArg Except.error (Except.error.inj h)
  | ok value =>
    cases error? with
    | none => exact congrArg Except.ok (hf (Except.ok.inj h))
    | some message' => cases h

theorem answer_requestJourney (party : Party) : (engine.requestJourney party).answer =
    (engine.refusal? (.requestJourney party)).elim
      (.ok (engine.books.requestJourney party).answer) .error :=
  eq_of_map_eq (fun _ _ ↦ Answer.journey.inj) (engine.answer_perform (.requestJourney party))

theorem answer_dropoff (id : UInt64) : (engine.dropoff id).answer =
    (engine.refusal? (.dropoff id)).elim (.ok (engine.books.dropoff id).answer) .error :=
  eq_of_map_eq (fun _ _ ↦ Answer.dropoff.inj) (engine.answer_perform (.dropoff id))

end Answers

/-- At any point of any run, each answer is given exactly where it is called for, and a refusal
leaves the books as they were, its counts and the questions of publishers aside. Only a publisher
who refuses to be told can turn an answer into his error. -/
theorem refuses_exactly (reserve : Nat) (operations : List Operation) :
    let engine := (ofReserve reserve).run operations
    (∀ party, ∃ answer, (engine.books.requestJourney party).answer = answer ∧
      engine.books.DecidesRequest party answer ∧
      (engine.requestJourney party).answer =
        (engine.refusal? (.requestJourney party)).elim (.ok answer) .error) ∧
    (∀ id, ∃ answer, (engine.books.dropoff id).answer = answer ∧
      engine.books.DecidesEnd id answer ∧
      (engine.dropoff id).answer = (engine.refusal? (.dropoff id)).elim (.ok answer) .error) ∧
    ∀ operation counts,
      (engine.books.perform operation).answer.refusalCounts? = some counts →
      (engine.apply operation).books =
        (engine.books.plus counts).asked (questions (engine.perform operation).calls) := by
  intro engine
  have h : engine.books.Consistent := (orderly_run reserve operations).toConsistent
  refine ⟨fun party ↦ ⟨_, rfl, h.decidesRequest party, engine.answer_requestJourney party⟩,
    fun id ↦ ⟨_, rfl, h.decidesEnd id, engine.answer_dropoff id⟩,
    fun operation counts hrefused ↦ ?_⟩
  rw [books_apply_eq, h.books_of_refused hrefused]

/-- A party that rides asks again, for fewer seats, and nobody is told. -/
theorem refuses_exactly_of_duplicate :
    let engine := (ofReserve 0).run [.reset [⟨1, 4⟩], .requestJourney ⟨5, 3⟩]
    (engine.apply (.requestJourney ⟨5, 2⟩)).books =
      engine.books.plus { journeysRequested := 1, duplicatesRejected := 1 } := by
  intro engine
  have hanswer : (engine.books.requestJourney ⟨5, 2⟩).answer = .duplicateGroup := by
    unfold engine
    cbv
  have hsilent : (engine.perform (.requestJourney ⟨5, 2⟩)).calls = [] := by
    unfold engine
    cbv
  have hbooks := (refuses_exactly 0 [.reset [⟨1, 4⟩], .requestJourney ⟨5, 3⟩]).2.2
    (.requestJourney ⟨5, 2⟩) _
    (congrArg (fun answer ↦ (Answer.journey answer).refusalCounts?) hanswer)
  rw [hsilent] at hbooks
  exact hbooks.trans (Dispatch.asked_zero _)

end Engine

end RideShare
