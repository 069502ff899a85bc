import RideShare.Processor
import RideShare.Proofs.Admission
import RideShare.Proofs.Delivery
import RideShare.Proofs.Demand
import RideShare.Proofs.Run

/-!
# Commands that are carried out

A command is carried out if the checks admit it, the books can do what it asks for, and nobody who
is told refuses the news. For a desk with the usual checks this comes down to what the books know: a
party that asks for a journey must be new, and one that is asked about must be in the books.

## Main statements

* `Work.Served.of_awaits`: such a command is answered and tallied under a good result;
* `Tally.Accounts.completed`: what a tally says about the commands it was made of.
-/

namespace RideShare

open Journal

/-! ## What the engine answers -/

namespace Engine

variable {engine : Engine}

/-- A new party is seated or waits. -/
theorem requestJourney_of_new (h : engine.books.Consistent) (hrefuses : engine.RefusesNothing)
    {party : Party} (hsize : isSeatCount party.size = true)
    (hnew : ¬ engine.books.Knows party.id) :
    ∃ result, (result = .assigned ∨ result = .queued) ∧
      (engine.requestJourney party).answer = .ok result ∧
      (engine.requestJourney party).engine.books.roster =
        engine.books.roster.insert party.id party.size := by
  have hanswer := answer_publish hrefuses engine.clock (engine.books.requestJourney party)
  have hroster := (sameRecords_publish engine.manager engine.clock
    (engine.books.requestJourney party)).roster
  cases h.requested party with
  | invalid hsize' heq => simp [hsize] at hsize'
  | duplicate _ hknows heq => exact absurd hknows hnew
  | assigned slot _ _ hslot hfit hleast heq =>
    exact ⟨.assigned, .inl rfl, hanswer.trans (by rw [heq]),
      hroster.symm.trans (by rw [heq, Dispatch.board])⟩
  | queued _ _ hfull heq =>
    exact ⟨.queued, .inr rfl, hanswer.trans (by rw [heq]),
      hroster.symm.trans (by rw [heq, Dispatch.hold])⟩

/-- A party in the books leaves its vehicle or the backlog. -/
theorem dropoff_of_known (h : engine.books.Consistent) (hrefuses : engine.RefusesNothing)
    {id : UInt64} (hknows : engine.books.Knows id) :
    ∃ result, (result = .droppedOff ∨ result = .leftQueue) ∧
      (engine.dropoff id).answer = .ok result ∧
      (engine.dropoff id).engine.books.roster = engine.books.roster.erase id := by
  have hanswer := answer_publish hrefuses engine.clock (engine.books.dropoff id)
  have hroster := (sameRecords_publish engine.manager engine.clock
    (engine.books.dropoff id)).roster
  cases h.ended id with
  | unknown hnew heq => exact absurd hknows hnew
  | left size hparty heq =>
    exact ⟨.leftQueue, .inr rfl, hanswer.trans (by rw [heq]),
      hroster.symm.trans (by rw [heq, Dispatch.leave])⟩
  | alighted size slot pass report _ _ _ _ _ heq =>
    exact ⟨.droppedOff, .inl rfl, hanswer.trans (by rw [heq]),
      hroster.symm.trans (by rw [heq, Pass.books])⟩

/-- A party in the books is found. -/
theorem locate_of_known {id : UInt64} (hknows : engine.books.Knows id) :
    (engine.locate id).1 ≠ .unknown := by
  have hcontains : engine.books.roster.contains id = true :=
    Std.HashMap.contains_iff_mem.mpr hknows
  have hfound : (engine.locate id).1 = engine.books.whereabouts id := rfl
  rw [hfound, Dispatch.whereabouts, if_pos hcontains]
  split <;> nofun

end Engine

/-! ## At the desk -/

/-- A desk in order: so are the books, nobody refuses the news, and the usual checks have refused
nothing. -/
structure Desk.InOrder (desk : Desk) : Prop where
  /-- The books are in order. -/
  orderly : desk.engine.books.Orderly
  /-- Nobody refuses the news. -/
  refusesNothing : desk.engine.RefusesNothing
  /-- There are checks, with the usual limits, and nothing was refused. -/
  exists_admission : ∃ admission, desk.admission = some admission ∧ admission.limits = {} ∧
    admission.rejected = 0

/-- The books can do what a command asks for. -/
def Dispatch.Awaits (books : Dispatch) (command : Command) : Prop :=
  match command.kind with
  | .journey => isSeatCount command.party.size = true ∧ ¬ books.Knows command.party.id
  | .dropoff | .locate => books.Knows command.party.id
  | .other _ => False

/-- The roster after a command. -/
def Command.enterIn (command : Command) (roster : Std.HashMap UInt64 UInt32) :
    Std.HashMap UInt64 UInt32 :=
  match command.kind with
  | .journey => roster.insert command.party.id command.party.size
  | .dropoff => roster.erase command.party.id
  | .locate | .other _ => roster

/-- A command is tallied under a good result. -/
inductive Tally.Counts (tally : Tally) (command : Command) : Tally → Prop where
  /-- A party was seated, or waits. -/
  | journey (hkind : command.kind = .journey) (result : JourneyResult)
      (hresult : result = .assigned ∨ result = .queued) :
      tally.Counts command (tally.addJourney result)
  /-- A party left its vehicle, or the backlog. -/
  | dropoff (hkind : command.kind = .dropoff) (result : DropoffResult)
      (hresult : result = .droppedOff ∨ result = .leftQueue) :
      tally.Counts command (tally.addDropoff result)
  /-- A party was found. -/
  | locate (hkind : command.kind = .locate) (found : Whereabouts) (hfound : found ≠ .unknown) :
      tally.Counts command (tally.addLocate found)

namespace Work

variable {work : Work} {command : Command}

/-- The work after a check that let a request pass. -/
def counted (work : Work) (admission : Admission) : Work :=
  { work with
    desk :=
      { work.desk with admission := some { admission with checked := admission.checked + 1 } } }

/-- What handling a command comes to if nothing is in its way. -/
structure Served (work : Work) (command : Command) (after : Work) : Prop where
  /-- It is tallied. -/
  counts : work.tally.Counts command after.tally
  /-- No publisher stops it. -/
  failure_eq : after.failure = work.failure
  /-- The desk is in order. -/
  inOrder : after.desk.InOrder
  /-- The party is entered, or struck off. -/
  roster_eq : after.desk.engine.books.roster = command.enterIn work.desk.engine.books.roster

theorem check_eq {admission : Admission} (hadmission : work.desk.admission = some admission)
    (judge : Admission → Verdict × Admission) : work.check judge =
      let desk := { work.desk with admission := some (judge admission).2 }
      if (judge admission).1 = .accepted then (true, { work with desk })
      else (false, { work with desk, tally := { work.tally with
        rejected := work.tally.rejected + 1 } }) := by
  obtain ⟨tally, ⟨engine, admission?⟩, emitted, failure⟩ := work
  obtain rfl := hadmission
  rfl

theorem check_of_accepted {admission : Admission}
    (hadmission : work.desk.admission = some admission) (judge : Limits → Verdict)
    (hjudge : judge admission.limits = .accepted) :
    work.check (·.check judge) = (true, work.counted admission) := by
  rw [check_eq hadmission]
  simp only [Admission.check_of_accepted hjudge, if_true, counted]

theorem carryOut_of_ok {α : Type} {operation : Engine → Engine.Reply α} {count : Tally → α → Tally}
    {answer : α} (hanswer : (operation work.desk.engine).answer = .ok answer) :
    work.carryOut operation count =
      { tally := count work.tally answer
        desk := { work.desk with engine := (operation work.desk.engine).engine }
        emitted := work.emitted ++ (operation work.desk.engine).emissions
        failure := work.failure } := by
  simp only [carryOut, hanswer]

/-- A command that no publisher stops is counted as handled. -/
theorem process_eq (h : (work.handle command).failure = none) :
    work.process command = (work.handle command).complete command none := by
  simp only [process, h, Option.isSome_none, Bool.false_eq_true, if_false]

/-- A request that passes the checks and is answered well. -/
private theorem Served.of_answer (h : work.desk.InOrder) {admission : Admission}
    (hadmission : admission.limits = {} ∧ admission.rejected = 0) {α : Type}
    {operation : Engine → Engine.Reply α} {count : Tally → α → Tally} {answer : α}
    (hanswer : (operation work.desk.engine).answer = .ok answer)
    (hcounts : work.tally.Counts command (count work.tally answer))
    (horderly : (operation work.desk.engine).engine.books.Orderly)
    (hmanager : (operation work.desk.engine).engine.manager = work.desk.engine.manager)
    (hroster : (operation work.desk.engine).engine.books.roster =
      command.enterIn work.desk.engine.books.roster) :
    work.Served command ((work.counted admission).carryOut operation count) := by
  have hcarried : (work.counted admission).carryOut operation count = _ := carryOut_of_ok hanswer
  rw [hcarried]
  refine ⟨hcounts, rfl, ⟨horderly, fun manager hsome ↦ ?_, _, rfl, hadmission⟩, hroster⟩
  exact h.refusesNothing manager (hmanager.symm.trans hsome)

theorem Served.of_awaits (h : work.desk.InOrder) (hid : command.party.id ≠ 0)
    (hawaits : work.desk.engine.books.Awaits command) :
    work.Served command (work.handle command) := by
  obtain ⟨admission, hadmission, husual⟩ := h.exists_admission
  have hconsistent := h.orderly.toConsistent
  have hchecked := work.check_of_accepted hadmission (·.judgeId command.party.id)
    (Limits.judgeId_eq_accepted_iff.mpr hid)
  rw [handle]
  cases hkind : command.kind with
  | journey =>
    rw [Dispatch.Awaits, hkind] at hawaits
    have hsize : admission.limits.admitsSize command.party.size = true := husual.1 ▸ hawaits.1
    have hchecked := work.check_of_accepted hadmission (·.judgeJourney command.party)
      (Limits.judgeJourney_eq_accepted_iff.mpr ⟨hid, hsize⟩)
    obtain ⟨result, hresult, hanswer, hroster⟩ :=
      Engine.requestJourney_of_new hconsistent h.refusesNothing hawaits.1 hawaits.2
    simp only [Admission.checkJourney, hchecked, if_true]
    exact .of_answer h husual hanswer (.journey hkind result hresult)
      (Engine.orderly_apply h.orderly (.requestJourney command.party))
      (Engine.manager_publish ..) (by rw [hroster, Command.enterIn, hkind])
  | dropoff =>
    rw [Dispatch.Awaits, hkind] at hawaits
    obtain ⟨result, hresult, hanswer, hroster⟩ :=
      Engine.dropoff_of_known hconsistent h.refusesNothing hawaits
    simp only [Admission.checkId, hchecked, if_true]
    exact .of_answer h husual hanswer (.dropoff hkind result hresult)
      (Engine.orderly_apply h.orderly (.dropoff command.party.id))
      (Engine.manager_publish ..) (by rw [hroster, Command.enterIn, hkind])
  | locate =>
    rw [Dispatch.Awaits, hkind] at hawaits
    have hfound := Engine.locate_of_known hawaits
    simp only [Admission.checkId, hchecked, if_true]
    exact .of_answer h husual rfl (.locate hkind _ hfound)
      (Engine.orderly_apply h.orderly (.locate command.party.id)) rfl
      (by rw [Command.enterIn, hkind]; rfl)
  | other code =>
    rw [Dispatch.Awaits, hkind] at hawaits
    exact hawaits.elim

end Work

/-! ## Tallies -/

/-- Where everything that may happen has a count of its own, one more for one of them changes no
other count. -/
theorem getD_modify_code {ι : Type} [DecidableEq ι] {code : ι → Nat}
    (hcode : ∀ {i j}, code i = code j ↔ i = j) {counts : Array UInt64} {i : ι}
    (hlt : code i < counts.size) (j : ι) :
    (counts.modify (code i) (· + 1)).getD (code j) 0 =
      if i = j then counts.getD (code j) 0 + 1 else counts.getD (code j) 0 := by
  rw [getD_modify fun _ ↦ hlt]
  simp only [hcode]

namespace Tally

/-- No command was refused, and none came to a bad result. -/
structure Clean (tally : Tally) : Prop where
  /-- The checks refused nothing. -/
  rejected_eq : tally.rejected = 0
  /-- No party asked for a second journey. -/
  duplicateGroup_eq : tally.countJourney .duplicateGroup = 0
  /-- No party had a size that no party has. -/
  invalidGroupSize_eq : tally.countJourney .invalidGroupSize = 0
  /-- Every journey that was ended had been asked for. -/
  dropoff_eq : tally.countDropoff .groupNotFound = 0
  /-- Every party that was looked for was found. -/
  locate_eq : tally.countLocate .groupNotFound = 0

/-- What the tally of a processor says if all of its commands came to a good result. -/
structure Accounts (tally : Tally) (commands : List Command) : Prop extends Clean tally where
  /-- There is a count for every result of a journey. -/
  size_journeys : tally.journeys.size = JourneyResult.all.length
  /-- There is a count for every result of a dropoff. -/
  size_dropoffs : tally.dropoffs.size = DropoffResult.all.length
  /-- There is a count for every condition. -/
  size_locates : tally.locates.size = LocateStatus.all.length
  /-- All commands were handled. -/
  processed_eq : tally.processed = UInt64.ofNat commands.length
  /-- Every journey began, or was put off. -/
  journeys_eq : tally.countJourney .assigned + tally.countJourney .queued =
    UInt64.ofNat (Demand.idsOf .journey commands).length
  /-- Every dropoff was from a vehicle, or from the backlog. -/
  dropoffs_eq : tally.countDropoff .droppedOff + tally.countDropoff .leftQueue =
    UInt64.ofNat (Demand.idsOf .dropoff commands).length

theorem accounts_nil : ({} : Tally).Accounts [] := by
  constructor
  case toClean => constructor <;> rfl
  all_goals rfl

/-- A tally with one more command handled. -/
def completed (tally : Tally) (latency : Reading) : Tally :=
  { tally with
    processed := tally.processed + 1
    latencies := tally.latencies.push latency }

variable {tally tally' : Tally} {commands : List Command} {command : Command}

/-- A journey is counted under its result, and under no other. -/
@[simp] theorem countJourney_addJourney (h : tally.journeys.size = JourneyResult.all.length)
    (result other : JourneyResult) : (tally.addJourney result).countJourney other =
      if result = other then tally.countJourney other + 1 else tally.countJourney other :=
  getD_modify_code JourneyResult.code_inj (h ▸ result.code_lt) other

/-- A dropoff is counted under its result, and under no other. -/
@[simp] theorem countDropoff_addDropoff (h : tally.dropoffs.size = DropoffResult.all.length)
    (result other : DropoffResult) : (tally.addDropoff result).countDropoff other =
      if result = other then tally.countDropoff other + 1 else tally.countDropoff other :=
  getD_modify_code DropoffResult.code_inj (h ▸ result.code_lt) other

/-- A question is counted under the condition the party was in, and under no other. -/
@[simp] theorem countLocate_addLocate (h : tally.locates.size = LocateStatus.all.length)
    (found : Whereabouts) (other : LocateStatus) : (tally.addLocate found).countLocate other =
      if found.status = other then tally.countLocate other + 1 else tally.countLocate other :=
  getD_modify_code LocateStatus.code_inj (h ▸ found.status.code_lt) other

/-- One more command that came to a good result. -/
theorem Accounts.completed (h : tally.Accounts commands) (hcounts : tally.Counts command tally')
    (latency : Reading) : (tally'.completed latency).Accounts (commands ++ [command]) := by
  have hone (n : Nat) : UInt64.ofNat (n + 1) = UInt64.ofNat n + 1 := UInt64.ofNat_add ..
  have hprocessed : tally.processed + 1 = UInt64.ofNat (commands ++ [command]).length := by
    rw [h.processed_eq, List.length_append, List.length_singleton, hone]
  have hgrows {kind : CommandKind} (hkind : command.kind = kind) :
      UInt64.ofNat (Demand.idsOf kind (commands ++ [command])).length =
        UInt64.ofNat (Demand.idsOf kind commands).length + 1 := by
    rw [Demand.idsOf_concat hkind, List.length_append, List.length_singleton, hone]
  cases hcounts with
  | journey hkind result hresult =>
    have hcount (other) : ((tally.addJourney result).completed latency).countJourney other = _ :=
      countJourney_addJourney h.size_journeys result other
    refine ⟨⟨h.rejected_eq, ?_, ?_, h.dropoff_eq, h.locate_eq⟩, ?_, h.size_dropoffs, h.size_locates,
      hprocessed, ?_, ?_⟩
    · rcases hresult with rfl | rfl <;> exact (hcount _).trans h.duplicateGroup_eq
    · rcases hresult with rfl | rfl <;> exact (hcount _).trans h.invalidGroupSize_eq
    · exact Array.size_modify.trans h.size_journeys
    · rw [hgrows hkind, ← h.journeys_eq, hcount, hcount]
      rcases hresult with rfl | rfl
      · rw [if_pos rfl, if_neg (by decide), add_right_comm]
      · rw [if_neg (by decide), if_pos rfl, UInt64.add_assoc]
    · rw [Demand.idsOf_concat_of_ne (by simp [hkind])]
      exact h.dropoffs_eq
  | dropoff hkind result hresult =>
    have hcount (other) : ((tally.addDropoff result).completed latency).countDropoff other = _ :=
      countDropoff_addDropoff h.size_dropoffs result other
    refine ⟨⟨h.rejected_eq, h.duplicateGroup_eq, h.invalidGroupSize_eq, ?_, h.locate_eq⟩,
      h.size_journeys, ?_, h.size_locates, hprocessed, ?_, ?_⟩
    · rcases hresult with rfl | rfl <;> exact (hcount _).trans h.dropoff_eq
    · exact Array.size_modify.trans h.size_dropoffs
    · rw [Demand.idsOf_concat_of_ne (by simp [hkind])]
      exact h.journeys_eq
    · rw [hgrows hkind, ← h.dropoffs_eq, hcount, hcount]
      rcases hresult with rfl | rfl
      · rw [if_pos rfl, if_neg (by decide), add_right_comm]
      · rw [if_neg (by decide), if_pos rfl, UInt64.add_assoc]
  | locate hkind found hfound =>
    refine ⟨⟨h.rejected_eq, h.duplicateGroup_eq, h.invalidGroupSize_eq, h.dropoff_eq, ?_⟩,
      h.size_journeys, h.size_dropoffs, ?_, hprocessed, ?_, ?_⟩
    · have hstatus : found.status ≠ .groupNotFound := by
        cases found with
        | unknown => exact absurd rfl hfound
        | riding vehicle => nofun
        | waiting => nofun
      refine .trans ?_ h.locate_eq
      exact (countLocate_addLocate h.size_locates found .groupNotFound).trans (if_neg hstatus)
    · exact Array.size_modify.trans h.size_locates
    · rw [Demand.idsOf_concat_of_ne (by simp [hkind])]
      exact h.journeys_eq
    · rw [Demand.idsOf_concat_of_ne (by simp [hkind])]
      exact h.dropoffs_eq

end Tally

end RideShare
