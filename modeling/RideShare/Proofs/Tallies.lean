import RideShare.Proofs.Processing

/-!
# Three accounts of one command

A command is accounted for three times: the processor that handles it tallies what came of it, the
books count what they did, and the checks count what they looked at. The three never compare notes,
and they do not count alike: a processor goes by the number of the answer, the books have a count
for each thing that may happen, and the checks know nothing of answers.

What a command can come to is its *heading*. Whoever handles a command adds one under its heading,
and nothing under any other, to the tally of the processor and to the account of the desk, whether
the checks are switched on or not, and whatever their limits.

## Main statements

* `Tally.enters_addJourney` and its like: an answer is tallied under its heading;
* `Engine.serves_requestJourney` and its like: the books count it under the same heading;
* `Work.exists_enters_handle`: so every command is entered under one heading, on both sides.
-/

namespace RideShare

/-! ## Headings -/

/-- What a command can come to. -/
inductive Heading where
  /-- The checks refuse it. -/
  | rejected
  /-- It asks for a journey, and is answered. -/
  | journey (result : JourneyResult)
  /-- It ends a journey, and is answered. -/
  | dropoff (result : DropoffResult)
  /-- It asks where a party is. -/
  | locate
  deriving DecidableEq

namespace Heading

/-- All headings. -/
def all : List Heading :=
  rejected :: JourneyResult.all.map journey ++ DropoffResult.all.map dropoff ++ [locate]

/-- One under a heading, and nothing under any other. -/
def one (heading other : Heading) : UInt64 := if heading = other then 1 else 0

theorem sum_one (heading : Heading) : (all.map heading.one).sum = 1 := by
  cases heading with
  | rejected => decide
  | journey result => cases result <;> decide
  | dropoff result => cases result <;> decide
  | locate => decide

end Heading

/-- The number of commands a tally has under a heading. -/
def Tally.under (tally : Tally) : Heading → UInt64
  | .rejected => tally.rejected
  | .journey result => tally.countJourney result
  | .dropoff result => tally.countDropoff result
  | .locate => (LocateStatus.all.map tally.countLocate).sum

/-- The number of commands the books have counted under a heading. They do not hear of those that
are refused. -/
def Counters.under (c : Counters) : Heading → UInt64
  | .rejected => 0
  | .journey .assigned => c.assignedOnRequest
  | .journey .queued => c.queued
  | .journey .duplicateGroup => c.duplicatesRejected
  | .journey .invalidGroupSize => c.invalidSizesRejected
  | .dropoff .droppedOff => c.dropoffsRiding
  | .dropoff .leftQueue => c.dropoffsWaiting
  | .dropoff .groupNotFound => c.dropoffsNotFound
  | .locate => c.locates

namespace Dispatch.Consistent

variable {books : Dispatch}

/-- The books count a request under its answer. -/
theorem under_requestJourney (h : books.Consistent) (party : Party) (heading : Heading) :
    (books.requestJourney party).books.counters.under heading =
      books.counters.under heading +
        (Heading.journey (books.requestJourney party).answer).one heading := by
  cases h.requested party with
  | invalid _ heq | duplicate _ _ heq | assigned _ _ _ _ _ _ heq | queued _ _ _ heq =>
    rw [heq]
    rcases heading with _ | (_ | _ | _ | _) | (_ | _ | _) | _ <;>
      simp [Counters.under, Heading.one]

/-- The books count the end of a journey under its answer. -/
theorem under_dropoff (h : books.Consistent) (id : UInt64) (heading : Heading) :
    (books.dropoff id).books.counters.under heading =
      books.counters.under heading + (Heading.dropoff (books.dropoff id).answer).one heading := by
  cases h.ended id with
  | unknown _ heq | left _ _ heq | alighted _ _ _ _ _ _ _ _ _ heq =>
    rw [heq]
    rcases heading with _ | (_ | _ | _ | _) | (_ | _ | _) | _ <;>
      simp [Counters.under, Heading.one]

end Dispatch.Consistent

theorem Dispatch.under_locate (books : Dispatch) (id : UInt64) (heading : Heading) :
    (books.locate id).2.counters.under heading =
      books.counters.under heading + Heading.locate.one heading := by
  rcases heading with _ | (_ | _ | _ | _) | (_ | _ | _) | _ <;>
    simp [Dispatch.locate, Counters.under, Heading.one]

/-! ## Tallies -/

namespace Tally

/-- There is a count for every result. -/
structure Proper (tally : Tally) : Prop where
  /-- For every result of a journey. -/
  size_journeys : tally.journeys.size = JourneyResult.all.length
  /-- For every result of a dropoff. -/
  size_dropoffs : tally.dropoffs.size = DropoffResult.all.length
  /-- For every condition a party may be in. -/
  size_locates : tally.locates.size = LocateStatus.all.length

variable {tally : Tally}

theorem under_addJourney (h : tally.Proper) (result : JourneyResult) (heading : Heading) :
    (tally.addJourney result).under heading =
      tally.under heading + (Heading.journey result).one heading := by
  cases heading with
  | journey other =>
    simp only [under, countJourney_addJourney h.size_journeys, Heading.one, Heading.journey.injEq]
    split <;> simp
  | rejected | dropoff _ | locate => exact (UInt64.add_zero _).symm

theorem under_addDropoff (h : tally.Proper) (result : DropoffResult) (heading : Heading) :
    (tally.addDropoff result).under heading =
      tally.under heading + (Heading.dropoff result).one heading := by
  cases heading with
  | dropoff other =>
    simp only [under, countDropoff_addDropoff h.size_dropoffs, Heading.one, Heading.dropoff.injEq]
    split <;> simp
  | rejected | journey _ | locate => exact (UInt64.add_zero _).symm

theorem under_addLocate (h : tally.Proper) (found : Whereabouts) (heading : Heading) :
    (tally.addLocate found).under heading = tally.under heading + Heading.locate.one heading := by
  cases heading with
  | locate =>
    have hcount := countLocate_addLocate h.size_locates found
    simp only [under, LocateStatus.all, List.map_cons, List.map_nil, hcount]
    cases found.status <;> simp [Heading.one] <;> abel
  | rejected | journey _ | dropoff _ => exact (UInt64.add_zero _).symm

/-- A tally with one more command under a heading. -/
structure Enters (tally : Tally) (heading : Heading) (after : Tally) : Prop where
  /-- There is still a count for every result. -/
  proper : after.Proper
  /-- There is one more under the heading. -/
  under_eq : ∀ other, after.under other = tally.under other + heading.one other
  /-- The command is not counted as handled yet. -/
  processed_eq : after.processed = tally.processed
  /-- Nor is there a latency for it. -/
  latencies_eq : after.latencies = tally.latencies

theorem enters_rejected (h : tally.Proper) :
    tally.Enters .rejected { tally with rejected := tally.rejected + 1 } where
  proper := ⟨h.size_journeys, h.size_dropoffs, h.size_locates⟩
  under_eq
    | .rejected => rfl
    | .journey _ | .dropoff _ | .locate => (UInt64.add_zero _).symm
  processed_eq := rfl
  latencies_eq := rfl

theorem enters_addJourney (h : tally.Proper) (result : JourneyResult) :
    tally.Enters (.journey result) (tally.addJourney result) where
  proper := ⟨Array.size_modify.trans h.size_journeys, h.size_dropoffs, h.size_locates⟩
  under_eq := under_addJourney h result
  processed_eq := rfl
  latencies_eq := rfl

theorem enters_addDropoff (h : tally.Proper) (result : DropoffResult) :
    tally.Enters (.dropoff result) (tally.addDropoff result) where
  proper := ⟨h.size_journeys, Array.size_modify.trans h.size_dropoffs, h.size_locates⟩
  under_eq := under_addDropoff h result
  processed_eq := rfl
  latencies_eq := rfl

theorem enters_addLocate (h : tally.Proper) (found : Whereabouts) :
    tally.Enters .locate (tally.addLocate found) where
  proper := ⟨h.size_journeys, h.size_dropoffs, Array.size_modify.trans h.size_locates⟩
  under_eq := under_addLocate h found
  processed_eq := rfl
  latencies_eq := rfl

end Tally

/-! ## The checks -/

namespace Admission

/-- Nothing but commands was refused, each for one of the two reasons there are. -/
structure Itemized (admission : Admission) : Prop where
  /-- There is a count for every verdict. -/
  size_reasons : admission.reasons.size = Verdict.all.length
  /-- A command is refused for its id, or for its size. -/
  rejected_eq : admission.rejected =
    admission.countOfCode Verdict.invalidGroupId.code + admission.countOfCode Verdict.groupSize.code
  /-- Nothing is refused for any other reason. -/
  countOfCode_eq : ∀ verdict : Verdict, verdict ≠ .invalidGroupId → verdict ≠ .groupSize →
    admission.countOfCode verdict.code = 0

@[simp] theorem countOfCode_code (admission : Admission) (verdict : Verdict) :
    admission.countOfCode verdict.code = admission.reasons.getD verdict.code 0 := by
  rw [countOfCode, Verdict.ofCode?_code]

theorem itemized_ofLimits (limits : Limits) : (ofLimits limits).Itemized where
  size_reasons := rfl
  rejected_eq := rfl
  countOfCode_eq verdict _ _ := by cases verdict <;> rfl

/-- The verdicts on commands. -/
def onCommands : List Verdict := [.accepted, .invalidGroupId, .groupSize]

variable {admission : Admission}

/-- A refusal is counted under its reason, and under no other. -/
theorem getD_modify_reasons (hsize : admission.reasons.size = Verdict.all.length)
    (reason verdict : Verdict) :
    (admission.reasons.modify reason.code (· + 1)).getD verdict.code 0 =
      if reason = verdict then admission.countOfCode verdict.code + 1
      else admission.countOfCode verdict.code := by
  rw [countOfCode_code]
  exact getD_modify_code Verdict.code_inj (hsize ▸ reason.code_lt) verdict

theorem Itemized.check (h : admission.Itemized) {judge : Limits → Verdict}
    (hjudge : judge admission.limits ∈ onCommands) : (admission.check judge).2.Itemized := by
  rcases admission.check_cases judge with heq | ⟨hrefused, heq⟩
  · rw [heq]
    exact ⟨h.size_reasons, h.rejected_eq, h.countOfCode_eq⟩
  · rw [heq]
    generalize judge admission.limits = reason at hjudge hrefused
    refine ⟨Array.size_modify.trans h.size_reasons, ?_, fun verdict hid hsize ↦ ?_⟩
    · simp only [countOfCode_code, getD_modify_reasons h.size_reasons, h.rejected_eq]
      fin_cases hjudge
      · exact absurd rfl hrefused
      · simp [add_right_comm]
      · simp [add_assoc]
    · rw [countOfCode_code, getD_modify_reasons h.size_reasons, if_neg,
        h.countOfCode_eq verdict hid hsize]
      rintro rfl
      fin_cases hjudge
      · exact hrefused rfl
      · exact hid rfl
      · exact hsize rfl

end Admission

theorem Limits.judgeId_mem (limits : Limits) (id : UInt64) :
    limits.judgeId id ∈ Admission.onCommands := by
  rw [judgeId]
  split <;> simp [Admission.onCommands]

theorem Limits.judgeJourney_mem (limits : Limits) (party : Party) :
    limits.judgeJourney party ∈ Admission.onCommands := by
  rw [judgeJourney]
  split
  · simp [Admission.onCommands]
  · split <;> simp [Admission.onCommands]

/-! ## The engine -/

/-- The engine answers a request, and counts it under a heading. -/
structure Engine.Serves (engine : Engine) {α : Type} (operation : Engine → Reply α) (answer : α)
    (heading : Heading) : Prop where
  /-- This is the answer. -/
  answer_eq : (operation engine).answer = .ok answer
  /-- There is nobody to tell. -/
  manager_eq : (operation engine).engine.manager = none
  /-- The books stay in order. -/
  orderly : (operation engine).engine.books.Orderly
  /-- It is counted. -/
  under_eq : ∀ other, (operation engine).engine.books.counters.under other =
    engine.books.counters.under other + heading.one other
  /-- It is not taken for a refusal. -/
  ne_rejected : heading ≠ .rejected

namespace Engine

variable {engine : Engine}

theorem serves_requestJourney (h : engine.books.Orderly) (hmanager : engine.manager = none)
    (party : Party) : engine.Serves (·.requestJourney party)
      (engine.books.requestJourney party).answer
      (.journey (engine.books.requestJourney party).answer) := by
  obtain ⟨books, manager, clock⟩ := engine
  obtain rfl := hmanager
  exact ⟨rfl, rfl, h.requestJourney party, h.toConsistent.under_requestJourney party, nofun⟩

theorem serves_dropoff (h : engine.books.Orderly) (hmanager : engine.manager = none)
    (id : UInt64) : engine.Serves (·.dropoff id) (engine.books.dropoff id).answer
      (.dropoff (engine.books.dropoff id).answer) := by
  obtain ⟨books, manager, clock⟩ := engine
  obtain rfl := hmanager
  exact ⟨rfl, rfl, h.dropoff id, h.toConsistent.under_dropoff id, nofun⟩

theorem serves_locateReply (h : engine.books.Orderly) (hmanager : engine.manager = none)
    (id : UInt64) : engine.Serves (·.locateReply id) (engine.books.whereabouts id) .locate :=
  ⟨rfl, hmanager, h.locate id, engine.books.under_locate id, nofun⟩

end Engine

/-! ## The desk -/

namespace Desk

/-- The number of commands the desk has counted under a heading: in the account of the checks if
they are refused, and in the books otherwise. -/
def under (desk : Desk) : Heading → UInt64
  | .rejected => desk.admission.elim 0 Admission.rejected
  | heading => desk.engine.books.counters.under heading

/-- The number of checks made at the desk. -/
def checked (desk : Desk) : UInt64 := desk.admission.elim 0 Admission.checked

/-- A desk with checks, where nobody is told and nothing but commands was refused. -/
structure Quiet (desk : Desk) : Prop where
  /-- The books are in order. -/
  orderly : desk.engine.books.Orderly
  /-- There is nobody to tell. -/
  manager_eq : desk.engine.manager = none
  /-- There are checks. -/
  exists_admission : ∃ admission, desk.admission = some admission ∧ admission.Itemized

/-- A desk with one more command under a heading. -/
structure Enters (desk : Desk) (heading : Heading) (after : Desk) : Prop where
  /-- It stays quiet. -/
  quiet : after.Quiet
  /-- There is one more under the heading. -/
  under_eq : ∀ other, after.under other = desk.under other + heading.one other
  /-- One more check was made. -/
  checked_eq : after.checked = desk.checked + 1

variable {desk : Desk} {admission : Admission}

/-- A request that is answered is counted in the books, and the checks count nothing but a check. -/
theorem enters_answered (hadmission : desk.admission = some admission) {α : Type}
    {operation : Engine → Engine.Reply α} {answer : α} {heading : Heading}
    (hserves : desk.engine.Serves operation answer heading)
    (hitemized : { admission with checked := admission.checked + 1 }.Itemized) :
    desk.Enters heading
      { engine := (operation desk.engine).engine
        admission := some { admission with checked := admission.checked + 1 } } where
  quiet := ⟨hserves.orderly, hserves.manager_eq, _, rfl, hitemized⟩
  under_eq
    | .rejected => by simp [under, hadmission, Heading.one, hserves.ne_rejected]
    | .journey result => hserves.under_eq (.journey result)
    | .dropoff result => hserves.under_eq (.dropoff result)
    | .locate => hserves.under_eq .locate
  checked_eq := by simp [checked, hadmission]

/-- A request that is refused never gets to the books. -/
theorem Quiet.enters_refused (h : desk.Quiet) (hadmission : desk.admission = some admission)
    {after : Admission} (hchecked : after.checked = admission.checked + 1)
    (hrejected : after.rejected = admission.rejected + 1) (hitemized : after.Itemized) :
    desk.Enters .rejected { desk with admission := some after } where
  quiet := ⟨h.orderly, h.manager_eq, _, rfl, hitemized⟩
  under_eq
    | .rejected => by simp [under, hadmission, Heading.one, hrejected]
    | .journey _ | .dropoff _ | .locate => (UInt64.add_zero _).symm
  checked_eq := by simp [checked, hadmission, hchecked]

end Desk

/-! ## One command -/

/-- A command of one of the kinds there are. -/
def Command.IsKnown (command : Command) : Prop := ∀ code, command.kind ≠ .other code

namespace Work

/-- A command is entered under the same heading in the tally and at the desk. -/
structure Enters (work : Work) (heading : Heading) (after : Work) : Prop where
  /-- It is tallied. -/
  tally : work.tally.Enters heading after.tally
  /-- It is counted at the desk. -/
  desk : work.desk.Enters heading after.desk
  /-- No publisher stops it. -/
  failure_eq : after.failure = work.failure

variable {work : Work} {command : Command}

/-- A request is entered as refused if the checks refuse it, and under its answer otherwise. -/
theorem exists_enters_request (hproper : work.tally.Proper) (hquiet : work.desk.Quiet)
    {judge : Limits → Verdict} (hjudge : ∀ limits, judge limits ∈ Admission.onCommands) {α : Type}
    {operation : Engine → Engine.Reply α} {count : Tally → α → Tally} {answer : α}
    {heading : Heading} (hserves : work.desk.engine.Serves operation answer heading)
    (htally : work.tally.Enters heading (count work.tally answer)) :
    let checked := work.check (·.check judge)
    ∃ heading, work.Enters heading
      (if checked.1 then checked.2.carryOut operation count else checked.2) := by
  obtain ⟨admission, hadmission, hitemized⟩ := hquiet.exists_admission
  have hitemized := hitemized.check (hjudge admission.limits)
  have hcheck := work.check_eq hadmission (·.check judge)
  rcases admission.check_cases judge with heq | ⟨hrefused, heq⟩
  · have hcarried : (work.counted admission).carryOut operation count = _ :=
      carryOut_of_ok hserves.answer_eq
    simp only [heq, if_true] at hcheck hitemized
    rw [counted] at hcarried
    simp only [hcheck, if_true, hcarried]
    exact ⟨heading, htally, Desk.enters_answered hadmission hserves hitemized, rfl⟩
  · simp only [heq, hrefused, if_false] at hcheck hitemized
    simp only [hcheck, Bool.false_eq_true, if_false]
    exact ⟨.rejected, Tally.enters_rejected hproper,
      hquiet.enters_refused hadmission rfl rfl hitemized, rfl⟩

/-- A command is entered under one heading, on both sides. -/
theorem exists_enters_handle (hproper : work.tally.Proper) (hquiet : work.desk.Quiet)
    (hknown : command.IsKnown) : ∃ heading, work.Enters heading (work.handle command) := by
  rw [handle]
  cases hkind : command.kind with
  | journey =>
    exact exists_enters_request hproper hquiet (·.judgeJourney_mem command.party)
      (Engine.serves_requestJourney hquiet.orderly hquiet.manager_eq command.party)
      (Tally.enters_addJourney hproper _)
  | dropoff =>
    exact exists_enters_request hproper hquiet (·.judgeId_mem command.party.id)
      (Engine.serves_dropoff hquiet.orderly hquiet.manager_eq command.party.id)
      (Tally.enters_addDropoff hproper _)
  | locate =>
    exact exists_enters_request hproper hquiet (·.judgeId_mem command.party.id)
      (Engine.serves_locateReply hquiet.orderly hquiet.manager_eq command.party.id)
      (Tally.enters_addLocate hproper _)
  | other code => exact absurd hkind (hknown code)

end Work

end RideShare
