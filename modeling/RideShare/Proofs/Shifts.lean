import RideShare.Proofs.Lockstep
import RideShare.Proofs.Tallies

/-!
# Processors that take turns

Processors share a desk and nothing else. Each has its own ring and its own tally, and they may
take turns in any order, one command or a whole batch at a time, while fleets are loaded and limits
change in between.

Whoever is at work, what all tallies together have under a heading is what the desk has: the others'
tallies stand still, and the one at work and the desk get the same. This is carried from one command
to the batches of a shift, `Work.Agrees.run`, and from a shift to whatever happens on the floor,
`Floor.Agrees.act`.

## Main statements

* `Work.Agrees.run`: a shift keeps the accounts equal;
* `Floor.tallies_agree`: tallies, counts and checks agree in every run.
-/

namespace RideShare

/-! ## Shifts -/

namespace Tally

/-- What a tally has under all headings, part by part. -/
theorem sum_under (tally : Tally) : (Heading.all.map tally.under).sum =
    tally.rejected + (JourneyResult.all.map tally.countJourney).sum +
      (DropoffResult.all.map tally.countDropoff).sum +
      (LocateStatus.all.map tally.countLocate).sum := by
  have hjourneys : (JourneyResult.all.map Heading.journey).map tally.under =
      JourneyResult.all.map tally.countJourney := List.map_map
  have hdropoffs : (DropoffResult.all.map Heading.dropoff).map tally.under =
      DropoffResult.all.map tally.countDropoff := List.map_map
  rw [Heading.all, List.map_append, List.map_append, List.map_cons, hjourneys, hdropoffs,
    List.sum_append, List.sum_append, List.sum_cons, List.map_singleton, List.sum_singleton]
  rfl

/-- A tally that accounts for every command that was handled. -/
structure Balanced (tally : Tally) : Prop extends Proper tally where
  /-- Every command is under some heading. -/
  processed_eq : tally.processed = (Heading.all.map tally.under).sum
  /-- Every command has a latency. -/
  latencies_eq : tally.processed = UInt64.ofNat tally.latencies.size

theorem balanced_empty : ({} : Tally).Balanced where
  size_journeys := rfl
  size_dropoffs := rfl
  size_locates := rfl
  processed_eq := rfl
  latencies_eq := rfl

/-- A command that is entered and then counted as handled keeps a tally balanced. -/
theorem Balanced.completed {tally after : Tally} (h : tally.Balanced) {heading : Heading}
    (henters : tally.Enters heading after) (latency : Reading) :
    (after.completed latency).Balanced := by
  have hprocessed : (after.completed latency).processed = tally.processed + 1 := by
    rw [Tally.completed, henters.processed_eq]
  refine ⟨⟨henters.proper.size_journeys, henters.proper.size_dropoffs,
    henters.proper.size_locates⟩, hprocessed.trans ?_, hprocessed.trans ?_⟩
  · calc tally.processed + 1
      _ = (Heading.all.map tally.under).sum + (Heading.all.map heading.one).sum := by
        rw [h.processed_eq, heading.sum_one]
      _ = (Heading.all.map fun other ↦ tally.under other + heading.one other).sum :=
        List.sum_map_add.symm
      _ = (Heading.all.map after.under).sum := by rw [funext henters.under_eq]
  · have hlatencies : (after.completed latency).latencies.size = tally.latencies.size + 1 := by
      rw [Tally.completed, henters.latencies_eq, Array.size_push]
    rw [hlatencies, UInt64.ofNat_add, h.latencies_eq]
    rfl

end Tally

/-- A ring that holds nothing but commands of the kinds there are. -/
structure Ring.HoldsKnown (ring : Ring Command) : Prop where
  /-- The places are in order. -/
  wellPlaced : ring.WellPlaced
  /-- The commands are known. -/
  isKnown : ∀ command ∈ ring.toList, command.IsKnown

namespace Ring

variable {ring : Ring Command}

theorem holdsKnown_forCommands : Ring.forCommands.HoldsKnown where
  wellPlaced := idle_forCommands.wellPlaced
  isKnown := by simp [idle_forCommands.toList_eq]

theorem HoldsKnown.enqueue (h : ring.HoldsKnown) {command : Command} (hknown : command.IsKnown) :
    (ring.enqueue command).2.HoldsKnown where
  wellPlaced := h.wellPlaced.enqueue command
  isKnown other hother := by
    rw [h.wellPlaced.toList_enqueue] at hother
    split at hother
    · rcases List.mem_append.mp hother with hold | hnew
      · exact h.isKnown other hold
      · exact List.mem_singleton.mp hnew ▸ hknown
    · exact h.isKnown other hother

/-- What is taken was held, and so is what is left. -/
theorem HoldsKnown.dequeueBatch (h : ring.HoldsKnown) (most : Nat) :
    (∀ command ∈ (ring.dequeueBatch most).1, command.IsKnown) ∧
      (ring.dequeueBatch most).2.HoldsKnown := by
  have happend := h.wellPlaced.dequeueBatch_append most
  refine ⟨fun command hcommand ↦ ?_, h.wellPlaced.dequeueBatch most, fun command hcommand ↦ ?_⟩
  · exact h.isKnown command (happend ▸ List.mem_append_left _ hcommand)
  · exact h.isKnown command (happend ▸ List.mem_append_right _ hcommand)

end Ring

namespace Work

/-- What the tally of a processor and those of all `others` have under a heading is what the desk
has, and together they have handled as many commands as were checked. -/
structure Agrees (work : Work) (others : Heading → UInt64) (handled : UInt64) : Prop where
  /-- The processor has accounted for its commands. -/
  balanced : work.tally.Balanced
  /-- The desk is quiet. -/
  quiet : work.desk.Quiet
  /-- The accounts agree under every heading. -/
  under_add : ∀ heading, others heading + work.tally.under heading = work.desk.under heading
  /-- Every command that was handled was checked. -/
  processed_add : handled + work.tally.processed = work.desk.checked
  /-- No publisher has stopped the processor. -/
  failure_eq : work.failure = none

namespace Agrees

variable {work : Work} {others : Heading → UInt64} {handled : UInt64}

/-- One command keeps the accounts equal. -/
theorem process (h : work.Agrees others handled) {command : Command} (hknown : command.IsKnown) :
    (work.process command).Agrees others handled := by
  obtain ⟨heading, htally, hdesk, hfailure⟩ :=
    exists_enters_handle h.balanced.toProper h.quiet hknown
  have hfailure : (work.handle command).failure = none := hfailure.trans h.failure_eq
  rw [process_eq hfailure]
  refine ⟨h.balanced.completed htally _, hdesk.quiet, fun other ↦ ?_, ?_, hfailure⟩
  · calc others other + (work.handle command).tally.under other
      _ = others other + work.tally.under other + heading.one other := by
        rw [htally.under_eq, UInt64.add_assoc]
      _ = (work.handle command).desk.under other := by rw [h.under_add, hdesk.under_eq]
  · calc handled + ((work.handle command).tally.processed + 1)
      _ = handled + work.tally.processed + 1 := by rw [htally.processed_eq, UInt64.add_assoc]
      _ = (work.handle command).desk.checked := by rw [h.processed_add, hdesk.checked_eq]

theorem processAll (h : work.Agrees others handled) {commands : List Command}
    (hknown : ∀ command ∈ commands, command.IsKnown) :
    (work.processAll commands).Agrees others handled := by
  induction commands generalizing work with
  | nil => exact h
  | cons command rest ih =>
    rw [List.forall_mem_cons] at hknown
    have hnext := h.process hknown.1
    simp only [Work.processAll, hnext.failure_eq, Option.isSome_none, Bool.false_eq_true, if_false]
    exact ih hnext hknown.2

theorem runBatches (h : work.Agrees others handled) {ring : Ring Command} (hring : ring.HoldsKnown)
    (bound left : Nat) : (Work.runBatches bound ring work left).1.HoldsKnown ∧
      (Work.runBatches bound ring work left).2.Agrees others handled := by
  -- Each batch leaves the ring and the work as the next one needs them.
  induction bound generalizing ring work left with
  | zero => exact ⟨hring, h⟩
  | succ bound ih =>
    obtain ⟨hbatch, hrest⟩ := hring.dequeueBatch (min batchSize left)
    rw [Work.runBatches]
    dsimp only
    split
    · exact ⟨hring, h⟩
    · split
      · exact ⟨hrest, h⟩
      · exact ih (h.processAll hbatch) hrest _

/-- A shift keeps the accounts equal. -/
theorem run (h : work.Agrees others handled) {ring : Ring Command} (hring : ring.HoldsKnown)
    (count : Nat) : (work.run ring count).1.HoldsKnown ∧
      (work.run ring count).2.Agrees others handled :=
  h.runBatches hring count count

end Agrees

end Work

/-! ## The floor -/

namespace Floor

/-- What may happen on a floor with `count` processors. -/
inductive Action (count : Nat) where
  /-- A command is put on the ring of a processor. -/
  | enqueue (i : Fin count) (command : Command) (hknown : command.IsKnown)
  /-- A processor handles a command that did not come by its ring. -/
  | process (i : Fin count) (command : Command) (hknown : command.IsKnown)
  /-- A processor handles up to `most` commands off its ring. -/
  | run (i : Fin count) (most : Nat)
  /-- A new fleet is loaded. -/
  | reset (vehicles : List Vehicle)
  /-- The checks are given other limits. -/
  | updateLimits (limits : Limits)
  /-- The checks are switched on, or off. -/
  | setEnabled (enabled : Bool)

/-- A floor where only the desk has changed. -/
def withDesk (floor : Floor) (desk : Desk) : Floor := { floor with desk }

/-- The floor after something has happened. -/
def act {count : Nat} (floor : Floor) : Action count → Floor
  | .enqueue i command _ => (floor.enqueue i command).2
  | .process i command _ => (floor.process i command).1
  | .run i most => (floor.run i most).1
  | .reset vehicles =>
    floor.withDesk { floor.desk with engine := (floor.desk.engine.reset vehicles).engine }
  | .updateLimits limits =>
    floor.withDesk
      { floor.desk with admission := floor.desk.admission.map (·.updateLimits limits) }
  | .setEnabled enabled =>
    floor.withDesk { floor.desk with admission := floor.desk.admission.map (·.setEnabled enabled) }

/-- The floor after some things have happened. -/
def actAll {count : Nat} (floor : Floor) (actions : List (Action count)) : Floor :=
  actions.foldl act floor

/-- A floor at its opening, with checks in front of an engine and nobody to tell. -/
def opening (reserve : Nat) (limits : Limits) (count : Nat) : Floor :=
  ofDesk { engine := Engine.ofReserve reserve, admission := some (Admission.ofLimits limits) } count

/-- A number of the tallies, for all processors together. -/
def total (floor : Floor) (part : Tally → UInt64) : UInt64 :=
  (floor.processors.toList.map fun processor ↦ part processor.tally).sum

/-- The same for all processors but one. -/
def besides (floor : Floor) (i : Nat) (part : Tally → UInt64) : UInt64 :=
  floor.total part - part (floor.processor i).tally

variable {floor : Floor} {count : Nat}

/-- A processor that has worked changes its own share of a total. -/
theorem total_put {i : Nat} (hi : i < floor.processors.size) (ring : Ring Command) (work : Work)
    (part : Tally → UInt64) :
    (floor.put i ring work).total part = floor.besides i part + part work.tally := by
  have hown : floor.processor i = floor.processors[i] := by
    rw [processor, Array.getD_eq_getD_getElem?, Array.getElem?_eq_getElem hi, Option.getD_some]
  have hi : i < floor.processors.toList.length := by rwa [Array.length_toList]
  rw [besides, hown, total, total, put, Array.toList_setIfInBounds, List.map_set, List.sum_set',
    dif_pos (by rwa [List.length_map])]
  simp only [List.getElem_map, Array.getElem_toList]
  rw [sub_eq_add_neg, add_assoc]

/-- The accounts agree on the whole floor. -/
structure Agrees (floor : Floor) (count : Nat) : Prop where
  /-- There are `count` processors. -/
  size_processors : floor.processors.size = count
  /-- Each of them has accounted for its commands. -/
  balanced : ∀ i < count, (floor.processor i).tally.Balanced
  /-- The commands on their rings are known. -/
  holdsKnown : ∀ i < count, (floor.processor i).ring.HoldsKnown
  /-- The desk is quiet. -/
  quiet : floor.desk.Quiet
  /-- All together have under each heading what the desk has. -/
  under_eq : ∀ heading, floor.total (·.under heading) = floor.desk.under heading
  /-- All commands that were handled were checked. -/
  processed_eq : floor.total (·.processed) = floor.desk.checked

theorem agrees_opening (reserve : Nat) (limits : Limits) (count : Nat) :
    (opening reserve limits count).Agrees count := by
  have hnew (i : Nat) (hi : i < count) : (opening reserve limits count).processor i = {} := by
    simp [opening, ofDesk, processor, hi]
  have hzero (part : Tally → UInt64) (hpart : part {} = 0) :
      (opening reserve limits count).total part = 0 := by
    simp [opening, ofDesk, total, hpart]
  refine ⟨by simp [opening, ofDesk], fun i hi ↦ ?_, fun i hi ↦ ?_, ⟨Dispatch.orderly_ofReserve _,
    rfl, _, rfl, Admission.itemized_ofLimits limits⟩, fun heading ↦ ?_, hzero _ rfl⟩
  · rw [hnew i hi]
    exact Tally.balanced_empty
  · rw [hnew i hi]
    exact Ring.holdsKnown_forCommands
  · rw [hzero _ (by rcases heading with _ | (_ | _ | _ | _) | (_ | _ | _) | _ <;> rfl)]
    rcases heading with _ | (_ | _ | _ | _) | (_ | _ | _) | _ <;> rfl

namespace Agrees

/-- The processor at work, next to the others. -/
theorem workOf (h : floor.Agrees count) {i : Nat} (hi : i < count) : (floor.workOf i).Agrees
    (fun heading ↦ floor.besides i (·.under heading)) (floor.besides i (·.processed)) where
  balanced := h.balanced i hi
  quiet := h.quiet
  under_add heading := (sub_add_cancel _ _).trans (h.under_eq heading)
  processed_add := (sub_add_cancel _ _).trans h.processed_eq
  failure_eq := rfl

/-- A processor that keeps its accounts equal to those of the desk does so for the whole floor. -/
theorem put (h : floor.Agrees count) {i : Nat} (hi : i < count) {ring : Ring Command}
    (hring : ring.HoldsKnown) {work : Work} (hwork : work.Agrees
      (fun heading ↦ floor.besides i (·.under heading)) (floor.besides i (·.processed))) :
    (floor.put i ring work).Agrees count := by
  have hi : i < floor.processors.size := h.size_processors ▸ hi
  refine ⟨?_, fun j hj ↦ ?_, fun j hj ↦ ?_, hwork.quiet, fun heading ↦ ?_, ?_⟩
  · rw [Floor.put, Array.size_setIfInBounds, h.size_processors]
  · rw [processor_put hi]
    split
    · exact hwork.balanced
    · exact h.balanced j hj
  · rw [processor_put hi]
    split
    · exact hring
    · exact h.holdsKnown j hj
  · exact (total_put hi ring work _).trans (hwork.under_add heading)
  · exact (total_put hi ring work _).trans hwork.processed_add

/-- What happens at the desk and is none of the processors' business. -/
theorem withDesk (h : floor.Agrees count) {desk : Desk} (hquiet : desk.Quiet)
    (hunder : ∀ heading, desk.under heading = floor.desk.under heading)
    (hchecked : desk.checked = floor.desk.checked) : (floor.withDesk desk).Agrees count where
  size_processors := h.size_processors
  balanced := h.balanced
  holdsKnown := h.holdsKnown
  quiet := hquiet
  under_eq heading := (h.under_eq heading).trans (hunder heading).symm
  processed_eq := h.processed_eq.trans hchecked.symm

/-- The checks may be changed in any way that leaves their account alone. -/
theorem review (h : floor.Agrees count) (change : Admission → Admission)
    (hchecked : ∀ admission, (change admission).checked = admission.checked)
    (hrejected : ∀ admission, (change admission).rejected = admission.rejected)
    (hreasons : ∀ admission, (change admission).reasons = admission.reasons) :
    (floor.withDesk
      { floor.desk with admission := floor.desk.admission.map change }).Agrees count := by
  obtain ⟨admission, hadmission, hitemized⟩ := h.quiet.exists_admission
  have hcount (code : Int) : (change admission).countOfCode code = admission.countOfCode code := by
    rw [Admission.countOfCode, Admission.countOfCode, hreasons]
  refine h.withDesk ⟨h.quiet.orderly, h.quiet.manager_eq, change admission, ?_, ?_, ?_, ?_⟩
    (fun heading ↦ ?_) ?_
  · rw [hadmission, Option.map_some]
  · rw [hreasons, hitemized.size_reasons]
  · rw [hrejected, hcount, hcount, hitemized.rejected_eq]
  · intro verdict hid hsize
    rw [hcount, hitemized.countOfCode_eq verdict hid hsize]
  · cases heading <;> simp [Desk.under, hadmission, hrejected]
  · simp [Desk.checked, hadmission, hchecked]

/-- Whatever happens keeps the accounts equal. -/
theorem act (h : floor.Agrees count) (action : Action count) : (floor.act action).Agrees count := by
  cases action with
  | enqueue i command hknown =>
    rw [Floor.act, enqueue_eq]
    exact h.put i.isLt ((h.holdsKnown i i.isLt).enqueue hknown) (h.workOf i.isLt)
  | process i command hknown =>
    rw [Floor.act, Floor.process, work_eq]
    exact h.put i.isLt (h.holdsKnown i i.isLt) ((h.workOf i.isLt).process hknown)
  | run i most =>
    obtain ⟨hring, hwork⟩ := (h.workOf i.isLt).run (h.holdsKnown i i.isLt) most
    rw [Floor.act, Floor.run, work_eq]
    exact h.put i.isLt hring hwork
  | reset vehicles =>
    obtain ⟨⟨⟨books, manager, clock⟩, admission⟩, processors⟩ := floor
    obtain ⟨horderly, hmanager, hadmission⟩ := h.quiet
    obtain rfl := hmanager
    refine h.withDesk ⟨horderly.reset vehicles, rfl, hadmission⟩ (fun heading ↦ ?_) rfl
    rcases heading with _ | (_ | _ | _ | _) | (_ | _ | _) | _ <;> rfl
  | updateLimits limits =>
    exact h.review (·.updateLimits limits) (fun _ ↦ rfl) (fun _ ↦ rfl) fun _ ↦ rfl
  | setEnabled enabled =>
    exact h.review (·.setEnabled enabled) (fun _ ↦ rfl) (fun _ ↦ rfl) fun _ ↦ rfl

theorem actAll (h : floor.Agrees count) (actions : List (Action count)) :
    (floor.actAll actions).Agrees count := by
  induction actions generalizing floor with
  | nil => exact h
  | cons action rest ih => exact ih (h.act action)

end Agrees

/-- Tallies, counts and checks agree in every run, modulo the size of a word. -/
theorem tallies_agree (reserve : Nat) (limits : Limits) (count : Nat)
    (actions : List (Action count)) :
    let floor := (opening reserve limits count).actAll actions
    let counters := floor.desk.engine.books.counters
    -- Each processor by itself.
    (∀ i < count,
      let tally := (floor.processor i).tally
      tally.processed = tally.rejected + (JourneyResult.all.map tally.countJourney).sum +
        (DropoffResult.all.map tally.countDropoff).sum +
        (LocateStatus.all.map tally.countLocate).sum ∧
      tally.processed = UInt64.ofNat tally.latencies.size) ∧
    -- All of them, next to the books.
    floor.processors.size = count ∧
    floor.total (·.countJourney .assigned) = counters.assignedOnRequest ∧
    floor.total (·.countJourney .queued) = counters.queued ∧
    floor.total (·.countJourney .duplicateGroup) = counters.duplicatesRejected ∧
    floor.total (·.countJourney .invalidGroupSize) = counters.invalidSizesRejected ∧
    floor.total (·.countDropoff .droppedOff) = counters.dropoffsRiding ∧
    floor.total (·.countDropoff .leftQueue) = counters.dropoffsWaiting ∧
    floor.total (·.countDropoff .groupNotFound) = counters.dropoffsNotFound ∧
    floor.total (fun tally ↦ (LocateStatus.all.map tally.countLocate).sum) = counters.locates ∧
    -- All of them, next to the checks.
    ∃ admission, floor.desk.admission = some admission ∧
      floor.total (·.processed) = admission.checked ∧
      floor.total (·.rejected) = admission.rejected ∧
      admission.rejected = admission.countOfCode Verdict.invalidGroupId.code +
        admission.countOfCode Verdict.groupSize.code ∧
      ∀ verdict : Verdict, verdict ≠ .invalidGroupId → verdict ≠ .groupSize →
        admission.countOfCode verdict.code = 0 := by
  intro floor counters
  have h : floor.Agrees count := (agrees_opening reserve limits count).actAll actions
  obtain ⟨admission, hadmission, hitemized⟩ := h.quiet.exists_admission
  refine ⟨fun i hi ↦ ⟨?_, (h.balanced i hi).latencies_eq⟩, h.size_processors,
    h.under_eq (.journey .assigned), h.under_eq (.journey .queued),
    h.under_eq (.journey .duplicateGroup), h.under_eq (.journey .invalidGroupSize),
    h.under_eq (.dropoff .droppedOff), h.under_eq (.dropoff .leftQueue),
    h.under_eq (.dropoff .groupNotFound), h.under_eq .locate, admission, hadmission, ?_, ?_,
    hitemized.rejected_eq, hitemized.countOfCode_eq⟩
  · rw [(h.balanced i hi).processed_eq, Tally.sum_under]
  · rw [h.processed_eq, Desk.checked, hadmission, Option.elim_some]
  · refine (h.under_eq .rejected).trans ?_
    rw [Desk.under, hadmission, Option.elim_some]

end Floor

end RideShare
