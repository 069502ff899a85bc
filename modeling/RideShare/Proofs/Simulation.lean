import RideShare.Proofs.Audit
import RideShare.Proofs.Merge
import RideShare.Proofs.Processing
import RideShare.Proofs.Register
import RideShare.Simulation.Report

/-!
# Simulations succeed

What a simulation checks in the end can be foretold at every point of it: the books are in order,
the parties in them are those that are open by the commands served so far, and every processor has
tallied its own commands under good results. `Floor.HasServed` says so, and a command that fits
keeps it so, whichever processor serves it next.

## Main statements

* `Floor.HasServed.process`: what one command keeps;
* `Simulation.succeeds`: a simulation succeeds, whatever the dice and the order of serving.
-/

namespace RideShare

open Journal Chance

/-! ## The roster -/

namespace Command

open Demand (idsOf idsOf_concat idsOf_concat_of_ne)

variable {roster : Std.HashMap UInt64 UInt32} {commands : List Command} {command : Command}

/-- If the parties in the roster are the open ones, they are so after one more command. -/
theorem mem_enterIn (h : ∀ id, id ∈ roster ↔ Demand.IsOpen commands id)
    (hfits : Demand.Fits commands command) (id : UInt64) :
    id ∈ command.enterIn roster ↔ Demand.IsOpen (commands ++ [command]) id := by
  have hmem := h id
  rw [Demand.Fits] at hfits
  rw [Demand.IsOpen] at hmem
  rw [enterIn, Demand.IsOpen]
  cases hkind : command.kind with
  | journey =>
    rw [hkind] at hfits
    rw [idsOf_concat hkind, idsOf_concat_of_ne (by simp [hkind]), Std.HashMap.mem_insert, hmem,
      beq_iff_eq, List.mem_append, List.mem_singleton]
    by_cases hid : id = command.party.id
    · simp [hid, hfits.2.2]
    · simp [hid, Ne.symm hid]
  | dropoff =>
    rw [idsOf_concat hkind, idsOf_concat_of_ne (by simp [hkind]), Std.HashMap.mem_erase, hmem,
      beq_eq_false_iff_ne, List.mem_append, List.mem_singleton, not_or, ne_comm]
    exact and_left_comm.trans (and_congr_right' and_comm)
  | locate =>
    rw [idsOf_concat_of_ne (by simp [hkind]), idsOf_concat_of_ne (by simp [hkind])]
    exact hmem
  | other code =>
    rw [hkind] at hfits
    exact hfits.elim

/-- As many parties are in the roster as journeys were requested and not ended. -/
theorem size_enterIn (h : ∀ id, id ∈ roster ↔ Demand.IsOpen commands id)
    (hfits : Demand.Fits commands command)
    (hsize : roster.size + (idsOf .dropoff commands).length = (idsOf .journey commands).length) :
    (command.enterIn roster).size + (idsOf .dropoff (commands ++ [command])).length =
      (idsOf .journey (commands ++ [command])).length := by
  have hmem := h command.party.id
  rw [Demand.Fits] at hfits
  rw [Demand.IsOpen] at hmem
  rw [enterIn]
  cases hkind : command.kind with
  | journey =>
    rw [hkind] at hfits
    have hnew : command.party.id ∉ roster := fun hold ↦ hfits.2.1 (hmem.mp hold).1
    rw [idsOf_concat hkind, idsOf_concat_of_ne (by simp [hkind]), List.length_append,
      List.length_singleton]
    simp only [Std.HashMap.size_insert, hnew, if_false]
    omega
  | dropoff =>
    rw [hkind] at hfits
    have hold : command.party.id ∈ roster := hmem.mpr hfits
    have hpos : 0 < roster.size := by
      rw [← Std.HashMap.length_keys]
      exact List.length_pos_of_mem (Std.HashMap.mem_keys.mpr hold)
    rw [idsOf_concat hkind, idsOf_concat_of_ne (by simp [hkind]), List.length_append,
      List.length_singleton]
    simp only [Std.HashMap.size_erase, hold, if_true]
    omega
  | locate =>
    rw [idsOf_concat_of_ne (by simp [hkind]), idsOf_concat_of_ne (by simp [hkind])]
    exact hsize
  | other code =>
    rw [hkind] at hfits
    exact hfits.elim

end Command

/-! ## The floor -/

namespace Floor

/-- Let commands be served in the order given, each by the processor whose number it comes with. -/
def processAll (floor : Floor) (served : List (Nat × Command)) : Floor :=
  served.foldl (fun floor entry ↦ (floor.process entry.1 entry.2).1) floor

theorem processAll_concat (floor : Floor) (served : List (Nat × Command)) (i : Nat)
    (command : Command) : floor.processAll (served ++ [(i, command)]) =
      ((floor.processAll served).process i command).1 :=
  List.foldl_append

/-- The floor after some commands have been served by `count` processors, all with good results. -/
structure HasServed (floor : Floor) (count : Nat) (served : List (Nat × Command)) : Prop where
  /-- The desk is in order. -/
  inOrder : floor.desk.InOrder
  /-- The parties in the books are the open ones. -/
  knows_iff : ∀ id, floor.desk.engine.books.Knows id ↔ Demand.IsOpen (served.map Prod.snd) id
  /-- There are as many as journeys were requested and not ended. -/
  groupCount_add : floor.desk.engine.books.groupCount +
    (Demand.idsOf .dropoff (served.map Prod.snd)).length =
      (Demand.idsOf .journey (served.map Prod.snd)).length
  /-- There are `count` processors. -/
  size_processors : floor.processors.size = count
  /-- Each of them has tallied its own commands. -/
  accounts : ∀ i < count, (floor.processor i).tally.Accounts (Demand.ownOf i served)

/-- A processor, as it goes to work at the desk. -/
def workOf (floor : Floor) (i : Nat) : Work :=
  { tally := (floor.processor i).tally, desk := floor.desk }

/-- A floor where a processor has done some work. -/
def put (floor : Floor) (i : Nat) (ring : Ring Command) (work : Work) : Floor where
  desk := work.desk
  processors := floor.processors.setIfInBounds i { ring, tally := work.tally }

theorem work_eq (floor : Floor) (i : Nat) (shift : Work → Ring Command → Ring Command × Work) :
    floor.work i shift =
      let done := shift (floor.workOf i) (floor.processor i).ring
      (floor.put i done.1 done.2, done.2.emitted, done.2.failure) := by
  obtain ⟨desk, processors⟩ := floor
  simp only [work, put, workOf, processor, Array.setIfInBounds_setIfInBounds]

theorem processor_put {floor : Floor} {i : Nat} (hi : i < floor.processors.size)
    (ring : Ring Command) (work : Work) (j : Nat) : (floor.put i ring work).processor j =
      if i = j then { ring, tally := work.tally } else floor.processor j := by
  rw [processor, put, processor, Array.getD_eq_getD_getElem?, Array.getD_eq_getD_getElem?,
    Array.getElem?_setIfInBounds]
  by_cases hij : i = j
  · subst hij
    simp [hi]
  · simp [hij]

namespace HasServed

variable {floor : Floor} {count i : Nat} {served : List (Nat × Command)} {command : Command}

/-- The books can do what a command asks for that fits those before it. -/
theorem awaits (h : floor.HasServed count served)
    (hfits : Demand.Fits (served.map Prod.snd) command) :
    floor.desk.engine.books.Awaits command := by
  have hknows := h.knows_iff command.party.id
  rw [Dispatch.Awaits]
  rw [Demand.Fits] at hfits
  cases hkind : command.kind with
  | journey =>
    rw [hkind] at hfits
    exact ⟨hfits.1, fun hold ↦ hfits.2.1 (hknows.mp hold).1⟩
  | dropoff =>
    rw [hkind] at hfits
    exact hknows.mpr hfits
  | locate =>
    rw [hkind] at hfits
    exact hknows.mpr hfits
  | other code =>
    rw [hkind] at hfits
    exact hfits.elim

/-- A processor handles one more command, and counts it. -/
theorem put (h : floor.HasServed count served) (hi : i < count) (hid : command.party.id ≠ 0)
    (hfits : Demand.Fits (served.map Prod.snd) command) (ring : Ring Command) (now : Reading) :
    (floor.put i ring (((floor.workOf i).handle command).complete command now)).HasServed count
      (served ++ [(i, command)]) := by
  have hserved : (floor.workOf i).Served command _ := .of_awaits h.inOrder hid (h.awaits hfits)
  have hroster := hserved.roster_eq
  have hcommands : (served ++ [(i, command)]).map Prod.snd = served.map Prod.snd ++ [command] :=
    List.map_append
  refine ⟨hserved.inOrder, fun id ↦ ?_, ?_, ?_, fun j hj ↦ ?_⟩
  · rw [hcommands]
    refine .trans ?_ (Command.mem_enterIn h.knows_iff hfits id)
    exact hroster ▸ .rfl
  · rw [hcommands]
    refine .trans ?_ (Command.size_enterIn h.knows_iff hfits h.groupCount_add)
    exact congrArg (fun roster : Std.HashMap UInt64 UInt32 ↦ roster.size + _) hroster
  · rw [Floor.put, Array.size_setIfInBounds, h.size_processors]
  · -- The processor that served the command tallies it; the others have not moved.
    rw [processor_put (h.size_processors ▸ hi), Demand.ownOf_concat]
    split
    next hij =>
      subst hij
      exact (h.accounts i hi).completed hserved.counts _
    next => exact h.accounts j hj

theorem process (h : floor.HasServed count served) (hi : i < count) (hid : command.party.id ≠ 0)
    (hfits : Demand.Fits (served.map Prod.snd) command) :
    (floor.process i command).1.HasServed count (served ++ [(i, command)]) ∧
      (floor.process i command).2.2 = none := by
  have hserved : (floor.workOf i).Served command _ := .of_awaits h.inOrder hid (h.awaits hfits)
  have hfailure : ((floor.workOf i).handle command).failure = none := hserved.failure_eq
  rw [Floor.process, work_eq]
  simp only [Work.process_eq hfailure]
  exact ⟨h.put hi hid hfits _ none, hfailure⟩

end HasServed

/-- A merge is served to its end, whatever the order. -/
theorem HasServed.processAll {σ : Type} {dice : Dice σ} {scenario : Scenario} {floor : Floor}
    {served earlier : List (Nat × Command)}
    (h : floor.HasServed scenario.producers.toNat [])
    (hmerge : Demand.IsMerge.OfScenario dice scenario served)
    (hproducers : scenario.producers.toNat ≤ 2 ^ 24 - 1)
    (hcommands : scenario.commandsPerProducer.toNat ≤ 2 ^ 40) (hbegin : earlier <+: served) :
    (floor.processAll earlier).HasServed scenario.producers.toNat earlier := by
  induction earlier using List.reverseRecOn with
  | nil => exact h
  | append_singleton earlier entry ih =>
    have hearlier := ih ((List.prefix_append _ _).trans hbegin)
    obtain ⟨hi, hid, hfits⟩ := hmerge.fits hproducers hcommands hbegin
    rw [processAll_concat]
    exact (hearlier.process hi hid hfits).1

end Floor

/-! ## Results -/

namespace Simulation

/-- A total is what it was made of, processor by processor. -/
theorem Totals.foldl_add (total : Totals → UInt64) (part : Tally → UInt64)
    (hadd : ∀ totals tally, total (totals.add tally) = total totals + part tally)
    (processors : List Processor) (totals : Totals) :
    total (processors.foldl (fun totals processor ↦ totals.add processor.tally) totals) =
      total totals + (processors.map fun processor ↦ part processor.tally).sum := by
  induction processors generalizing totals with
  | nil => simp
  | cons processor rest ih =>
    rw [List.foldl_cons, ih, hadd, List.map_cons, List.sum_cons, add_assoc]

/-- A total of numbers that are known for each processor. -/
theorem Totals.ofFloor_eq {floor : Floor} {count : Nat} (hsize : floor.processors.size = count)
    (total : Totals → UInt64) (part : Tally → UInt64) (hzero : total {} = 0)
    (hadd : ∀ totals tally, total (totals.add tally) = total totals + part tally)
    {number : Nat → Nat}
    (hnumber : ∀ i < count, part (floor.processor i).tally = UInt64.ofNat (number i)) :
    total (Totals.ofFloor floor) = UInt64.ofNat (∑ i ∈ Finset.range count, number i) := by
  have hlist : floor.processors.toList = (List.range count).map floor.processor := by
    refine List.ext_getElem (by simp [hsize]) fun i hi _ ↦ ?_
    rw [List.getElem_map, List.getElem_range, Array.getElem_toList, Floor.processor,
      Array.getD_eq_getD_getElem?, Array.getElem?_eq_getElem, Option.getD_some]
  have hparts : (List.range count).map ((fun processor : Processor ↦ part processor.tally) ∘
      floor.processor) = ((List.range count).map number).map UInt64.ofNat := by
    rw [List.map_map]
    exact List.map_congr_left fun i hi ↦ hnumber i (List.mem_range.mp hi)
  have hsum (numbers : List Nat) : (numbers.map UInt64.ofNat).sum = UInt64.ofNat numbers.sum := by
    induction numbers with
    | nil => rfl
    | cons number rest ih => rw [List.map_cons, List.sum_cons, ih, List.sum_cons, UInt64.ofNat_add]
  rw [Totals.ofFloor, ← Array.foldl_toList, Totals.foldl_add total part hadd, hzero, zero_add,
    hlist, List.map_map, hparts, hsum]
  rfl

/-- What all processors have handled, taken together. -/
theorem totals_eq {floor : Floor} {count : Nat} {served : List (Nat × Command)}
    (h : floor.HasServed count served) (hlt : ∀ entry ∈ served, entry.1 < count) :
    let totals := Totals.ofFloor floor
    totals.processed = UInt64.ofNat served.length ∧
      totals.assigned + totals.queued =
        UInt64.ofNat (Demand.idsOf .journey (served.map Prod.snd)).length ∧
      totals.droppedOff + totals.leftQueue =
        UInt64.ofNat (Demand.idsOf .dropoff (served.map Prod.snd)).length := by
  refine ⟨?_, ?_, ?_⟩
  · have hsum := Demand.sum_countP_ownOf hlt fun _ ↦ true
    simp only [List.countP_true, List.length_map] at hsum
    rw [← hsum]
    exact Totals.ofFloor_eq h.size_processors (·.processed) (·.processed) rfl (fun _ _ ↦ rfl)
      fun i hi ↦ (h.accounts i hi).processed_eq
  · rw [Demand.length_idsOf, ← Demand.sum_countP_ownOf hlt]
    refine Totals.ofFloor_eq h.size_processors (fun totals ↦ totals.assigned + totals.queued)
      (fun tally ↦ tally.countJourney .assigned + tally.countJourney .queued) rfl
      (fun _ _ ↦ add_add_add_comm ..) fun i hi ↦ ?_
    rw [(h.accounts i hi).journeys_eq, Demand.length_idsOf]
  · rw [Demand.length_idsOf, ← Demand.sum_countP_ownOf hlt]
    refine Totals.ofFloor_eq h.size_processors (fun totals ↦ totals.droppedOff + totals.leftQueue)
      (fun tally ↦ tally.countDropoff .droppedOff + tally.countDropoff .leftQueue) rfl
      (fun _ _ ↦ add_add_add_comm ..) fun i hi ↦ ?_
    rw [(h.accounts i hi).dropoffs_eq, Demand.length_idsOf]

/-- All commands are handled once a merge is served. -/
theorem processed_eq {σ : Type} {dice : Dice σ} {scenario : Scenario} {floor : Floor}
    {served : List (Nat × Command)} (h : floor.HasServed scenario.producers.toNat served)
    (hmerge : Demand.IsMerge.OfScenario dice scenario served) : (Totals.ofFloor floor).processed =
      scenario.producers.toUInt64 * scenario.commandsPerProducer := by
  rw [(totals_eq h hmerge.lt).1, hmerge.length_served, UInt64.ofNat_mul, UInt64.ofNat_uInt32ToNat,
    UInt64.ofNat_toNat]

/-! ## The whole simulation -/

/-- The last lines of a successful simulation. -/
def passLines : String :=
  "=== CORRECTNESS CHECK ===\nSeat accounting and queue state: PASS\nAll commands handled: PASS\n"

theorem closing_eq {scenario : Scenario} {floor : Floor}
    (haudit : floor.desk.engine.books.audit = true)
    (hhandled : (Totals.ofFloor floor).processed =
      scenario.producers.toUInt64 * scenario.commandsPerProducer) (elapsed : Reading) :
    ∃ text, closing scenario floor elapsed = (text ++ passLines, true) := by
  rw [closing]
  simp only [haudit, hhandled, beq_self_eq_true, Bool.and_self]
  refine ⟨String.join
    [ (Totals.ofFloor floor).text elapsed
    , latencyText (Totals.ofFloor floor).latencies
    , floor.desk.engine.statisticsText
    , (floor.desk.admission.map Admission.statisticsText).getD "" ], ?_⟩
  have hlines : "=== CORRECTNESS CHECK ===\n" ++
      (s!"Seat accounting and queue state: {passText true}\n" ++
        s!"All commands handled: {passText true}\n") = passLines := by decide
  rw [← hlines]
  simp only [String.join, List.foldl_cons, List.foldl_nil, String.append_assoc]

/-- What a simulation comes to in which commands were served in a certain order. -/
structure Succeeds (scenario : Scenario) (opening : Opening) (served : List (Nat × Command)) :
    Prop where
  /-- The fleet is admitted. -/
  verdict_eq : opening.verdict = .accepted
  /-- It has as many vehicles as were asked for. -/
  length_vehicles : opening.vehicles.length = scenario.fleetSize.toNat
  /-- All of them are loaded. -/
  slots_eq : opening.floor.desk.engine.books.fleet.slots.toList =
    opening.vehicles.map fun vehicle ↦ { vehicle, available := vehicle.capacity }
  /-- No command is stopped by a publisher. -/
  failure_eq : ∀ earlier i command, earlier ++ [(i, command)] <+: served →
    ((opening.floor.processAll earlier).process i command).2.2 = none
  /-- At no time has a command come to a bad result. -/
  clean : ∀ earlier, earlier <+: served → ∀ i < scenario.producers.toNat,
    ((opening.floor.processAll earlier).processor i).tally.Clean
  /-- At no time has a command been refused. -/
  rejected_eq : ∀ earlier, earlier <+: served → ∃ admission,
    (opening.floor.processAll earlier).desk.admission = some admission ∧ admission.rejected = 0
  /-- In the end all commands are handled. -/
  processed_eq : (Totals.ofFloor (opening.floor.processAll served)).processed.toNat =
    scenario.producers.toNat * scenario.commandsPerProducer.toNat
  /-- The books agree with themselves. -/
  audit_eq : (opening.floor.processAll served).desk.engine.books.audit = true
  /-- The program says so, and succeeds. -/
  closing_eq : ∀ elapsed, ∃ text,
    closing scenario (opening.floor.processAll served) elapsed = (text ++ passLines, true)
  /-- It exits with the code for success. -/
  exitCode_eq : ∀ elapsed,
    exitCode (closing scenario (opening.floor.processAll served) elapsed).2 = 0
  /-- The parties left in the books are those whose journey was accepted and has not been ended. -/
  groupCount_add :
    let floor := opening.floor.processAll served
    let totals := Totals.ofFloor floor
    floor.desk.engine.books.groupCount + (totals.droppedOff + totals.leftQueue).toNat =
      (totals.assigned + totals.queued).toNat

section SetUp

variable {σ : Type} (dice : Dice σ) (scenario : Scenario) {engine : Engine}

/-- A random fleet that is not too large is admitted. -/
theorem checkFleet_fleet (hfleet : scenario.fleetSize.toNat ≤ 100000) :
    ({} : Admission).checkFleet (Demand.fleet dice scenario) = (.accepted, { checked := 1 }) := by
  refine Admission.check_of_accepted (Limits.judgeFleet_eq_accepted_iff.mpr ⟨?_, ?_, ?_⟩)
  · rw [Demand.length_fleet]
    exact hfleet
  · exact fun vehicle hvehicle ↦ ⟨Demand.id_ne_of_mem_fleet dice scenario hvehicle,
      (Demand.fleet_spec dice scenario).2 vehicle hvehicle⟩
  · exact Demand.nodup_ids_fleet dice scenario

/-- All of it is loaded. -/
theorem slots_setUp : (setUp dice scenario engine {}).floor.desk.engine.books.fleet.slots.toList =
    (Demand.fleet dice scenario).map fun vehicle ↦ { vehicle, available := vehicle.capacity } := by
  have same := engine.sameRecords_apply (.reset (Demand.fleet dice scenario))
  have hfleet : (setUp dice scenario engine {}).floor.desk.engine.books.fleet =
      Fleet.ofVehicles (Demand.fleet dice scenario) := same.fleet.symm
  rw [hfleet]
  refine Fleet.slots_ofVehicles_of_nodup (fun vehicle hvehicle ↦ ?_)
    (Demand.nodup_ids_fleet dice scenario)
  exact ⟨Demand.id_ne_of_mem_fleet dice scenario hvehicle,
    (Demand.fleet_spec dice scenario).2 vehicle hvehicle⟩

/-- Before the first command, the floor has served none. -/
theorem hasServed_setUp (horderly : engine.books.Orderly) (hrefuses : engine.RefusesNothing)
    (hfleet : scenario.fleetSize.toNat ≤ 100000) :
    (setUp dice scenario engine {}).floor.HasServed scenario.producers.toNat [] := by
  have same := engine.sameRecords_apply (.reset (Demand.fleet dice scenario))
  have hroster : (setUp dice scenario engine {}).floor.desk.engine.books.roster = ∅ :=
    same.roster.symm
  have hchecked := checkFleet_fleet dice scenario hfleet
  refine ⟨⟨Engine.orderly_apply horderly (.reset _), fun manager hm ↦ hrefuses manager ?_,
    { checked := 1 }, ?_, rfl, rfl⟩, fun id ↦ ?_, ?_, ?_, fun i hi ↦ ?_⟩
  · exact (Engine.manager_publish ..).symm.trans hm
  · rw [setUp, hchecked]
    rfl
  · rw [Dispatch.Knows, hroster]
    simp [Demand.IsOpen]
  · rw [Dispatch.groupCount, hroster]
    rfl
  · exact Array.size_replicate
  · have hnew : (setUp dice scenario engine {}).floor.processor i = {} := by
      simp [setUp, Floor.ofDesk, Floor.processor, hi]
    rw [hnew]
    exact Tally.accounts_nil

end SetUp

/-- The program begins with books in order. -/
theorem orderly_engine (base? : Option String) : (engine base?).books.Orderly :=
  Dispatch.orderly_ofReserve 1024

/-- The program tells nobody who would refuse a record. -/
theorem refusesNothing_engine (base? : Option String) : (engine base?).RefusesNothing := by
  intro manager hmanager
  obtain rfl := Option.some.inj hmanager
  refine Manager.refusesNothing_ofPublishers fun publisher hpublisher record ↦ ?_
  rw [publishers, List.mem_cons, Option.mem_toList, Option.map_eq_some_iff] at hpublisher
  rcases hpublisher with rfl | ⟨base, -, rfl⟩ <;> rfl

/-- A simulation succeeds, whatever the dice and the order in which its commands are served.
The engine of the program will do, by `orderly_engine` and `refusesNothing_engine`. The program as a
whole, which serves one producer after the other, exits with success by `code_run`. -/
theorem succeeds {σ : Type} (dice : Dice σ) (scenario : Scenario) {engine : Engine}
    (horderly : engine.books.Orderly) (hrefuses : engine.RefusesNothing)
    (hfleet : scenario.fleetSize.toNat ≤ 100000)
    (hproducers : scenario.producers.toNat ≤ 2 ^ 24 - 1)
    (hcommands : scenario.commandsPerProducer.toNat ≤ 2 ^ 40) {served : List (Nat × Command)}
    (hmerge : Demand.IsMerge served scenario.producers.toNat fun i ↦
      Demand.commands dice scenario i.toUInt32) :
    Succeeds scenario (setUp dice scenario engine {}) served := by
  have hopening := hasServed_setUp dice scenario horderly hrefuses hfleet
  have hearlier {earlier} (hbegin : earlier <+: served) :=
    hopening.processAll hmerge hproducers hcommands hbegin
  have hserved := hearlier (List.prefix_refl served)
  have hlength := Demand.IsMerge.length_served hmerge
  have hlt : served.length < 2 ^ 64 := by
    have := Nat.mul_le_mul hproducers hcommands
    omega
  -- There are fewer commands than a word can count.
  have hword (n : Nat) (hle : n ≤ served.length) : (UInt64.ofNat n).toNat = n :=
    UInt64.toNat_ofNat_of_lt' (Nat.lt_of_le_of_lt hle hlt)
  obtain ⟨hprocessed, hjourneys, hdropoffs⟩ := totals_eq hserved hmerge.lt
  have haudit := hserved.inOrder.orderly.audit
  have hclosing := closing_eq haudit (processed_eq hserved hmerge)
  refine ⟨?_, Demand.length_fleet dice scenario, slots_setUp dice scenario, ?_, ?_, ?_, ?_, haudit,
    hclosing, fun elapsed ↦ ?_, ?_⟩
  · rw [setUp, checkFleet_fleet dice scenario hfleet]
  · intro earlier i command hbegin
    obtain ⟨hi, hid, hfits⟩ := Demand.IsMerge.fits hmerge hproducers hcommands hbegin
    exact ((hearlier ((List.prefix_append _ _).trans hbegin)).process hi hid hfits).2
  · exact fun earlier hbegin i hi ↦ ((hearlier hbegin).accounts i hi).toClean
  · intro earlier hbegin
    obtain ⟨admission, hadmission, -, hrejected⟩ := (hearlier hbegin).inOrder.exists_admission
    exact ⟨admission, hadmission, hrejected⟩
  · rw [hprocessed, hword _ (Nat.le_refl _), hlength]
  · obtain ⟨text, hclosing⟩ := hclosing elapsed
    rw [hclosing]
    rfl
  · have hle (kind : CommandKind) :
        (Demand.idsOf kind (served.map Prod.snd)).length ≤ served.length := by
      rw [← List.length_map (f := Prod.snd)]
      exact Demand.length_idsOf_le _ _
    simp only [hjourneys, hdropoffs, hword _ (hle _)]
    exact hserved.groupCount_add

/-- Two producers with the same luck: each asks for one journey and ends it, the second one while
the first party takes up the only vehicle. -/
theorem succeeds_two :
    let dice : Dice Unit :=
      { ofSeed := fun _ ↦ (), roll := fun _ n ↦ (min 60 (n - 1), ()), roll_lt := by
          intro _ n hn
          dsimp only
          omega }
    let scenario : Scenario := { producers := 2, commandsPerProducer := 2, fleetSize := 1 }
    let served : List (Nat × Command) :=
      [ (0, { kind := .journey, party := { id := Demand.firstGroupId 0, size := 6 } })
      , (1, { kind := .journey, party := { id := Demand.firstGroupId 1, size := 6 } })
      , (1, { kind := .dropoff, party := { id := Demand.firstGroupId 1, size := 0 } })
      , (0, { kind := .dropoff, party := { id := Demand.firstGroupId 0, size := 0 } }) ]
    (engine none).books.Orderly ∧ (engine none).RefusesNothing ∧
      scenario.fleetSize.toNat ≤ 100000 ∧ scenario.producers.toNat ≤ 2 ^ 24 - 1 ∧
      scenario.commandsPerProducer.toNat ≤ 2 ^ 40 ∧
      Demand.IsMerge served scenario.producers.toNat
        (fun i ↦ Demand.commands dice scenario i.toUInt32) ∧
      Succeeds scenario (setUp dice scenario (engine none) {}) served := by
  intro dice scenario served
  have hmerge : Demand.IsMerge served scenario.producers.toNat
      (fun i ↦ Demand.commands dice scenario i.toUInt32) := by
    refine ⟨by decide, fun i hi ↦ ?_⟩
    match i, hi with
    | 0, _ => rfl
    | 1, _ => rfl
  exact ⟨orderly_engine none, refusesNothing_engine none, by decide, by decide, by decide, hmerge,
    succeeds dice scenario (orderly_engine none) (refusesNothing_engine none) (by decide)
      (by decide) (by decide) hmerge⟩

end Simulation

end RideShare
