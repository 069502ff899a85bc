import RideShare.Proofs.Simulation
import RideShare.Proofs.Traffic

/-!
# The program succeeds

The program serves every command as soon as it is given: the producer puts it on the ring of its
processor, which takes it off again and has it carried out. A ring that was idle passes the command
on and is idle again, so a turn does to the floor what processing the command without a ring does.
The commands of one producer after the other are one of the orders in which they may be served.

## Main statements

* `Floor.Idle.turn`: what a turn does;
* `Simulation.code_run`: the program exits with success.
-/

namespace RideShare

open Journal Chance

/-! ## Idle rings -/

namespace Ring

variable {α : Type} [Inhabited α]

/-- Nothing is stored, and there is room for something. -/
structure Idle (ring : Ring α) : Prop where
  /-- The places are in order. -/
  wellPlaced : ring.WellPlaced
  /-- Nothing is stored. -/
  toList_eq : ring.toList = []
  /-- There is room. -/
  capacity_pos : 0 < ring.capacity

theorem idle_forCommands : Ring.forCommands.Idle where
  wellPlaced := wellPlaced_ofSlots (by decide)
  toList_eq := toList_ofSlots _
  capacity_pos := by
    rw [forCommands, capacity_ofSlots]
    decide

/-- An idle ring passes a value on, and is idle again. -/
theorem Idle.enqueue_dequeue {ring : Ring α} (h : ring.Idle) (value : α) :
    (ring.enqueue value).2.dequeue.1 = some value ∧ (ring.enqueue value).2.dequeue.2.Idle := by
  have hstored := h.wellPlaced.enqueue value
  have hlist : (ring.enqueue value).2.toList = [value] := by
    have hsize : ring.size = 0 := by rw [← length_toList, h.toList_eq]; rfl
    rw [h.wellPlaced.toList_enqueue, if_pos (hsize ▸ h.capacity_pos), h.toList_eq, List.nil_append]
  refine ⟨by rw [hstored.fst_dequeue, hlist]; rfl, hstored.apply .dequeue, ?_, ?_⟩
  · rw [hstored.toList_dequeue, hlist]
    rfl
  · have hsame : (ring.enqueue value).2.dequeue.2.capacity = ring.capacity :=
      (hstored.capacity_apply .dequeue).trans (h.wellPlaced.capacity_apply (.enqueue value))
    rw [hsame]
    exact h.capacity_pos

end Ring

/-! ## Turns -/

namespace Floor

/-- No processor has anything on its ring. -/
def Idle (floor : Floor) : Prop := ∀ i < floor.processors.size, (floor.processor i).ring.Idle

theorem idle_ofDesk (desk : Desk) (count : Nat) : (ofDesk desk count).Idle := by
  intro i hi
  have hnew : (ofDesk desk count).processor i = {} := by
    have hi : i < count := by simpa [ofDesk] using hi
    simp [ofDesk, processor, hi]
  rw [hnew]
  exact Ring.idle_forCommands

@[simp] theorem put_put (floor : Floor) (i : Nat) (ring ring' : Ring Command) (work work' : Work) :
    (floor.put i ring work).put i ring' work' = floor.put i ring' work' := by
  simp [put]

variable {floor : Floor} {i : Nat}

theorem Idle.put (h : floor.Idle) (hi : i < floor.processors.size) {ring : Ring Command}
    (hring : ring.Idle) (work : Work) : (floor.put i ring work).Idle := by
  intro j hj
  rw [processor_put hi]
  split
  next => exact hring
  next => exact h j (by simpa [Floor.put] using hj)

theorem enqueue_eq (floor : Floor) (i : Nat) (command : Command) : (floor.enqueue i command).2 =
    floor.put i ((floor.processor i).ring.enqueue command).2 (floor.workOf i) := by
  simp only [enqueue, put, workOf, processor, Array.setIfInBounds_setIfInBounds]

theorem handleNext_eq {command : Command}
    (hnext : (floor.processor i).ring.dequeue.1 = some command) :
    (floor.handleNext i).1 = some command ∧ (floor.handleNext i).2.1 =
      floor.put i (floor.processor i).ring.dequeue.2 ((floor.workOf i).handle command) := by
  have hnext : (floor.processors.getD i default).ring.dequeue.1 = some command := hnext
  simp only [handleNext, hnext, put, workOf, processor, Array.setIfInBounds_setIfInBounds, and_self]

theorem complete_eq (floor : Floor) (i : Nat) (command : Command) (now : Reading) :
    floor.complete i command now =
      floor.put i (floor.processor i).ring ((floor.workOf i).complete command now) := by
  rw [complete, work_eq]

/-- A command that goes by the ring is handled and counted like any other. -/
theorem Idle.turn (h : floor.Idle) (hi : i < floor.processors.size) (command : Command)
    (now : Reading) : ((floor.enqueue i command).2.handleNext i).1 = some command ∧
      ∃ ring : Ring Command, ring.Idle ∧
        ((floor.enqueue i command).2.handleNext i).2.1.complete i command now =
          floor.put i ring (((floor.workOf i).handle command).complete command now) := by
  obtain ⟨hnext, hidle⟩ := (h i hi).enqueue_dequeue command
  have hput (ring : Ring Command) (work : Work) :
      (floor.put i ring work).processor i = { ring, tally := work.tally } := by
    rw [processor_put hi, if_pos rfl]
  have hnext : ((floor.enqueue i command).2.processor i).ring.dequeue.1 = some command := by
    rw [enqueue_eq, hput]
    exact hnext
  obtain ⟨hfirst, hafter⟩ := handleNext_eq hnext
  refine ⟨hfirst, _, hidle, ?_⟩
  rw [complete_eq, hafter, enqueue_eq]
  simp only [put_put, hput, workOf]
  rfl

end Floor

/-! ## One producer after the other -/

namespace Simulation

variable {σ : Type} (dice : Dice σ) (scenario : Scenario)

/-- The commands of the first `count` producers, one producer after the other. -/
def inSequence (count : Nat) : List (Nat × Command) :=
  (List.range count).flatMap fun i ↦ (Demand.commands dice scenario i.toUInt32).map (i, ·)

theorem inSequence_succ (count : Nat) : inSequence dice scenario (count + 1) =
    inSequence dice scenario count ++
      (Demand.commands dice scenario count.toUInt32).map (count, ·) := by
  simp [inSequence, List.range_succ]

theorem inSequence_mono {count most : Nat} (h : count ≤ most) :
    inSequence dice scenario count <+: inSequence dice scenario most := by
  obtain ⟨more, rfl⟩ := Nat.exists_eq_add_of_le h
  rw [inSequence, inSequence, List.range_add]
  exact (List.prefix_append _ _).flatMap _

theorem ownOf_inSequence (count i : Nat) : Demand.ownOf i (inSequence dice scenario count) =
    if i < count then Demand.commands dice scenario i.toUInt32 else [] := by
  induction count with
  | zero => rfl
  | succ count ih =>
    have hlast : Demand.ownOf i
        ((Demand.commands dice scenario count.toUInt32).map (count, ·)) =
        if count = i then Demand.commands dice scenario i.toUInt32 else [] := by
      by_cases hi : count = i <;> simp [Demand.ownOf, List.filter_map, Function.comp_def, hi]
    rw [inSequence_succ, Demand.ownOf_append, ih, hlast]
    rcases Nat.lt_trichotomy i count with hlt | rfl | hgt
    · rw [if_pos hlt, if_neg (by omega), if_pos (by omega), List.append_nil]
    · rw [if_neg (by omega), if_pos rfl, if_pos (by omega), List.nil_append]
    · rw [if_neg (by omega), if_neg (by omega), if_neg (by omega), List.append_nil]

theorem isMerge_inSequence : Demand.IsMerge.OfScenario dice scenario
    (inSequence dice scenario scenario.producers.toNat) where
  lt entry hentry := by
    rw [inSequence, List.mem_flatMap] at hentry
    obtain ⟨i, hi, hentry⟩ := hentry
    obtain ⟨command, -, rfl⟩ := List.mem_map.mp hentry
    exact List.mem_range.mp hi
  untimed_ownOf i hi := by
    rw [ownOf_inSequence, if_pos hi, Demand.map_untimed_commands]

/-- A turn does what processing the command does. -/
theorem turn_spec (producer : Demand.Producer σ) {floor : Floor} {i : Nat} (h : floor.Idle)
    (hi : i < floor.processors.size) :
    let command := (producer.step dice scenario).1
    let done := turn dice scenario i none producer floor
    done.1 = (producer.step dice scenario).2 ∧ done.2.1 = some command ∧
      ∃ ring : Ring Command, ring.Idle ∧ done.2.2.1.complete i command none =
        floor.put i ring (((floor.workOf i).handle command).complete command none) := by
  have hcommand : { (producer.step dice scenario).1 with time := none } =
      (producer.step dice scenario).1 := by
    rw [← producer.time_step dice scenario]
  have hturn := h.turn hi (producer.step dice scenario).1 none
  rw [turn]
  simp only [hcommand]
  exact ⟨trivial, hturn⟩

variable {dice scenario}

/-- A producer is served to its end. -/
theorem hasServed_serve {merged : List (Nat × Command)}
    (hmerge : Demand.IsMerge.OfScenario dice scenario merged)
    (hproducers : scenario.producers.toNat ≤ 2 ^ 24 - 1)
    (hcommands : scenario.commandsPerProducer.toNat ≤ 2 ^ 40) {i count : Nat}
    {producer : Demand.Producer σ} {floor : Floor} {earlier : List (Nat × Command)}
    (h : floor.HasServed scenario.producers.toNat earlier) (hidle : floor.Idle)
    (hbegin : earlier ++ (producer.give dice scenario count #[]).1.toList.map (i, ·) <+: merged)
    (emitted : Array Emission) :
    (serve dice scenario i count producer floor emitted).1.HasServed scenario.producers.toNat
        (earlier ++ (producer.give dice scenario count #[]).1.toList.map (i, ·)) ∧
      (serve dice scenario i count producer floor emitted).1.Idle := by
  -- With every command served, it moves from those to come to the end of the earlier ones.
  induction count generalizing producer floor earlier emitted with
  | zero =>
    rw [serve]
    exact ⟨by simpa [Demand.Producer.give] using h, hidle⟩
  | succ count ih =>
    rw [Demand.Producer.toList_give_succ, List.map_cons, List.append_cons] at hbegin ⊢
    obtain ⟨hi, hid, hfits⟩ := hmerge.fits hproducers hcommands
      ((List.prefix_append _ _).trans hbegin)
    have hi' : i < floor.processors.size := h.size_processors ▸ hi
    have hspec := turn_spec dice scenario producer hidle hi'
    rcases hdone : turn dice scenario i none producer floor with ⟨next, command?, floor', more⟩
    rw [hdone] at hspec
    obtain ⟨rfl, rfl, ring, hring, hput⟩ := hspec
    simp only [serve, hdone, hput]
    exact ih (h.put hi hid hfits ring none) (hidle.put hi' hring _) hbegin (emitted ++ more)

variable (dice scenario)

/-- All producers are served, one after the other. -/
theorem hasServed_serveAll {floor : Floor} (h : floor.HasServed scenario.producers.toNat [])
    (hidle : floor.Idle) (hproducers : scenario.producers.toNat ≤ 2 ^ 24 - 1)
    (hcommands : scenario.commandsPerProducer.toNat ≤ 2 ^ 40) :
    (serveAll dice scenario floor).1.HasServed scenario.producers.toNat
      (inSequence dice scenario scenario.producers.toNat) := by
  have hmerge := isMerge_inSequence dice scenario
  have hcount (count : Nat) (hle : count ≤ scenario.producers.toNat) :
      let done := (List.range count).foldl (fun (done : Floor × Array Emission) i ↦
        serve dice scenario i scenario.commandsPerProducer.toNat
          (Demand.Producer.start dice scenario i.toUInt32) done.1 done.2) (floor, #[])
      done.1.HasServed scenario.producers.toNat (inSequence dice scenario count) ∧
        done.1.Idle := by
    induction count with
    | zero => exact ⟨h, hidle⟩
    | succ count ih =>
      obtain ⟨hserved, hidle⟩ := ih (by omega)
      rw [List.range_succ, List.foldl_append, inSequence_succ]
      refine hasServed_serve hmerge hproducers hcommands hserved hidle ?_ _
      rw [← Demand.commands, ← inSequence_succ]
      exact inSequence_mono dice scenario hle
  exact (hcount _ (Nat.le_refl _)).1

/-- The program exits with success, whatever the dice. -/
theorem code_run (hfleet : scenario.fleetSize.toNat ≤ 100000)
    (hproducers : scenario.producers.toNat ≤ 2 ^ 24 - 1)
    (hcommands : scenario.commandsPerProducer.toNat ≤ 2 ^ 40) (base? : Option String) :
    (run dice scenario base?).code = 0 := by
  have hopening := hasServed_setUp dice scenario (orderly_engine base?)
    (refusesNothing_engine base?) hfleet
  have hidle : (setUp dice scenario (engine base?) {}).floor.Idle := Floor.idle_ofDesk _ _
  have hserved := hasServed_serveAll dice scenario hopening hidle hproducers hcommands
  have hverdict : (setUp dice scenario (engine base?) {}).verdict = .accepted := by
    rw [setUp, checkFleet_fleet dice scenario hfleet]
  obtain ⟨text, hclosing⟩ := closing_eq hserved.inOrder.orderly.audit
    (processed_eq hserved (isMerge_inSequence dice scenario)) none
  rw [run]
  simp only [hverdict, if_true, hclosing, exitCode]

end Simulation

end RideShare
