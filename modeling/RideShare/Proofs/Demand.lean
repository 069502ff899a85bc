import Mathlib.Algebra.Ring.Nat
import Mathlib.Data.List.Induction
import Mathlib.Data.List.Nodup
import RideShare.Demand

/-!
# What producers ask for

A producer keeps the parties it may still ask about in an array, out of order, and closes the gap a
party leaves with the last one. Seen from outside it only gives commands, and what can be said of
them speaks of the commands alone: a party is *open* if its journey was requested and not ended yet,
and every command is either the request of a new party, under the next id, or about an open one.
`WellFormed` says so of every place in a list of commands. The dice decide nothing about it.

Ids of different producers come from different ranges, as long as nobody hands out more ids than a
range has.

## Main statements

* `Demand.Producer.HasGiven.step`: the array of a producer holds the open parties, each once;
* `Demand.wellFormed_commands`: a producer's commands are well formed;
* `Demand.WellFormed.exists_lt_of_mem_journeys` and `Demand.toNat_id`: which ids it hands out.
-/

namespace RideShare.Demand

open Chance
open scoped List

/-! ## Open parties -/

/-- The ids in the commands of one kind, in order. -/
def idsOf (kind : CommandKind) (commands : List Command) : List UInt64 :=
  (commands.filter fun command ↦ command.kind = kind).map fun command ↦ command.party.id

/-- A journey was requested for the party, and has not been ended. -/
def IsOpen (commands : List Command) (id : UInt64) : Prop :=
  id ∈ idsOf .journey commands ∧ id ∉ idsOf .dropoff commands

section idsOf

variable {kind : CommandKind} {commands : List Command} {command : Command}

@[simp] theorem idsOf_nil (kind : CommandKind) : idsOf kind [] = [] := rfl

theorem idsOf_concat (h : command.kind = kind) (commands : List Command) :
    idsOf kind (commands ++ [command]) = idsOf kind commands ++ [command.party.id] := by
  simp [idsOf, h]

theorem idsOf_concat_of_ne (h : command.kind ≠ kind) (commands : List Command) :
    idsOf kind (commands ++ [command]) = idsOf kind commands := by
  simp [idsOf, h]

theorem mem_idsOf_iff {id : UInt64} :
    id ∈ idsOf kind commands ↔
      ∃ command ∈ commands, command.kind = kind ∧ command.party.id = id := by
  simp [idsOf, and_assoc]

theorem length_idsOf (kind : CommandKind) (commands : List Command) :
    (idsOf kind commands).length = commands.countP fun command ↦ command.kind = kind := by
  rw [idsOf, List.length_map, List.countP_eq_length_filter]

theorem length_idsOf_le (kind : CommandKind) (commands : List Command) :
    (idsOf kind commands).length ≤ commands.length := by
  rw [length_idsOf]
  exact List.countP_le_length

end idsOf

/-! ## Well-formed commands -/

/-- What a command may be after others, if ids are handed out from `first` on. -/
def Continues (first : UInt64) (earlier : List Command) (command : Command) : Prop :=
  match command.kind with
  | .journey => command.party.id = first + UInt64.ofNat (idsOf .journey earlier).length ∧
      isSeatCount command.party.size = true
  | .dropoff | .locate => command.party.size = 0 ∧ IsOpen earlier command.party.id
  | .other _ => False

/-- Each command is what it may be after those before it. -/
def WellFormed (first : UInt64) (commands : List Command) : Prop :=
  ∀ earlier command, earlier ++ [command] <+: commands → Continues first earlier command

theorem wellFormed_nil (first : UInt64) : WellFormed first [] := fun earlier command h ↦ by
  simp at h

theorem wellFormed_concat {first : UInt64} {commands : List Command} {command : Command} :
    WellFormed first (commands ++ [command]) ↔
      WellFormed first commands ∧ Continues first commands command := by
  constructor
  · exact fun h ↦ ⟨fun earlier other hbegin ↦ h earlier other
      (hbegin.trans (List.prefix_append _ _)), h commands command (List.prefix_refl _)⟩
  · rintro ⟨hearlier, hlast⟩ earlier other hbegin
    rcases List.prefix_concat_iff.mp hbegin with heq | hbegin
    · obtain ⟨rfl, hother⟩ := List.append_inj' heq rfl
      obtain rfl := List.singleton_inj.mp hother
      exact hlast
    · exact hearlier earlier other hbegin

namespace WellFormed

variable {first : UInt64} {commands : List Command}

theorem mono {earlier : List Command} (h : WellFormed first commands)
    (hbegin : earlier <+: commands) : WellFormed first earlier :=
  fun others command hothers ↦ h others command (hothers.trans hbegin)

/-- The ids are handed out one after the other. -/
theorem journeys_eq (h : WellFormed first commands) : idsOf .journey commands =
    (List.range (idsOf .journey commands).length).map fun k ↦ first + UInt64.ofNat k := by
  induction commands using List.reverseRecOn with
  | nil => rfl
  | append_singleton commands command ih =>
    obtain ⟨hearlier, hlast⟩ := wellFormed_concat.mp h
    have ih := ih hearlier
    by_cases hkind : command.kind = .journey
    · rw [Continues, hkind] at hlast
      rw [idsOf_concat hkind, List.length_append, List.length_singleton, List.range_succ,
        List.map_append, ← ih, List.map_singleton, hlast.1]
    · rwa [idsOf_concat_of_ne hkind]

theorem exists_lt_of_mem_journeys (h : WellFormed first commands) {id : UInt64}
    (hid : id ∈ idsOf .journey commands) :
    ∃ k < (idsOf .journey commands).length, id = first + UInt64.ofNat k := by
  rw [h.journeys_eq, List.mem_map] at hid
  obtain ⟨k, hk, rfl⟩ := hid
  exact ⟨k, List.mem_range.mp hk, rfl⟩

/-- Only journeys that were requested are ended. -/
theorem mem_journeys_of_mem_dropoffs (h : WellFormed first commands) {id : UInt64}
    (hid : id ∈ idsOf .dropoff commands) : id ∈ idsOf .journey commands := by
  induction commands using List.reverseRecOn with
  | nil => simp at hid
  | append_singleton commands command ih =>
    obtain ⟨hearlier, hlast⟩ := wellFormed_concat.mp h
    have hstays {id : UInt64} (hid : id ∈ idsOf .journey commands) :
        id ∈ idsOf .journey (commands ++ [command]) := by
      obtain ⟨other, hother, hspec⟩ := mem_idsOf_iff.mp hid
      exact mem_idsOf_iff.mpr ⟨other, List.mem_append_left _ hother, hspec⟩
    by_cases hkind : command.kind = .dropoff
    · rw [idsOf_concat hkind, List.mem_append, List.mem_singleton] at hid
      rw [Continues, hkind] at hlast
      rcases hid with hid | rfl
      · exact hstays (ih hearlier hid)
      · exact hstays hlast.2.1
    · rw [idsOf_concat_of_ne hkind] at hid
      exact hstays (ih hearlier hid)

end WellFormed

theorem ofNat_inj {k l : Nat} (hk : k < 2 ^ 64) (hl : l < 2 ^ 64)
    (h : UInt64.ofNat k = UInt64.ofNat l) : k = l := by
  have h := congrArg UInt64.toNat h
  rwa [UInt64.toNat_ofNat_of_lt' hk, UInt64.toNat_ofNat_of_lt' hl] at h

/-- Ids in a row are distinct as long as there are enough of them. -/
theorem nodup_map_range (first : UInt64) {count : Nat} (hcount : count ≤ 2 ^ 64) :
    ((List.range count).map fun k ↦ first + UInt64.ofNat k).Nodup := by
  refine List.nodup_range.map_on fun k hk l hl heq ↦ ?_
  rw [List.mem_range] at hk hl
  exact ofNat_inj (by omega) (by omega) (UInt64.add_right_inj first |>.mp heq)

/-- The next id is new as long as there are fewer commands than ids. -/
theorem WellFormed.nextId_notMem {first : UInt64} {commands : List Command}
    (h : WellFormed first commands) (hlength : commands.length < 2 ^ 64) :
    first + UInt64.ofNat (idsOf .journey commands).length ∉ idsOf .journey commands := by
  intro hmem
  obtain ⟨k, hk, heq⟩ := h.exists_lt_of_mem_journeys hmem
  have hle := length_idsOf_le .journey commands
  have := ofNat_inj (by omega) (by omega) (UInt64.add_right_inj first |>.mp heq)
  omega

/-! ## The parties a producer may ask about -/

namespace Producer

/-- The last id takes the place of the one that goes. -/
private theorem cons_dropLast_set_perm (init : List UInt64) (last : UInt64) {i : Nat}
    (hi : i < init.length + 1) :
    (init ++ [last]).getD i 0 :: ((init ++ [last]).set i last).dropLast ~ init ++ [last] := by
  by_cases hlast : i = init.length
  · subst hlast
    simpa using List.perm_append_singleton last init |>.symm
  · have hi : i < init.length := by omega
    rw [List.set_append_left _ _ hi, List.dropLast_concat, List.getD_eq_getElem?_getD,
      List.getElem?_append_left hi, List.getElem?_eq_getElem hi, Option.getD_some,
      List.set_eq_take_append_cons_drop, if_pos hi]
    calc init[i] :: (init.take i ++ last :: init.drop (i + 1))
        ~ init.take i ++ init[i] :: last :: init.drop (i + 1) := List.perm_middle.symm
      _ ~ init.take i ++ last :: init[i] :: init.drop (i + 1) := .append_left _ (.swap ..)
      _ = init.take i ++ last :: init.drop i := by rw [List.drop_eq_getElem_cons hi]
      _ ~ last :: (init.take i ++ init.drop i) := List.perm_middle
      _ = last :: init := by rw [List.take_append_drop]
      _ ~ init ++ [last] := (List.perm_append_singleton last init).symm

/-- The party that goes and those that remain are the parties there were. -/
theorem swapRemove_perm {ids : Array UInt64} {i : Nat} (hi : i < ids.size) :
    (ids.getD i 0 :: (swapRemove ids i).toList).Perm ids.toList := by
  obtain ⟨ids⟩ := ids
  cases ids using List.reverseRecOn with
  | nil => simp at hi
  | append_singleton init last =>
    have := cons_dropLast_set_perm init last (i := i) (by simpa using hi)
    simpa [swapRemove, Array.getD_eq_getD_getElem?, List.getD_eq_getElem?_getD] using this

theorem getD_mem {ids : Array UInt64} {i : Nat} (hi : i < ids.size) : ids.getD i 0 ∈ ids := by
  rw [Array.getD_eq_getD_getElem?, Array.getElem?_eq_getElem hi]
  exact Array.getElem_mem hi

variable {σ : Type}

/-- What a producer can do in one step. -/
inductive Gave (producer : Producer σ) (command : Command) (producer' : Producer σ) : Prop where
  /-- It requests a journey for a new party. -/
  | journey (size : UInt32) (hsize : isSeatCount size = true)
      (hcommand : command = { kind := .journey, party := { id := producer.nextId, size } })
      (hactive : producer'.active = producer.active.push producer.nextId)
      (hnextId : producer'.nextId = producer.nextId + 1)
  /-- It ends the journey of a party it lists, and strikes the party off. -/
  | dropoff (i : Nat) (hi : i < producer.active.size)
      (hcommand : command =
        { kind := .dropoff, party := { id := producer.active.getD i 0, size := 0 } })
      (hactive : producer'.active = swapRemove producer.active i)
      (hnextId : producer'.nextId = producer.nextId)
  /-- It asks about a party it lists. -/
  | locate (i : Nat) (hi : i < producer.active.size)
      (hcommand : command =
        { kind := .locate, party := { id := producer.active.getD i 0, size := 0 } })
      (hactive : producer'.active = producer.active)
      (hnextId : producer'.nextId = producer.nextId)

theorem isSeatCount_roll {extra : Nat} (h : extra < maxSeats.toNat) :
    isSeatCount (minSeats + extra.toUInt32) = true := by
  have h : extra < 6 := h
  have hone : minSeats.toNat = 1 := rfl
  have hword : extra.toUInt32.toNat = extra := Nat.mod_eq_of_lt (by omega)
  rw [isSeatCount_iff, UInt32.toNat_add, hone, hword]
  omega

/-- The dice choose among the listed parties and among the sizes that parties have. -/
theorem gave_step (dice : Dice σ) (scenario : Scenario) (producer : Producer σ) :
    producer.Gave (producer.step dice scenario).1 (producer.step dice scenario).2 := by
  obtain ⟨source, active, nextId⟩ := producer
  rcases haction : dice.roll source 100 with ⟨action, source'⟩
  simp only [step, haction]
  by_cases hjourney : (action < scenario.journeyPercent.toNat || active.isEmpty) = true
  · rw [if_pos hjourney]
    have hextra := dice.roll_lt source' maxSeats.toNat (by decide)
    exact .journey _ (isSeatCount_roll hextra) rfl rfl rfl
  · have hpos : 0 < active.size := by
      rw [Bool.or_eq_true, not_or, Array.isEmpty_iff_size_eq_zero] at hjourney
      exact Nat.pos_of_ne_zero hjourney.2
    have hi := dice.roll_lt source' active.size hpos
    rw [if_neg hjourney]
    by_cases hdropoff : action < (scenario.journeyPercent + scenario.dropoffPercent).toNat
    · rw [if_pos hdropoff]
      exact .dropoff _ hi rfl rfl rfl
    · rw [if_neg hdropoff]
      exact .locate _ hi rfl rfl rfl

/-- A producer has no clock. -/
theorem time_step (dice : Dice σ) (scenario : Scenario) (producer : Producer σ) :
    (producer.step dice scenario).1.time = none := by
  cases producer.gave_step dice scenario with
  | journey size hsize hcommand => rw [hcommand]
  | dropoff i hi hcommand => rw [hcommand]
  | locate i hi hcommand => rw [hcommand]

/-- A producer that has given some commands. -/
structure HasGiven (producer : Producer σ) (first : UInt64) (given : List Command) : Prop where
  /-- The commands are well formed. -/
  wellFormed : WellFormed first given
  /-- The next id is the one after those handed out. -/
  nextId_eq : producer.nextId = first + UInt64.ofNat (idsOf .journey given).length
  /-- No party is listed twice. -/
  nodup : producer.active.toList.Nodup
  /-- The open parties are listed. -/
  mem_iff : ∀ id, id ∈ producer.active ↔ IsOpen given id

theorem hasGiven_start (dice : Dice σ) (scenario : Scenario) (producer : UInt32) :
    (start dice scenario producer).HasGiven (firstGroupId producer) [] where
  wellFormed := wellFormed_nil _
  nextId_eq := by simp [start]
  nodup := List.nodup_nil
  mem_iff id := by simp [start, IsOpen]

/-- Whatever the dice say, the parties listed are the open ones. -/
theorem HasGiven.step {producer : Producer σ} {first : UInt64} {given : List Command}
    (h : producer.HasGiven first given) (hlength : given.length < 2 ^ 64) (dice : Dice σ)
    (scenario : Scenario) : (producer.step dice scenario).2.HasGiven first
      (given ++ [(producer.step dice scenario).1]) := by
  cases producer.gave_step dice scenario with
  | journey size hsize hcommand hactive hnextId =>
    -- The next id is beyond all those handed out, so nothing has been said of it yet.
    have hnew : producer.nextId ∉ idsOf .journey given :=
      h.nextId_eq ▸ h.wellFormed.nextId_notMem hlength
    have hclosed : producer.nextId ∉ idsOf .dropoff given := fun hmem ↦
      hnew (h.wellFormed.mem_journeys_of_mem_dropoffs hmem)
    refine ⟨wellFormed_concat.mpr ⟨h.wellFormed, ?_⟩, ?_, ?_, fun id ↦ ?_⟩
    · rw [hcommand]
      exact ⟨h.nextId_eq, hsize⟩
    · rw [hnextId, h.nextId_eq, hcommand, idsOf_concat (by rfl), List.length_append,
        List.length_singleton, UInt64.ofNat_add, UInt64.add_assoc]
      rfl
    · rw [hactive, Array.toList_push, List.nodup_append_comm]
      refine List.nodup_cons.mpr ⟨fun hmem ↦ hnew ?_, h.nodup⟩
      exact ((h.mem_iff _).mp (Array.mem_toList_iff.mp hmem)).1
    · rw [hactive, Array.mem_push, h.mem_iff, IsOpen, IsOpen, hcommand, idsOf_concat (by rfl),
        idsOf_concat_of_ne (by simp)]
      by_cases hid : id = producer.nextId
      · simp [hid, hclosed]
      · simp [hid]
  | dropoff i hi hcommand hactive hnextId =>
    have hopen := (h.mem_iff _).mp (getD_mem hi)
    have hperm := swapRemove_perm hi
    have hnodup := List.nodup_cons.mp (hperm.nodup_iff.mpr h.nodup)
    refine ⟨wellFormed_concat.mpr ⟨h.wellFormed, ?_⟩, ?_, hactive ▸ hnodup.2, fun id ↦ ?_⟩
    · rw [hcommand]
      exact ⟨rfl, hopen⟩
    · rw [hnextId, h.nextId_eq, hcommand, idsOf_concat_of_ne (by simp)]
    · -- As no party was listed twice, the one that was struck off is listed no more.
      have hmem := (hperm.mem_iff (a := id)).trans (Array.mem_toList_iff.trans (h.mem_iff id))
      rw [List.mem_cons, Array.mem_toList_iff] at hmem
      rw [hactive, IsOpen, hcommand, idsOf_concat_of_ne (by simp), idsOf_concat (by rfl),
        List.mem_append, List.mem_singleton]
      have hgone := mt Array.mem_toList_iff.mpr hnodup.1
      rw [IsOpen] at hmem
      generalize producer.active.getD i 0 = gone at hmem hgone
      by_cases hid : id = gone
      · simp [hid, hgone]
      · simpa [hid] using hmem
  | locate i hi hcommand hactive hnextId =>
    have hopen := (h.mem_iff _).mp (getD_mem hi)
    refine ⟨wellFormed_concat.mpr ⟨h.wellFormed, ?_⟩, ?_, hactive ▸ h.nodup, fun id ↦ ?_⟩
    · rw [hcommand]
      exact ⟨rfl, hopen⟩
    · rw [hnextId, h.nextId_eq, hcommand, idsOf_concat_of_ne (by simp)]
    · rw [hactive, h.mem_iff, IsOpen, IsOpen, hcommand, idsOf_concat_of_ne (by simp),
        idsOf_concat_of_ne (by simp)]

/-- A run of a producer. -/
theorem HasGiven.give {producer : Producer σ} {first : UInt64} {given : Array Command}
    (h : producer.HasGiven first given.toList) (dice : Dice σ) (scenario : Scenario) {count : Nat}
    (hcount : given.size + count < 2 ^ 64) :
    (producer.give dice scenario count given).2.HasGiven first
      (producer.give dice scenario count given).1.toList := by
  induction count generalizing producer given with
  | zero => exact h
  | succ count ih =>
    rw [Producer.give]
    refine ih ?_ (by rw [Array.size_push]; omega)
    rw [Array.toList_push]
    exact h.step (by rw [Array.length_toList]; omega) dice scenario

/-- What was given before makes no difference to what is given next. -/
theorem toList_give (dice : Dice σ) (scenario : Scenario) (count : Nat) (producer : Producer σ)
    (given : Array Command) : (producer.give dice scenario count given).1.toList =
      given.toList ++ (producer.give dice scenario count #[]).1.toList := by
  induction count generalizing producer given with
  | zero => simp [give]
  | succ count ih =>
    rw [give, give]
    refine (ih _ _).trans (.trans ?_ (congrArg _ (ih _ _).symm))
    simp

theorem toList_give_succ (dice : Dice σ) (scenario : Scenario) (count : Nat)
    (producer : Producer σ) : (producer.give dice scenario (count + 1) #[]).1.toList =
      (producer.step dice scenario).1 ::
        ((producer.step dice scenario).2.give dice scenario count #[]).1.toList := by
  rw [give]
  exact toList_give dice scenario count _ _

theorem length_give (dice : Dice σ) (scenario : Scenario) (count : Nat) (producer : Producer σ) :
    (producer.give dice scenario count #[]).1.toList.length = count := by
  induction count generalizing producer with
  | zero => rfl
  | succ count ih => rw [toList_give_succ, List.length_cons, ih]

theorem time_of_mem_give (dice : Dice σ) (scenario : Scenario) {count : Nat}
    {producer : Producer σ} {command : Command}
    (hcommand : command ∈ (producer.give dice scenario count #[]).1.toList) :
    command.time = none := by
  induction count generalizing producer with
  | zero => simp [give] at hcommand
  | succ count ih =>
    rw [toList_give_succ, List.mem_cons] at hcommand
    rcases hcommand with rfl | hcommand
    · exact time_step dice scenario producer
    · exact ih hcommand

end Producer

/-! ## All commands of a producer -/

variable {σ : Type} (dice : Dice σ) (scenario : Scenario) (producer : UInt32)

theorem length_commands :
    (commands dice scenario producer).length = scenario.commandsPerProducer.toNat := by
  rw [commands, Producer.length_give]

theorem wellFormed_commands :
    WellFormed (firstGroupId producer) (commands dice scenario producer) := by
  have hstart : (Producer.start dice scenario producer).HasGiven (firstGroupId producer)
      (#[] : Array Command).toList := Producer.hasGiven_start dice scenario producer
  have hcount := scenario.commandsPerProducer.toNat_lt
  exact (hstart.give dice scenario (by simpa using hcount)).wellFormed

/-! ## Ranges of ids -/

theorem toNat_firstGroupId {producer : UInt32} (hproducer : producer.toNat < 2 ^ 24 - 1) :
    (firstGroupId producer).toNat = (producer.toNat + 1) * 2 ^ 40 := by
  have hsum : (producer.toUInt64 + 1).toNat = producer.toNat + 1 := by
    rw [UInt64.toNat_add, UInt32.toNat_toUInt64]
    exact Nat.mod_eq_of_lt (by simp; omega)
  have hshift : UInt64.toNat 40 % 64 = 40 := rfl
  rw [firstGroupId, UInt64.toNat_shiftLeft, hsum, hshift, Nat.shiftLeft_eq]
  exact Nat.mod_eq_of_lt (by omega)

/-- An id of a producer tells which producer it is of, and is not 0. -/
theorem toNat_id {producer : UInt32} (hproducer : producer.toNat < 2 ^ 24 - 1) {k : Nat}
    (hk : k < 2 ^ 40) : (firstGroupId producer + UInt64.ofNat k).toNat =
      (producer.toNat + 1) * 2 ^ 40 + k := by
  have hword : k < UInt64.size := Nat.lt_trans hk (by decide)
  rw [UInt64.toNat_add, toNat_firstGroupId hproducer, UInt64.toNat_ofNat_of_lt' hword]
  exact Nat.mod_eq_of_lt (by omega)

/-- Ids of different producers differ, and so do those that one producer hands out. -/
theorem id_inj {producer producer' : UInt32} (hproducer : producer.toNat < 2 ^ 24 - 1)
    (hproducer' : producer'.toNat < 2 ^ 24 - 1) {k k' : Nat} (hk : k < 2 ^ 40) (hk' : k' < 2 ^ 40)
    (h : firstGroupId producer + UInt64.ofNat k = firstGroupId producer' + UInt64.ofNat k') :
    producer = producer' ∧ k = k' := by
  have h := congrArg UInt64.toNat h
  rw [toNat_id hproducer hk, toNat_id hproducer' hk'] at h
  exact ⟨UInt32.toNat_inj.mp (by omega), by omega⟩

theorem id_ne_zero {producer : UInt32} (hproducer : producer.toNat < 2 ^ 24 - 1) {k : Nat}
    (hk : k < 2 ^ 40) : firstGroupId producer + UInt64.ofNat k ≠ 0 := by
  intro h
  have h := congrArg UInt64.toNat h
  rw [toNat_id hproducer hk, UInt64.toNat_zero] at h
  omega

/-! ## The fleet -/

/-- Vehicles are made one after the other, behind those there are. -/
theorem toList_rollVehicles (dice : Dice σ) {low range : Nat} (hlow : 1 ≤ low) (hrange : 0 < range)
    (hhigh : low + range ≤ 7) (count : Nat) (id : UInt64) (s : σ) (vehicles : Array Vehicle) :
    ∃ rolled : List Vehicle,
      (rollVehicles dice low range count id s vehicles).toList = vehicles.toList ++ rolled ∧
      rolled.map Vehicle.id = (List.range count).map (fun k ↦ id + UInt64.ofNat k) ∧
      ∀ vehicle ∈ rolled, isSeatCount vehicle.capacity = true := by
  induction count generalizing id s vehicles with
  | zero => exact ⟨[], by simp [rollVehicles], rfl, by simp⟩
  | succ count ih =>
    have hextra := dice.roll_lt s range hrange
    obtain ⟨rolled, hlist, hids, hseats⟩ := ih (id + 1) (dice.roll s range).2
      (vehicles.push { id, capacity := (low + (dice.roll s range).1).toUInt32 })
    refine ⟨{ id, capacity := (low + (dice.roll s range).1).toUInt32 } :: rolled, ?_, ?_, ?_⟩
    · rw [rollVehicles]
      refine hlist.trans ?_
      rw [Array.toList_push, List.append_assoc, List.singleton_append]
    · rw [List.map_cons, hids, List.range_succ_eq_map, List.map_cons, List.map_map]
      refine congrArg₂ _ (by simp) (List.map_congr_left fun k _ ↦ ?_)
      rw [Function.comp_apply, Nat.succ_eq_add_one, UInt64.ofNat_add, UInt64.add_assoc,
        UInt64.add_comm 1]
      rfl
    · refine List.forall_mem_cons.mpr ⟨?_, hseats⟩
      have hword : (low + (dice.roll s range).1).toUInt32.toNat = low + (dice.roll s range).1 :=
        Nat.mod_eq_of_lt (by omega)
      rw [isSeatCount_iff, hword]
      omega

private theorem toNat_min_maxSeats_le (seats : UInt32) : (min seats maxSeats).toNat ≤ 6 :=
  UInt32.le_iff_toNat_le.mp (Std.min_le_right (a := seats) (b := maxSeats))

private theorem one_le_toNat_min_max (seats : UInt32) :
    1 ≤ (min (max seats minSeats) maxSeats).toNat := by
  have hmax : minSeats ≤ max seats minSeats := by
    change minSeats ≤ if seats ≤ minSeats then minSeats else seats
    split
    next => exact UInt32.le_refl _
    next hlt => exact UInt32.le_of_lt (UInt32.not_le.mp hlt)
  exact UInt32.le_iff_toNat_le.mp (Std.le_min_iff.mpr ⟨hmax, by decide⟩)

/-- The vehicles are numbered from 1 on, and have as many seats as vehicles have. -/
theorem fleet_spec : (fleet dice scenario).map Vehicle.id =
      (List.range scenario.fleetSize.toNat).map (fun k ↦ 1 + UInt64.ofNat k) ∧
    ∀ vehicle ∈ fleet dice scenario, isSeatCount vehicle.capacity = true := by
  let low := min (max scenario.minVehicleCapacity minSeats) maxSeats
  let high := min (max scenario.maxVehicleCapacity low) maxSeats
  have hlow : 1 ≤ low.toNat := one_le_toNat_min_max _
  have hlow' : low.toNat ≤ 6 := toNat_min_maxSeats_le _
  have hhigh : high.toNat ≤ 6 := toNat_min_maxSeats_le _
  obtain ⟨rolled, hlist, hids, hseats⟩ := toList_rollVehicles dice hlow
    (Nat.succ_pos (high.toNat - low.toNat)) (by omega) scenario.fleetSize.toNat 1
    (dice.ofSeed scenario.seed) #[]
  have hfleet : fleet dice scenario = rolled := by rw [fleet, hlist]; rfl
  rw [hfleet]
  exact ⟨hids, hseats⟩

theorem length_fleet : (fleet dice scenario).length = scenario.fleetSize.toNat := by
  rw [← List.length_map (f := Vehicle.id), (fleet_spec dice scenario).1, List.length_map,
    List.length_range]

theorem nodup_ids_fleet : ((fleet dice scenario).map Vehicle.id).Nodup := by
  rw [(fleet_spec dice scenario).1]
  exact nodup_map_range 1 (Nat.le_of_lt scenario.fleetSize.toNat_lt)

theorem id_ne_of_mem_fleet {vehicle : Vehicle} (h : vehicle ∈ fleet dice scenario) :
    vehicle.id ≠ noVehicle := by
  have hmem := List.mem_map_of_mem (f := Vehicle.id) h
  rw [(fleet_spec dice scenario).1, List.mem_map] at hmem
  obtain ⟨k, hk, hid⟩ := hmem
  have hsize := scenario.fleetSize.toNat_lt
  rw [List.mem_range] at hk
  intro hzero
  have hsum := congrArg UInt64.toNat (hid.trans hzero)
  rw [UInt64.toNat_add, UInt64.toNat_ofNat_of_lt' (Nat.lt_trans hk hsize)] at hsum
  have hone : UInt64.toNat 1 = 1 := rfl
  have hnone : noVehicle.toNat = 0 := rfl
  rw [hone, hnone] at hsum
  omega

end RideShare.Demand
