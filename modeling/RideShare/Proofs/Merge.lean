import Mathlib.Algebra.BigOperators.Group.Finset.Piecewise
import RideShare.Proofs.Demand

/-!
# Producers side by side

The commands of several producers are served in some order, and all that is known of it is that each
producer's commands stay in theirs. `IsMerge` says so. Whatever the order, a party that asks for a
journey has not been heard of before, and one that is asked about is open: what other producers do
has no bearing on it, since their ids are others.

## Main statements

* `Demand.IsMerge.fits`: what a command is after all those served before it;
* `Demand.sum_countP_ownOf`: what producers did, added up, is what was done in all.
-/

namespace RideShare

/-- A command without the time at which it was given. -/
def Command.untimed (command : Command) : Command := { command with time := none }

namespace Demand

open Chance

/-- The commands of one producer, of those served. -/
def ownOf (i : Nat) (served : List (Nat × Command)) : List Command :=
  (served.filter fun entry ↦ entry.1 = i).map Prod.snd

/-- The commands of `count` producers are served, each with the number of its producer, and every
producer's in the order in which they were given. -/
structure IsMerge (served : List (Nat × Command)) (count : Nat) (given : Nat → List Command) :
    Prop where
  /-- There are no other producers. -/
  lt : ∀ entry ∈ served, entry.1 < count
  /-- The commands of a producer are those it gave, at some time or other. -/
  untimed_ownOf : ∀ i < count, (ownOf i served).map Command.untimed = given i

/-- What a command may be after others, by whichever producers. -/
def Fits (earlier : List Command) (command : Command) : Prop :=
  match command.kind with
  | .journey => isSeatCount command.party.size = true ∧
      command.party.id ∉ idsOf .journey earlier ∧ command.party.id ∉ idsOf .dropoff earlier
  | .dropoff | .locate => IsOpen earlier command.party.id
  | .other _ => False

section ownOf

variable {i j : Nat} {served : List (Nat × Command)} {command : Command}

theorem ownOf_append (i : Nat) (served others : List (Nat × Command)) :
    ownOf i (served ++ others) = ownOf i served ++ ownOf i others := by
  simp [ownOf]

theorem ownOf_concat (served : List (Nat × Command)) (i : Nat) (command : Command) :
    ownOf j (served ++ [(i, command)]) =
      if i = j then ownOf j served ++ [command] else ownOf j served := by
  by_cases hij : i = j <;> simp [ownOf, hij]

theorem ownOf_mono {earlier : List (Nat × Command)} (h : earlier <+: served) (i : Nat) :
    ownOf i earlier <+: ownOf i served :=
  (h.filter _).map _

theorem mem_ownOf_iff : command ∈ ownOf i served ↔ (i, command) ∈ served := by
  simp [ownOf]

theorem mem_idsOf_map_snd {kind : CommandKind} {id : UInt64} :
    id ∈ idsOf kind (served.map Prod.snd) ↔ ∃ i, id ∈ idsOf kind (ownOf i served) := by
  simp only [mem_idsOf_iff, mem_ownOf_iff, List.mem_map]
  constructor
  · rintro ⟨command, ⟨entry, hentry, rfl⟩, hspec⟩
    exact ⟨entry.1, entry.2, hentry, hspec⟩
  · rintro ⟨i, command, hcommand, hspec⟩
    exact ⟨command, ⟨_, hcommand, rfl⟩, hspec⟩

/-- What producers did, added up, is what was done in all. -/
theorem sum_countP_ownOf {count : Nat} (hlt : ∀ entry ∈ served, entry.1 < count)
    (p : Command → Bool) : ∑ i ∈ Finset.range count, (ownOf i served).countP p =
      (served.map Prod.snd).countP p := by
  induction served with
  | nil => simp [ownOf]
  | cons entry rest ih =>
    rw [List.forall_mem_cons] at hlt
    have hown (i : Nat) : (ownOf i (entry :: rest)).countP p =
        (ownOf i rest).countP p + if entry.1 = i then if p entry.2 then 1 else 0 else 0 := by
      by_cases hi : entry.1 = i <;> simp [ownOf, hi, List.countP_cons]
    simp only [hown, Finset.sum_add_distrib, ih hlt.2, Finset.sum_ite_eq, Finset.mem_range, hlt.1,
      if_true, List.map_cons, List.countP_cons]

end ownOf

/-! ## Commands of all producers together -/

theorem WellFormed.of_untimed {first : UInt64} {commands : List Command}
    (h : WellFormed first (commands.map Command.untimed)) : WellFormed first commands := by
  intro earlier command hbegin
  have hbegin := hbegin.map Command.untimed
  rw [List.map_append] at hbegin
  have hcontinues := h _ _ hbegin
  have hids (kind : CommandKind) :
      idsOf kind (earlier.map Command.untimed) = idsOf kind earlier := by
    rw [idsOf, List.filter_map, List.map_map]
    rfl
  simpa only [Continues, IsOpen, hids, Command.untimed] using hcontinues

/-- A producer leaves the time of its commands open. -/
theorem map_untimed_commands {σ : Type} (dice : Dice σ) (scenario : Scenario) (producer : UInt32) :
    (commands dice scenario producer).map Command.untimed = commands dice scenario producer := by
  refine (List.map_congr_left fun command hcommand ↦ ?_).trans (List.map_id _)
  have htime := Producer.time_of_mem_give dice scenario hcommand
  rw [Command.untimed, ← htime]
  rfl

namespace IsMerge

variable {σ : Type} {dice : Dice σ} {scenario : Scenario} {served earlier : List (Nat × Command)}
  {id : UInt64}

/-- All producers of a scenario give their commands. -/
abbrev OfScenario (dice : Dice σ) (scenario : Scenario) (served : List (Nat × Command)) : Prop :=
  IsMerge served scenario.producers.toNat fun i ↦ commands dice scenario i.toUInt32

/-- The commands of each producer are well formed, and there are as many as were asked for. -/
theorem ownOf_spec (h : OfScenario dice scenario served) {i : Nat}
    (hi : i < scenario.producers.toNat) :
    WellFormed (firstGroupId i.toUInt32) (ownOf i served) ∧
      (ownOf i served).length = scenario.commandsPerProducer.toNat := by
  have hown := h.untimed_ownOf i hi
  refine ⟨.of_untimed (hown ▸ wellFormed_commands dice scenario _), ?_⟩
  rw [← List.length_map (f := Command.untimed), hown, length_commands]

/-- A producer ends only journeys that it asked for. -/
private theorem mem_journeys_of_mem_dropoffs (h : OfScenario dice scenario served)
    (hbegin : earlier <+: served) {i : Nat} (hid : id ∈ idsOf .dropoff (ownOf i earlier)) :
    id ∈ idsOf .journey (ownOf i earlier) := by
  obtain ⟨command, hcommand, -⟩ := mem_idsOf_iff.mp hid
  have hi : i < scenario.producers.toNat := h.lt _ (hbegin.subset (mem_ownOf_iff.mp hcommand))
  exact ((h.ownOf_spec hi).1.mono (ownOf_mono hbegin i)).mem_journeys_of_mem_dropoffs hid

/-- As many commands are served as were asked for. -/
theorem length_served (h : OfScenario dice scenario served) :
    served.length = scenario.producers.toNat * scenario.commandsPerProducer.toNat := by
  have hsum := sum_countP_ownOf h.lt fun _ ↦ true
  simp only [List.countP_true, List.length_map] at hsum
  rw [← hsum, Finset.sum_const_nat fun i hi ↦ (h.ownOf_spec (Finset.mem_range.mp hi)).2,
    Finset.card_range]

section Ids

variable (h : OfScenario dice scenario served) (hproducers : scenario.producers.toNat ≤ 2 ^ 24 - 1)
  (hcommands : scenario.commandsPerProducer.toNat ≤ 2 ^ 40) (hbegin : earlier <+: served)

include h hproducers hcommands hbegin

/-- A party that asked for a journey has an id from the range of its producer. -/
private theorem exists_id_eq {i : Nat} (hid : id ∈ idsOf .journey (ownOf i earlier)) :
    i.toUInt32.toNat = i ∧ i < 2 ^ 24 - 1 ∧ ∃ k < (idsOf .journey (ownOf i earlier)).length,
      k < 2 ^ 40 ∧ id = firstGroupId i.toUInt32 + UInt64.ofNat k := by
  obtain ⟨command, hcommand, -⟩ := mem_idsOf_iff.mp hid
  have hi : i < scenario.producers.toNat := h.lt _ (hbegin.subset (mem_ownOf_iff.mp hcommand))
  obtain ⟨hwell, hlength⟩ := h.ownOf_spec hi
  have hown := ownOf_mono hbegin i
  obtain ⟨k, hk, heq⟩ := (hwell.mono hown).exists_lt_of_mem_journeys hid
  have := length_idsOf_le .journey (ownOf i earlier)
  have := hown.length_le
  exact ⟨Nat.mod_eq_of_lt (by omega), by omega, k, hk, by omega, heq⟩

/-- No two producers ask for journeys of the same party. -/
private theorem eq_of_mem_journeys {i j : Nat} (hi : id ∈ idsOf .journey (ownOf i earlier))
    (hj : id ∈ idsOf .journey (ownOf j earlier)) : i = j := by
  obtain ⟨hiword, hilt, k, -, hk, rfl⟩ := exists_id_eq h hproducers hcommands hbegin hi
  obtain ⟨hjword, hjlt, l, -, hl, heq⟩ := exists_id_eq h hproducers hcommands hbegin hj
  have hsame := id_inj (hiword.symm ▸ hilt) (hjword.symm ▸ hjlt) hk hl heq
  rw [← hiword, hsame.1, hjword]

/-- A party that is open for its producer is open. -/
private theorem isOpen_of_ownOf {i : Nat} (hid : IsOpen (ownOf i earlier) id) :
    id ≠ 0 ∧ IsOpen (earlier.map Prod.snd) id := by
  refine ⟨?_, mem_idsOf_map_snd.mpr ⟨i, hid.1⟩, fun hended ↦ ?_⟩
  · obtain ⟨hword, hlt, k, -, hk, rfl⟩ := exists_id_eq h hproducers hcommands hbegin hid.1
    exact id_ne_zero (hword.symm ▸ hlt) hk
  · obtain ⟨j, hj⟩ := mem_idsOf_map_snd.mp hended
    have hsame := eq_of_mem_journeys h hproducers hcommands hbegin hid.1
      (mem_journeys_of_mem_dropoffs h hbegin hj)
    exact hid.2 (hsame ▸ hj)

end Ids

/-- Whatever the order, every command can be carried out. -/
theorem fits (h : OfScenario dice scenario served)
    (hproducers : scenario.producers.toNat ≤ 2 ^ 24 - 1)
    (hcommands : scenario.commandsPerProducer.toNat ≤ 2 ^ 40) {i : Nat} {command : Command}
    (hbegin : earlier ++ [(i, command)] <+: served) :
    i < scenario.producers.toNat ∧ command.party.id ≠ 0 ∧
      Fits (earlier.map Prod.snd) command := by
  have hearlier : earlier <+: served := (List.prefix_append _ _).trans hbegin
  have hi : i < scenario.producers.toNat := h.lt (i, command) (hbegin.subset (by simp))
  obtain ⟨hwell, hlength⟩ := h.ownOf_spec hi
  have hown := ownOf_mono hbegin i
  rw [ownOf_concat, if_pos rfl] at hown
  have hcontinues := hwell _ _ hown
  refine ⟨hi, ?_⟩
  rw [Fits]
  rw [Continues] at hcontinues
  cases hkind : command.kind with
  | journey =>
    rw [hkind] at hcontinues
    have hword : i.toUInt32.toNat = i := Nat.mod_eq_of_lt (by omega)
    have hlt : i.toUInt32.toNat < 2 ^ 24 - 1 := by omega
    have hcount : (idsOf .journey (ownOf i earlier)).length < 2 ^ 40 := by
      have := length_idsOf_le .journey (ownOf i earlier)
      have := hown.length_le
      rw [List.length_append, List.length_singleton] at this
      omega
    -- An id handed out before has another producer, or a smaller number.
    have hnew (j : Nat) : command.party.id ∉ idsOf .journey (ownOf j earlier) := by
      intro hj
      obtain ⟨hjword, hjlt, k, hk, hk', heq⟩ := exists_id_eq h hproducers hcommands hearlier hj
      have hsame := id_inj hlt (hjword.symm ▸ hjlt) hcount hk' (hcontinues.1.symm.trans heq)
      obtain rfl : i = j := by rw [← hword, hsame.1, hjword]
      exact Nat.lt_irrefl _ (hsame.2 ▸ hk)
    refine ⟨hcontinues.1 ▸ id_ne_zero hlt hcount, hcontinues.2, ?_, ?_⟩
    · exact fun hmem ↦ (mem_idsOf_map_snd.mp hmem).elim hnew
    · exact fun hmem ↦ (mem_idsOf_map_snd.mp hmem).elim fun j hj ↦
        hnew j (mem_journeys_of_mem_dropoffs h hearlier hj)
  | dropoff =>
    rw [hkind] at hcontinues
    exact isOpen_of_ownOf h hproducers hcommands hearlier hcontinues.2
  | locate =>
    rw [hkind] at hcontinues
    exact isOpen_of_ownOf h hproducers hcommands hearlier hcontinues.2
  | other code =>
    rw [hkind] at hcontinues
    exact hcontinues.elim

end IsMerge

end Demand

end RideShare
