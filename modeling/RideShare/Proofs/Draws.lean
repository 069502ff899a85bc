import RideShare.Proofs.Demand

/-!
# Whatever the dice say

A producer draws what to ask for and which party to ask about. Neither can make a command that does
not fit those before it: a draw below a bound is below it, a party is drawn only if one is listed,
and those listed are the open ones, each once, however often the last of them took the place of one
that was dropped off. The shares of the kinds of commands decide nothing about it either, even if
their sum is too large for a word and wraps around.

## Main statements

* `Demand.Producer.HasGiven.after`: the list of a producer after any number of its commands;
* `Demand.Producer.drew_step`: a place that is drawn is in the list, and the command is about the
  party there;
* `Demand.commands_fit`: what this comes to for the commands of a producer.
-/

namespace RideShare.Demand

open Chance

/-! ## Well-formed commands -/

/-- A command is a journey, or about an open party. -/
theorem Continues.journey_or_isOpen {first : UInt64} {earlier : List Command} {command : Command}
    (h : Continues first earlier command) :
    (command.kind = .journey ∧ isSeatCount command.party.size = true) ∨
      ((command.kind = .dropoff ∨ command.kind = .locate) ∧ command.party.size = 0 ∧
        IsOpen earlier command.party.id) := by
  rw [Continues] at h
  cases hkind : command.kind with
  | journey =>
    rw [hkind] at h
    exact .inl ⟨rfl, h.2⟩
  | dropoff =>
    rw [hkind] at h
    exact .inr ⟨.inl rfl, h⟩
  | locate =>
    rw [hkind] at h
    exact .inr ⟨.inr rfl, h⟩
  | other code =>
    rw [hkind] at h
    exact h.elim

namespace WellFormed

variable {first : UInt64} {commands : List Command}

/-- No id is handed out twice as long as there are fewer commands than ids. -/
theorem nodup_journeys (h : WellFormed first commands) (hlength : commands.length < 2 ^ 64) :
    (idsOf .journey commands).Nodup := by
  have hle := length_idsOf_le .journey commands
  rw [h.journeys_eq]
  exact nodup_map_range first (Nat.le_of_lt (Nat.lt_of_le_of_lt hle hlength))

/-- No journey is ended twice. -/
theorem nodup_dropoffs (h : WellFormed first commands) : (idsOf .dropoff commands).Nodup := by
  induction commands using List.reverseRecOn with
  | nil => exact List.nodup_nil
  | append_singleton commands command ih =>
    obtain ⟨hearlier, hlast⟩ := wellFormed_concat.mp h
    by_cases hkind : command.kind = .dropoff
    · rw [Continues, hkind] at hlast
      rw [idsOf_concat hkind, List.nodup_append_comm]
      exact List.nodup_cons.mpr ⟨hlast.2.2, ih hearlier⟩
    · rw [idsOf_concat_of_ne hkind]
      exact ih hearlier

/-- Every command is about a party whose journey was requested. -/
theorem id_mem_journeys (h : WellFormed first commands) {command : Command}
    (hcommand : command ∈ commands) : command.party.id ∈ idsOf .journey commands := by
  obtain ⟨earlier, later, rfl⟩ := List.append_of_mem hcommand
  have hcontinues := h earlier command ⟨later, by simp⟩
  rcases hcontinues.journey_or_isOpen with ⟨hkind, -⟩ | ⟨-, -, hopen, -⟩
  · exact mem_idsOf_iff.mpr ⟨command, hcommand, hkind, rfl⟩
  · obtain ⟨other, hother, hspec⟩ := mem_idsOf_iff.mp hopen
    exact mem_idsOf_iff.mpr ⟨other, List.mem_append_left _ hother, hspec⟩

/-- Before anybody asked for a journey, there is nobody to ask about. -/
theorem kind_head_eq (h : WellFormed first commands) {command : Command}
    (hfirst : commands.head? = some command) : command.kind = .journey := by
  obtain ⟨later, rfl⟩ := List.head?_eq_some_iff.mp hfirst
  have hcontinues : Continues first [] command := h [] command ⟨later, rfl⟩
  rcases hcontinues.journey_or_isOpen with ⟨hkind, -⟩ | ⟨-, -, hopen⟩
  · exact hkind
  · exact absurd hopen.1 List.not_mem_nil

end WellFormed

/-! ## Draws -/

namespace Producer

variable {σ : Type} (dice : Dice σ) (scenario : Scenario)

/-- The place in the list of a producer that is drawn for its next command, unless that is a
journey. -/
def drawn? (producer : Producer σ) : Option Nat :=
  let (action, source) := dice.roll producer.source 100
  if action < scenario.journeyPercent.toNat || producer.active.isEmpty then none
  else some (dice.roll source producer.active.size).1

/-- What the draws for a command have to do with it. -/
inductive Drew (producer : Producer σ) (command : Command) : Option Nat → Prop where
  /-- Without a place, it is a journey. -/
  | journey (hkind : command.kind = .journey) (hsize : isSeatCount command.party.size = true) :
      producer.Drew command none
  /-- The place is one in the list, and the command is about the party there. -/
  | listed (i : Nat) (hi : i < producer.active.size)
      (hkind : command.kind = .dropoff ∨ command.kind = .locate)
      (hparty : command.party = { id := producer.active.getD i 0, size := 0 }) :
      producer.Drew command (some i)

theorem drew_step (producer : Producer σ) :
    producer.Drew (producer.step dice scenario).1 (producer.drawn? dice scenario) := by
  obtain ⟨source, active, nextId⟩ := producer
  rcases haction : dice.roll source 100 with ⟨action, source'⟩
  simp only [step, drawn?, haction]
  by_cases hjourney : (action < scenario.journeyPercent.toNat || active.isEmpty) = true
  · rw [if_pos hjourney, if_pos hjourney]
    have hextra := dice.roll_lt source' maxSeats.toNat (by decide)
    exact .journey rfl (isSeatCount_roll hextra)
  · have hpos : 0 < active.size := by
      rw [Bool.or_eq_true, not_or, Array.isEmpty_iff_size_eq_zero] at hjourney
      exact Nat.pos_of_ne_zero hjourney.2
    have hi := dice.roll_lt source' active.size hpos
    rw [if_neg hjourney, if_neg hjourney]
    by_cases hdropoff : action < (scenario.journeyPercent + scenario.dropoffPercent).toNat
    · rw [if_pos hdropoff]
      exact .listed _ hi (.inl rfl) rfl
    · rw [if_neg hdropoff]
      exact .listed _ hi (.inr rfl) rfl

/-- A producer after its first `count` commands. -/
def after (producer : UInt32) (count : Nat) : Producer σ :=
  ((start dice scenario producer).give dice scenario count #[]).2

theorem give_add (count more : Nat) (producer : Producer σ) (given : Array Command) :
    producer.give dice scenario (count + more) given =
      (producer.give dice scenario count given).2.give dice scenario more
        (producer.give dice scenario count given).1 := by
  induction count generalizing producer given with
  | zero => rw [Nat.zero_add, give]
  | succ count ih =>
    rw [Nat.succ_add]
    exact ih _ _

/-- What a producer gives first, and then the next command. -/
theorem take_commands (producer : UInt32) {count : Nat}
    (hcount : count ≤ scenario.commandsPerProducer.toNat) :
    ((start dice scenario producer).give dice scenario count #[]).1.toList =
      (commands dice scenario producer).take count := by
  have hlength := length_give dice scenario count (start dice scenario producer)
  obtain ⟨more, hmore⟩ := Nat.exists_eq_add_of_le hcount
  rw [commands, hmore, give_add, toList_give dice scenario more, List.take_left' hlength]

theorem getElem?_commands (producer : UInt32) {count : Nat}
    (hcount : count < scenario.commandsPerProducer.toNat) :
    (commands dice scenario producer)[count]? =
      some ((after dice scenario producer count).step dice scenario).1 := by
  have hlength := length_give dice scenario count (start dice scenario producer)
  obtain ⟨more, hmore⟩ := Nat.exists_eq_add_of_lt hcount
  rw [commands, hmore, Nat.add_assoc, give_add, toList_give, toList_give_succ,
    List.getElem?_append_right (Nat.le_of_eq hlength), hlength, Nat.sub_self]
  rfl

/-- At any time the list of a producer holds the parties open by then, each once. -/
theorem HasGiven.after (producer : UInt32) {count : Nat}
    (hcount : count ≤ scenario.commandsPerProducer.toNat) :
    (after dice scenario producer count).HasGiven (firstGroupId producer)
      ((commands dice scenario producer).take count) := by
  have hword := scenario.commandsPerProducer.toNat_lt
  rw [← take_commands dice scenario producer hcount]
  exact (hasGiven_start dice scenario producer).give dice scenario (by simpa using by omega)

end Producer

/-! ## All commands of a producer -/

section Commands

variable {σ : Type} (dice : Dice σ) (scenario : Scenario) {producer : UInt32}

/-- Every command of a producer is about a party with an id of its own range. -/
theorem exists_lt_of_mem_commands {command : Command}
    (hcommand : command ∈ commands dice scenario producer) :
    ∃ k < scenario.commandsPerProducer.toNat,
      command.party.id = firstGroupId producer + UInt64.ofNat k := by
  have h := wellFormed_commands dice scenario producer
  obtain ⟨k, hk, hid⟩ := h.exists_lt_of_mem_journeys (h.id_mem_journeys hcommand)
  have hle := length_idsOf_le .journey (commands dice scenario producer)
  rw [length_commands] at hle
  exact ⟨k, Nat.lt_of_lt_of_le hk hle, hid⟩

/-- The ids that a producer hands out are numbers in a row. -/
theorem map_toNat_journeys (hproducer : producer.toNat < 2 ^ 24 - 1)
    (hcommands : scenario.commandsPerProducer.toNat ≤ 2 ^ 40) :
    let requested := idsOf .journey (commands dice scenario producer)
    requested.map UInt64.toNat =
      List.range' (firstGroupId producer).toNat requested.length := by
  intro requested
  have hle : requested.length ≤ scenario.commandsPerProducer.toNat := by
    rw [← length_commands dice scenario producer]
    exact length_idsOf_le _ _
  have hids : requested = (List.range requested.length).map _ :=
    (wellFormed_commands dice scenario producer).journeys_eq
  refine (congrArg (List.map UInt64.toNat) hids).trans ?_
  rw [List.range'_eq_map_range, List.map_map, toNat_firstGroupId hproducer]
  refine List.map_congr_left fun k hk ↦ toNat_id hproducer ?_
  have := List.mem_range.mp hk
  omega

theorem id_ne_zero_of_mem_commands (hproducer : producer.toNat < 2 ^ 24 - 1)
    (hcommands : scenario.commandsPerProducer.toNat ≤ 2 ^ 40) {command : Command}
    (hcommand : command ∈ commands dice scenario producer) : command.party.id ≠ 0 := by
  obtain ⟨k, hk, hid⟩ := exists_lt_of_mem_commands dice scenario hcommand
  rw [hid]
  exact id_ne_zero hproducer (Nat.lt_of_lt_of_le hk hcommands)

/-- Who uses the same id is the same producer. -/
theorem producer_eq_of_id_eq {σ' : Type} {dice' : Dice σ'} {scenario' : Scenario}
    {producer' : UInt32} (hproducer : producer.toNat < 2 ^ 24 - 1)
    (hproducer' : producer'.toNat < 2 ^ 24 - 1)
    (hcommands : scenario.commandsPerProducer.toNat ≤ 2 ^ 40)
    (hcommands' : scenario'.commandsPerProducer.toNat ≤ 2 ^ 40) {command command' : Command}
    (hcommand : command ∈ commands dice scenario producer)
    (hcommand' : command' ∈ commands dice' scenario' producer')
    (heq : command.party.id = command'.party.id) : producer = producer' := by
  obtain ⟨k, hk, hid⟩ := exists_lt_of_mem_commands dice scenario hcommand
  obtain ⟨k', hk', hid'⟩ := exists_lt_of_mem_commands dice' scenario' hcommand'
  rw [hid, hid'] at heq
  exact (id_inj hproducer hproducer' (Nat.lt_of_lt_of_le hk hcommands)
    (Nat.lt_of_lt_of_le hk' hcommands') heq).1

end Commands

/-- Whatever the dice say, and whatever the shares of the kinds of commands, a producer gives as
many commands as it should. Those that are journeys are for parties with the ids of its range, one
after the other, and of a size that parties have; all others are about a party that it asked a
journey for and did not drop off, drawn from a list of just these. Two producers never use the same
id, and nobody uses the id 0. -/
theorem commands_fit {σ : Type} (dice : Dice σ) (scenario : Scenario) {producer : UInt32}
    (hproducer : producer.toNat ≤ 2 ^ 24 - 2)
    (hcommands : scenario.commandsPerProducer.toNat ≤ 2 ^ 40) :
    let given := commands dice scenario producer
    given.length = scenario.commandsPerProducer.toNat ∧
    -- The ids.
    (idsOf .journey given).map UInt64.toNat =
      List.range' (firstGroupId producer).toNat (idsOf .journey given).length ∧
    (idsOf .journey given).Nodup ∧ (idsOf .dropoff given).Nodup ∧
    -- One command after the other.
    (∀ command, given.head? = some command → command.kind = .journey) ∧
    (∀ earlier command later, given = earlier ++ command :: later →
      (command.kind = .journey ∧ 1 ≤ command.party.size.toNat ∧ command.party.size.toNat ≤ 6) ∨
      ((command.kind = .dropoff ∨ command.kind = .locate) ∧ command.party.size = 0 ∧
        command.party.id ∈ idsOf .journey earlier ∧
        command.party.id ∉ idsOf .dropoff earlier)) ∧
    -- The draws.
    (∀ count < given.length, ∃ command, given[count]? = some command ∧
      let now := Producer.after dice scenario producer count
      now.active.toList.Nodup ∧ (∀ id, id ∈ now.active ↔ IsOpen (given.take count) id) ∧
      now.Drew command (now.drawn? dice scenario)) ∧
    -- Other producers.
    (∀ command ∈ given, command.party.id ≠ 0) ∧
    ∀ {σ' : Type} (dice' : Dice σ') (scenario' : Scenario) (producer' : UInt32),
      producer'.toNat ≤ 2 ^ 24 - 2 → scenario'.commandsPerProducer.toNat ≤ 2 ^ 40 →
      producer' ≠ producer → ∀ command ∈ given, ∀ command' ∈ commands dice' scenario' producer',
        command.party.id ≠ command'.party.id := by
  intro given
  have h : WellFormed (firstGroupId producer) given := wellFormed_commands dice scenario producer
  have hlength : given.length = scenario.commandsPerProducer.toNat :=
    length_commands dice scenario producer
  have hrange : producer.toNat < 2 ^ 24 - 1 := by omega
  refine ⟨hlength, map_toNat_journeys dice scenario hrange hcommands,
    h.nodup_journeys (hlength ▸ scenario.commandsPerProducer.toNat_lt), h.nodup_dropoffs,
    fun _ ↦ h.kind_head_eq, fun earlier command later heq ↦ ?_, fun count hcount ↦ ?_,
    fun _ ↦ id_ne_zero_of_mem_commands dice scenario hrange hcommands, ?_⟩
  · have hcontinues : Continues (firstGroupId producer) earlier command :=
      h earlier command ⟨later, by rw [heq, List.append_assoc, List.singleton_append]⟩
    refine hcontinues.journey_or_isOpen.imp_left fun ⟨hkind, hsize⟩ ↦ ⟨hkind, ?_⟩
    exact isSeatCount_iff.mp hsize
  · rw [hlength] at hcount
    have hnow := Producer.HasGiven.after dice scenario producer (Nat.le_of_lt hcount)
    exact ⟨_, Producer.getElem?_commands dice scenario producer hcount, hnow.nodup, hnow.mem_iff,
      Producer.drew_step dice scenario _⟩
  · intro σ' dice' scenario' producer' hproducer' hcommands' hne command hcommand command'
      hcommand' heq
    exact hne (producer_eq_of_id_eq dice scenario hrange (by omega) hcommands hcommands' hcommand
      hcommand' heq).symm

/-- The last producer asks for two journeys, ends the first one, and asks where the other party is,
which by then has moved to the first place in its list. -/
theorem commands_fit_of_swap :
    let draws : List Nat := [10, 3, 10, 0, 60, 0, 90, 0]
    let dice : Dice Nat :=
      { ofSeed := fun _ ↦ 0, roll := fun s n ↦ (draws.getD s 0 % n, s + 1)
        roll_lt := fun _ _ hn ↦ Nat.mod_lt _ hn }
    let scenario : Scenario := { commandsPerProducer := 4 }
    let producer : UInt32 := 16777214
    producer.toNat ≤ 2 ^ 24 - 2 ∧ scenario.commandsPerProducer.toNat ≤ 2 ^ 40 ∧
    (commands dice scenario producer).map (fun command ↦ (command.kind, command.party)) =
      [(.journey, ⟨firstGroupId producer, 4⟩), (.journey, ⟨firstGroupId producer + 1, 1⟩),
        (.dropoff, ⟨firstGroupId producer, 0⟩), (.locate, ⟨firstGroupId producer + 1, 0⟩)] ∧
    (commands dice scenario producer).length = 4 ∧
    ∀ command ∈ commands dice scenario producer, command.party.id ≠ 0 := by
  intro draws dice scenario producer
  obtain ⟨hlength, -, -, -, -, -, -, hzero, -⟩ :=
    commands_fit dice scenario (by decide : producer.toNat ≤ 2 ^ 24 - 2) (by decide)
  exact ⟨by decide, by decide, rfl, hlength, hzero⟩

end RideShare.Demand
