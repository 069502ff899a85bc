import RideShare.Proofs.Processing
import RideShare.Proofs.Sighting

/-!
# Batches make no difference

A processor takes its commands off the ring in batches. Where one batch ends and the next one begins
depends on the size of a batch, on how many commands are still wanted, and on what the reader of the
ring happened to see when it last looked, so it may be anywhere. Nobody can tell from the outcome: a
batch is as many commands taken one by one, and the next batch goes on where it ended.

The loop is bounded here, by as many batches as there are commands to handle. A processor at work
has no such bound. It goes on until it has handled them all, and tries again whenever the ring gives
it nothing, which could be for ever. `Work.Finishes` is this loop, and it ends because a ring that
stores something never gives nothing.

## Main statements

* `Work.exists_batch`: what a batch takes, and that as many rounds do the same;
* `Work.Unhindered.runBatches`: batches and rounds come to the same, and the loop ends there;
* `Work.batches_make_no_difference`: both, for a ring of commands at any point of any run.
-/

namespace RideShare

open Journal

namespace Work

/-! ## Rounds and batches -/

/-- Take the next command off a ring and handle it, `count` times over. -/
def rounds : (count : Nat) → Ring Command → Work → Ring Command × Work
  | 0, ring, work => (ring, work)
  | count + 1, ring, work =>
    let (command?, ring) := ring.dequeue
    rounds count ring (command?.elim work work.process)

/-- The loop of a processor with `left` commands to handle, from the ring and the work it finds to
those it leaves. It ends with the last command, or with the error of a publisher. If the ring gives
it nothing, it tries again. -/
inductive Finishes : Ring Command → Work → (left : Nat) → Ring Command × Work → Prop where
  /-- All commands are handled. -/
  | done {ring : Ring Command} {work : Work} : Finishes ring work 0 (ring, work)
  /-- A publisher has stopped the work. -/
  | stopped {ring : Ring Command} {work : Work} {left : Nat}
      (hstopped : work.failure.isSome = true) : Finishes ring work left (ring, work)
  /-- A batch is handled, and then the rest. -/
  | batch {ring : Ring Command} {work : Work} {left : Nat} {outcome : Ring Command × Work}
      (hleft : left ≠ 0) (hgoing : work.failure = none)
      (hrest : Finishes (ring.dequeueBatch (min batchSize left)).2
        (work.processAll (ring.dequeueBatch (min batchSize left)).1)
        (left - (ring.dequeueBatch (min batchSize left)).1.length) outcome) :
      Finishes ring work left outcome

/-- The loop has one outcome at most. -/
theorem Finishes.unique {ring : Ring Command} {work : Work} {left : Nat}
    {outcome outcome' : Ring Command × Work} (h : Finishes ring work left outcome)
    (h' : Finishes ring work left outcome') : outcome = outcome' := by
  induction h with
  | done =>
    cases h' with
    | done => rfl
    | stopped hstopped => rfl
    | batch hleft hgoing hrest => exact absurd rfl hleft
  | stopped hstopped =>
    cases h' with
    | done => rfl
    | stopped hstopped => rfl
    | batch hleft hgoing hrest => simp [hgoing] at hstopped
  | batch hleft hgoing hrest ih =>
    cases h' with
    | done => exact absurd rfl hleft
    | stopped hstopped => simp [hgoing] at hstopped
    | batch hleft hgoing hrest => exact ih hrest

section Rounds

variable {ring : Ring Command} (work : Work)

theorem rounds_succ (count : Nat) (ring : Ring Command) : rounds (count + 1) ring work =
    rounds count ring.dequeue.2 (ring.dequeue.1.elim work work.process) := rfl

theorem rounds_add (count more : Nat) (ring : Ring Command) :
    rounds (count + more) ring work =
      rounds more (rounds count ring work).1 (rounds count ring work).2 := by
  induction count generalizing ring work with
  | zero => rw [Nat.zero_add, rounds]
  | succ count ih =>
    rw [Nat.succ_add]
    exact ih _ _

/-- The commands that are taken one by one are handled in turn. -/
theorem rounds_eq (count : Nat) (ring : Ring Command) : rounds count ring work =
    ((ring.dequeueEach count).2, (ring.dequeueEach count).1.reduceOption.foldl process work) := by
  induction count generalizing ring work with
  | zero => rfl
  | succ count ih =>
    obtain ⟨command?, rest, hnext⟩ : ∃ command? rest, ring.dequeue = (command?, rest) :=
      ⟨_, _, rfl⟩
    rw [rounds_succ, ih]
    simp only [Ring.dequeueEach, hnext]
    cases command? with
    | none => rfl
    | some command => rfl

/-- Of a ring that stores as many commands as are wanted, a batch takes some but not more, leaves as
many as are still wanted, and does what as many rounds would do. -/
theorem exists_batch (hring : ring.WellPlaced) {left : Nat} (hpos : 0 < left)
    (hleft : left ≤ ring.toList.length) : ∃ batch rest,
      ring.dequeueBatch (min batchSize left) = (batch, rest) ∧
      batch ≠ [] ∧ batch.length ≤ left ∧
      rest.WellPlaced ∧ left - batch.length ≤ rest.toList.length ∧
      rounds batch.length ring work = (rest, batch.foldl process work) := by
  obtain ⟨batch, rest, hbatch⟩ : ∃ batch rest,
    ring.dequeueBatch (min batchSize left) = (batch, rest) := ⟨_, _, rfl⟩
  have hrest := hring.dequeueBatch (min batchSize left)
  have hlength := hring.length_dequeueBatch (min batchSize left)
  have hempty := hring.fst_dequeueBatch_eq_nil_iff (min batchSize left)
  have hstored := congrArg List.length (hring.dequeueBatch_append (min batchSize left))
  have heach (hsome : 1 ≤ (ring.dequeueBatch (min batchSize left)).1.length) :=
    hring.dequeueEach_eq hsome
  simp only [hbatch, List.length_append] at hrest hlength hempty hstored heach
  have hsome : batch ≠ [] := by
    rw [ne_eq, hempty, ← List.length_eq_zero_iff, batchSize]
    omega
  refine ⟨batch, rest, hbatch, hsome, by omega, hrest, by omega, ?_⟩
  rw [rounds_eq, heach (List.length_pos_iff.mpr hsome)]
  simp only [List.reduceOption, List.filterMap_map, Function.id_comp, List.filterMap_some]

/-- Rounds handle the oldest commands. -/
theorem rounds_of_le (hring : ring.WellPlaced) {count : Nat}
    (hcount : count ≤ ring.toList.length) :
    (rounds count ring work).1.toList = ring.toList.drop count ∧
      (rounds count ring work).2 = (ring.toList.take count).foldl process work := by
  induction count generalizing ring work with
  | zero => exact ⟨rfl, rfl⟩
  | succ count ih =>
    obtain ⟨command, rest, hlist⟩ :=
      List.exists_cons_of_length_pos (Nat.lt_of_lt_of_le (Nat.succ_pos count) hcount)
    have hfirst : ring.dequeue.1 = some command := by rw [hring.fst_dequeue, hlist]; rfl
    have hrest : ring.dequeue.2.toList = rest := by rw [hring.toList_dequeue, hlist]; rfl
    rw [hlist, List.length_cons] at hcount
    have ih := ih (work.process command) (hring.apply .dequeue) (by rw [Ring.apply, hrest]; omega)
    rw [rounds_succ, hfirst, hlist, List.drop_succ_cons, List.take_succ_cons, List.foldl_cons,
      ← hrest]
    exact ih

end Rounds

/-! ## Work that nobody stops -/

/-- No publisher has stopped the work, and none of those who are told will. -/
structure Unhindered (work : Work) : Prop where
  /-- Nobody has stopped it. -/
  failure_eq : work.failure = none
  /-- Nobody will. -/
  refusesNothing : work.desk.engine.RefusesNothing

/-- The work after a step that nobody stopped, and with which no command is done yet. -/
structure GoesOn (work after : Work) : Prop extends after.Unhindered where
  /-- No command was counted as handled. -/
  processed_eq : after.tally.processed = work.tally.processed
  /-- No latency was recorded. -/
  latencies_eq : after.tally.latencies = work.tally.latencies

/-- An operation of an engine is always answered if nobody refuses the news, and nobody else is told
the next time. -/
def AlwaysAnswered {α : Type} (operation : Engine → Engine.Reply α) : Prop :=
  ∀ engine, engine.RefusesNothing → (∃ answer, (operation engine).answer = .ok answer) ∧
    (operation engine).engine.manager = engine.manager

theorem alwaysAnswered_publish {α : Type} (step : Dispatch → Dispatch.Step α) :
    AlwaysAnswered fun engine ↦ Engine.publish engine.manager engine.clock (step engine.books) :=
  fun _ hrefuses ↦ ⟨⟨_, Engine.answer_publish hrefuses _ _⟩, Engine.manager_publish ..⟩

theorem alwaysAnswered_locateReply (id : UInt64) : AlwaysAnswered (·.locateReply id) :=
  fun _ _ ↦ ⟨⟨_, rfl⟩, rfl⟩

/-- A result is tallied as such, and nothing else is. -/
def TalliesResults {α : Type} (count : Tally → α → Tally) : Prop :=
  ∀ tally answer, (count tally answer).processed = tally.processed ∧
    (count tally answer).latencies = tally.latencies

namespace Unhindered

variable {work : Work} (h : work.Unhindered)
include h

theorem goesOn : work.GoesOn work where
  toUnhindered := h
  processed_eq := rfl
  latencies_eq := rfl

/-- The checks stop nobody's work. -/
theorem check (judge : Admission → Verdict × Admission) : work.GoesOn (work.check judge).2 := by
  cases hadmission : work.desk.admission with
  | none =>
    obtain ⟨tally, ⟨engine, admission⟩, emitted, failure⟩ := work
    obtain rfl := hadmission
    exact h.goesOn
  | some admission =>
    rw [check_eq hadmission]
    dsimp only
    split
    · exact ⟨⟨h.failure_eq, h.refusesNothing⟩, rfl, rfl⟩
    · exact ⟨⟨h.failure_eq, h.refusesNothing⟩, rfl, rfl⟩

theorem carryOut {α : Type} {operation : Engine → Engine.Reply α}
    (hoperation : AlwaysAnswered operation) {count : Tally → α → Tally}
    (hcount : TalliesResults count) : work.GoesOn (work.carryOut operation count) := by
  obtain ⟨⟨answer, hanswer⟩, hmanager⟩ := hoperation _ h.refusesNothing
  rw [carryOut_of_ok hanswer]
  refine ⟨⟨h.failure_eq, fun manager hsome ↦ ?_⟩, (hcount _ _).1, (hcount _ _).2⟩
  exact h.refusesNothing manager (hmanager.symm.trans hsome)

/-- A request goes by the checks, and then perhaps to the engine. -/
theorem request (judge : Admission → Verdict × Admission) {α : Type}
    {operation : Engine → Engine.Reply α} (hoperation : AlwaysAnswered operation)
    {count : Tally → α → Tally} (hcount : TalliesResults count) :
    let checked := work.check judge
    work.GoesOn (if checked.1 then checked.2.carryOut operation count else checked.2) := by
  intro checked
  have hchecked : work.GoesOn checked.2 := h.check judge
  split
  · have hcarried := hchecked.carryOut hoperation hcount
    exact ⟨hcarried.toUnhindered, hcarried.processed_eq.trans hchecked.processed_eq,
      hcarried.latencies_eq.trans hchecked.latencies_eq⟩
  · exact hchecked

theorem handle (command : Command) : work.GoesOn (work.handle command) := by
  rw [Work.handle]
  cases command.kind with
  | journey =>
    exact h.request _ (alwaysAnswered_publish (·.requestJourney command.party))
      fun _ _ ↦ ⟨rfl, rfl⟩
  | dropoff =>
    exact h.request _ (alwaysAnswered_publish (·.dropoff command.party.id)) fun _ _ ↦ ⟨rfl, rfl⟩
  | locate =>
    exact h.request _ (alwaysAnswered_locateReply command.party.id) fun _ _ ↦ ⟨rfl, rfl⟩
  | other code => exact h.goesOn

/-- A command is counted as handled, once, and leaves nobody in the way of the next one. -/
theorem process (command : Command) : (work.process command).Unhindered ∧
    (work.process command).tally.processed = work.tally.processed + 1 ∧
    (work.process command).tally.latencies.size = work.tally.latencies.size + 1 := by
  have hhandled := h.handle command
  rw [process_eq hhandled.failure_eq]
  refine ⟨⟨hhandled.failure_eq, hhandled.refusesNothing⟩, ?_, ?_⟩
  · rw [complete, hhandled.processed_eq]
  · rw [complete, hhandled.latencies_eq, Array.size_push]

/-- So are many. -/
theorem foldl_process (commands : List Command) : (commands.foldl Work.process work).Unhindered ∧
    (commands.foldl Work.process work).tally.processed =
      work.tally.processed + UInt64.ofNat commands.length ∧
    (commands.foldl Work.process work).tally.latencies.size =
      work.tally.latencies.size + commands.length := by
  induction commands generalizing work with
  | nil => exact ⟨h, (UInt64.add_zero _).symm, rfl⟩
  | cons command rest ih =>
    obtain ⟨hnext, hprocessed, hlatencies⟩ := h.process command
    obtain ⟨hlast, hprocessed', hlatencies'⟩ := ih hnext
    refine ⟨hlast, hprocessed'.trans ?_, hlatencies'.trans ?_⟩
    · rw [hprocessed, List.length_cons, UInt64.ofNat_add, UInt64.add_assoc,
        UInt64.add_comm (UInt64.ofNat _)]
      rfl
    · rw [hlatencies, List.length_cons]
      omega

/-- A batch is handled to its end. -/
theorem processAll_eq (commands : List Command) :
    work.processAll commands = commands.foldl Work.process work := by
  induction commands generalizing work with
  | nil => rfl
  | cons command rest ih =>
    obtain ⟨hnext, -, -⟩ := h.process command
    simp only [processAll, hnext.failure_eq, Option.isSome_none, Bool.false_eq_true, if_false,
      List.foldl_cons, ih hnext]

/-- Batches, however they fall, come to as many rounds as there are commands to handle, and then the
loop ends. -/
theorem runBatches {ring : Ring Command} (hring : ring.WellPlaced) {left bound : Nat}
    (hleft : left ≤ ring.toList.length) (hbound : left ≤ bound) :
    Work.runBatches bound ring work left = rounds left ring work ∧
      Finishes ring work left (rounds left ring work) := by
  -- Every batch takes some commands, so the bound on batches goes down no faster than what is left.
  induction bound generalizing ring work left with
  | zero =>
    obtain rfl : left = 0 := Nat.le_zero.mp hbound
    exact ⟨rfl, .done⟩
  | succ bound ih =>
    obtain rfl | hpos := Nat.eq_zero_or_pos left
    · exact ⟨rfl, .done⟩
    obtain ⟨batch, rest, hbatch, hsome, hwanted, hrest, hstored, hrounds⟩ :=
      exists_batch work hring hpos hleft
    have hlength := List.length_pos_iff.mpr hsome
    have hhandled := h.processAll_eq batch
    obtain ⟨hnext, -, -⟩ := h.foldl_process batch
    obtain ⟨hruns, hends⟩ :=
      ih hnext hrest hstored (by omega : left - batch.length ≤ bound)
    have hsplit : rounds left ring work =
        rounds (left - batch.length) rest (batch.foldl Work.process work) := by
      rw [← congrArg (rounds · ring work) (Nat.add_sub_cancel' hwanted), rounds_add, hrounds]
    rw [hsplit]
    refine ⟨.trans ?_ hruns, .batch (Nat.ne_of_gt hpos) h.failure_eq ?_⟩
    · simp [Work.runBatches, hbatch, hhandled, h.failure_eq, Nat.ne_of_gt hpos, hsome]
    · rw [hbatch, hhandled]
      exact hends

end Unhindered

/-- At any point of any run of a ring, whatever its reader saw last, let a processor handle `count`
of the commands that are stored. Its loop ends, and what it leaves is what as many rounds would
leave, each of which takes the next command and handles it: the oldest commands are handled, each
once and in order, and the others stay on the ring. -/
theorem batches_make_no_difference (operations : List (Ring.Operation Command)) {work : Work}
    (h : work.Unhindered) {count : Nat}
    (hcount : count ≤ (Ring.forCommands.run operations).toList.length) :
    let ring := Ring.forCommands.run operations
    let oldest := ring.toList.take count
    let done := work.run ring count
    -- The loop.
    (∀ outcome, Finishes ring work count outcome ↔ outcome = done) ∧
    done = rounds count ring work ∧
    -- The commands.
    oldest.length = count ∧ done.2 = oldest.foldl process work ∧
    done.1.toList = ring.toList.drop count ∧
    -- The processor.
    done.2.failure = none ∧ done.2.tally.processed = work.tally.processed + UInt64.ofNat count ∧
    done.2.tally.latencies.size = work.tally.latencies.size + count := by
  intro ring oldest done
  have hfresh : (Ring.forCommands : Ring Command).WellPlaced := Ring.wellPlaced_ofSlots (by decide)
  obtain ⟨hring, -⟩ := hfresh.run operations
  obtain ⟨hrounds, hfinishes⟩ : done = rounds count ring work ∧
      Finishes ring work count (rounds count ring work) := h.runBatches hring hcount (Nat.le_refl _)
  obtain ⟨hleft, hhandled⟩ := rounds_of_le work hring hcount
  have hlength : oldest.length = count := List.length_take_of_le hcount
  rw [← hrounds] at hfinishes hleft hhandled
  obtain ⟨hgoing, hprocessed, hlatencies⟩ := h.foldl_process oldest
  rw [← hhandled] at hgoing hprocessed hlatencies
  rw [hlength] at hprocessed hlatencies
  refine ⟨fun outcome ↦ ⟨fun houtcome ↦ houtcome.unique hfinishes, ?_⟩, hrounds, hlength, hhandled,
    hleft, hgoing.failure_eq, hprocessed, hlatencies⟩
  rintro rfl
  exact hfinishes

/-- The reader saw two commands when it took one of them, and two came later. -/
theorem batches_make_no_difference_of_late_commands :
    let journey (id : UInt64) : Command := { kind := .journey, party := ⟨id, 4⟩ }
    let operations : List (Ring.Operation Command) :=
      [.enqueue (journey 1), .enqueue (journey 2), .dequeue, .enqueue (journey 3),
        .enqueue { kind := .dropoff, party := ⟨2, 0⟩ }]
    let engine := (Engine.ofReserve 0).setManager (some (.ofPublishers [.recorder, .locator]))
    let work : Work := { desk := { engine, admission := some {} } }
    work.Unhindered ∧ 2 ≤ (Ring.forCommands.run operations).toList.length ∧
    work.run (Ring.forCommands.run operations) 2 = rounds 2 (Ring.forCommands.run operations) work ∧
    (work.run (Ring.forCommands.run operations) 2).2.tally.processed = 2 := by
  intro journey operations engine work
  have hrefuses : (Journal.Manager.ofPublishers [.recorder, .locator]).RefusesNothing := by
    refine Manager.refusesNothing_ofPublishers ?_
    simp only [List.forall_mem_cons, List.not_mem_nil, false_imp_iff, implies_true, and_true]
    exact ⟨fun _ ↦ rfl, fun _ ↦ rfl⟩
  have h : work.Unhindered :=
    ⟨rfl, fun manager hsome ↦ Option.some.inj hsome ▸ hrefuses⟩
  have hfresh : (Ring.forCommands : Ring Command).WellPlaced := Ring.wellPlaced_ofSlots (by decide)
  have hempty : Ring.forCommands.toList = [] := Ring.toList_ofSlots _
  have hstored : (Ring.forCommands.run operations).toList =
      [journey 2, journey 3, { kind := .dropoff, party := ⟨2, 0⟩ }] := by
    let early := Ring.forCommands.run ([journey 1, journey 2].map .enqueue)
    obtain ⟨hearly, hsame⟩ : early.WellPlaced ∧ early.capacity = Ring.forCommands.capacity :=
      hfresh.run _
    have hcapacity : Ring.forCommands.capacity = 65535 := Ring.capacity_ofSlots Ring.standardSlots
    have hfirst : early.toList = [journey 1, journey 2] := by
      rw [hfresh.toList_run_enqueue, hempty, List.nil_append]
      rw [hempty, hcapacity]
      decide
    have hrest : (early.apply .dequeue).toList = [journey 2] := by
      rw [Ring.apply, hearly.toList_dequeue, hfirst, List.tail_cons]
    have hsplit : operations = [journey 1, journey 2].map .enqueue ++
        .dequeue :: [journey 3, { kind := .dropoff, party := ⟨2, 0⟩ }].map .enqueue := rfl
    rw [hsplit, Ring.run, List.foldl_append, List.foldl_cons]
    rw [← Ring.run, ← Ring.run, (hearly.apply .dequeue).toList_run_enqueue, hrest]
    · rfl
    · rw [hrest, hearly.capacity_apply, hsame, hcapacity]
      decide
  have hcount : 2 ≤ (Ring.forCommands.run operations).toList.length := by
    rw [hstored]
    decide
  obtain ⟨-, hrounds, -, -, -, -, hprocessed, -⟩ := batches_make_no_difference operations h hcount
  exact ⟨h, hcount, hrounds, hprocessed⟩

end Work

end RideShare
