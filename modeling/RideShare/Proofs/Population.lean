import RideShare.Proofs.Audit
import RideShare.Proofs.Frame
import RideShare.Proofs.Publishing

/-!
# The counts and the population

Each thing that happens to a party is counted, so the counts tell how many parties ride and wait:
those that got there, less those that left. The counts are words and wrap around, and so does what
they tell. A reset puts everybody out of the books and counts nobody, so only what was counted since
the last one tells of those who are in the books now.

What an operation counts is collected in `Dispatch.Counted`, next to what it does to the numbers of
parties. Both add up along a run.

## Main statements

* `Dispatch.Orderly.counted`: what an operation other than a reset counts;
* `Engine.counted_run`: what is counted from one reset to the next;
* `Engine.counts_tell_population`: what the counts of any run tell.
-/

namespace RideShare

/-! ## Sums of counts -/

namespace Counters

/-- Differences are taken count by count. They wrap around like the counts. -/
instance : Sub Counters where
  sub c d :=
    { journeysRequested := c.journeysRequested - d.journeysRequested
      assignedOnRequest := c.assignedOnRequest - d.assignedOnRequest
      queued := c.queued - d.queued
      duplicatesRejected := c.duplicatesRejected - d.duplicatesRejected
      invalidSizesRejected := c.invalidSizesRejected - d.invalidSizesRejected
      dropoffsRiding := c.dropoffsRiding - d.dropoffsRiding
      dropoffsWaiting := c.dropoffsWaiting - d.dropoffsWaiting
      dropoffsNotFound := c.dropoffsNotFound - d.dropoffsNotFound
      reallocationPasses := c.reallocationPasses - d.reallocationPasses
      groupsReallocated := c.groupsReallocated - d.groupsReallocated
      reserveConflicts := c.reserveConflicts - d.reserveConflicts
      resets := c.resets - d.resets
      locates := c.locates - d.locates }

theorem sub_def (c d : Counters) : c - d =
    { journeysRequested := c.journeysRequested - d.journeysRequested
      assignedOnRequest := c.assignedOnRequest - d.assignedOnRequest
      queued := c.queued - d.queued
      duplicatesRejected := c.duplicatesRejected - d.duplicatesRejected
      invalidSizesRejected := c.invalidSizesRejected - d.invalidSizesRejected
      dropoffsRiding := c.dropoffsRiding - d.dropoffsRiding
      dropoffsWaiting := c.dropoffsWaiting - d.dropoffsWaiting
      dropoffsNotFound := c.dropoffsNotFound - d.dropoffsNotFound
      reallocationPasses := c.reallocationPasses - d.reallocationPasses
      groupsReallocated := c.groupsReallocated - d.groupsReallocated
      reserveConflicts := c.reserveConflicts - d.reserveConflicts
      resets := c.resets - d.resets
      locates := c.locates - d.locates } :=
  rfl

theorem add_sub_cancel_left (c d : Counters) : c + d - c = d := by
  have hcancel (a b : UInt64) : a + b - a = b := by rw [UInt64.add_comm, UInt64.add_sub_cancel]
  simp only [sub_def, add_def, hcancel]

/-- By these counts, the parties that have got on a vehicle, less those that have left one. -/
def riding (c : Counters) : UInt64 := c.assignedOnRequest + c.groupsReallocated - c.dropoffsRiding

/-- By these counts, the parties that have joined the backlog, less those that have left it. -/
def waiting (c : Counters) : UInt64 := c.queued - c.groupsReallocated - c.dropoffsWaiting

theorem riding_add (c d : Counters) : (c + d).riding = c.riding + d.riding := by
  simp only [riding, add_def]
  abel

theorem waiting_add (c d : Counters) : (c + d).waiting = c.waiting + d.waiting := by
  simp only [waiting, add_def]
  abel

/-- Whatever is counted twice is counted alike. -/
structure Itemized (c : Counters) : Prop where
  /-- Requests are counted by their outcomes, too. -/
  journeysRequested_eq : c.journeysRequested =
    c.assignedOnRequest + c.queued + c.duplicatesRejected + c.invalidSizesRejected
  /-- When a party alights there is a pass over the backlog, and only then. -/
  reallocationPasses_eq : c.reallocationPasses = c.dropoffsRiding
  /-- Nobody who is chosen is refused. -/
  reserveConflicts_eq : c.reserveConflicts = 0

theorem Itemized.add {c d : Counters} (hc : c.Itemized) (hd : d.Itemized) : (c + d).Itemized where
  journeysRequested_eq := by
    simp only [add_def, hc.journeysRequested_eq, hd.journeysRequested_eq]
    abel
  reallocationPasses_eq := by
    simp only [add_def, hc.reallocationPasses_eq, hd.reallocationPasses_eq]
  reserveConflicts_eq := by
    simp only [add_def, hc.reserveConflicts_eq, hd.reserveConflicts_eq, UInt64.add_zero]

end Counters

/-! ## Numbers of parties -/

namespace Dispatch

namespace Consistent

variable {books : Dispatch}

theorem waitingCount_eq (h : books.Consistent) : books.waitingCount = books.waiting.length :=
  h.backlog.size_eq

/-- Everybody in the books rides or waits. -/
theorem groupCount_eq (h : books.Consistent) :
    books.groupCount = books.ridingCount + books.waitingCount := by
  rw [groupCount, h.size_roster, h.waitingCount_eq]
  rfl

theorem ridingCount_board (h : books.Consistent) {party : Party} (hnew : ¬ books.Knows party.id)
    (slot : Slot) : (books.board party slot).ridingCount = books.ridingCount + 1 :=
  Seating.size_set (h.get?_of_not_knows hnew) slot.vehicle.id

theorem waitingCount_hold (h : books.Consistent) {party : Party} (hnew : ¬ books.Knows party.id)
    (hsize : isSeatCount party.size = true) :
    (books.hold party).waitingCount = books.waitingCount + 1 := by
  rw [(h.hold hnew hsize).waitingCount_eq, h.waiting_hold hnew hsize, List.length_append,
    List.length_singleton, h.waitingCount_eq]

/-- Those who leave the backlog, and those who stay. -/
theorem length_filter_waiting (h : books.Consistent) {leaving : List Party}
    (hsub : leaving.Sublist books.waiting) :
    (books.waiting.filter (· ∉ leaving)).length + leaving.length = books.waiting.length := by
  have hsplit := List.length_eq_countP_add_countP (l := books.waiting) (· ∈ leaving)
  rw [List.countP_eq_length_filter, List.countP_eq_length_filter,
    filter_mem_of_sublist hsub h.nodup_waiting] at hsplit
  simp only [decide_eq_true_eq] at hsplit
  omega

theorem waitingCount_leave (h : books.Consistent) {id : UInt64} (hwait : books.Waits id) :
    (books.leave id).waitingCount + 1 = books.waitingCount := by
  obtain ⟨party, hparty, rfl⟩ := hwait
  have hleft : (books.leave party.id).waiting = books.waiting.filter (· ∉ [party]) := by
    refine (h.waiting_leave party.id).trans (List.filter_congr fun other hother ↦ ?_)
    have hid : other.id = party.id ↔ other = party :=
      ⟨h.backlog.eq_of_mem hother hparty, congrArg Party.id⟩
    simp [hid]
  have hcount := h.length_filter_waiting (List.singleton_sublist.mpr hparty)
  rwa [(h.leave ⟨party, hparty, rfl⟩).waitingCount_eq, hleft, h.waitingCount_eq]

end Consistent

namespace Orderly

variable {books : Dispatch} {party : Party} {slot : Slot}

theorem waitingCount_refill_alight (h : books.Orderly)
    (hride : books.Rides party.id slot.vehicle.id)
    (hslot : books.fleet.find? slot.vehicle.id = some slot)
    (hsize : books.roster[party.id]? = some party.size) :
    (((books.alight party slot).refill (slot.withAvailable (slot.freed party.size))).books
      (books.roster.erase party.id)).waitingCount +
        (fill (slot.freed party.size).toNat books.waiting).length = books.waitingCount := by
  rw [(h.refill_alight hride hslot hsize).waitingCount_eq, h.waitingCount_eq,
    h.waiting_refill_alight hride hslot hsize]
  exact h.length_filter_waiting (fill_sublist _ _)

/-- A pass moves parties, but leaves them in the books, so that those who board are as many as those
who wait no more. -/
theorem ridingCount_refill_alight (h : books.Orderly)
    (hride : books.Rides party.id slot.vehicle.id)
    (hslot : books.fleet.find? slot.vehicle.id = some slot)
    (hsize : books.roster[party.id]? = some party.size) :
    (((books.alight party slot).refill (slot.withAvailable (slot.freed party.size))).books
      (books.roster.erase party.id)).ridingCount + 1 =
        books.ridingCount + (fill (slot.freed party.size).toNat books.waiting).length := by
  have hgroups := (h.alight hride hslot hsize).groupCount_eq.symm.trans
    (h.refill_alight hride hslot hsize).groupCount_eq
  have hriding : (books.alight party slot).ridingCount + 1 = books.ridingCount :=
    Seating.size_erase hride
  have hkept : (books.alight party slot).waitingCount = books.waitingCount := rfl
  have hwaiting := h.waitingCount_refill_alight hride hslot hsize
  omega

end Orderly

/-! ## What an operation counts -/

/-- What has been counted between two states of the books, and how the numbers of parties have
changed. -/
structure Counted (books books' : Dispatch) (change : Counters) : Prop where
  /-- The counts have gone up by these. -/
  counters_eq : books'.counters = books.counters + change
  /-- They count alike what they count twice. -/
  itemized : change.Itemized
  /-- They tell how the number of riding parties has changed. -/
  ridingCount_eq :
    UInt64.ofNat books'.ridingCount = UInt64.ofNat books.ridingCount + change.riding
  /-- They tell how the number of waiting parties has changed. -/
  waitingCount_eq :
    UInt64.ofNat books'.waitingCount = UInt64.ofNat books.waitingCount + change.waiting

namespace Counted

variable {books books' books'' : Dispatch} {change change' : Counters}

theorem trans (h : books.Counted books' change) (h' : books'.Counted books'' change') :
    books.Counted books'' (change + change') where
  counters_eq := by rw [h'.counters_eq, h.counters_eq, Counters.add_assoc]
  itemized := h.itemized.add h'.itemized
  ridingCount_eq := by
    rw [h'.ridingCount_eq, h.ridingCount_eq, Counters.riding_add, UInt64.add_assoc]
  waitingCount_eq := by
    rw [h'.waitingCount_eq, h.waitingCount_eq, Counters.waiting_add, UInt64.add_assoc]

theorem refl (books : Dispatch) : books.Counted books {} where
  counters_eq := (Counters.add_zero _).symm
  itemized := ⟨rfl, rfl, rfl⟩
  ridingCount_eq := by simp [Counters.riding]
  waitingCount_eq := by simp [Counters.waiting]

/-- Questions are counted, and nothing else comes of them. -/
theorem asked (books : Dispatch) (count : Nat) :
    books.Counted (books.asked count) { locates := UInt64.ofNat count } where
  counters_eq := rfl
  itemized := ⟨rfl, rfl, rfl⟩
  ridingCount_eq := by simp [Counters.riding, Dispatch.asked]
  waitingCount_eq := by simp [Counters.waiting, Dispatch.asked]

end Counted

namespace Orderly

variable {books : Dispatch}

theorem counted_requestJourney (h : books.Orderly) (party : Party) :
    ∃ change, books.Counted (books.requestJourney party).books change := by
  cases h.requested party with
  | invalid hsize heq =>
    refine ⟨{ journeysRequested := 1, invalidSizesRejected := 1 }, ?_, ⟨rfl, rfl, rfl⟩, ?_, ?_⟩
    · simp [heq, Counters.add_def]
    · simp [heq, Counters.riding, ridingCount]
    · simp [heq, Counters.waiting, waitingCount]
  | duplicate hsize hknows heq =>
    refine ⟨{ journeysRequested := 1, duplicatesRejected := 1 }, ?_, ⟨rfl, rfl, rfl⟩, ?_, ?_⟩
    · simp [heq, Counters.add_def]
    · simp [heq, Counters.riding, ridingCount]
    · simp [heq, Counters.waiting, waitingCount]
  | assigned slot hsize hnew hslot hfit hleast heq =>
    have hriding : (books.requestJourney party).books.ridingCount = books.ridingCount + 1 :=
      (congrArg (·.books.ridingCount) heq).trans (h.ridingCount_board hnew slot)
    refine ⟨{ journeysRequested := 1, assignedOnRequest := 1 }, ?_, ⟨rfl, rfl, rfl⟩, ?_, ?_⟩
    · simp [heq, Counters.add_def]
    · simp [hriding, Counters.riding, UInt64.ofNat_add]
    · simp [heq, Counters.waiting, waitingCount, Dispatch.board]
  | queued hsize hnew hfull heq =>
    have hwaiting : (books.requestJourney party).books.waitingCount = books.waitingCount + 1 :=
      (congrArg (·.books.waitingCount) heq).trans (h.waitingCount_hold hnew hsize)
    refine ⟨{ journeysRequested := 1, queued := 1 }, ?_, ⟨rfl, rfl, rfl⟩, ?_, ?_⟩
    · simp [heq, Counters.add_def]
    · simp [heq, Counters.riding, ridingCount, Dispatch.hold]
    · simp [hwaiting, Counters.waiting, UInt64.ofNat_add]

theorem counted_dropoff (h : books.Orderly) (id : UInt64) :
    ∃ change, books.Counted (books.dropoff id).books change := by
  cases h.ended id with
  | unknown hnew heq =>
    refine ⟨{ dropoffsNotFound := 1 }, ?_, ⟨rfl, rfl, rfl⟩, ?_, ?_⟩
    · simp [heq, Counters.add_def]
    · simp [heq, Counters.riding, ridingCount]
    · simp [heq, Counters.waiting, waitingCount]
  | left size hparty heq =>
    have hwaiting : (books.dropoff id).books.waitingCount + 1 = books.waitingCount := by
      rw [heq]
      exact h.waitingCount_leave ⟨_, hparty, rfl⟩
    refine ⟨{ dropoffsWaiting := 1 }, ?_, ⟨rfl, rfl, rfl⟩, ?_, ?_⟩
    · simp [heq, Counters.add_def]
    · simp [heq, Counters.riding, ridingCount, Dispatch.leave]
    · simp [← hwaiting, Counters.waiting, UInt64.ofNat_add]
  | alighted size slot pass report hride hslot hsize hpass hreport heq =>
    let chosen := fill (slot.freed size).toNat books.waiting
    have hreallocated :=
      @Consistent.reallocate_eq books ⟨id, size⟩ slot h.toConsistent hride hslot hsize
    have hassigned : report.assignedCount = UInt64.ofNat chosen.length := by
      rw [hreport, hreallocated]
    have halighted : (books.alight ⟨id, size⟩ slot).Consistent := h.alight hride hslot hsize
    have hconflicts : pass.conflicts = 0 := by
      rw [hpass]
      exact (halighted.refill (h.find?_alighted ⟨id, size⟩ hslot)).conflicts_eq
    have hriding : (books.dropoff id).books.ridingCount + 1 =
        books.ridingCount + chosen.length := by
      rw [heq, hpass]
      exact @ridingCount_refill_alight books ⟨id, size⟩ slot h hride hslot hsize
    have hwaiting : (books.dropoff id).books.waitingCount + chosen.length =
        books.waitingCount := by
      rw [heq, hpass]
      exact @waitingCount_refill_alight books ⟨id, size⟩ slot h hride hslot hsize
    refine ⟨{ dropoffsRiding := 1
              reallocationPasses := 1
              groupsReallocated := UInt64.ofNat chosen.length }, ?_, ⟨rfl, rfl, rfl⟩, ?_, ?_⟩
    · simp [heq, Counters.add_def, hassigned, hconflicts]
    · have hcount : UInt64.ofNat (books.dropoff id).books.ridingCount + 1 =
          UInt64.ofNat books.ridingCount + UInt64.ofNat chosen.length := by
        simpa [UInt64.ofNat_add] using congrArg UInt64.ofNat hriding
      rw [← UInt64.add_left_inj 1, hcount, Counters.riding]
      abel
    · have hcount : UInt64.ofNat (books.dropoff id).books.waitingCount +
          UInt64.ofNat chosen.length = UInt64.ofNat books.waitingCount := by
        simpa [UInt64.ofNat_add] using congrArg UInt64.ofNat hwaiting
      rw [← hcount, Counters.waiting]
      abel

/-- An operation other than a reset counts what it does. -/
theorem counted (h : books.Orderly) {operation : Operation} (hreset : operation.load? = none) :
    ∃ change, books.Counted (books.apply operation) change := by
  cases operation with
  | reset vehicles => simp [Operation.load?] at hreset
  | requestJourney party => exact h.counted_requestJourney party
  | dropoff id => exact h.counted_dropoff id
  | locate id =>
    have hquestion : books.apply (.locate id) = books.asked 1 := by
      simp [Dispatch.apply, Dispatch.locate, Dispatch.asked, plus, Counters.add_def]
    rw [hquestion]
    exact ⟨_, .asked books 1⟩
  | setManager manager => exact ⟨_, .refl books⟩
  | readClock now => exact ⟨_, .refl books⟩

/-- A reset leaves nobody in the backlog. -/
theorem waitingCount_reset (h : books.Orderly) (vehicles : List Vehicle) :
    (books.reset vehicles).books.waitingCount = 0 := by
  have hnobody : (books.reset vehicles).books.waiting = [] := h.backlog.toList_clear
  rw [(h.reset vehicles).waitingCount_eq, hnobody, List.length_nil]

end Orderly

end Dispatch

/-! ## Runs -/

/-- The operations up to the last reset; none if there is no reset. -/
def upToReset (operations : List Operation) : List Operation :=
  operations.rdropWhile fun operation ↦ operation.load?.isNone

namespace Engine

theorem counted_apply {engine : Engine} (h : engine.books.Orderly) {operation : Operation}
    (hreset : operation.load? = none) :
    ∃ change, engine.books.Counted (engine.apply operation).books change := by
  obtain ⟨change, hchange⟩ := h.counted hreset
  rw [books_apply_eq]
  exact ⟨_, hchange.trans (.asked _ _)⟩

/-- A reset counts itself, and the questions of those who are told of it. -/
theorem counters_apply_reset (engine : Engine) (vehicles : List Vehicle) : ∃ count : Nat,
    (engine.apply (.reset vehicles)).books.counters =
      engine.books.counters + { resets := 1, locates := UInt64.ofNat count } := by
  rw [books_apply_eq]
  refine ⟨Journal.questions (engine.perform (.reset vehicles)).calls, ?_⟩
  simp [Dispatch.asked, Dispatch.plus, Dispatch.apply, Dispatch.reset, Counters.add_def]

/-- Whatever is counted twice is counted alike in every run, resets included. -/
theorem itemized_run (reserve : Nat) (operations : List Operation) :
    ((ofReserve reserve).run operations).books.counters.Itemized := by
  induction operations using List.reverseRecOn with
  | nil => exact ⟨rfl, rfl, rfl⟩
  | append_singleton operations operation ih =>
    rw [run_concat]
    rcases operation.load?_cases with hkeeps | ⟨vehicles, rfl⟩
    · obtain ⟨change, hchange⟩ := counted_apply (orderly_run reserve operations) hkeeps
      exact hchange.counters_eq ▸ ih.add hchange.itemized
    · obtain ⟨count, hcounters⟩ :=
        ((ofReserve reserve).run operations).counters_apply_reset vehicles
      rw [hcounters]
      exact ih.add ⟨rfl, rfl, rfl⟩

/-- When the last reset was done nobody was in the books, and since then everything was counted. -/
theorem counted_run (reserve : Nat) (operations : List Operation) :
    let start := ((ofReserve reserve).run (upToReset operations)).books
    start.ridingCount = 0 ∧ start.waitingCount = 0 ∧
      ∃ change, start.Counted ((ofReserve reserve).run operations).books change := by
  induction operations using List.reverseRecOn with
  | nil => exact ⟨rfl, rfl, _, .refl _⟩
  | append_singleton operations operation ih =>
    have horderly := orderly_run reserve operations
    rcases operation.load?_cases with hkeeps | ⟨vehicles, rfl⟩
    · obtain ⟨hriding, hwaiting, change, hchange⟩ := ih
      obtain ⟨more, hmore⟩ := counted_apply horderly hkeeps
      have hlast : upToReset (operations ++ [operation]) = upToReset operations :=
        List.rdropWhile_concat_pos _ _ _ (by rw [hkeeps]; rfl)
      rw [hlast, run_concat]
      exact ⟨hriding, hwaiting, _, hchange.trans hmore⟩
    · have hlast : upToReset (operations ++ [.reset vehicles]) = operations ++ [.reset vehicles] :=
        List.rdropWhile_concat_neg _ _ _ Bool.false_ne_true
      rw [hlast, run_concat, books_apply_eq]
      exact ⟨rfl, horderly.waitingCount_reset vehicles, _, .refl _⟩

/-- What the counts tell of the parties, at any point of any run. -/
theorem counts_tell_population (reserve : Nat) (operations : List Operation) :
    let books := ((ofReserve reserve).run operations).books
    let counts := books.counters
    let since := counts - ((ofReserve reserve).run (upToReset operations)).books.counters
    -- In all, requests are counted by their outcomes, and passes by the parties that alighted.
    counts.journeysRequested = counts.assignedOnRequest + counts.queued +
      counts.duplicatesRejected + counts.invalidSizesRejected ∧
    counts.reallocationPasses = counts.dropoffsRiding ∧
    counts.reserveConflicts = 0 ∧
    -- Since the last reset, those who came and went are those who are there.
    UInt64.ofNat books.ridingCount =
      since.assignedOnRequest + since.groupsReallocated - since.dropoffsRiding ∧
    UInt64.ofNat books.waitingCount =
      since.queued - since.groupsReallocated - since.dropoffsWaiting ∧
    books.groupCount = books.ridingCount + books.waitingCount := by
  intro books counts since
  have hitemized : counts.Itemized := itemized_run reserve operations
  obtain ⟨hriding, hwaiting, change, hchange⟩ := counted_run reserve operations
  have hsince : since = change := by
    have hcounters : counts = _ := hchange.counters_eq
    simp only [since, hcounters, Counters.add_sub_cancel_left]
  refine ⟨hitemized.journeysRequested_eq, hitemized.reallocationPasses_eq,
    hitemized.reserveConflicts_eq, ?_, ?_, (orderly_run reserve operations).groupCount_eq⟩
  · rw [hsince]
    refine hchange.ridingCount_eq.trans ?_
    rw [hriding]
    exact UInt64.zero_add _
  · rw [hsince]
    refine hchange.waitingCount_eq.trans ?_
    rw [hwaiting]
    exact UInt64.zero_add _

end Engine

end RideShare
