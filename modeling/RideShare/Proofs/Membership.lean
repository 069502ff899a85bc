import Mathlib.Data.List.Induction
import Mathlib.Data.List.Nodup
import RideShare.Bucket.Members

/-!
# Who is a member of a bucket

Who is a member, and where, can be told from what was done, without looking at any link: a cell is a
member from its last push on, unless it was removed or the bucket was cleared since, and the members
stand in the order of these pushes. `Bucket.members` reads this off a list of operations.

A bucket that is only ever told to push cells that are no members, and to remove cells that are,
has exactly these members at every point. What makes this hold across a clear is that
`Bucket.HasMembers` says nothing of the links of other cells. The former members keep theirs, and
these may lead anywhere: a link is only met on the way from an end through members, and a cell
becomes a member by a push, which overwrites its link. So a run goes on from a clear as it would
over any other table of links, and the cells that can be reached are those that were pushed since.

## Main statements

* `Chain.HasMembers.reaches_iff`: the links of a chain lead to its members, and nowhere else;
* `Bucket.members_append`: how those who are members depend on what was done later;
* `Bucket.hasMembers_run`: in a permitted run, a bucket has the members that the operations tell;
* `Bucket.getElem?_run_append`: a cell that is no member keeps its link until it is pushed;
* `Bucket.linked_in_push_order`: what holds of a bucket and its links at any point of such a run.
-/

namespace RideShare

/-! ## What links lead to -/

namespace Chain

/-- Cell `i` can be come to from an end of the chain by following links, in either direction and as
often as one likes. -/
inductive Reaches (chain : Chain) (links : LinkTable) : Nat → Prop
  | first {i : Nat} (hi : chain.first = some i) : Reaches chain links i
  | last {i : Nat} (hi : chain.last = some i) : Reaches chain links i
  | next {i j : Nat} (hi : Reaches chain links i) (hj : links.next? i = some j) :
      Reaches chain links j
  | prev {i j : Nat} (hi : Reaches chain links i) (hj : links.prev? i = some j) :
      Reaches chain links j

namespace HasMembers

variable {chain chain' : Chain} {links links' : LinkTable} {cells : List Nat} {i : Nat}

theorem mem_of_reaches (h : chain.HasMembers links cells) (hi : chain.Reaches links i) :
    i ∈ cells := by
  induction hi with
  | first hi => exact List.mem_of_head? (h.first_eq.symm.trans hi)
  | last hi => exact List.mem_of_getLast? (h.last_eq.symm.trans hi)
  | next _ hj hi =>
    obtain ⟨front, back, rfl⟩ := List.append_of_mem hi
    rw [h.joins.next?_eq] at hj
    exact List.mem_append_right front (List.mem_cons_of_mem _ (List.mem_of_head? hj))
  | prev _ hj hi =>
    obtain ⟨front, back, rfl⟩ := List.append_of_mem hi
    rw [h.joins.prev?_eq] at hj
    exact List.mem_append_left _ (List.mem_of_getLast? hj)

/-- The links of a chain lead to its members, and nowhere else. -/
theorem reaches_iff (h : chain.HasMembers links cells) : chain.Reaches links i ↔ i ∈ cells := by
  constructor
  · exact h.mem_of_reaches
  · intro hi
    obtain ⟨front, back, rfl⟩ := List.append_of_mem hi
    -- From the first member on, each leads to the one behind it.
    induction front using List.reverseRecOn generalizing i back with
    | nil => exact .first h.first_eq
    | append_singleton front k ih =>
      rw [List.append_assoc, List.singleton_append] at h
      have hk : chain.Reaches links k := ih (i :: back) h (by simp)
      exact .next hk h.joins.next?_eq

/-- A chain is fixed by its members, and so are their links. -/
theorem unique (h : chain.HasMembers links cells) (h' : chain'.HasMembers links' cells) :
    chain = chain' ∧ ∀ i ∈ cells, links[i]? = links'[i]? := by
  constructor
  · cases chain
    cases chain'
    rw [mk.injEq]
    exact ⟨h.first_eq.trans h'.first_eq.symm, h.last_eq.trans h'.last_eq.symm⟩
  · intro i hi
    obtain ⟨front, back, hcells⟩ := List.append_of_mem hi
    rw [h.joins front i back hcells, h'.joins front i back hcells]

end HasMembers

end Chain

namespace Bucket

theorem HasMembers.unique {bucket bucket' : Bucket} {links links' : LinkTable} {cells : List Nat}
    (h : bucket.HasMembers links cells) (h' : bucket'.HasMembers links' cells) :
    bucket = bucket' ∧ ∀ i ∈ cells, links[i]? = links'[i]? := by
  obtain ⟨hchain, hlinks⟩ := h.chain.unique h'.chain
  refine ⟨?_, hlinks⟩
  cases bucket
  cases bucket'
  rw [mk.injEq]
  exact ⟨hchain, h.count_eq.trans h'.count_eq.symm⟩

/-! ## Operations -/

/-- An operation on a bucket, with its arguments. -/
inductive Operation where
  /-- Cell `i` enters behind all members. -/
  | push (i : Nat)
  /-- The member `i` leaves. -/
  | remove (i : Nat)
  /-- All members are forgotten. -/
  | clear

/-- The bucket and the links after an operation. -/
def apply (bucket : Bucket) (links : LinkTable) : Operation → Bucket × LinkTable
  | .push i => bucket.push links i
  | .remove i => bucket.remove links i
  | .clear => (bucket.clear, links)

/-- What an empty bucket over a table of links has come to after some operations. -/
def run (links : LinkTable) (operations : List Operation) : Bucket × LinkTable :=
  operations.foldl (fun state operation ↦ state.1.apply state.2 operation) ({}, links)

theorem run_concat (links : LinkTable) (operations : List Operation) (operation : Operation) :
    run links (operations ++ [operation]) =
      (run links operations).1.apply (run links operations).2 operation := by
  rw [run, run, List.foldl_append, List.foldl_cons, List.foldl_nil]

/-- A run goes on from a clear as from the start, over the links as they are. -/
theorem run_append_clear (links : LinkTable) (earlier later : List Operation) :
    run links (earlier ++ .clear :: later) = run (run links earlier).2 later := by
  rw [run, List.foldl_append, List.foldl_cons]
  rfl

theorem size_apply (bucket : Bucket) (links : LinkTable) (operation : Operation) :
    (bucket.apply links operation).2.size = links.size := by
  cases operation with
  | push i => exact bucket.size_push links i
  | remove i => exact bucket.size_remove links i
  | clear => rfl

theorem size_run (links : LinkTable) (operations : List Operation) :
    (run links operations).2.size = links.size := by
  induction operations using List.reverseRecOn with
  | nil => rfl
  | append_singleton operations operation ih => rw [run_concat, size_apply, ih]

/-! ## The members, told from the operations -/

/-- The operation decides whether cell `i` is a member from now on. -/
def Operation.concerns (i : Nat) : Operation → Bool
  | .push j => i == j
  | .remove j => i == j
  | .clear => true

/-- None of the operations concerns cell `i`. -/
def stays (operations : List Operation) (i : Nat) : Bool :=
  operations.all fun operation ↦ !operation.concerns i

/-- The cells that were neither pushed again nor removed nor cleared away since they were pushed, in
the order of these pushes. -/
def members : List Operation → List Nat
  | [] => []
  | .push i :: later => if stays later i then i :: members later else members later
  | .remove _ :: later => members later
  | .clear :: later => members later

theorem stays_append (earlier later : List Operation) (i : Nat) :
    stays (earlier ++ later) i = (stays earlier i && stays later i) :=
  List.all_append

/-- Of the former members those are left that no later operation concerns, and those pushed later
stand behind them. -/
theorem members_append (earlier later : List Operation) :
    members (earlier ++ later) = (members earlier).filter (stays later) ++ members later := by
  induction earlier with
  | nil => rfl
  | cons operation earlier ih =>
    cases operation with
    | push i =>
      rw [List.cons_append, members, members, ih, stays_append]
      cases stays earlier i <;> cases hlater : stays later i <;> simp [hlater]
    | remove i => exact ih
    | clear => exact ih

/-- A member is a cell whose last push has stood since. -/
theorem mem_members_iff {operations : List Operation} {i : Nat} : i ∈ members operations ↔
    ∃ earlier later, operations = earlier ++ .push i :: later ∧ stays later i = true := by
  constructor
  · intro hi
    induction operations with
    | nil => simp [members] at hi
    | cons operation operations ih =>
      have further (hi : i ∈ members operations) : ∃ earlier later,
          operation :: operations = earlier ++ .push i :: later ∧ stays later i = true := by
        obtain ⟨earlier, later, rfl, hstays⟩ := ih hi
        exact ⟨operation :: earlier, later, rfl, hstays⟩
      cases operation with
      | push j =>
        rw [members] at hi
        split at hi
        next hstays =>
          rcases List.mem_cons.mp hi with rfl | hi
          · exact ⟨[], operations, rfl, hstays⟩
          · exact further hi
        next => exact further hi
      | remove j => exact further hi
      | clear => exact further hi
  · rintro ⟨earlier, later, rfl, hstays⟩
    rw [members_append, members, if_pos hstays]
    exact List.mem_append_right _ List.mem_cons_self

/-- A clear leaves no member. -/
theorem members_append_clear (earlier later : List Operation) :
    members (earlier ++ .clear :: later) = members later := by
  have hnone : (members earlier).filter (stays (.clear :: later)) = [] :=
    List.filter_eq_nil_iff.mpr fun i _ ↦ by simp [stays, Operation.concerns]
  rw [members_append, hnone]
  rfl

/-- A cell that enters stands behind all members. -/
theorem members_concat_push {operations : List Operation} {i : Nat} (hi : i ∉ members operations) :
    members (operations ++ [.push i]) = members operations ++ [i] := by
  have hall : (members operations).filter (stays [.push i]) = members operations := by
    refine List.filter_eq_self.mpr fun j hj ↦ ?_
    have hij : j ≠ i := fun e ↦ hi (e ▸ hj)
    simp [stays, Operation.concerns, hij]
  rw [members_append, hall]
  rfl

/-- A member that leaves is the only one missing. -/
theorem members_concat_remove (operations : List Operation) (i : Nat) :
    members (operations ++ [.remove i]) = (members operations).filter (· != i) := by
  rw [members_append, members, members, List.append_nil]
  refine List.filter_congr fun j _ ↦ ?_
  simp [stays, Operation.concerns, bne]

/-! ## Permitted runs -/

/-- Only cells of a table of `n` that are no members are pushed, and only members are removed. -/
def Operation.IsPermitted (n : Nat) (cells : List Nat) : Operation → Prop
  | .push i => i < n ∧ i ∉ cells
  | .remove i => i ∈ cells
  | .clear => True

instance (n : Nat) (cells : List Nat) : DecidablePred (Operation.IsPermitted n cells)
  | .push i => inferInstanceAs (Decidable (i < n ∧ i ∉ cells))
  | .remove i => inferInstanceAs (Decidable (i ∈ cells))
  | .clear => .isTrue trivial

/-- Every operation is permitted at its time. -/
def Permitted (n : Nat) (operations : List Operation) : Prop :=
  ∀ earlier operation later, operations = earlier ++ operation :: later →
    operation.IsPermitted n (members earlier)

/-- Splitting the operations at one of them is the same as counting up to it. -/
theorem permitted_iff_getElem {n : Nat} {operations : List Operation} :
    Permitted n operations ↔ ∀ k, (hk : k < operations.length) →
      operations[k].IsPermitted n (members (operations.take k)) := by
  constructor
  · intro h k hk
    refine h (operations.take k) operations[k] (operations.drop (k + 1)) ?_
    rw [← List.drop_eq_getElem_cons hk, List.take_append_drop]
  · rintro h earlier operation later rfl
    simpa using h earlier.length (by simp)

instance (n : Nat) (operations : List Operation) : Decidable (Permitted n operations) :=
  decidable_of_iff' _ permitted_iff_getElem

namespace Permitted

variable {n : Nat} {earlier later : List Operation}

theorem of_append (h : Permitted n (earlier ++ later)) : Permitted n earlier := by
  rintro before operation after rfl
  exact h before operation (after ++ later) (by simp)

/-- What is permitted after a clear is permitted at the start. -/
theorem of_append_clear (h : Permitted n (earlier ++ .clear :: later)) : Permitted n later := by
  rintro before operation after rfl
  rw [← members_append_clear earlier before]
  exact h (earlier ++ .clear :: before) operation after (by simp)

end Permitted

namespace HasMembers

variable {bucket : Bucket} {links : LinkTable}

/-- A permitted operation does to the members what the list of operations tells. -/
theorem apply {operations : List Operation} (h : bucket.HasMembers links (members operations))
    {operation : Operation} (hpermitted : operation.IsPermitted links.size (members operations)) :
    (bucket.apply links operation).1.HasMembers (bucket.apply links operation).2
      (members (operations ++ [operation])) := by
  cases operation with
  | push i =>
    obtain ⟨hlt, hi⟩ := hpermitted
    rw [members_concat_push hi]
    exact h.push hi hlt
  | remove i =>
    have hi : i ∈ members operations := hpermitted
    rw [members_concat_remove, ← h.chain.nodup.erase_eq_filter]
    exact h.remove hi
  | clear =>
    rw [members_append_clear]
    exact bucket.hasMembers_clear links

/-- A permitted operation touches the links of the members and of the cell pushed, and no other. -/
theorem getElem?_apply {cells : List Nat} (h : bucket.HasMembers links cells)
    {operation : Operation} (hpermitted : operation.IsPermitted links.size cells) {i : Nat}
    (hi : i ∉ cells) (hnot : operation ≠ .push i) :
    (bucket.apply links operation).2[i]? = links[i]? := by
  cases operation with
  | push j =>
    have hij : j ≠ i := fun e ↦ hnot (congrArg Operation.push e)
    exact h.chain.getElem?_push hij hi
  | remove j => exact h.chain.getElem?_unlink_of_notMem hpermitted hi
  | clear => rfl

end HasMembers

/-! ## What a run comes to -/

variable {links : LinkTable} {operations earlier later : List Operation}

/-- In a permitted run, a bucket has the members that the operations tell. -/
theorem hasMembers_run (h : Permitted links.size operations) :
    (run links operations).1.HasMembers (run links operations).2 (members operations) := by
  induction operations using List.reverseRecOn with
  | nil => exact hasMembers_nil links
  | append_singleton operations operation ih =>
    have hoperation := h operations operation [] rfl
    rw [← size_run links operations] at hoperation
    rw [run_concat]
    exact (ih h.of_append).apply hoperation

/-- A cell that is no member keeps its link until it is pushed. -/
theorem getElem?_run_append (h : Permitted links.size (earlier ++ later)) {i : Nat}
    (hi : i ∉ members earlier) (hnot : .push i ∉ later) :
    (run links (earlier ++ later)).2[i]? = (run links earlier).2[i]? := by
  induction later using List.reverseRecOn with
  | nil => rw [List.append_nil]
  | append_singleton later operation ih =>
    rw [← List.append_assoc] at h ⊢
    rw [List.mem_append, List.mem_singleton, not_or] at hnot
    have hoperation := h (earlier ++ later) operation [] rfl
    rw [← size_run links (earlier ++ later)] at hoperation
    have hmem : i ∉ members (earlier ++ later) := by
      intro hmem
      rw [members_append, List.mem_append] at hmem
      rcases hmem with hmem | hmem
      · exact hi (List.mem_of_mem_filter hmem)
      · obtain ⟨before, after, rfl, -⟩ := mem_members_iff.mp hmem
        simp at hnot
    rw [run_concat, (hasMembers_run h.of_append).getElem?_apply hoperation hmem (Ne.symm hnot.2),
      ih h.of_append hnot.1]

/-- A cell that is removed has no neighbours until it is pushed again. -/
theorem getElem?_run_of_removed {i : Nat}
    (h : Permitted links.size (earlier ++ .remove i :: later)) (hnot : .push i ∉ later) :
    (run links (earlier ++ .remove i :: later)).2[i]? = some { prev := none, next := none } := by
  have hi : i ∈ members earlier := h earlier (.remove i) later rfl
  rw [← List.singleton_append, ← List.append_assoc] at h ⊢
  have hgone : i ∉ members (earlier ++ [.remove i]) := by
    simp [members_concat_remove]
  rw [getElem?_run_append h hgone hnot, run_concat]
  exact (hasMembers_run h.of_append.of_append).chain.getElem?_unlink_self hi

/-- The former members keep their links after a clear until they are pushed again. -/
theorem getElem?_run_of_cleared (h : Permitted links.size (earlier ++ .clear :: later)) {i : Nat}
    (hnot : .push i ∉ later) :
    (run links (earlier ++ .clear :: later)).2[i]? = (run links earlier).2[i]? := by
  have hlater : Permitted (run links earlier).2.size ([] ++ later) := by
    rw [size_run]
    exact h.of_append_clear
  rw [run_append_clear]
  exact getElem?_run_append hlater List.not_mem_nil hnot

/-- Two runs of the same operations come to the same bucket, whatever the links were at first, and
to the same links of its members. -/
theorem run_congr {links' : LinkTable} (hsize : links'.size = links.size)
    (h : Permitted links.size operations) :
    (run links' operations).1 = (run links operations).1 ∧
      ∀ i ∈ members operations,
        (run links' operations).2[i]? = (run links operations).2[i]? := by
  have h' : Permitted links'.size operations := by rwa [hsize]
  exact (hasMembers_run h').unique (hasMembers_run h)

/-- At any point of any permitted run the members of a bucket are linked in the order of their last
push, and no link that a clear has left over is ever reached. -/
theorem linked_in_push_order (links₀ : LinkTable) {operations : List Operation}
    (hpermitted : Permitted links₀.size operations) :
    let bucket := (run links₀ operations).1
    let links := (run links₀ operations).2
    let cells := members operations
    -- The links lead through the members and then end, however far one goes, in both directions.
    cells.Nodup ∧
    (∀ steps, cells.length ≤ steps →
      (LinkTable.walk links.next? steps bucket.chain.first #[]).toList = cells ∧
      (LinkTable.walk links.prev? steps bucket.chain.last #[]).toList = cells.reverse) ∧
    bucket.toList links = cells ∧ bucket.toListRev links = cells.reverse ∧
    -- What is asked of the bucket is answered from the members.
    bucket.count = cells.length ∧ bucket.front? = cells.head? ∧
    (bucket.front? = none ↔ cells = []) ∧ (bucket.isEmpty = true ↔ cells = []) ∧
    -- A member that is removed leaves the others in their order, and has no neighbours from then on.
    (∀ earlier i, operations = earlier ++ [.remove i] →
      bucket.toList links =
        ((run links₀ earlier).1.toList (run links₀ earlier).2).filter (· != i)) ∧
    (∀ earlier i later, operations = earlier ++ .remove i :: later → .push i ∉ later →
      links[i]? = some { prev := none, next := none }) ∧
    -- The links lead to members and nowhere else.
    (∀ i, bucket.chain.Reaches links i ↔ i ∈ cells) ∧
    -- After a clear the former members keep their links until they are pushed again. Only cells that
    -- were pushed since are reached, and bucket and links are as they would be over other links.
    ∀ earlier later, operations = earlier ++ .clear :: later →
      (∀ i, .push i ∉ later → links[i]? = (run links₀ earlier).2[i]?) ∧
      (∀ i, bucket.chain.Reaches links i → .push i ∈ later) ∧
      ∀ other : LinkTable, other.size = links₀.size →
        (run other later).1 = bucket ∧
        ∀ i, bucket.chain.Reaches links i → (run other later).2[i]? = links[i]? := by
  intro bucket links cells
  have h : bucket.HasMembers links cells := hasMembers_run hpermitted
  refine ⟨h.chain.nodup, fun steps hsteps ↦ ⟨?_, ?_⟩, h.toList_eq, h.toListRev_eq, h.count_eq,
    h.front?_eq, ?_, h.isEmpty_iff, ?_, ?_, fun i ↦ h.chain.reaches_iff, ?_⟩
  · exact h.chain.toList_walk_next hsteps
  · exact h.chain.toList_walk_prev hsteps
  · rw [h.front?_eq, List.head?_eq_none_iff]
  · rintro earlier i rfl
    rw [h.toList_eq, (hasMembers_run hpermitted.of_append).toList_eq]
    exact members_concat_remove earlier i
  · rintro earlier i later rfl hnot
    exact getElem?_run_of_removed hpermitted hnot
  · rintro earlier later rfl
    have hcells : cells = members later := members_append_clear earlier later
    have hlater := hpermitted.of_append_clear
    refine ⟨fun i hnot ↦ getElem?_run_of_cleared hpermitted hnot, fun i hi ↦ ?_,
      fun other hsize ↦ ?_⟩
    · rw [h.chain.reaches_iff, hcells, mem_members_iff] at hi
      obtain ⟨before, after, rfl, -⟩ := hi
      simp
    · rw [← size_run links₀ earlier] at hlater hsize
      obtain ⟨hbucket, hlinks⟩ := run_congr hsize hlater
      rw [← run_append_clear] at hbucket hlinks
      refine ⟨hbucket, fun i hi ↦ hlinks i ?_⟩
      rwa [← hcells, ← h.chain.reaches_iff]

/-- A clear forgets cells 0 and 2, and then cells 2 and 1 are pushed. The link of cell 0 still leads
to cell 2, but none leads to cell 0. -/
theorem linked_in_push_order_of_clear :
    let operations := [.push 0, .push 1, .push 2, .remove 1, .clear, .push 2, .push 1]
    let reached := run #[{}, {}, {}] operations
    Permitted 3 operations ∧ reached.1.toList reached.2 = [2, 1] ∧
      reached.2[0]? = some { prev := none, next := some 2 } ∧
      ¬ reached.1.chain.Reaches reached.2 0 := by
  intro operations reached
  have hpermitted : Permitted 3 operations := by decide
  have hrun := linked_in_push_order #[{}, {}, {}] hpermitted
  obtain ⟨-, -, hlist, -, -, -, -, -, -, -, hreaches, -⟩ := hrun
  have hlink : reached.2[0]? = some { prev := none, next := some 2 } := by rfl
  refine ⟨hpermitted, hlist.trans rfl, hlink, ?_⟩
  rw [hreaches]
  decide

end Bucket

end RideShare
