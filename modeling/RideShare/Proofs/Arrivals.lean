import RideShare.Proofs.Run

/-!
# The order of arrival

A party arrives when it asks for a journey and is not turned away. It may arrive again after it has
left, and then only the last time counts. `Precedes` compares two parties by their last arrivals in
the list of all arrivals of a run.

Those who wait stand in the order of their arrival. Leaving and boarding keep the order of everybody
else, and whoever joins has arrived last.

## Main statements

* `Dispatch.Consistent.waiting_apply`: how an operation changes the backlog;
* `Engine.arrived_run`: everybody in the books has arrived, and those who wait stand in order.
-/

namespace RideShare

/-! ## Who arrived before whom -/

/-- The last arrival of `a` on the list is before the last arrival of `b`. -/
def Precedes (log : List UInt64) (a b : UInt64) : Prop :=
  ∃ front back, log = front ++ a :: back ∧ a ∉ back ∧ b ∈ back

namespace Precedes

variable {log later : List UInt64} {a b : UInt64}

/-- Arrivals of others change nothing. -/
theorem append (h : Precedes log a b) (ha : a ∉ later) : Precedes (log ++ later) a b := by
  obtain ⟨front, back, rfl, ha', hb⟩ := h
  refine ⟨front, back ++ later, by simp, ?_, List.mem_append_left later hb⟩
  rw [List.mem_append]
  exact not_or.mpr ⟨ha', ha⟩

/-- Whoever arrives later is preceded by those who were there. -/
theorem of_mem (ha : a ∈ log) (ha' : a ∉ later) (hb : b ∈ later) : Precedes (log ++ later) a b := by
  obtain ⟨front, back, hlog, hlast⟩ := List.eq_append_cons_of_mem (List.mem_reverse.mpr ha)
  have hlog' : log = back.reverse ++ a :: front.reverse := by
    rw [← List.reverse_reverse log, hlog, List.reverse_append, List.reverse_cons, List.append_assoc]
    rfl
  refine ⟨back.reverse, front.reverse ++ later, by rw [hlog', List.append_assoc, List.cons_append],
    ?_, List.mem_append_right _ hb⟩
  rw [List.mem_append, List.mem_reverse]
  exact not_or.mpr ⟨hlast, ha'⟩

/-- If the second party has not arrived again, nor has the first. -/
theorem of_append (h : Precedes (log ++ later) a b) (hb : b ∉ later) :
    a ∉ later ∧ Precedes log a b := by
  obtain ⟨front, back, hlog, ha, hb'⟩ := h
  rcases List.append_eq_append_iff.mp hlog with ⟨rest, -, hlater⟩ | ⟨rest, hfront, hback⟩
  · exact absurd (by simp [hlater, hb']) hb
  · cases rest with
    | nil => exact absurd (by simp [← show a :: back = later from hback, hb']) hb
    | cons first rest =>
      rw [List.cons_append] at hback
      obtain ⟨rfl, rfl⟩ := List.cons.inj hback
      rw [List.mem_append, not_or] at ha
      exact ⟨ha.2, front, rest, hfront, ha.1, (List.mem_append.mp hb').resolve_right hb⟩

theorem asymm (h : Precedes log a b) : ¬ Precedes log b a := by
  obtain ⟨front, back, rfl, ha, hb⟩ := h
  intro h'
  rw [← List.singleton_append, ← List.append_assoc] at h'
  exact (h'.of_append ha).1 hb

end Precedes

/-! ## What an operation does to those who wait -/

namespace Dispatch

variable {books : Dispatch}

theorem SameRecords.waiting_eq {books' : Dispatch} (same : books.SameRecords books') :
    books.waiting = books'.waiting := by
  rw [waiting, waiting, same.backlog]

theorem SameRecords.knows_iff {books' : Dispatch} (same : books.SameRecords books')
    (id : UInt64) : books.Knows id ↔ books'.Knows id := by
  rw [Knows, Knows, same.roster]

theorem SameRecords.rides_iff {books' : Dispatch} (same : books.SameRecords books')
    (id vehicle : UInt64) : books.Rides id vehicle ↔ books'.Rides id vehicle := by
  rw [Rides, Rides, same.seating]

namespace Consistent

/-- The backlog keeps its order. Whoever joins it arrives. -/
theorem waiting_apply (h : books.Consistent) (operation : Operation) :
    (books.apply operation).waiting.Sublist books.waiting ∨
    ∃ party, books.arrival? operation = some party.id ∧ ¬ books.Knows party.id ∧
      (books.apply operation).waiting = books.waiting ++ [party] := by
  cases h.changed operation with
  | kept harrival hremoves same => exact .inl (same.waiting_eq ▸ List.Sublist.refl _)
  | emptied vehicles hoperation same =>
    have hnobody := h.backlog.toList_clear
    rw [← same.waiting_eq, waiting, hnobody]
    exact .inl (List.nil_sublist _)
  | boarded party slot hoperation harrival hsize hnew hslot hfit same =>
    exact .inl (same.waiting_eq ▸ List.Sublist.refl _)
  | held party hoperation harrival hsize hnew same =>
    exact .inr ⟨party, harrival, hnew, by rw [← same.waiting_eq, h.waiting_hold hnew hsize]⟩
  | left id hoperation hwait same =>
    rw [← same.waiting_eq, h.waiting_leave]
    exact .inl List.filter_sublist
  | refilled party slot hoperation hride hslot hsize same =>
    rw [← same.waiting_eq, h.waiting_refill_alight hride hslot hsize]
    exact .inl List.filter_sublist

/-- A party that was not in the books before an operation and is afterwards has arrived, and only
such a party has. -/
theorem arrival?_eq_some_iff (h : books.Consistent) (operation : Operation) (id : UInt64) :
    books.arrival? operation = some id ↔
      ¬ books.Knows id ∧ (books.apply operation).Knows id := by
  cases h.changed operation with
  | kept harrival hremoves same =>
    rw [harrival, ← same.knows_iff]
    simp
  | emptied vehicles hoperation same =>
    rw [hoperation, ← hoperation, ← same.knows_iff, hoperation]
    simp [arrival?, Knows]
  | boarded party slot hoperation harrival hsize hnew hslot hfit same =>
    rw [harrival, ← same.knows_iff, knows_board, Option.some.injEq]
    constructor
    · rintro rfl
      exact ⟨hnew, .inl rfl⟩
    · rintro ⟨hnot, hid | hknows⟩
      · exact hid
      · exact absurd hknows hnot
  | held party hoperation harrival hsize hnew same =>
    rw [harrival, ← same.knows_iff, knows_hold, Option.some.injEq]
    constructor
    · rintro rfl
      exact ⟨hnew, .inl rfl⟩
    · rintro ⟨hnot, hid | hknows⟩
      · exact hid
      · exact absurd hknows hnot
  | left other hoperation hwait same =>
    rw [← same.knows_iff, knows_leave, hoperation]
    simp only [arrival?, reduceCtorEq, false_iff]
    rintro ⟨hnot, hknows⟩
    exact hnot hknows.2
  | refilled party slot hoperation hride hslot hsize same =>
    rw [← same.knows_iff, hoperation]
    simp only [arrival?, reduceCtorEq, false_iff]
    rintro ⟨hnot, hknows⟩
    exact hnot ((books.knows_alight party slot id).mp hknows).2

/-- A party keeps its size until it is put out of the books. -/
theorem roster_apply (h : books.Consistent) {operation : Operation} {id : UInt64}
    (hknows : books.Knows id) (hstays : ¬ operation.Removes id) :
    (books.apply operation).roster[id]? = books.roster[id]? := by
  cases h.changed operation with
  | kept harrival hremoves same => rw [same.roster]
  | emptied vehicles hoperation same => exact absurd (hoperation ▸ trivial) hstays
  | boarded party slot hoperation harrival hsize hnew hslot hfit same =>
    have hne : party.id ≠ id := fun hid ↦ hnew (hid ▸ hknows)
    rw [← same.roster, getElem?_roster_board, if_neg hne]
  | held party hoperation harrival hsize hnew same =>
    have hne : party.id ≠ id := fun hid ↦ hnew (hid ▸ hknows)
    rw [← same.roster, getElem?_roster_hold, if_neg hne]
  | left other hoperation hwait same =>
    have hne : other ≠ id := fun hid ↦ hstays (hoperation ▸ hid)
    rw [← same.roster, getElem?_roster_leave, if_neg hne]
  | refilled party slot hoperation hride hslot hsize same =>
    have hne : party.id ≠ id := fun hid ↦ hstays (hoperation ▸ hid)
    rw [← same.roster]
    exact (books.getElem?_roster_alight party slot id).trans (if_neg hne)

/-- A party that arrives is known by the size it asked for. -/
theorem roster_of_arrival (h : books.Consistent) {party : Party}
    (harrival : books.arrival? (.requestJourney party) = some party.id) :
    (books.apply (.requestJourney party)).roster[party.id]? = some party.size := by
  cases h.requested party with
  | invalid hsize heq => simp [arrival?, heq] at harrival
  | duplicate hsize hknows heq => simp [arrival?, heq] at harrival
  | assigned slot hsize hnew hslot hfit hleast heq =>
    rw [apply, heq]
    exact (books.getElem?_roster_board party slot party.id).trans (if_pos rfl)
  | queued hsize hnew hfull heq =>
    rw [apply, heq]
    exact (books.getElem?_roster_hold party party.id).trans (if_pos rfl)

/-- A party that is put out of the books is not in them. -/
theorem not_knows_apply (h : books.Consistent) {operation : Operation} {id : UInt64}
    (hremoves : operation.Removes id) : ¬ (books.apply operation).Knows id := by
  cases h.changed operation with
  | kept harrival hnot same => exact (same.knows_iff id).not.mp (hnot id hremoves)
  | emptied vehicles hoperation same =>
    rw [← same.knows_iff]
    simp [Knows]
  | boarded party slot hoperation harrival hsize hnew hslot hfit same =>
    exact (hoperation ▸ hremoves : Operation.Removes id (.requestJourney party)).elim
  | held party hoperation harrival hsize hnew same =>
    exact (hoperation ▸ hremoves : Operation.Removes id (.requestJourney party)).elim
  | left other hoperation hwait same =>
    obtain rfl : other = id := (hoperation ▸ hremoves : Operation.Removes id (.dropoff other))
    rw [← same.knows_iff]
    simp
  | refilled party slot hoperation hride hslot hsize same =>
    obtain rfl : party.id = id :=
      (hoperation ▸ hremoves : Operation.Removes id (.dropoff party.id))
    rw [← same.knows_iff]
    exact fun hknows ↦ ((books.knows_alight party slot party.id).mp hknows).1 rfl

end Consistent

end Dispatch

/-! ## Arrivals in a run -/

/-- Everybody in the books has arrived, and those who wait stand in the order of arrival. -/
structure Dispatch.Arrived (books : Dispatch) (log : List UInt64) : Prop where
  /-- Everybody has arrived. -/
  mem_log : ∀ id, books.Knows id → id ∈ log
  /-- Those who wait stand in order. -/
  pairwise : books.waiting.Pairwise fun earlier later ↦ Precedes log earlier.id later.id

theorem Dispatch.Arrived.congr {books books' : Dispatch} {log : List UInt64}
    (h : books.Arrived log) (same : books.SameRecords books') : books'.Arrived log :=
  ⟨fun id hknows ↦ h.mem_log id ((same.knows_iff id).mpr hknows), same.waiting_eq ▸ h.pairwise⟩

theorem Dispatch.Arrived.apply {books : Dispatch} {log : List UInt64} (h : books.Arrived log)
    (hbooks : books.Consistent) (operation : Operation) :
    (books.apply operation).Arrived (log ++ (books.arrival? operation).toList) := by
  have harrives (id : UInt64) : id ∈ (books.arrival? operation).toList ↔
      ¬ books.Knows id ∧ (books.apply operation).Knows id := by
    rw [Option.mem_toList, ← hbooks.arrival?_eq_some_iff]
  have hknown {party : Party} (hparty : party ∈ books.waiting) : books.Knows party.id :=
    (hbooks.knows_iff _).mpr (.inr ⟨party, hparty, rfl⟩)
  have hold : books.waiting.Pairwise fun earlier later ↦
      Precedes (log ++ (books.arrival? operation).toList) earlier.id later.id := by
    refine h.pairwise.imp_of_mem fun hearlier _ hprecedes ↦ hprecedes.append fun hmem ↦ ?_
    exact ((harrives _).mp hmem).1 (hknown hearlier)
  refine ⟨fun id hafter ↦ ?_, ?_⟩
  · rw [List.mem_append]
    by_cases hbefore : books.Knows id
    · exact .inl (h.mem_log id hbefore)
    · exact .inr ((harrives id).mpr ⟨hbefore, hafter⟩)
  · rcases hbooks.waiting_apply operation with hsub | ⟨party, harrival, hnew, hwaiting⟩
    · exact hold.sublist hsub
    · rw [hwaiting, List.pairwise_append]
      refine ⟨hold, List.pairwise_singleton _ _, fun other hother last hlast ↦ ?_⟩
      obtain rfl := List.mem_singleton.mp hlast
      refine .of_mem (h.mem_log _ (hknown hother)) ?_ ?_
      · exact fun hmem ↦ ((harrives _).mp hmem).1 (hknown hother)
      · simp [harrival]

namespace Engine

/-- The parties that arrive in the course of operations, in order. -/
def arrivals (engine : Engine) : List Operation → List UInt64
  | [] => []
  | operation :: rest =>
    (engine.books.arrival? operation).toList ++ (engine.apply operation).arrivals rest

theorem arrivals_append (engine : Engine) (operations others : List Operation) :
    engine.arrivals (operations ++ others) =
      engine.arrivals operations ++ (engine.run operations).arrivals others := by
  induction operations generalizing engine with
  | nil => rfl
  | cons operation rest ih =>
    rw [List.cons_append, arrivals, arrivals, ih, List.append_assoc]
    rfl

theorem arrivals_concat (engine : Engine) (operations : List Operation) (operation : Operation) :
    engine.arrivals (operations ++ [operation]) = engine.arrivals operations ++
      ((engine.run operations).books.arrival? operation).toList := by
  rw [arrivals_append, arrivals, arrivals, List.append_nil]

/-- At every point of every run, everybody in the books has arrived, and those who wait stand in the
order of arrival. -/
theorem arrived_run (reserve : Nat) (operations : List Operation) :
    ((ofReserve reserve).run operations).books.Arrived
      ((ofReserve reserve).arrivals operations) := by
  induction operations using List.reverseRecOn with
  | nil =>
    refine ⟨fun id hknows ↦ ?_, ?_⟩
    · exact absurd hknows (by simp [Dispatch.Knows, run, ofReserve, Dispatch.ofReserve])
    · have hnobody : (Dispatch.ofReserve reserve).waiting = [] := Backlog.toList_ofReserve reserve
      exact hnobody ▸ List.Pairwise.nil
  | append_singleton operations operation ih =>
    rw [run_concat, arrivals_concat]
    exact (ih.apply (orderly_run reserve operations).toConsistent operation).congr
      (sameRecords_apply _ operation)

/-- A party that is in the books does not arrive again, and keeps its size, until it is put out. -/
theorem notMem_arrivals {engine : Engine} (h : engine.books.Orderly) {id : UInt64}
    (hknows : engine.books.Knows id) {operations : List Operation}
    (hstays : ∀ operation ∈ operations, ¬ operation.Removes id) :
    id ∉ engine.arrivals operations ∧
      (engine.run operations).books.roster[id]? = engine.books.roster[id]? := by
  induction operations generalizing engine with
  | nil => exact ⟨List.not_mem_nil, rfl⟩
  | cons operation rest ih =>
    have hsame := engine.sameRecords_apply operation
    have hroster := h.roster_apply hknows (hstays operation (by simp))
    rw [hsame.roster] at hroster
    have hknows' : (engine.apply operation).books.Knows id := by
      rwa [Dispatch.Knows, Std.HashMap.mem_iff_isSome_getElem?, hroster,
        ← Std.HashMap.mem_iff_isSome_getElem?]
    obtain ⟨hnot, hsize⟩ := ih (orderly_apply h operation) hknows'
      fun other hother ↦ hstays other (by simp [hother])
    refine ⟨?_, hsize.trans hroster⟩
    rw [arrivals, List.mem_append, Option.mem_toList]
    rintro (harrival | hlater)
    · exact ((h.arrival?_eq_some_iff operation id).mp harrival).1 hknows
    · exact hnot hlater

end Engine

end RideShare
