import RideShare.Proofs.Counting
import RideShare.Proofs.Register

/-!
# Publishing leaves the business alone

Whoever is told of an operation may ask about the business, and may refuse what he is told. The
questions are counted, and nothing else comes of them: an engine with publishers goes through the
same books as one without, refusals included, and is ahead in the count of questions by those that
publishers asked.

An operation is over before anybody is told. So every publisher gets the answers that the books give
when the whole operation is done, whatever was asked before, and a refusal turns the answer of the
operation into an error without taking anything back.

## Main statements

* `Engine.calls_eq` and `Engine.books_apply_eq`: what publishing an operation comes to;
* `Engine.manager_run`: those who are told are the publishers of the manager chosen last;
* `Engine.publishing_changes_nothing`: two runs, one with publishers and one without.
-/

namespace RideShare

open Journal

namespace Journal

/-- Whether the publisher asked where a party is. -/
def Call.asks (call : Call) : Bool :=
  match call.emission with
  | some (.located ..) => true
  | _ => false

/-- How many of the calls asked where a party is. -/
def questions (calls : List Call) : Nat := calls.countP Call.asks

@[simp] theorem questions_append (calls others : List Call) :
    questions (calls ++ others) = questions calls + questions others :=
  List.countP_append

/-- The call that keeps an appointment with a publisher who finds the host in the given state. One
who refuses the record does nothing with it. -/
def Appointment.call {σ : Type} (host : Host σ) (state : σ) (appointment : Appointment) : Call where
  publisher := appointment.recipient.number
  record := appointment.record
  emission := (appointment.recipient.publisher.react host appointment.recipient.number state
    appointment.record).1

theorem Appointment.emission_call_of_refused {σ : Type} {host : Host σ} {appointment : Appointment}
    {message : String} (h : appointment.refusal? = some message) (state : σ) :
    (appointment.call host state).emission = none := by
  obtain ⟨⟨number, publisher⟩, record⟩ := appointment
  cases publisher <;> first | rfl | cases h

/-- The console prints, or does nothing. -/
theorem Publisher.print?_cases (verbose : Bool) (record : Record) :
    print? verbose record = none ∨ (∃ text, print? verbose record = some (.out text)) ∨
      ∃ text, print? verbose record = some (.err text) := by
  cases record with
  | reset reset => exact .inr (.inl ⟨_, rfl⟩)
  | event event =>
    rw [print?]
    split
    next => exact .inr (.inr ⟨_, rfl⟩)
    next => cases verbose <;> simp
  | report report => cases verbose <;> simp [print?]

end Journal

/-! ## Questions -/

namespace Dispatch

/-- The books after some more questions. -/
def asked (books : Dispatch) (count : Nat) : Dispatch :=
  books.plus { locates := UInt64.ofNat count }

@[simp] theorem asked_zero (books : Dispatch) : books.asked 0 = books :=
  congrArg (fun counters ↦ { books with counters }) (Counters.add_zero books.counters)

@[simp] theorem asked_asked (books : Dispatch) (count more : Nat) :
    (books.asked count).asked more = books.asked (count + more) := by
  rw [asked, asked, asked, plus_plus, UInt64.ofNat_add]
  rfl

/-- A question is counted, and answered as ever. -/
theorem locate_asked (books : Dispatch) (count : Nat) (id : UInt64) :
    (books.asked count).locate id = (books.whereabouts id, books.asked (count + 1)) := by
  rw [← asked_asked]
  simp [locate, asked, plus, whereabouts, Counters.add_def]

theorem apply_asked (books : Dispatch) (count : Nat) (operation : Operation) :
    (books.asked count).apply operation = (books.apply operation).asked count :=
  books.apply_plus _ operation

/-- A publisher gets the same answers however many questions were asked before, and asks one more at
most. -/
theorem react_asked (books : Dispatch) (count : Nat) (now : Reading) (appointment : Appointment) :
    appointment.recipient.publisher.react (host now) appointment.recipient.number
        (books.asked count) appointment.record =
      ((appointment.call (host now) books).emission,
        books.asked (count + questions [appointment.call (host now) books])) := by
  obtain ⟨⟨number, publisher⟩, record⟩ := appointment
  cases publisher with
  | recorder => rfl
  | locator =>
    cases record with
    | event event =>
      simp only [Publisher.react, host, locate_asked]
      rfl
    | report report => rfl
    | reset reset => rfl
  | failing message kinds onReport onReset => rfl
  | console verbose =>
    rcases Publisher.print?_cases verbose record with hprint | ⟨text, hprint⟩ | ⟨text, hprint⟩ <;>
      simp [Publisher.react, Appointment.call, hprint, questions, Call.asks]
  | file base => rfl

/-- What a publisher learns does not depend on the counters. -/
theorem call_plus (books : Dispatch) (more : Counters) (now : Reading)
    (appointment : Appointment) :
    appointment.call (host now) (books.plus more) = appointment.call (host now) books := by
  obtain ⟨⟨number, publisher⟩, record⟩ := appointment
  cases publisher <;> cases record <;> rfl

/-- Those who are told learn what the books say, and leave behind their questions. -/
theorem follow_asked (books : Dispatch) (now : Reading) (schedule : List Appointment)
    (delivery : Delivery Dispatch) (hgoing : delivery.failure = none) {count : Nat}
    (hstate : delivery.state = books.asked count) :
    (delivery.follow (host now) schedule).calls.toList =
        delivery.calls.toList ++ (keptOf schedule).map (Appointment.call (host now) books) ∧
      (delivery.follow (host now) schedule).state =
        books.asked (count + questions ((keptOf schedule).map
          (Appointment.call (host now) books))) := by
  induction schedule generalizing delivery count with
  | nil => simpa [Delivery.follow, keptOf, questions] using hstate
  | cons appointment rest ih =>
    cases hrefusal : appointment.refusal? with
    | none =>
      have hreact := books.react_asked count now appointment
      rw [← hstate] at hreact
      have hattend : delivery.attend (host now) appointment = _ :=
        Delivery.attend_of_accepted hrefusal delivery
      rw [hreact] at hattend
      have hrest := ih _ ((Delivery.failure_attend hgoing appointment).trans hrefusal)
        (congrArg Delivery.state hattend)
      rw [Delivery.follow_cons hrefusal hgoing, hrest.1, hrest.2, hattend, keptOf, hrefusal,
        Array.toList_push, List.append_assoc, Nat.add_assoc, ← questions_append]
      exact ⟨rfl, rfl⟩
    | some message =>
      have hcall : appointment.call (host now) books =
          { publisher := appointment.recipient.number, record := appointment.record
            emission := none } :=
        congrArg (Call.mk _ _) (Appointment.emission_call_of_refused hrefusal books)
      rw [Delivery.follow_cons_of_refused hrefusal, Delivery.attend_of_refused hrefusal, hstate,
        keptOf, hrefusal, Array.toList_push, Option.isSome_some, if_pos rfl, List.map_singleton,
        hcall]
      exact ⟨rfl, rfl⟩

end Dispatch

namespace Engine

/-! ## What publishing comes to -/

section Perform

variable (engine : Engine) (operation : Operation)

private theorem delivery_eq :
    (engine.perform operation).calls = (keptOf (engine.schedule operation)).map
        (Appointment.call (Dispatch.host (engine.timeOf operation))
          (engine.books.apply operation)) ∧
      (engine.apply operation).books =
        (engine.books.apply operation).asked (questions (engine.perform operation).calls) := by
  have hfollow := (engine.books.apply operation).follow_asked (engine.timeOf operation)
    (engine.schedule operation) { state := engine.books.apply operation } rfl
    (Dispatch.asked_zero _).symm
  rw [calls_perform, books_apply, delivery, hfollow.1, hfollow.2, Nat.zero_add]
  exact ⟨rfl, rfl⟩

/-- The calls that an operation makes, each with the answers of the books afterwards. -/
theorem calls_eq : (engine.perform operation).calls = (keptOf (engine.schedule operation)).map
    (Appointment.call (Dispatch.host (engine.timeOf operation)) (engine.books.apply operation)) :=
  (engine.delivery_eq operation).1

/-- The books after an operation are those it leaves when nobody is told, and the questions. -/
theorem books_apply_eq : (engine.apply operation).books =
    (engine.books.apply operation).asked (questions (engine.perform operation).calls) :=
  (engine.delivery_eq operation).2

end Perform

end Engine

/-! ## Who is told -/

/-- The choice of a manager that an operation makes, if it makes one. -/
def Operation.manager? : Operation → Option (Option Manager)
  | .setManager manager => some manager
  | _ => none

namespace Engine

theorem audience_eq_getD (engine : Engine) (operation : Operation) :
    engine.audience operation = operation.manager?.getD engine.manager := by
  cases operation <;> rfl

/-- The manager is the one chosen last. -/
theorem manager_run (engine : Engine) (operations : List Operation) :
    (engine.run operations).manager = lastGiven Operation.manager? engine.manager operations := by
  induction operations using List.reverseRecOn with
  | nil => rfl
  | append_singleton operations operation ih =>
    rw [run_concat, manager_apply, audience_eq_getD, ih, lastGiven_concat]

end Engine

/-! ## A run with publishers and one without -/

/-- The operation for an engine that has no manager and is never given one. -/
def Operation.silenced : Operation → Operation
  | .setManager _ => .setManager none
  | operation => operation

@[simp] theorem Dispatch.perform_silenced (books : Dispatch) (operation : Operation) :
    books.perform operation.silenced = books.perform operation := by
  cases operation <;> rfl

@[simp] theorem Dispatch.apply_silenced (books : Dispatch) (operation : Operation) :
    books.apply operation.silenced = books.apply operation := by
  cases operation <;> rfl

namespace Engine

theorem audience_silenced {engine : Engine} (h : engine.manager = none) (operation : Operation) :
    engine.audience operation.silenced = none := by
  cases operation <;> first | exact h | rfl

theorem manager_run_silenced (reserve : Nat) (operations : List Operation) :
    ((ofReserve reserve).run (operations.map Operation.silenced)).manager = none := by
  induction operations using List.reverseRecOn with
  | nil => rfl
  | append_singleton operations operation ih =>
    rw [List.map_append, List.map_singleton, run_concat, manager_apply]
    exact audience_silenced ih operation

/-- At any point of a run, the books are those of the silent run, and the questions so far. -/
theorem books_run_eq (reserve : Nat) (operations : List Operation) :
    ((ofReserve reserve).run operations).books =
      ((ofReserve reserve).run (operations.map Operation.silenced)).books.asked
        (questions ((ofReserve reserve).calls operations)) := by
  induction operations using List.reverseRecOn with
  | nil => exact (Dispatch.asked_zero _).symm
  | append_singleton operations operation ih =>
    have hsilent := audience_silenced (manager_run_silenced reserve operations) operation
    rw [List.map_append, List.map_singleton, run_concat, run_concat, books_apply_eq, ih,
      Dispatch.apply_asked, Dispatch.asked_asked, books_apply_of_silent hsilent,
      Dispatch.apply_silenced, calls_concat, questions_append]

/-- Publishing changes nothing but the count of questions. Run any operations twice, once as they
are, with the publishers of the manager chosen last, and once without ever a manager, and look at
any operation on the way. It leaves the same books, except for the questions that publishers have
asked, and whoever is told learns what these books say after the whole operation. It answers the
same, unless a publisher refuses a record, and then it answers with the error of the first one to do
so. -/
theorem publishing_changes_nothing (reserve : Nat) (operations : List Operation)
    (operation : Operation) :
    let loud := (ofReserve reserve).run operations
    let quiet := (ofReserve reserve).run (operations.map Operation.silenced)
    let reply := loud.perform operation
    let plain := quiet.perform operation.silenced
    -- Those who are told, in the one run and in the other.
    loud.audience operation = lastGiven Operation.manager? none (operations ++ [operation]) ∧
    plain.engine.manager = none ∧
    -- What comes of it.
    reply.engine.books = plain.engine.books.asked
      (questions ((ofReserve reserve).calls (operations ++ [operation]))) ∧
    (∃ answer, plain.answer = .ok answer ∧
      reply.answer = ((loud.schedule operation).findSome? Appointment.refusal?).elim
        (.ok answer) .error) ∧
    reply.calls = (keptOf (loud.schedule operation)).map
      (Appointment.call (Dispatch.host (loud.timeOf operation)) plain.engine.books) := by
  intro loud quiet reply plain
  have hsilent : quiet.audience operation.silenced = none :=
    audience_silenced (manager_run_silenced reserve operations) operation
  have hbooks : loud.books = quiet.books.asked (questions ((ofReserve reserve).calls operations)) :=
    books_run_eq reserve operations
  have hplain : plain.engine.books = quiet.books.apply operation := by
    rw [engine_perform, books_apply_of_silent hsilent, Dispatch.apply_silenced]
  refine ⟨?_, ?_, ?_, ⟨(quiet.books.perform operation).answer, ?_, ?_⟩, ?_⟩
  · rw [← loud.manager_apply, ← run_concat, manager_run]
    rfl
  · rw [engine_perform, manager_apply, hsilent]
  · rw [hplain, engine_perform, books_apply_eq, hbooks, Dispatch.apply_asked,
      Dispatch.asked_asked, calls_concat, questions_append]
  · rw [answer_perform, schedule, hsilent, Dispatch.perform_silenced]
    rfl
  · rw [answer_perform, hbooks, Dispatch.asked, Dispatch.perform_plus]
    rfl
  · rw [calls_eq, hbooks, Dispatch.apply_asked, hplain]
    exact List.map_congr_left fun appointment _ ↦ Dispatch.call_plus _ _ _ appointment

end Engine

end RideShare
