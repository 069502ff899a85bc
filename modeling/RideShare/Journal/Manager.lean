import RideShare.Journal.Publisher

/-!
# Delivery

A manager hands the records of an operation to all its publishers: every record to every publisher
before the next record, both in order. A publisher that refuses a record ends the delivery at that
point, and what was left to deliver is lost.

Publishers are numbered in the order in which they were added. A number is never used twice, not
even after the publisher was removed.
-/

namespace RideShare.Journal

/-- A publisher and its number. -/
structure Registration where
  /-- The number under which the publisher was added. -/
  number : Nat
  /-- The publisher. -/
  publisher : Publisher
  deriving DecidableEq

/-- The publishers that are told, in the order of telling. -/
structure Manager where
  /-- The publishers at present. -/
  publishers : List Registration := []
  /-- How many publishers were ever added. -/
  added : Nat := 0
  /-- Whether anything is delivered. -/
  enabled : Bool := true
  deriving DecidableEq

/-- One publisher told one record. -/
structure Call where
  /-- The publisher's number. -/
  publisher : Nat
  /-- The record. -/
  record : Record
  /-- What the publisher did. -/
  emission : Option Emission
  deriving DecidableEq

/-- How far a delivery got. -/
structure Delivery (σ : Type) where
  /-- The state of the host. -/
  state : σ
  /-- The calls made so far, in order. The last one may have failed. -/
  calls : Array Call := #[]
  /-- The error that ended the delivery. -/
  failure : Option String := none

namespace Delivery

variable {σ : Type}

/-- What the publishers did, in order. -/
def emissions (delivery : Delivery σ) : List Emission :=
  delivery.calls.toList.filterMap Call.emission

/-- Tell one publisher one record. -/
def call (host : Host σ) (record : Record) (delivery : Delivery σ) (recipient : Registration) :
    Delivery σ :=
  match recipient.publisher.failure? record with
  | some message =>
    { delivery with
      calls := delivery.calls.push { publisher := recipient.number, record, emission := none }
      failure := some message }
  | none =>
    let (emission, state) := recipient.publisher.react host recipient.number delivery.state record
    { delivery with
      state
      calls := delivery.calls.push { publisher := recipient.number, record, emission } }

/-- Tell the publishers one record in turn, up to the first that refuses it. -/
def tellAll (host : Host σ) (record : Record) : Delivery σ → List Registration → Delivery σ
  | delivery, [] => delivery
  | delivery, recipient :: rest =>
    let delivery := delivery.call host record recipient
    if delivery.failure.isSome then delivery else tellAll host record delivery rest

/-- Tell all publishers the records in turn, up to the first call that fails. -/
def tellEach (host : Host σ) (publishers : List Registration) :
    Delivery σ → List Record → Delivery σ
  | delivery, [] => delivery
  | delivery, record :: rest =>
    let delivery := delivery.tellAll host record publishers
    if delivery.failure.isSome then delivery else tellEach host publishers delivery rest

end Delivery

namespace Manager

/-- Add a publisher behind all others. -/
def add (manager : Manager) (publisher : Publisher) : Manager :=
  { manager with
    publishers := manager.publishers ++ [{ number := manager.added, publisher }]
    added := manager.added + 1 }

/-- A manager of the given publishers, numbered from 0. -/
def ofPublishers (publishers : List Publisher) : Manager := publishers.foldl add {}

/-- Remove all publishers. -/
def clear (manager : Manager) : Manager := { manager with publishers := [] }

/-- Deliver again, or no more. -/
def setEnabled (manager : Manager) (enabled : Bool) : Manager := { manager with enabled }

/-- The number of publishers at present. -/
def size (manager : Manager) : Nat := manager.publishers.length

/-- Deliver records in order. A disabled manager tells nobody, and the records are lost. -/
def deliver {σ : Type} (manager : Manager) (host : Host σ) (state : σ) (records : List Record) :
    Delivery σ :=
  if manager.enabled then Delivery.tellEach host manager.publishers { state } records else { state }

end Manager

end RideShare.Journal
