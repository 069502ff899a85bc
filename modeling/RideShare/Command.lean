import RideShare.Journal.Record
import RideShare.Ring

/-!
# Commands

What travels from those who make demands to those who serve them.
-/

namespace RideShare

/-- What a command asks for. -/
inductive CommandKind where
  /-- A journey for a new party. -/
  | journey
  /-- The end of a party's journey. -/
  | dropoff
  /-- Where a party is. -/
  | locate
  /-- Nothing that is known. -/
  | other (code : UInt8)
  deriving DecidableEq, Inhabited

namespace CommandKind

/-- The kind with the given number. -/
def ofCode (n : UInt8) : CommandKind := [journey, dropoff, locate].getD n.toNat (other n)

/-- The number of a kind. -/
def code : CommandKind → UInt8
  | journey => 0
  | dropoff => 1
  | locate => 2
  | other code => code

theorem code_ofCode (n : UInt8) : (ofCode n).code = n := by
  unfold ofCode
  rcases h : n.toNat with _ | _ | _ | k
  · exact UInt8.toNat_inj.mp (by simpa [code] using h.symm)
  · exact UInt8.toNat_inj.mp (by simpa [code] using h.symm)
  · exact UInt8.toNat_inj.mp (by simpa [code] using h.symm)
  · simp [code]

end CommandKind

/-- A command, and when it was given. -/
structure Command where
  /-- What is asked for. -/
  kind : CommandKind
  /-- The party it is about. Only a journey gives it a size. -/
  party : Party
  /-- When it was given. -/
  time : Reading := none
  deriving DecidableEq, Inhabited

/-- An empty ring for commands. -/
def Ring.forCommands : Ring Command := Ring.ofSlots Ring.standardSlots

end RideShare
