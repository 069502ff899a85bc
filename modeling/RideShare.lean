import RideShare.Bucket.Members
import RideShare.Main
import RideShare.Proofs.NodePool
import RideShare.Ring.Queue
import RideShare.Proofs.Backlog
import RideShare.Proofs.Line
import RideShare.Proofs.Traffic
import RideShare.Proofs.Register
import RideShare.Proofs.Demand
import RideShare.Proofs.Admission
import RideShare.Proofs.Schedule
import RideShare.Proofs.Delivery
import RideShare.Proofs.Processing
import RideShare.Proofs.Merge
import RideShare.Proofs.Simulation
import RideShare.Proofs.Lockstep
import RideShare.Proofs.Dispatch
import RideShare.Proofs.Choice
import RideShare.Proofs.Reallocation
import RideShare.Proofs.Operations
import RideShare.Proofs.Run
import RideShare.Proofs.Replies
import RideShare.Proofs.Counting
import RideShare.Proofs.Publishing
import RideShare.Proofs.Audit
import RideShare.Proofs.Rematch
import RideShare.Proofs.Arrivals
import RideShare.Proofs.Overtaking
import RideShare.Proofs.Ledger
import RideShare.Proofs.Recording
import RideShare.Proofs.Precautions
import RideShare.Proofs.Alike
import RideShare.Proofs.Clock
import RideShare.Proofs.FreshStart
import RideShare.Proofs.Frame
import RideShare.Proofs.LifeCycle
import RideShare.Proofs.Population
import RideShare.Proofs.Tallies
import RideShare.Proofs.Shifts
import RideShare.Proofs.Refusals
import RideShare.Proofs.Admitted
import RideShare.Proofs.Refilling
import RideShare.Proofs.Undoing
import RideShare.Proofs.Grid
import RideShare.Proofs.Sighting
import RideShare.Proofs.Lending
import RideShare.Proofs.Reporting
import RideShare.Proofs.FirstFault
import RideShare.Proofs.Batches
import RideShare.Proofs.Draws
import RideShare.Proofs.CutOff
import RideShare.Proofs.Membership
