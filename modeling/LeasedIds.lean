import LeasedIds.Json.Record
import LeasedIds.Main
import LeasedIds.Proofs.Packing.Words
import LeasedIds.Proofs.Minting.Series
import LeasedIds.Proofs.Minting.Runs
import LeasedIds.Proofs.Minting.Linearization
import LeasedIds.Proofs.Minting.Order
import LeasedIds.Proofs.Minting.Courses
import LeasedIds.Encoder.Registers
import LeasedIds.Proofs.Instants
import LeasedIds.Proofs.Minting.Failures
import LeasedIds.Proofs.Minting.Accuracy
import LeasedIds.Proofs.Minting.Waiting
import LeasedIds.Proofs.Minting.Sleeping
import LeasedIds.Proofs.Minting.Exhaustion
import LeasedIds.Proofs.Lease.CallOrder
import LeasedIds.Proofs.Lease.RenewalLog
import LeasedIds.Proofs.Lease.StopOutcome
import LeasedIds.Proofs.Lease.Exclusion
import LeasedIds.Proofs.Lease.Expiry
import LeasedIds.Proofs.Lease.Survival
import LeasedIds.Proofs.Lease.Ownership
import LeasedIds.Proofs.Fleet
import LeasedIds.Proofs.Uniqueness
import LeasedIds.Proofs.Building
import LeasedIds.Proofs.Admission
import LeasedIds.Proofs.Precedence
import LeasedIds.Proofs.ReservedBit
import LeasedIds.Proofs.Cli.Printing
import LeasedIds.Proofs.Tenancy
import LeasedIds.Proofs.World.Frame
import LeasedIds.Proofs.World.Creation
import LeasedIds.Proofs.World.Independence
import LeasedIds.Proofs.World.Timekeeping
import LeasedIds.Proofs.World.Stopping
