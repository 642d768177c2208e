import PipeCast.Hub.Step
import PipeCast.Main
import PipeCast.Server.Bridge
import PipeCast.Startup.Command
import PipeCast.Text.Seconds
import PipeCast.Proofs.Hub.Kept
import PipeCast.Proofs.Hub.Moment
import PipeCast.Proofs.Reader.Pieces
import PipeCast.Proofs.Reader.Sessions
import PipeCast.Proofs.Hub.Deliveries
import PipeCast.Proofs.Hub.Simulation
import PipeCast.Proofs.Hub.Growth
import PipeCast.Proofs.Hub.Sound
import PipeCast.Proofs.Hub.Ledger
import PipeCast.Proofs.Hub.Removal
import PipeCast.Proofs.Hub.Course
import PipeCast.Proofs.Hub.Conservation
import PipeCast.Proofs.Hub.Turns
import PipeCast.Proofs.Hub.Balance
import PipeCast.Proofs.Hub.Closing
import PipeCast.Proofs.Reader.Empty
import PipeCast.Proofs.Server.Runs
import PipeCast.Proofs.Server.Membership
import PipeCast.Proofs.Hub.Isolation
import PipeCast.Proofs.Reader.Rounds
import PipeCast.Proofs.Server.Silence
import PipeCast.Proofs.Reader.Bounds
import PipeCast.Proofs.Reader.Damage
import PipeCast.Proofs.Hub.Order
import PipeCast.Proofs.Hub.Numbering
import PipeCast.Proofs.Reader.Errors
import PipeCast.Proofs.Files.Creation
import PipeCast.Proofs.Files.Growth
import PipeCast.Proofs.Startup.Provision
import PipeCast.Proofs.Text.Preview
import PipeCast.Proofs.Startup.Config
import PipeCast.Proofs.Startup.Launch
