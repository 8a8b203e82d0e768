import SerialAdapter.Controller
import SerialAdapter.Shared
import SerialAdapter.Reaction
import SerialAdapter.Proofs.Ring.Address
import SerialAdapter.Proofs.Ring.Window
import SerialAdapter.Proofs.Ring.Queue
import SerialAdapter.Proofs.Register.Footprint
import SerialAdapter.Proofs.Register.Control
import SerialAdapter.Proofs.Channel.Service
import SerialAdapter.Proofs.Channel.Share
import SerialAdapter.Proofs.Board.Call
import SerialAdapter.Proofs.Board.Run
import SerialAdapter.Proofs.Transmit.Ledger
import SerialAdapter.Proofs.Transmit.Books
import SerialAdapter.Proofs.Transmit.Completion
import SerialAdapter.Proofs.Receive.Ledger
import SerialAdapter.Proofs.Receive.Books
import SerialAdapter.Proofs.Receive.Delivery
import SerialAdapter.Proofs.Telemetry.Reckoning
import SerialAdapter.Proofs.Telemetry.Ledger
import SerialAdapter.Proofs.Telemetry.Run
import SerialAdapter.Proofs.Board.Hostile
import SerialAdapter.Proofs.Batch
import SerialAdapter.Proofs.Channel.Telling
import SerialAdapter.Proofs.Shared.Siege
import SerialAdapter.Proofs.Shared.Relay
import SerialAdapter.Proofs.Shared.Reentry
import SerialAdapter.Proofs.Board.Lane
import SerialAdapter.Proofs.Transmit.Cargo
import SerialAdapter.Proofs.Board.Windows
import SerialAdapter.Proofs.Board.Refusal
import SerialAdapter.Proofs.Board.Steering
import SerialAdapter.Proofs.Board.Counting
import SerialAdapter.Proofs.Telemetry.Consistency
import SerialAdapter.Proofs.Board.Intervals
import SerialAdapter.Proofs.Ring.Chain
import SerialAdapter.Proofs.Board.Chains
import SerialAdapter.Proofs.Board.Reply
import SerialAdapter.Proofs.Board.Independence
import SerialAdapter.Proofs.Channel.Halves
import SerialAdapter.Proofs.Board.Halves
import SerialAdapter.Proofs.Board.Stimulus
import SerialAdapter.Proofs.Board.Watch
import SerialAdapter.Proofs.Receive.Frames
import SerialAdapter.Proofs.Channel.Acknowledge
import SerialAdapter.Proofs.Board.Restart
import SerialAdapter.Proofs.Channel.Spurious
import SerialAdapter.Proofs.Board.Spurious
import SerialAdapter.Proofs.Telemetry.Minutes
import SerialAdapter.Proofs.Channel.Draft
import SerialAdapter.Proofs.Board.Draft
import SerialAdapter.Proofs.Partition
import SerialAdapter.Proofs.Telemetry.Idle
import SerialAdapter.Proofs.Ring.Session
import SerialAdapter.Proofs.Board.InPlace
