import NgapProcedures.Config.Wire
import NgapProcedures.Daemon
import NgapProcedures.Event.Wire
import NgapProcedures.LogFile
import NgapProcedures.Report.Wire
import NgapProcedures.Proofs.Registry
import NgapProcedures.Proofs.Engine.Dispatch
import NgapProcedures.Proofs.Timer.Heap
import NgapProcedures.Proofs.Timer.Service
import NgapProcedures.Proofs.Engine.Coherence
import NgapProcedures.Proofs.Engine.Launch
import NgapProcedures.Proofs.Engine.Settling
import NgapProcedures.Proofs.Engine.Ticking
import NgapProcedures.Proofs.Engine.Timing
import NgapProcedures.Proofs.Engine.Teardown
import NgapProcedures.Proofs.Engine.Standing
import NgapProcedures.Proofs.Engine.Sends
import NgapProcedures.Proofs.Engine.Silence
import NgapProcedures.Proofs.Engine.Waits
import NgapProcedures.Proofs.Engine.Clock
import NgapProcedures.Proofs.Engine.Backoff
import NgapProcedures.Proofs.Engine.Requests
import NgapProcedures.Proofs.Engine.Loss
import NgapProcedures.Proofs.Engine.Pair
import NgapProcedures.Proofs.Daemon.Stages
import NgapProcedures.Proofs.Daemon.Progress
import NgapProcedures.Proofs.Daemon.Verdict
import NgapProcedures.Proofs.Daemon.Rounds
import NgapProcedures.Proofs.Engine.Joined
import NgapProcedures.Proofs.Engine.Carries
import NgapProcedures.Proofs.Engine.Links
import NgapProcedures.Proofs.Engine.Log
import NgapProcedures.Proofs.Engine.Together
import NgapProcedures.Proofs.Engine.Agreement
import NgapProcedures.Proofs.Engine.Alone
import NgapProcedures.Proofs.Daemon.Lag
import NgapProcedures.Proofs.Retry.Course
import NgapProcedures.Proofs.Retry.Budget
import NgapProcedures.Proofs.Retry.Verdict
import NgapProcedures.Proofs.Retry.Story
import NgapProcedures.Proofs.Engine.Told
import NgapProcedures.Proofs.Engine.Becomes
import NgapProcedures.Proofs.Engine.Stories
import NgapProcedures.Proofs.Engine.Duplicates
import NgapProcedures.Proofs.Engine.Frame
import NgapProcedures.Proofs.Engine.Lifecycle
import NgapProcedures.Proofs.Timer.Shift
import NgapProcedures.Proofs.Engine.Twin
import NgapProcedures.Proofs.Engine.Lockstep
import NgapProcedures.Proofs.Engine.Timeline
import NgapProcedures.Proofs.Engine.Indifference
import NgapProcedures.Proofs.Engine.Renewal
import NgapProcedures.Proofs.Engine.Announcements
import NgapProcedures.Proofs.Engine.Recorded
import NgapProcedures.Proofs.Daemon.Account
import NgapProcedures.Proofs.Daemon.Report
import NgapProcedures.Proofs.Engine.Delivery
import NgapProcedures.Proofs.Timer.Exchange
import NgapProcedures.Proofs.Engine.Commuting
import NgapProcedures.Proofs.Engine.Routing
import NgapProcedures.Proofs.Engine.Admission
import NgapProcedures.Proofs.Engine.Refusal
import NgapProcedures.Proofs.Timer.Deadlines
import NgapProcedures.Proofs.Timer.Refinement
import NgapProcedures.Proofs.Daemon.Pacing
import NgapProcedures.Proofs.Engine.Speakers
import NgapProcedures.Proofs.Engine.Departure
import NgapProcedures.Proofs.Settlement
import NgapProcedures.Proofs.Retry.Ordinals
import NgapProcedures.Proofs.Retry.Memory
import NgapProcedures.Proofs.Daemon.Readings
import NgapProcedures.Proofs.Peer
import NgapProcedures.Proofs.Text.Bytes
import NgapProcedures.Proofs.Registry.Pairs
import NgapProcedures.Proofs.Json.Scan
import NgapProcedures.Proofs.Json.Values
import NgapProcedures.Proofs.Json.Records
import NgapProcedures.Proofs.Message.Wire
import NgapProcedures.Proofs.Event.Wire
import NgapProcedures.Proofs.Attention
import NgapProcedures.Proofs.Engine.Slots
import NgapProcedures.Proofs.Engine.Attendance
import NgapProcedures.Proofs.Engine.Draining
import NgapProcedures.Proofs.Generators
import NgapProcedures.Proofs.Engine.Naming
