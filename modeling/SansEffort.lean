import SansEffort.Library.Slices
import SansEffort.Library.Transition
import SansEffort.Library.Stacks
import SansEffort.Library.Reading
import SansEffort.Library.Coupling
import SansEffort.Library.Acyclic
import SansEffort.Library.Dialogue
import SansEffort.Codec
import SansEffort.Layout
import SansEffort.Codable
import SansEffort.Cut
import SansEffort.Nesting
import SansEffort.Reply
import SansEffort.Mail
import SansEffort.Mailbox
import SansEffort.Outbox
import SansEffort.History
import SansEffort.Ledger
import SansEffort.Order
import SansEffort.Driver
import SansEffort.Racing
import SansEffort.Contract
import SansEffort.Machine
import SansEffort.Hosting
import SansEffort.Verdict
import SansEffort.Delivery
import SansEffort.Standing
import SansEffort.Sharing
import SansEffort.Encoded
import SansEffort.Refusal
import SansEffort.Awaiting
import SansEffort.Effects
import SansEffort.Console
import SansEffort.Grammar
import SansEffort.Record
import SansEffort.LogFile
import SansEffort.Table
import SansEffort.Fresh
import SansEffort.Thread
import SansEffort.Frames
import SansEffort.Notices
import SansEffort.Places
import SansEffort.Wakes
import SansEffort.Spawning
import SansEffort.Process
import SansEffort.Rerun
import SansEffort.Upkeep
import SansEffort.Pinned
import SansEffort.Sessions
import SansEffort.Roster
import SansEffort.Aside
import SansEffort.Replay
import SansEffort.Combinators
import SansEffort.Twins
import SansEffort.Armed
import SansEffort.Woken
import SansEffort.Spurious
import SansEffort.Reaching
import SansEffort.Joined
import SansEffort.Protocol.Spec
import SansEffort.Protocol.Calls
import SansEffort.Protocol.Machines
import SansEffort.Protocol.Senders
import SansEffort.Protocol.Accounts
import SansEffort.Protocol.Waking
import SansEffort.Protocol.Replies
import SansEffort.Protocol.Verdicts
import SansEffort.Protocol.Ending
import SansEffort.Testing.Runner
import SansEffort.Testing.Moves
import SansEffort.Testing.Handing
import SansEffort.Testing.Stalls
import SansEffort.Testing.Timers
import SansEffort.Contexts
import SansEffort.Performing
import SansEffort.Boundary
import SansEffort.Python
import SansEffort.Drive
import SansEffort.Replies
import SansEffort.Alone
import SansEffort.Routines
import SansEffort.Journal
import SansEffort.Agenda
import SansEffort.Protocol.Wire
import SansEffort.Protocol.Hearing
import SansEffort.Protocol.Serving
import SansEffort.Protocol.Following
import SansEffort.Protocol.Driving
import SansEffort.Protocol.Driven
