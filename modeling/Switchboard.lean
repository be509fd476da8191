import Switchboard.Attributes
import Switchboard.Config.Basic
import Switchboard.Config.Loader
import Switchboard.Config.Logging
import Switchboard.Config.Profile
import Switchboard.Config.Validation
import Switchboard.Context
import Switchboard.Dispatch.Basic
import Switchboard.Dispatch.Chain
import Switchboard.Event
import Switchboard.Files.Path
import Switchboard.Files.Tree
import Switchboard.Hub.Basic
import Switchboard.Hub.Plan
import Switchboard.Hub.Scheduler
import Switchboard.Id
import Switchboard.Json.Decode
import Switchboard.Json.Describe
import Switchboard.Json.Document
import Switchboard.Json.Reader
import Switchboard.Json.Value
import Switchboard.Json.Writer
import Switchboard.Listener
import Switchboard.Log
import Switchboard.Message
import Switchboard.Number.Binary64
import Switchboard.Number.Decimal
import Switchboard.Number.Power
import Switchboard.Number.Shortest
import Switchboard.Outcome
import Switchboard.Priority
import Switchboard.Program.Basic
import Switchboard.Program.Call
import Switchboard.Reading
import Switchboard.Record.Basic
import Switchboard.Record.Decoder
import Switchboard.Record.Loader
import Switchboard.Registry.Basic
import Switchboard.Report
import Switchboard.Script.Basic
import Switchboard.Script.Behaviours
import Switchboard.Script.Condition
import Switchboard.Script.Memory
import Switchboard.Script.Operation
import Switchboard.Script.Registrars
import Switchboard.Session
import Switchboard.Setting.Basic
import Switchboard.Setting.Reading
import Switchboard.Setting.Variables
import Switchboard.Station.Basic
import Switchboard.Station.Program
import Switchboard.Station.Report
import Switchboard.Station.Run
import Switchboard.Text.Blank
import Switchboard.Text.CharClass
import Switchboard.Text.Duration
import Switchboard.Text.Escaped
import Switchboard.Text.Lowercase
import Switchboard.Text.Printable
import Switchboard.Text.Quoted
import Switchboard.Text.Split
import Switchboard.Text.Utf8
import Switchboard.Toml.Draft
import Switchboard.Toml.Reader
import Switchboard.Toml.Scalar
import Switchboard.Proofs.Chain.History
import Switchboard.Proofs.Chain.Course
import Switchboard.Proofs.Program.Notes
import Switchboard.Proofs.Program.Ends
import Switchboard.Proofs.Chain.Links
import Switchboard.Proofs.Chain.Rule
import Switchboard.Proofs.Chain.Passing
import Switchboard.Proofs.Hub.Service
import Switchboard.Proofs.Dispatch.Settling
import Switchboard.Proofs.Dispatch.Failures
import Switchboard.Proofs.Dispatch.Segments
import Switchboard.Proofs.Dispatch.Attendance
import Switchboard.Proofs.Dispatch.Outcomes
import Switchboard.Proofs.Registry.Draft
import Switchboard.Proofs.Registry.Scan
import Switchboard.Proofs.Registry.Order
import Switchboard.Proofs.Registry.Ledger
import Switchboard.Proofs.Registry.Keeping
import Switchboard.Proofs.Registry.Listing
import Switchboard.Proofs.Registry.Names
import Switchboard.Proofs.Registry.Wrapping
import Switchboard.Proofs.Hub.Turns
import Switchboard.Proofs.Hub.Evolution
import Switchboard.Proofs.Hub.Bystanders
import Switchboard.Proofs.Hub.Growth
import Switchboard.Proofs.Hub.Promises
import Switchboard.Proofs.Dispatch.Modes
import Switchboard.Proofs.Dispatch.Containment
import Switchboard.Proofs.Dispatch.Handling
import Switchboard.Proofs.Hub.Sequence
import Switchboard.Proofs.Dispatch.Settled
import Switchboard.Proofs.Hub.Admission
import Switchboard.Proofs.Hub.Lookup
import Switchboard.Proofs.Dispatch.Isolation
import Switchboard.Proofs.Session.Deeds
import Switchboard.Proofs.Session.Fates
import Switchboard.Proofs.Session.Offering
import Switchboard.Proofs.Session.Conduct
import Switchboard.Proofs.Session.Membership
import Switchboard.Proofs.Hub.Waking
import Switchboard.Proofs.Hub.Attention
import Switchboard.Proofs.Hub.Queue
import Switchboard.Proofs.Hub.Halting
import Switchboard.Proofs.Hub.Progress
import Switchboard.Proofs.Hub.Threads
import Switchboard.Proofs.Session.Asking
import Switchboard.Proofs.Session.Order
import Switchboard.Proofs.Session.Accounts
import Switchboard.Proofs.Hub.Interleaving
import Switchboard.Proofs.Session.Informing
import Switchboard.Proofs.Hub.Becoming
import Switchboard.Proofs.Hub.Enrolment
import Switchboard.Proofs.Hub.Shutdown
import Switchboard.Proofs.Json.RoundTrip
import Switchboard.Proofs.Message.Canonical
import Switchboard.Proofs.Number.Numerals
import Switchboard.Proofs.Json.Integers
import Switchboard.Proofs.Id.Numeric
import Switchboard.Proofs.Message.Grammar
import Switchboard.Proofs.Event.Lineage
import Switchboard.Proofs.Dispatch.Unwinding
import Switchboard.Proofs.Session.Losing
import Switchboard.Proofs.Record.Listing
import Switchboard.Proofs.Station.Offers
import Switchboard.Proofs.Station.Starting
import Switchboard.Proofs.Json.Members
import Switchboard.Proofs.Setting.Layers
import Switchboard.Proofs.Setting.Grouping
import Switchboard.Proofs.Setting.Ordered
import Switchboard.Proofs.Setting.Records
import Switchboard.Proofs.Toml.Ordered
import Switchboard.Proofs.Config.Fields
import Switchboard.Proofs.Config.Search
import Switchboard.Proofs.Config.Loading
import Switchboard.Proofs.Setting.RoundTrip
import Switchboard.Proofs.Config.Merging
