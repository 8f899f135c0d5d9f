import Rollout.Address
import Rollout.Bytes
import Rollout.CommandLine.Arguments
import Rollout.CommandLine.Desk
import Rollout.CommandLine.Documents
import Rollout.CommandLine.Execution
import Rollout.CommandLine.Invocation
import Rollout.CommandLine.Report
import Rollout.Console
import Rollout.Decimal.Reading
import Rollout.Decimal.Shortest
import Rollout.Duration
import Rollout.Error
import Rollout.Failure
import Rollout.Files.Exit
import Rollout.Files.Fault
import Rollout.Files.System
import Rollout.Files.Tree
import Rollout.Image
import Rollout.Inventory.ClusterFile
import Rollout.Inventory.Declaration
import Rollout.Inventory.Directory
import Rollout.Inventory.Resolution
import Rollout.LogLevel
import Rollout.Machine
import Rollout.MachineConfig
import Rollout.Main
import Rollout.Node
import Rollout.Operation
import Rollout.Pattern.CharSet
import Rollout.Pattern.Matching
import Rollout.Pattern.Named
import Rollout.Pattern.Reading
import Rollout.Proofs.Apply.Approval
import Rollout.Proofs.Apply.Course
import Rollout.Proofs.Apply.Protocol
import Rollout.Proofs.Apply.Rolling
import Rollout.Proofs.Apply.Run
import Rollout.Proofs.Apply.Turn
import Rollout.Proofs.Apply.TwoPhase
import Rollout.Proofs.Bootstrap.Course
import Rollout.Proofs.Bootstrap.Phases
import Rollout.Proofs.Cancellation.Changes
import Rollout.Proofs.Cancellation.Containment
import Rollout.Proofs.Cancellation.Courses
import Rollout.Proofs.Cancellation.Heeding
import Rollout.Proofs.Cancellation.Interrupts
import Rollout.Proofs.Cancellation.Strides
import Rollout.Proofs.CommandLine.ClientLifetime
import Rollout.Proofs.CommandLine.Options
import Rollout.Proofs.CommandLine.Preparation
import Rollout.Proofs.Connection.Lines
import Rollout.Proofs.Connection.Probing
import Rollout.Proofs.Console.Decisions
import Rollout.Proofs.Console.Operator
import Rollout.Proofs.Convergence.Keeping
import Rollout.Proofs.Convergence.Rerun
import Rollout.Proofs.DryRun.Blocks
import Rollout.Proofs.DryRun.Fidelity
import Rollout.Proofs.DryRun.Inertness
import Rollout.Proofs.Etcd.History
import Rollout.Proofs.Etcd.Safety
import Rollout.Proofs.Gather.Accounts
import Rollout.Proofs.Gather.Conduct
import Rollout.Proofs.Gather.Reading
import Rollout.Proofs.Gather.Schedule
import Rollout.Proofs.Gather.Steps
import Rollout.Proofs.Inventory.Resolution
import Rollout.Proofs.Inventory.VisitingOrder
import Rollout.Proofs.Pattern.Preference
import Rollout.Proofs.Pattern.Selection
import Rollout.Proofs.Preflight.AllOrNothing
import Rollout.Proofs.Preflight.Eligibility
import Rollout.Proofs.Preflight.Rendered
import Rollout.Proofs.Reset.Accounting
import Rollout.Proofs.Reset.Course
import Rollout.Proofs.Reset.Protocol
import Rollout.Proofs.Reset.Questions
import Rollout.Proofs.Reset.Visits
import Rollout.Proofs.Retry.Bounds
import Rollout.Proofs.Retry.Rounds
import Rollout.Proofs.Retry.Schedule
import Rollout.Proofs.Retry.Waiting
import Rollout.Proofs.Run.Ending
import Rollout.Proofs.Run.Gathering
import Rollout.Proofs.Run.Growth
import Rollout.Proofs.Run.Histories
import Rollout.Proofs.Run.Leaving
import Rollout.Proofs.Run.Punctuality
import Rollout.Proofs.Run.Turns
import Rollout.Proofs.Secrets.BundleText
import Rollout.Proofs.Secrets.CacheRuns
import Rollout.Proofs.Secrets.CacheSteps
import Rollout.Proofs.Secrets.FileStore
import Rollout.Proofs.Secrets.ReadBack
import Rollout.Proofs.Upgrade.Course
import Rollout.Proofs.Upgrade.Decision
import Rollout.Proofs.Upgrade.Image
import Rollout.Proofs.Upgrade.ImageLookup
import Rollout.Proofs.Upgrade.ImageReading
import Rollout.Proofs.Upgrade.Protocol
import Rollout.Proofs.Upgrade.Rolling
import Rollout.Proofs.Watchdog.Attempt
import Rollout.Proofs.Watchdog.Stability
import Rollout.Proofs.Watchdog.Window
import Rollout.Proofs.Wire.Declared
import Rollout.Proofs.Wire.Foreign
import Rollout.Proofs.Wire.Latest
import Rollout.Proofs.Wire.Refilling
import Rollout.Proofs.Wire.Spelling
import Rollout.Proofs.Wire.StatusReading
import Rollout.Proofs.Wire.StatusText
import Rollout.Proofs.Yaml.Blocks
import Rollout.Proofs.Yaml.Characters
import Rollout.Proofs.Yaml.Decoding
import Rollout.Proofs.Yaml.Fetching
import Rollout.Proofs.Yaml.Following
import Rollout.Proofs.Yaml.Keys
import Rollout.Proofs.Yaml.Legible
import Rollout.Proofs.Yaml.Quotes
import Rollout.Proofs.Yaml.Records
import Rollout.Proofs.Yaml.Standing
import Rollout.Proofs.Yaml.Tokens
import Rollout.Proofs.Yaml.Trees
import Rollout.Proofs.Yaml.Words
import Rollout.Rehearsal.Attempts
import Rollout.Rehearsal.Fleet
import Rollout.Rehearsal.Script
import Rollout.Rehearsal.Session
import Rollout.Rehearsal.Shell.Builtin
import Rollout.Rehearsal.Shell.Command
import Rollout.Rehearsal.Shell.Runner
import Rollout.Rehearsal.Shell.Running
import Rollout.Rehearsal.Testbed
import Rollout.Rehearsal.Vault
import Rollout.Rehearsal.Workstation
import Rollout.Request
import Rollout.Run.Apply
import Rollout.Run.Bootstrap
import Rollout.Run.Connector
import Rollout.Run.Etcd
import Rollout.Run.Gather
import Rollout.Run.Observation
import Rollout.Run.Preflight
import Rollout.Run.Reset
import Rollout.Run.Retry
import Rollout.Run.Upgrade
import Rollout.Run.Watchdog
import Rollout.Run.Work
import Rollout.Secrets.Bundle
import Rollout.Secrets.Cache
import Rollout.Secrets.Credentials
import Rollout.Secrets.Der
import Rollout.Secrets.Pem
import Rollout.Secrets.Stores
import Rollout.Text.Base64
import Rollout.Text.Blank
import Rollout.Text.Category
import Rollout.Text.CategoryRuns
import Rollout.Text.Folding
import Rollout.Text.Json
import Rollout.Text.PropertyRuns
import Rollout.Text.Quoted
import Rollout.Text.Runs
import Rollout.Text.ScriptRuns
import Rollout.Text.Table
import Rollout.Text.Width
import Rollout.Value
import Rollout.Wire.Calls
import Rollout.Wire.Event
import Rollout.Wire.Machine
import Rollout.Wire.Message
import Rollout.Wire.Record
import Rollout.Wire.Resource
import Rollout.Wire.Varint
import Rollout.Yaml.Core
import Rollout.Yaml.Cursor
import Rollout.Yaml.Decode
import Rollout.Yaml.Free
import Rollout.Yaml.Mark
import Rollout.Yaml.Node
import Rollout.Yaml.Node.Reading
import Rollout.Yaml.Text.Block
import Rollout.Yaml.Text.Gap
import Rollout.Yaml.Text.Plain
import Rollout.Yaml.Text.Quotes
import Rollout.Yaml.Token
import Rollout.Yaml.Token.Property
import Rollout.Yaml.Token.Reading
import Rollout.Yaml.Writing
