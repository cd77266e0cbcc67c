import Wiretap.Address
import Wiretap.Certificate
import Wiretap.Certificate.Leaf
import Wiretap.Certificate.Presentable
import Wiretap.CommandLine
import Wiretap.Config
import Wiretap.Config.Source
import Wiretap.Connection
import Wiretap.Connection.Stored
import Wiretap.Crypto.Curve
import Wiretap.Crypto.Digest
import Wiretap.Crypto.Edwards
import Wiretap.Crypto.Modular
import Wiretap.Crypto.Rsa
import Wiretap.Der
import Wiretap.DistinguishedName
import Wiretap.Engine
import Wiretap.Failure
import Wiretap.Failure.Report
import Wiretap.Failure.SystemError
import Wiretap.Handler
import Wiretap.Identifier
import Wiretap.Issuer
import Wiretap.Issuer.Embedded
import Wiretap.Json.Reader
import Wiretap.Json.Record
import Wiretap.Json.Writer
import Wiretap.KeyStore
import Wiretap.Main
import Wiretap.Manager
import Wiretap.Options
import Wiretap.Packet
import Wiretap.Packet.HexDump
import Wiretap.Packet.Rendering
import Wiretap.Pem
import Wiretap.Pool
import Wiretap.Pool.Schedule
import Wiretap.PrivateKey
import Wiretap.Program
import Wiretap.Proofs.Config.Merging
import Wiretap.Proofs.Config.Sessions
import Wiretap.Proofs.Connection.Identifiers
import Wiretap.Proofs.Connection.Storing
import Wiretap.Proofs.Engine.Accepting
import Wiretap.Proofs.Engine.Alarms
import Wiretap.Proofs.Engine.Closing
import Wiretap.Proofs.Engine.Moves
import Wiretap.Proofs.Failure.Severity
import Wiretap.Proofs.Failure.Wording
import Wiretap.Proofs.Failure.Wrapping
import Wiretap.Proofs.Handler.Closing
import Wiretap.Proofs.Handler.Moves
import Wiretap.Proofs.Json.Collections
import Wiretap.Proofs.Json.Values
import Wiretap.Proofs.Manager.Flags
import Wiretap.Proofs.Manager.Limits
import Wiretap.Proofs.Manager.Slot
import Wiretap.Proofs.Packet.Columns
import Wiretap.Proofs.Packet.Content
import Wiretap.Proofs.Packet.Display
import Wiretap.Proofs.Packet.Dump
import Wiretap.Proofs.Packet.History
import Wiretap.Proofs.Pool.Drains
import Wiretap.Proofs.Pool.Fates
import Wiretap.Proofs.Pool.Life
import Wiretap.Proofs.Pool.Moves
import Wiretap.Proofs.Pool.Outcome
import Wiretap.Proofs.Pool.Permits
import Wiretap.Proofs.Pool.Persistence
import Wiretap.Proofs.Pool.Punctuality
import Wiretap.Proofs.Pool.Queues
import Wiretap.Proofs.Pool.Readiness
import Wiretap.Proofs.Pool.Repeats
import Wiretap.Proofs.Pool.Schedules
import Wiretap.Proofs.Pool.Stages
import Wiretap.Proofs.Pool.Timetable
import Wiretap.Proofs.Pump.Bursts
import Wiretap.Proofs.Pump.Course
import Wiretap.Proofs.Pump.Effort
import Wiretap.Proofs.Pump.Endings
import Wiretap.Proofs.Pump.Exits
import Wiretap.Proofs.Pump.Fidelity
import Wiretap.Proofs.Pump.Flow
import Wiretap.Proofs.Pump.Groups
import Wiretap.Proofs.Pump.Indifference
import Wiretap.Proofs.Pump.Ledger
import Wiretap.Proofs.Pump.Lines
import Wiretap.Proofs.Pump.Moves
import Wiretap.Proofs.Pump.Surroundings
import Wiretap.Proofs.Registry.Book
import Wiretap.Proofs.Registry.Chapters
import Wiretap.Proofs.Registry.Order
import Wiretap.Proofs.Registry.Portions
import Wiretap.Proofs.Registry.Replica
import Wiretap.Proofs.Rehearsal.Playing
import Wiretap.Proofs.Relay.Coupling
import Wiretap.Proofs.Relay.Delivery
import Wiretap.Proofs.Relay.Handlers
import Wiretap.Proofs.Relay.Polls
import Wiretap.Proofs.Relay.Recording
import Wiretap.Proofs.Run
import Wiretap.Proofs.Server.Listening
import Wiretap.Proofs.Server.Moves
import Wiretap.Proofs.Server.Progress
import Wiretap.Proofs.Server.Reruns
import Wiretap.Proofs.ServerName.Spelling
import Wiretap.Proofs.Service.Holding
import Wiretap.Proofs.Service.Lifecycle
import Wiretap.Proofs.Service.Records
import Wiretap.Proofs.Service.Seats
import Wiretap.Proofs.Service.Sessions
import Wiretap.Proofs.Service.Starts
import Wiretap.Proofs.Text.Digits
import Wiretap.Proofs.Text.Encoding
import Wiretap.Proofs.Timestamp.Calendar
import Wiretap.Proofs.Timestamp.Writing
import Wiretap.Pump
import Wiretap.Pump.Script
import Wiretap.Registry
import Wiretap.Registry.Feed
import Wiretap.Registry.Recorder
import Wiretap.Rehearsal.Chronicle
import Wiretap.Rehearsal.Hosting
import Wiretap.Rehearsal.Network
import Wiretap.Rehearsal.Peer
import Wiretap.Rehearsal.Scene
import Wiretap.Rehearsal.Trial
import Wiretap.Rehearsal.Visit
import Wiretap.Server
import Wiretap.ServerName
import Wiretap.Service
import Wiretap.Session
import Wiretap.Storage
import Wiretap.Text.Base64
import Wiretap.Text.Blank
import Wiretap.Text.Hex
import Wiretap.Text.Hidden
import Wiretap.Text.Quoted
import Wiretap.Text.Utf8
import Wiretap.Timestamp
import Wiretap.Timestamp.Text
import Wiretap.TlsContext
import Wiretap.Toml.Document
import Wiretap.Toml.Scalar
import Wiretap.Toml.Value
