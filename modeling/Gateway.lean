import Gateway.Account
import Gateway.Address
import Gateway.Admission
import Gateway.Authenticator
import Gateway.Authority
import Gateway.Cache
import Gateway.Config
import Gateway.Counters
import Gateway.Credential
import Gateway.Decision
import Gateway.Digest
import Gateway.Failure
import Gateway.Filter
import Gateway.Flights
import Gateway.Gate
import Gateway.Health
import Gateway.Http
import Gateway.Instance
import Gateway.Json.Lexer
import Gateway.Json.Quoted
import Gateway.Json.Symbols
import Gateway.Json.Value
import Gateway.Keyspace
import Gateway.Limiter
import Gateway.Log
import Gateway.Log.Verbosity
import Gateway.Main
import Gateway.Numeral
import Gateway.Operation
import Gateway.Place
import Gateway.Policy
import Gateway.Proofs.CounterNames
import Gateway.Proofs.FlightLaws
import Gateway.Proofs.Frames
import Gateway.Proofs.Leaving
import Gateway.Record
import Gateway.Rehearsal
import Gateway.Setup
import Gateway.SharedStore
import Gateway.Startup
import Gateway.Status
import Gateway.StoreAddress
import Gateway.Sweeper
import Gateway.Table
import Gateway.Text
import Gateway.Text.Escaped
import Gateway.Time
import Gateway.Url.Basic
import Gateway.Url.Domain
import Gateway.Url.Host
import Gateway.Url.Parser
import Gateway.Url.Percent
import Gateway.Url.Punycode
import Gateway.Url.Reference
import Gateway.Window
import Gateway.Word
import Gateway.Proofs.Manifest
import Gateway.Proofs.Backing
import Gateway.Proofs.Provenance
import Gateway.Proofs.Counts
import Gateway.Proofs.Rulings
import Gateway.Proofs.LocalCeiling
import Gateway.Proofs.SharedCeiling
import Gateway.Proofs.Ventures
import Gateway.Proofs.Marks
import Gateway.Proofs.Cooldown
import Gateway.Proofs.Entitlement
import Gateway.Proofs.Charges
import Gateway.Proofs.Attribution
import Gateway.Proofs.Isolation
import Gateway.Proofs.Outage
import Gateway.Proofs.Settings
import Gateway.Proofs.Recall
import Gateway.Proofs.Doorway
import Gateway.Proofs.Interleaving
import Gateway.Proofs.SingleFlight
import Gateway.Proofs.Overlap
import Gateway.Proofs.Modes
import Gateway.Proofs.Probing
import Gateway.Proofs.Recovery
import Gateway.Proofs.Windows
import Gateway.Proofs.AttemptHistory
import Gateway.Proofs.Numerals
import Gateway.Proofs.SharedAttempts
import Gateway.Proofs.Answers
import Gateway.Proofs.Remainders
import Gateway.Proofs.Waits
import Gateway.Proofs.Texts
import Gateway.Proofs.Bearer
import Gateway.Proofs.Quotes
import Gateway.Proofs.Records
import Gateway.Proofs.Identifiers
import Gateway.Proofs.Variables
import Gateway.Proofs.Classes
import Gateway.Proofs.UrlPaths
import Gateway.Proofs.Endpoint
import Gateway.Proofs.Replays
