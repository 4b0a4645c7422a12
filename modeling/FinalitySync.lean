import FinalitySync.Bytes.Hex
import FinalitySync.Bytes.LittleEndian
import FinalitySync.Bytes.Octets
import FinalitySync.Chain.Authority
import FinalitySync.Chain.Basic
import FinalitySync.Chain.Checkpoint
import FinalitySync.Chain.Fragment
import FinalitySync.Chain.Header
import FinalitySync.Chain.Justification
import FinalitySync.Chain.Vote
import FinalitySync.Client.CommandLine
import FinalitySync.Client.Configuration
import FinalitySync.Client.Event
import FinalitySync.Client.Files
import FinalitySync.Client.Level
import FinalitySync.Client.Run
import FinalitySync.Crypto.Address
import FinalitySync.Crypto.Blake2b
import FinalitySync.Crypto.Ed25519
import FinalitySync.Crypto.Edwards25519
import FinalitySync.Crypto.Field25519
import FinalitySync.Crypto.Hash
import FinalitySync.Crypto.Primitives
import FinalitySync.Crypto.PublicKey
import FinalitySync.Crypto.Sha512
import FinalitySync.Crypto.Signature
import FinalitySync.Crypto.Word64
import FinalitySync.Document.Basic
import FinalitySync.Document.Form
import FinalitySync.Finality.Ancestry
import FinalitySync.Finality.Quorum
import FinalitySync.Finality.Verdict
import FinalitySync.Grandpa.Agenda
import FinalitySync.Grandpa.Change
import FinalitySync.Grandpa.Message
import FinalitySync.Grandpa.Roster
import FinalitySync.Json.Parser
import FinalitySync.Json.Printer
import FinalitySync.Json.Scanner
import FinalitySync.Json.Token
import FinalitySync.Main
import FinalitySync.Peer.Duration
import FinalitySync.Peer.Neighbour
import FinalitySync.Peer.Source
import FinalitySync.Peer.Stored
import FinalitySync.Proofs.Chain.Documents
import FinalitySync.Proofs.Chain.Encoding
import FinalitySync.Proofs.Client.Completion
import FinalitySync.Proofs.Crypto.Spelling
import FinalitySync.Proofs.Document.Compound
import FinalitySync.Proofs.Document.Faithful
import FinalitySync.Proofs.Finality.Accountability
import FinalitySync.Proofs.Finality.Arithmetic
import FinalitySync.Proofs.Finality.Ballot
import FinalitySync.Proofs.Finality.Decision
import FinalitySync.Proofs.Finality.Descent
import FinalitySync.Proofs.Finality.Rearrangement
import FinalitySync.Proofs.Finality.Unanimity
import FinalitySync.Proofs.Finality.Verdict
import FinalitySync.Proofs.Finality.Weight
import FinalitySync.Proofs.Grandpa.Announcement
import FinalitySync.Proofs.Grandpa.Course
import FinalitySync.Proofs.Grandpa.Digest
import FinalitySync.Proofs.Grandpa.Enactment
import FinalitySync.Proofs.Grandpa.Leading
import FinalitySync.Proofs.Grandpa.Order
import FinalitySync.Proofs.Grandpa.Payload
import FinalitySync.Proofs.Grandpa.Persistence
import FinalitySync.Proofs.Grandpa.Retention
import FinalitySync.Proofs.Grandpa.Staging
import FinalitySync.Proofs.Grandpa.Succession
import FinalitySync.Proofs.Grandpa.Timing
import FinalitySync.Proofs.Grandpa.Waiting
import FinalitySync.Proofs.Grandpa.Window
import FinalitySync.Proofs.Json.RoundTrip
import FinalitySync.Proofs.Json.Scanning
import FinalitySync.Proofs.Store.Forms
import FinalitySync.Proofs.Store.Names
import FinalitySync.Proofs.Store.Records
import FinalitySync.Proofs.Store.Writes
import FinalitySync.Proofs.Sync.Acceptance
import FinalitySync.Proofs.Sync.Agreement
import FinalitySync.Proofs.Sync.Audience
import FinalitySync.Proofs.Sync.Custody
import FinalitySync.Proofs.Sync.History
import FinalitySync.Proofs.Sync.Mirror
import FinalitySync.Proofs.Sync.Neighbours
import FinalitySync.Proofs.Sync.Operation
import FinalitySync.Proofs.Sync.PageFold
import FinalitySync.Proofs.Sync.Precommits
import FinalitySync.Proofs.Sync.Refinement
import FinalitySync.Proofs.Sync.Replay
import FinalitySync.Proofs.Sync.SharedQueue
import FinalitySync.Proofs.Sync.StoredPages
import FinalitySync.Proofs.Sync.Termination
import FinalitySync.Proofs.Sync.Timeliness
import FinalitySync.Proofs.Text.Base58
import FinalitySync.Scale.Codec
import FinalitySync.Scale.Failure
import FinalitySync.Store.Basic
import FinalitySync.Store.Record
import FinalitySync.Sync.Bootstrap
import FinalitySync.Sync.Failure
import FinalitySync.Sync.Head
import FinalitySync.Sync.Ledger
import FinalitySync.Sync.Session
import FinalitySync.Sync.Settings
import FinalitySync.Sync.Stage
import FinalitySync.Text.Base58
import FinalitySync.Text.Decimal
import FinalitySync.Toml.Layout
import FinalitySync.Toml.Number
import FinalitySync.Toml.Parser
import FinalitySync.Toml.Section
import FinalitySync.Toml.Text
import FinalitySync.Toml.Value
