import StakeLedger.Account
import StakeLedger.Admission.Block
import StakeLedger.Admission.Transaction
import StakeLedger.Assignment
import StakeLedger.Base58
import StakeLedger.Block
import StakeLedger.BlockStore
import StakeLedger.Bytes
import StakeLedger.Bytes.Lemmas
import StakeLedger.Chain
import StakeLedger.Codec.Basic
import StakeLedger.Codec.DecodeError
import StakeLedger.Codec.Varint
import StakeLedger.Digest.Blake3
import StakeLedger.Digest.Hasher
import StakeLedger.Digest.Sha3
import StakeLedger.Digest.Sha512
import StakeLedger.Ed25519
import StakeLedger.Ed25519.Curve
import StakeLedger.Ed25519.Field
import StakeLedger.EncodedEntity
import StakeLedger.Entity
import StakeLedger.Error
import StakeLedger.Identifier
import StakeLedger.Identifier.Parse
import StakeLedger.Json
import StakeLedger.Json.Form
import StakeLedger.Json.Parse
import StakeLedger.Keys
import StakeLedger.Main
import StakeLedger.Merkle.Proof
import StakeLedger.Merkle.Tree
import StakeLedger.Node.Engine
import StakeLedger.Node.Error
import StakeLedger.Node.Genesis
import StakeLedger.Node.Inbox
import StakeLedger.Node.Schedule
import StakeLedger.Node.Settings
import StakeLedger.Node.Startup
import StakeLedger.Node.Supervision
import StakeLedger.Offline.CheckError
import StakeLedger.Offline.CommandLine
import StakeLedger.Offline.Report
import StakeLedger.Parameters
import StakeLedger.Proofs.Accounts
import StakeLedger.Proofs.AccountsRoot
import StakeLedger.Proofs.Admission
import StakeLedger.Proofs.Assignments
import StakeLedger.Proofs.Barrier
import StakeLedger.Proofs.Binding
import StakeLedger.Proofs.CanonicalText
import StakeLedger.Proofs.Certificates
import StakeLedger.Proofs.CommandLine
import StakeLedger.Proofs.Conservation
import StakeLedger.Proofs.ContainerForms
import StakeLedger.Proofs.ContainerGrammar
import StakeLedger.Proofs.CurveOrder
import StakeLedger.Proofs.CurvePoints
import StakeLedger.Proofs.DistinctMembers
import StakeLedger.Proofs.EdwardsCurve
import StakeLedger.Proofs.Encoding
import StakeLedger.Proofs.Finality
import StakeLedger.Proofs.Finalization
import StakeLedger.Proofs.Growth
import StakeLedger.Proofs.Heights
import StakeLedger.Proofs.IdentifierText
import StakeLedger.Proofs.Identity
import StakeLedger.Proofs.Insertion
import StakeLedger.Proofs.JsonForms
import StakeLedger.Proofs.JsonText
import StakeLedger.Proofs.Kinds
import StakeLedger.Proofs.Ledger
import StakeLedger.Proofs.Membership
import StakeLedger.Proofs.MerklePaths
import StakeLedger.Proofs.NeutralKey
import StakeLedger.Proofs.Outcomes
import StakeLedger.Proofs.PathUniqueness
import StakeLedger.Proofs.Payment
import StakeLedger.Proofs.Primality
import StakeLedger.Proofs.Readers
import StakeLedger.Proofs.Reordering
import StakeLedger.Proofs.Representation
import StakeLedger.Proofs.Retrieval
import StakeLedger.Proofs.Run
import StakeLedger.Proofs.Service
import StakeLedger.Proofs.ShortestEncoding
import StakeLedger.Proofs.Signals
import StakeLedger.Proofs.SignatureBinding
import StakeLedger.Proofs.SnapshotFiles
import StakeLedger.Proofs.Spending
import StakeLedger.Proofs.Stability
import StakeLedger.Proofs.Storage
import StakeLedger.Proofs.Succession
import StakeLedger.Proofs.Transfer
import StakeLedger.Proofs.Truncation
import StakeLedger.Proofs.Utf8Text
import StakeLedger.Radix
import StakeLedger.Signature
import StakeLedger.Snapshot
import StakeLedger.Snapshot.Container
import StakeLedger.Snapshot.Fixture
import StakeLedger.SortedBy
import StakeLedger.Text.Quoted
import StakeLedger.Text.Utf8
import StakeLedger.Text.Visible
import StakeLedger.Transaction
