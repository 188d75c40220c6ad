import FleetControl.Main
import FleetControl.Proofs.LoadMatrix
import FleetControl.Proofs.Work
import FleetControl.Proofs.Tables
import FleetControl.Proofs.Mounting
import FleetControl.Proofs.Reads
import FleetControl.Proofs.Effect.Basic
import FleetControl.Proofs.Effect.Entities
import FleetControl.Proofs.Effect.Clusters
import FleetControl.Proofs.Effect.Routes
import FleetControl.Proofs.Exporters
import FleetControl.Proofs.Runs
import FleetControl.Proofs.References
import FleetControl.Proofs.Names
import FleetControl.Proofs.StoredMatrices
import FleetControl.Proofs.Domains
import FleetControl.Proofs.Consistent
import FleetControl.Proofs.Coverage
import FleetControl.Proofs.Tenants
import FleetControl.Proofs.Identity
import FleetControl.Proofs.Json.Rendering
import FleetControl.Proofs.Json.Codec
import FleetControl.Proofs.Files
import FleetControl.Proofs.Unchanged
import FleetControl.Proofs.Contents
import FleetControl.Proofs.Generated
import FleetControl.Proofs.Agreement
import FleetControl.Proofs.Renaming
import FleetControl.Proofs.Additions
import FleetControl.Proofs.Reordering
import FleetControl.Proofs.CleanData
import FleetControl.Proofs.Supplies
import FleetControl.Proofs.Exportable
import FleetControl.Proofs.Commits
import FleetControl.Proofs.Sessions
import FleetControl.Proofs.Inspection
import FleetControl.Proofs.Decimal
import FleetControl.Proofs.Version
import FleetControl.Proofs.Isolation
import FleetControl.Proofs.Ledger
import FleetControl.Proofs.Marks
import FleetControl.Proofs.Statements
import FleetControl.Proofs.Transactions
import FleetControl.Proofs.Minting
import FleetControl.Proofs.LockFirst
import FleetControl.Proofs.RowLocks
import FleetControl.Proofs.MatrixWrites
import FleetControl.Proofs.DefaultCertificate
import FleetControl.Proofs.Policies
import FleetControl.Proofs.Columns
import FleetControl.Proofs.Insertions
import FleetControl.Proofs.Credentials
import FleetControl.Proofs.Json.Reading
import FleetControl.Proofs.Reverification
import FleetControl.Proofs.Migrations
import FleetControl.Proofs.Permanence
import FleetControl.Proofs.Draining
import FleetControl.Proofs.Rebinding
import FleetControl.Proofs.HostOverlap
import FleetControl.Proofs.Creation
import FleetControl.Proofs.RuleReplacement
import FleetControl.Proofs.FleetChanges
import FleetControl.Proofs.Calendar
import FleetControl.Proofs.Stamps
import FleetControl.Proofs.Signatures
import FleetControl.Proofs.MatrixTexts
import FleetControl.Proofs.Splits
import FleetControl.Proofs.HostGrammar
import FleetControl.Proofs.RuleGroups
import FleetControl.Proofs.Selections
import FleetControl.Proofs.StoredRules
import FleetControl.Proofs.PoolNames
import FleetControl.Proofs.HostPartition
import FleetControl.Proofs.NormalForm
import FleetControl.Proofs.ByteOrder
import FleetControl.Proofs.Requests
import FleetControl.Proofs.Fetches
