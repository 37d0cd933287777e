import BackupAdmin.Command.Spinner
import BackupAdmin.Main
import BackupAdmin.Memory.Files
import BackupAdmin.Proofs.Exchange.Workflow
import BackupAdmin.Proofs.Listing.Reading
import BackupAdmin.Proofs.Memory.Cancellation
import BackupAdmin.Proofs.Listing.Table
import BackupAdmin.Proofs.Memory.Making
import BackupAdmin.Proofs.Text.Digits
import BackupAdmin.Proofs.Memory.Filing
import BackupAdmin.Proofs.Memory.Paging
import BackupAdmin.Proofs.Memory.Listings
import BackupAdmin.Proofs.Text.Splitting
import BackupAdmin.Proofs.Time.Calendar
import BackupAdmin.Proofs.Time.Reading
import BackupAdmin.Proofs.Memory.Filters
import BackupAdmin.Proofs.Memory.Overview
import BackupAdmin.Proofs.Memory.Progress
import BackupAdmin.Proofs.Memory.Retention
import BackupAdmin.Proofs.Memory.Tending
import BackupAdmin.Proofs.Memory.RepeatedCancel
import BackupAdmin.Proofs.Config.Editing
import BackupAdmin.Proofs.Memory.Lifetime
import BackupAdmin.Proofs.Memory.Refusal
import BackupAdmin.Proofs.Memory.Independence
import BackupAdmin.Proofs.Memory.Targets
import BackupAdmin.Proofs.Operation.Encoding
import BackupAdmin.Proofs.Config.History
import BackupAdmin.Proofs.Memory.References
import BackupAdmin.Proofs.Exchange.Requests
import BackupAdmin.Proofs.Memory.Deletion
import BackupAdmin.Proofs.Config.Sources
import BackupAdmin.Proofs.Config.Settings
import BackupAdmin.Proofs.Waiting.LockStep
import BackupAdmin.Proofs.Memory.DatabaseTask
import BackupAdmin.Proofs.Memory.Restoring
import BackupAdmin.Proofs.Query.Literals
import BackupAdmin.Proofs.Memory.Extension
import BackupAdmin.Proofs.Config.Secrecy
import BackupAdmin.Proofs.Resource.Naming
