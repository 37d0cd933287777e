import BackupAdmin.Command.Connection
import BackupAdmin.Command.Line
import BackupAdmin.Command.Machine
import BackupAdmin.Workflow.Basic

/-! The commands that run a workflow against the service of a profile. -/
namespace BackupAdmin
namespace BackupCommand
variable {σ : Type}

def workflow (client : Client σ) (i : Instance) (t : Target) (p : Polling) :
    BackupCommand → Session σ Report
  | .create key version =>
    .backup <$> Workflow.createBackup client i t.databaseId t.backupId version key p
  | .cancel => .cancel <$> Workflow.cancelBackup client i t.databaseId t.backupId p
  | .listOperations =>
    .backupOperations <$> Workflow.listBackupOperations client i t.databaseId t.backupId
  | .list => .backupList <$> Workflow.listBackups client i t.databaseId t.backupId
  | .update => .expire <$> Workflow.updateBackup client i t.backupId
  | .restore key => .restore <$> Workflow.restoreDatabase client i t.databaseId t.backupId key p
  | .listDatabaseOperations => .databaseOperations <$> Workflow.listDatabaseOperations client i
  | .delete => .delete <$> Workflow.deleteBackup client i t.backupId p
  | .copy source => .backup <$> Workflow.copyBackup client i t.backupId source p
  | .createDatabase retention =>
    .retention <$> Workflow.createDatabaseWithRetention client i t.databaseId retention p

/-- A report in the format for programs, or its text for people. -/
def written (choice : OutputChoice) (query : Option String) (r : Report) : Outcome :=
  match choice.format? query with
  | none => { output := r.text ++ "\n" }
  | some f => match f.render query r.encode with
    | .ok text => { output := text ++ "\n" }
    | .error e => { ending := .failed (.ofContexts [some e.message, none]) }

/-- The client of a connection. Someone listens to it when output for people has to wait. -/
def client (m : Machine σ) (k : Connection) (listening : Bool) : Client σ :=
  ({ service := k.remote.service m.send, listening } : Client σ).withPollInterval
    (Polling.interval k.polling.pollInterval)

/-- Carries out a command with the settings to connect with, from a time on. -/
def run (m : Machine σ) (now : Instant) (settings : Except ConfigError Connection)
    (choice : OutputChoice) (query : Option String) (t : Target) (c : BackupCommand) :
    StateT σ Option Outcome := fun s =>
  match settings with
  | .error e => some ({ ending := .failed (.ofConfig e) }, s)
  | .ok k => match k.instance? t.instanceId with
    | .error e => some ({ ending := .failed e }, s)
    | .ok i => do
      let listening := c.waits && choice = .auto && query.isNone
      let (r, w) ← (c.workflow (client m k listening) i t k.polling).run
        { service := s, start := now }
      let outcome : Outcome := match r with
        | .ok report => written choice query report
        | .error e => { ending := .failed (.ofAdmin e) }
      return ({ outcome with slept := w.slept }, w.service)

end BackupCommand
end BackupAdmin
