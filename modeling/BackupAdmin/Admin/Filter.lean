import BackupAdmin.Operation.Metadata

/-! The filters that listings are asked with. They are texts, put together here and read by the
service. -/
namespace BackupAdmin.Filter

def nameContains (id : String) : String := "name:" ++ id

def databaseContains (id : String) : String := "database:" ++ id

def expiresBefore (t : Instant) : String := "expire_time < \"" ++ t.filterText ++ "\""

def largerThan (bytes : Int) : String := "size_bytes > " ++ toString bytes

def readyCreatedSince (t : Instant) : String :=
  "create_time >= \"" ++ t.filterText ++ "\" AND state:READY"

/-- Operations that create a backup of a database whose name contains the text. -/
def createBackupOperations (database : String) : String :=
  "(metadata.@type:" ++ Metadata.createBackupType ++ ") AND (metadata.database:" ++ database ++ ")"

/-- Operations that copy a backup whose name contains the text. -/
def copyBackupOperations (backup : String) : String :=
  "(metadata.@type:" ++ Metadata.copyBackupType ++ ") AND (metadata.source_backup:" ++ backup ++ ")"

def optimizeOperations : String := "(metadata.@type:" ++ Metadata.optimizeRestoredType ++ ")"

end BackupAdmin.Filter
