/-! The name and the version by which the program makes itself known. -/
namespace BackupAdmin.Program

def name : String := "backupctl"

def version : String := "0.1.0"

end BackupAdmin.Program
