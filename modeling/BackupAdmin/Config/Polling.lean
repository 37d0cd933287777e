import BackupAdmin.Json.Decode
import BackupAdmin.Time.Duration

/-! How often and how long a profile's commands wait, in seconds. -/
namespace BackupAdmin

structure Polling where
  pollInterval : Nat := 10
  backupTimeout : Nat := 2100
  restoreTimeout : Nat := 1600
  createDatabaseTimeout : Nat := 30
  cancelPollInterval : Nat := 300
  cancelTimeout : Nat := 21600
  referencePollInterval : Nat := 30
  referenceTimeout : Nat := 21600
deriving DecidableEq

namespace Polling
open Json

def isDefault (p : Polling) : Bool := p = {}

/-- An interval in seconds; it is never shorter than one second. -/
def interval (seconds : Nat) : Duration := Duration.ofSeconds (max seconds 1)

theorem interval_pos (n : Nat) : 0 < interval n :=
  Nat.mul_pos (Nat.lt_of_lt_of_le Nat.zero_lt_one (Nat.le_max_right n 1)) (by decide)

/-- The settings by name, in the order in which they are written. -/
def settings (p : Polling) : List (String × Nat) :=
  [("poll_interval_secs", p.pollInterval), ("backup_timeout_secs", p.backupTimeout),
    ("restore_timeout_secs", p.restoreTimeout),
    ("create_database_timeout_secs", p.createDatabaseTimeout),
    ("cancel_poll_interval_secs", p.cancelPollInterval), ("cancel_timeout_secs", p.cancelTimeout),
    ("reference_poll_interval_secs", p.referencePollInterval),
    ("reference_timeout_secs", p.referenceTimeout)]

def encode (p : Polling) : Json := record (p.settings.map fun (k, n) => (k, .ofNat n))

def decode? (v : Json) : Option Polling := do
  let d : Polling := {}
  let fs ← fields? (d.settings.map (·.1)) v
  let pollInterval ← fs.orElse "poll_interval_secs" d.pollInterval asNat64?
  let backupTimeout ← fs.orElse "backup_timeout_secs" d.backupTimeout asNat64?
  let restoreTimeout ← fs.orElse "restore_timeout_secs" d.restoreTimeout asNat64?
  let createDatabaseTimeout ←
    fs.orElse "create_database_timeout_secs" d.createDatabaseTimeout asNat64?
  let cancelPollInterval ← fs.orElse "cancel_poll_interval_secs" d.cancelPollInterval asNat64?
  let cancelTimeout ← fs.orElse "cancel_timeout_secs" d.cancelTimeout asNat64?
  let referencePollInterval ←
    fs.orElse "reference_poll_interval_secs" d.referencePollInterval asNat64?
  let referenceTimeout ← fs.orElse "reference_timeout_secs" d.referenceTimeout asNat64?
  some { pollInterval, backupTimeout, restoreTimeout, createDatabaseTimeout, cancelPollInterval,
         cancelTimeout, referencePollInterval, referenceTimeout }

end Polling
end BackupAdmin
