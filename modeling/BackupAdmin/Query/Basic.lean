import BackupAdmin.Json.Basic

/-! Queries over JSON values. -/
namespace BackupAdmin

inductive Comparison where
  | equal | unequal | less | atMost | greater | atLeast
deriving DecidableEq

/-- An expression that picks and rearranges parts of a value. -/
inductive Query where
  | current
  | field (name : String)
  | index (i : Int)
  | slice (start stop : Option Int) (step : Int)
  | literal (v : Json)
  | chain (first next : Query)
  | either (a b : Query)
  | both (a b : Query)
  | negation (q : Query)
  | comparison (how : Comparison) (a b : Query)
  | each (items : Query) (of : Query)
  | guarded (condition next : Query)
  | flatten (q : Query)
  | values (q : Query)
  | list (items : List Query)
  | fields (members : List (String × Query))
  | call (function : String) (arguments : List Query)
  | reference (q : Query)
deriving Inhabited

end BackupAdmin
