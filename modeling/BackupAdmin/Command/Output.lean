import BackupAdmin.Command.Error
import BackupAdmin.Json.Printer
import BackupAdmin.Query.Reader
import BackupAdmin.Table
import BackupAdmin.Yaml.Printer

/-! Output for programs: a value, or what a query picks of it, as JSON, YAML or a table. -/
namespace BackupAdmin
open Text

/-- The format that is asked for; `auto` leaves the choice to the command. -/
inductive OutputChoice where
  | auto | json | yaml | table
deriving DecidableEq

def OutputChoice.name : OutputChoice → String
  | .auto => "auto"
  | .json => "json"
  | .yaml => "yaml"
  | .table => "table"

inductive OutputFormat where
  | json | yaml | table
deriving DecidableEq

/-- The format for programs, if any is asked for. A query alone asks for JSON. -/
def OutputChoice.format? (choice : OutputChoice) (query : Option String) : Option OutputFormat :=
  match choice with
  | .json => some .json
  | .yaml => some .yaml
  | .table => some .table
  | .auto => if query.isSome then some .json else none

namespace Table

/-- A value in a cell: collections by their size, but texts one after the other. -/
def cell : Json → String
  | .bool b => if b then "true" else "false"
  | .number n => n.text
  | .string s => s
  | .array items =>
    match items.mapM (fun
      | .string s => some s
      | _ => none) with
    | some texts => joinWith ", " texts
    | none => "[" ++ toString items.length ++ " items]"
  | .object ms => "\x7b" ++ toString ms.length ++ " fields\x7d"
  | _ => "-"

/-- Objects as rows with the keys of the first; other items of the list have no row. -/
def ofObjects (keys : List String) (items : List Json) : Table where
  header := keys
  rows := items.filterMap fun
    | .object ms => some (keys.map fun k => cell ((ms.lookup k).getD .null))
    | _ => none

/-- A list as a table with one row per item. -/
def ofItems : List Json → Option Table
  | [] => none
  | .object first :: rest => some (ofObjects (first.map (·.1)) (.object first :: rest))
  | items => some ⟨["Value"], items.map fun v => [cell v]⟩

/-- An object as a table with one row per member. -/
def ofMembers (ms : List (String × Json)) : Table :=
  ⟨["Key", "Value"], ms.map fun (k, v) => [k, cell v]⟩

/-- A value as a table. A list that is the only member of an object stands for the object. -/
def ofJson : Json → Option Table
  | .array items => ofItems items
  | .object [(_, .array items)] => ofItems items
  | .object ms => some (ofMembers ms)
  | _ => none

/-- The text of a value in this format; without a table it is the text of a cell. -/
def textOf (v : Json) : String :=
  match ofJson v with
  | some t => t.text
  | none => match v with
    | .object [(_, items)] => cell items
    | v => cell v

end Table

def OutputFormat.text (f : OutputFormat) (v : Json) : String :=
  match f with
  | .json => v.pretty
  | .yaml => Yaml.text v
  | .table => Table.textOf v

/-- A value, or what a query picks of it, in a format. -/
def OutputFormat.render (f : OutputFormat) (query : Option String) (v : Json) :
    Except Query.Fault String :=
  match query with
  | none => .ok (f.text v)
  | some q => (Query.answer q v).map f.text

end BackupAdmin
