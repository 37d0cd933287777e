import BackupAdmin.Json.Reader
import BackupAdmin.Text.Blank

/-! Literals between backticks in a query. A literal that holds no JSON is taken as a text and put
in quotes. Main statement: the parts of a query spell the query. -/
namespace BackupAdmin.Query
open Text

/-- The inside of a literal and what follows it, behind the backtick that opens it. A backslash
takes the next character along, unless that ends the line. -/
def literal? : List Char → Option (List Char × List Char)
  | [] => none
  | '`' :: rest => some ([], rest)
  | '\\' :: [] => none
  | '\\' :: c :: rest =>
    if c = '\n' then none else (literal? rest).map fun (inside, r) => ('\\' :: c :: inside, r)
  | c :: rest => (literal? rest).map fun (inside, r) => (c :: inside, r)

theorem literal?_spells {cs inside rest : List Char} (h : literal? cs = some (inside, rest)) :
    cs = inside ++ '`' :: rest := by
  fun_induction literal? cs generalizing inside rest <;> simp_all <;> grind

theorem length_lt_of_literal? {cs inside rest : List Char} (h : literal? cs = some (inside, rest))
    (c : Char) : rest.length < (c :: cs).length := by
  rw [literal?_spells h]; simp only [List.length_cons, List.length_append]; omega

/-- A part of a query: a literal by its inside, or a character outside all literals. -/
inductive Part where
  | char (c : Char)
  | literal (inside : List Char)
deriving DecidableEq

def Part.spelled : Part → List Char
  | .char c => [c]
  | .literal inside => '`' :: (inside ++ ['`'])

/-- The parts of a query from the left. A backtick that opens no literal stands for itself. -/
def parts : List Char → List Part
  | [] => []
  | c :: cs =>
    if c = '`' then
      match _h : literal? cs with
      | some (inside, rest) => .literal inside :: parts rest
      | none => .char c :: parts cs
    else .char c :: parts cs
termination_by cs => cs.length
decreasing_by
  · exact length_lt_of_literal? ‹_› c
  · exact Nat.lt_succ_self _
  · exact Nat.lt_succ_self _

theorem spelled_parts (cs : List Char) : (parts cs).flatMap Part.spelled = cs := by
  fun_induction parts cs with
  | case1 => rfl
  | case2 cs inside rest h ih => simp [Part.spelled, ih, literal?_spells h]
  | case3 cs _ ih => simp [Part.spelled, ih]
  | case4 c cs _ ih => simp [Part.spelled, ih]

/-- The text between blanks is JSON. -/
def isJson (inside : List Char) : Bool := (Json.readValue (String.ofList (trim inside))).isSome

def inQuotes (cs : List Char) : List Char :=
  '"' :: (replaceChar '"' ['\\', '"'] (replaceChar '\\' ['\\', '\\'] cs) ++ ['"'])

/-- A literal that is no JSON becomes the text between its blanks. -/
def Part.settle : Part → Part
  | .char c => .char c
  | .literal inside => .literal (if isJson inside then inside else inQuotes (trim inside))

/-- The query with every literal that is no JSON in quotes. -/
def settleLiterals (query : String) : String :=
  String.ofList ((parts query.toList).flatMap fun p => p.settle.spelled)

example : settleLiterals "[?state==`READY`]" = "[?state==`\"READY\"`]" := by cbv
example : settleLiterals "[?n>`50`]" = "[?n>`50`]" := by cbv

end BackupAdmin.Query
