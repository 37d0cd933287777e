import BackupAdmin.Toml.Scalar
import BackupAdmin.Toml.Table
import BackupAdmin.Toml.Token

/-! Reading TOML text. Each reader of values hands on what follows, which is shorter than its
input, so reading ends. -/
namespace BackupAdmin.Toml

/-- What follows a part of `ts`. -/
abbrev Rest (ts : List Token) := { r : List Token // r.length < ts.length }

/-- Tokens that a dotted key is made of. -/
def isKeyToken : Token → Bool
  | .gap _ | .dot | .bare _ | .quoted .. => true
  | _ => false

def isGapToken : Token → Bool
  | .gap _ => true
  | _ => false

/-- Tokens that may stand between the items of a list. -/
def isFiller : Token → Bool
  | .gap _ | .newline => true
  | _ => false

theorem length_dropFiller_le (ts : List Token) : (ts.dropWhile isFiller).length ≤ ts.length :=
  (List.dropWhile_sublist isFiller).length_le

/-- What follows a token that has to be there, behind blanks and line ends. -/
def next? (t : Token) (ts : List Token) : Option (Rest ts) :=
  have h := length_dropFiller_le ts
  match h₁ : ts.dropWhile isFiller with
  | u :: r => if u = t then some ⟨r, by rw [h₁] at h; exact h⟩ else none
  | [] => none

/-- What follows the sign between a key and its value, and the blanks behind it. -/
def afterEquals? : (ts : List Token) → Option (Rest ts)
  | .equals :: r =>
    some ⟨r.dropWhile isGapToken, Nat.lt_succ_of_le (List.dropWhile_sublist isGapToken).length_le⟩
  | _ => none

/-- A part of a key: a text on one line, or a run of letters, digits, `_` and `-`. -/
def keyPart? : Token → Option String
  | .bare cs =>
    if cs.all fun c => c.isAlphanum || c = '_' || c = '-' then some (String.ofList cs) else none
  | .quoted cs false => some (String.ofList cs)
  | _ => none

/-- The parts between dots. -/
def keyParts? : List Token → Option (List String)
  | [t] => (keyPart? t).map ([·])
  | t :: .dot :: rest => do
    let k ← keyPart? t
    let ks ← keyParts? rest
    some (k :: ks)
  | _ => none

def key? (ts : List Token) : Option (List String × { r : List Token // r.length ≤ ts.length }) :=
  let own := ts.takeWhile isKeyToken
  (keyParts? (own.filter (!isGapToken ·))).map (·, ⟨ts.drop own.length, by simp⟩)

/-- The characters of the runs and dots at the start. -/
def run : List Token → List Char
  | .bare cs :: r => cs ++ run r
  | .dot :: r => '.' :: run r
  | _ => []

/-- What follows the runs and dots at the start. -/
def afterRun : List Token → List Token
  | .bare _ :: r => afterRun r
  | .dot :: r => afterRun r
  | ts => ts

theorem afterRun_length (ts : List Token) : (afterRun ts).length ≤ ts.length := by
  fun_induction afterRun ts <;> simp <;> omega

/-- A value without quotes that starts with a run; a blank may stand between a date and a time. -/
def bareValue? (cs : List Char) (r : List Token) : Option (Json × Rest (.bare cs :: r)) :=
  let first := cs ++ run r
  have h := afterRun_length r
  match h₁ : afterRun r with
  | .gap [' '] :: .bare ds :: r₁ =>
    have h₂ := afterRun_length r₁
    have : (afterRun r₁).length < r.length + 1 := by simp_all; omega
    if afterDate? first = some [] then
      (scalar? (first ++ ' ' :: ds ++ run r₁)).map (·, ⟨afterRun r₁, this⟩)
    else (scalar? first).map (·, ⟨afterRun r, Nat.lt_succ_of_le h⟩)
  | _ => (scalar? first).map (·, ⟨afterRun r, Nat.lt_succ_of_le h⟩)

mutual
def value? (ts : List Token) : Option (Json × Rest ts) :=
  match ts with
  | .quoted cs _ :: r => some (.string (String.ofList cs), ⟨r, by simp⟩)
  | .bare cs :: r => bareValue? cs r
  | .openBracket :: r => match items? r with
    | some (vs, ⟨r', _⟩) => some (.array vs, ⟨r', by simp; omega⟩)
    | none => none
  | .openBrace :: r => match members? [] r with
    | some (v, ⟨r', _⟩) => some (v, ⟨r', by simp; omega⟩)
    | none => none
  | _ => none
termination_by 2 * ts.length
decreasing_by all_goals simp only [List.length_cons]; omega

/-- The items up to the bracket that closes them. -/
def items? (ts : List Token) : Option (List Json × Rest ts) :=
  match next? .closeBracket ts with
  | some r => some ([], r)
  | none =>
    have h := length_dropFiller_le ts
    match value? (ts.dropWhile isFiller) with
    | none => none
    | some (v, ⟨r, _⟩) => match next? .closeBracket r, next? .comma r with
      | some ⟨r₁, _⟩, _ => some ([v], ⟨r₁, by omega⟩)
      | none, some ⟨r₁, _⟩ => match items? r₁ with
        | some (vs, ⟨r₂, _⟩) => some (v :: vs, ⟨r₂, by omega⟩)
        | none => none
      | none, none => none
termination_by 2 * ts.length + 1
decreasing_by all_goals omega

/-- The table of the members up to the brace that closes them, after those already read. -/
def members? (ms : Members) (ts : List Token) : Option (Json × Rest ts) :=
  match next? .closeBrace ts with
  | some r => some (.object (membersJson ms), r)
  | none =>
    have h := length_dropFiller_le ts
    match key? (ts.dropWhile isFiller) with
    | none => none
    | some (path, ⟨u, _⟩) => match afterEquals? u with
      | none => none
      | some ⟨w, _⟩ => match value? w with
        | none => none
        | some (v, ⟨r, _⟩) => match addValue path v ms with
          | none => none
          | some ms => match next? .closeBrace r, next? .comma r with
            | some ⟨r₁, _⟩, _ => some (.object (membersJson ms), ⟨r₁, by omega⟩)
            | none, some ⟨r₁, _⟩ => match members? ms r₁ with
              | some (v, ⟨r₂, _⟩) => some (v, ⟨r₂, by omega⟩)
              | none => none
            | none, none => none
termination_by 2 * ts.length + 1
decreasing_by all_goals omega
end

def lineEnd? (ts : List Token) : Option (List Token) :=
  match ts.dropWhile isGapToken with
  | [] => some []
  | .newline :: r => some r
  | _ => none

/-- The document so far: its members and the name of the table that is open. -/
structure Document where
  members : Members := []
  here : List String := []

/-- A header with the closing brackets that it needs, and what follows its line. -/
def header? (many : Bool) (d : Document) (ts : List Token) : Option (Document × List Token) := do
  let (path, ⟨r, _⟩) ← key? ts
  let r ← match many, r with
    | true, .closeBracket :: .closeBracket :: r => some r
    | false, .closeBracket :: r => some r
    | _, _ => none
  let r ← lineEnd? r
  let ms ← openTable many path d.members
  some (⟨ms, path⟩, r)

/-- A key with its value, and what follows its line. -/
def pair? (d : Document) (ts : List Token) : Option (Document × List Token) := do
  let (path, ⟨r, _⟩) ← key? ts
  let ⟨r, _⟩ ← afterEquals? r
  let (v, ⟨r, _⟩) ← value? r
  let r ← lineEnd? r
  let ms ← changeAt (addValue path v) d.here d.members
  some ({ d with members := ms }, r)

/-- Reads line after line; at most `lines` are left. -/
def readLines : Nat → Document → List Token → Option Document
  | 0, _, _ => none
  | lines + 1, d, ts => match ts.dropWhile isFiller with
    | [] => some d
    | .openBracket :: .openBracket :: r => do
      let (d, r) ← header? true d r
      readLines lines d r
    | .openBracket :: r => do
      let (d, r) ← header? false d r
      readLines lines d r
    | ts => do
      let (d, r) ← pair? d ts
      readLines lines d r

/-- The value of a TOML text. A mark of the byte order in front is skipped. -/
def read (s : String) : Option Json := do
  let cs := match s.toList with
    | '\uFEFF' :: cs => cs
    | cs => cs
  let ts ← tokens cs
  let d ← readLines (ts.length + 1) {} ts
  some (.object (membersJson d.members))

example : read "a.b = 1\n[c]\nd = [1, 2,]" = some (.object [("a", .object [("b", .ofInt 1)]),
    ("c", .object [("d", .array [.ofInt 1, .ofInt 2])])]) := by decide +kernel
example : read "a = 1\na = 2" = none := by decide +kernel

end BackupAdmin.Toml
