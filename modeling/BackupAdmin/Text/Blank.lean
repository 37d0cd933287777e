/-! Blank characters, trimming and splitting of texts, all over lists of characters. -/
namespace BackupAdmin.Text

/-- A character is blank when the Unicode property White_Space holds of it. -/
def isBlank (c : Char) : Bool :=
  let n := c.toNat
  (9 ≤ n && n ≤ 13) || n == 0x20 || n == 0x85 || n == 0xA0 || n == 0x1680 ||
    (0x2000 ≤ n && n ≤ 0x200A) || n == 0x2028 || n == 0x2029 || n == 0x202F || n == 0x205F ||
    n == 0x3000

def trimStart (cs : List Char) : List Char := cs.dropWhile isBlank

/-- Removes the characters at the end that satisfy `p`. -/
def dropEndWhile (p : Char → Bool) (cs : List Char) : List Char := (cs.reverse.dropWhile p).reverse

/-- Removes the characters at both ends that satisfy `p`. -/
def trimWhile (p : Char → Bool) (cs : List Char) : List Char := dropEndWhile p (cs.dropWhile p)

def trim (cs : List Char) : List Char := trimWhile isBlank cs

/-- The pieces between the occurrences of `sep`: one more than there are occurrences. -/
def pieces (sep : Char) : List Char → List (List Char)
  | [] => [[]]
  | c :: cs =>
    if c = sep then [] :: pieces sep cs
    else match pieces sep cs with
      | [] => [[c]]
      | p :: ps => (c :: p) :: ps

/-- The last piece: what follows the last occurrence of `sep`. -/
def lastPiece (sep : Char) (cs : List Char) : List Char :=
  (cs.reverse.takeWhile (· ≠ sep)).reverse

theorem lastPiece_append {sep : Char} (cs : List Char) {ds : List Char} (h : sep ∉ ds) :
    lastPiece sep (cs ++ sep :: ds) = ds := by
  have keep : ∀ c ∈ ds.reverse, decide (c ≠ sep) = true := fun c mem =>
    decide_eq_true fun same => h (same ▸ List.mem_reverse.1 mem)
  rw [lastPiece, List.reverse_append, List.reverse_cons, List.append_assoc,
    List.takeWhile_append_of_pos keep]
  simp

/-- What follows the text `p` at the start of `cs`. -/
def after? (p cs : List Char) : Option (List Char) :=
  if p.isPrefixOf cs then some (cs.drop p.length) else none

/-- The text before and the text after the first occurrence of `sep`. -/
def splitFirst? (sep : List Char) : List Char → Option (List Char × List Char)
  | [] => if sep.isEmpty then some ([], []) else none
  | c :: cs => match after? sep (c :: cs) with
    | some rest => some ([], rest)
    | none => (splitFirst? sep cs).map fun (before, rest) => (c :: before, rest)

/-- The pieces between the occurrences of the text `sep`, from the left; while `skip` counts down,
characters belong to an occurrence. -/
def piecesFrom (sep : List Char) : Nat → List Char → List (List Char)
  | _, [] => [[]]
  | skip + 1, _ :: cs => piecesFrom sep skip cs
  | 0, c :: cs =>
    if sep.isPrefixOf (c :: cs) then [] :: piecesFrom sep (sep.length - 1) cs
    else match piecesFrom sep 0 cs with
      | [] => [[c]]
      | p :: ps => (c :: p) :: ps

def contains (p cs : List Char) : Bool := (splitFirst? p cs).isSome

/-- Every occurrence of the character `c` becomes `by`. -/
def replaceChar (c : Char) (r : List Char) (cs : List Char) : List Char :=
  cs.flatMap fun x => if x = c then r else [x]

/-- The texts one after the other with `sep` between them. -/
def joinWith (sep : String) : List String → String
  | [] => ""
  | [s] => s
  | s :: t :: rest => s ++ sep ++ joinWith sep (t :: rest)

def lower (s : String) : String := String.ofList (s.toList.map Char.toLower)

/-- Two texts are equal but for the case of ASCII letters. -/
def equalFold (a b : List Char) : Bool := a.map Char.toLower == b.map Char.toLower

example : pieces '/' "a//b".toList = [['a'], [], ['b']] := by decide
example : lastPiece '/' "a/b/c".toList = ['c'] := by decide
example : trim " x ".toList = ['x'] := by decide

end BackupAdmin.Text
