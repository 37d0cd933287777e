import BackupAdmin.Query.Literal
import BackupAdmin.Query.Token
import BackupAdmin.Query.Value

/-! Reading queries by the strength with which a token holds on to what stands before it. Each
reader hands on what follows, which is shorter than its input, so reading ends. -/
namespace BackupAdmin.Query

/-- How strongly a token holds on to the expression before it. -/
def Token.strength : Token → Nat
  | .pipe => 1
  | .either => 2
  | .both => 3
  | .comparison _ => 5
  | .flatten => 9
  | .star => 20
  | .filter => 21
  | .dot => 40
  | .negation => 45
  | .openBrace => 50
  | .openBracket => 55
  | .openParen => 60
  | _ => 0

def strength : List Token → Nat
  | [] => 0
  | t :: _ => t.strength

/-- A token weaker than this ends what is done with each item of a list. -/
def eachLimit : Nat := 10

/-- A result with what follows it, of fewer than `n` tokens. -/
abbrev Within (α : Type) (n : Nat) := { r : α × List Token // r.2.length < n }

def expect? (t : Token) : (ts : List Token) → Option { r : List Token // r.length < ts.length }
  | u :: rest => if u = t then some ⟨rest, by simp⟩ else none
  | [] => none

def takeNumber : (ts : List Token) → Option Int × { r : List Token // r.length ≤ ts.length }
  | .number n :: rest => (some n, ⟨rest, by simp⟩)
  | ts => (none, ⟨ts, by simp⟩)

/-- The inside of brackets that hold numbers: one number, or a slice of up to three parts. -/
def brackets? (ts : List Token) : Option (Within (Int ⊕ (Option Int × Option Int × Int)) ts.length) :=
  let (a, ⟨ts₁, h₁⟩) := takeNumber ts
  match ts₁, a with
  | .closeBracket :: rest, some i => some ⟨(.inl i, rest), by simp at h₁ ⊢; omega⟩
  | .colon :: ts₂, a =>
    let (b, ⟨ts₃, h₃⟩) := takeNumber ts₂
    match ts₃ with
    | .closeBracket :: rest => some ⟨(.inr (a, b, 1), rest), by simp at h₁ h₃ ⊢; omega⟩
    | .colon :: ts₄ =>
      let (c, ⟨ts₅, h₅⟩) := takeNumber ts₄
      match ts₅ with
      | .closeBracket :: rest =>
        some ⟨(.inr (a, b, c.getD 1), rest), by simp at h₁ h₃ h₅ ⊢; omega⟩
      | _ => none
    | _ => none
  | _, _ => none

/-- What follows a star and the end of brackets. -/
def everyItem? (ts : List Token) : Option { r : List Token // r.length < ts.length } := do
  let ⟨rest, h⟩ ← expect? .star ts
  let ⟨more, h'⟩ ← expect? .closeBracket rest
  some ⟨more, by omega⟩

mutual
/-- An expression, up to a token that holds on to it no more strongly than `limit`. -/
def expression (limit : Nat) (ts : List Token) : Option (Within Query ts.length) := do
  let ⟨(q, rest), h⟩ ← operand ts
  let ⟨r, h'⟩ ← continuation limit q rest
  some ⟨r, by simp at h h'; omega⟩
termination_by (ts.length, 1)

/-- What follows an expression as far as it belongs to it. -/
def continuation (limit : Nat) (left : Query) (ts : List Token) :
    Option (Within Query (ts.length + 1)) :=
  if limit < strength ts then do
    let ⟨(q, rest), h⟩ ← extended left ts
    let ⟨r, h'⟩ ← continuation limit q rest
    some ⟨r, by simp at h h'; omega⟩
  else some ⟨(left, ts), by simp⟩
termination_by (ts.length, 1)

/-- An expression by its first token. -/
def operand : (ts : List Token) → Option (Within Query ts.length)
  | .current :: rest => some ⟨(.current, rest), by simp⟩
  | .name s :: rest => some ⟨(.field s, rest), by simp⟩
  | .quotedName s :: rest =>
    if rest.head? = some .openParen then none else some ⟨(.field s, rest), by simp⟩
  | .literal v :: rest => some ⟨(.literal v, rest), by simp⟩
  | .star :: rest => do
    let ⟨(q, r), h⟩ ← forEach Token.star.strength rest
    some ⟨(.each (.values .current) q, r), by simp at h ⊢; omega⟩
  | .flatten :: rest => do
    let ⟨(q, r), h⟩ ← forEach Token.flatten.strength rest
    some ⟨(.each (.flatten .current) q, r), by simp at h ⊢; omega⟩
  | .filter :: rest => do
    let ⟨(q, r), h⟩ ← filtered .current rest
    some ⟨(q, r), by simp at h ⊢; omega⟩
  | .openBracket :: rest => do
    let ⟨(q, r), h⟩ ← bracketed none rest
    some ⟨(q, r), by simp at h ⊢; omega⟩
  | .openBrace :: rest => do
    let ⟨(ms, r), h⟩ ← members rest
    some ⟨(.fields ms, r), by simp at h ⊢; omega⟩
  | .openParen :: rest => do
    let ⟨(q, r), h⟩ ← expression 0 rest
    let ⟨r', h'⟩ ← expect? .closeParen r
    some ⟨(q, r'), by simp at h h' ⊢; omega⟩
  | .reference :: rest => do
    let ⟨(q, r), h⟩ ← expression 0 rest
    some ⟨(.reference q, r), by simp at h ⊢; omega⟩
  | .negation :: rest => do
    let ⟨(q, r), h⟩ ← expression Token.negation.strength rest
    some ⟨(.negation q, r), by simp at h ⊢; omega⟩
  | _ => none
termination_by ts => (ts.length, 0)

/-- An expression to which the next token adds something. -/
def extended (left : Query) : (ts : List Token) → Option (Within Query ts.length)
  | .dot :: rest => match expect? .star rest with
    | some ⟨more, h'⟩ => do
      let ⟨(q, r), h⟩ ← forEach Token.star.strength more
      some ⟨(.each (.values left) q, r), by simp at h h' ⊢; omega⟩
    | none => do
      let ⟨(q, r), h⟩ ← selection Token.dot.strength rest
      some ⟨(.chain left q, r), by simp at h ⊢; omega⟩
  | .openBracket :: rest => do
    let ⟨(q, r), h⟩ ← bracketed (some left) rest
    some ⟨(q, r), by simp at h ⊢; omega⟩
  | .either :: rest => do
    let ⟨(q, r), h⟩ ← expression Token.either.strength rest
    some ⟨(.either left q, r), by simp at h ⊢; omega⟩
  | .both :: rest => do
    let ⟨(q, r), h⟩ ← expression Token.both.strength rest
    some ⟨(.both left q, r), by simp at h ⊢; omega⟩
  | .pipe :: rest => do
    let ⟨(q, r), h⟩ ← expression Token.pipe.strength rest
    some ⟨(.chain left q, r), by simp at h ⊢; omega⟩
  | .comparison how :: rest => do
    let ⟨(q, r), h⟩ ← expression (Token.comparison how).strength rest
    some ⟨(.comparison how left q, r), by simp at h ⊢; omega⟩
  | .openParen :: rest => match left with
    | .field name => do
      let ⟨(qs, r), h⟩ ← items .closeParen rest
      some ⟨(.call name qs, r), by simp at h ⊢; omega⟩
    | _ => none
  | .flatten :: rest => do
    let ⟨(q, r), h⟩ ← forEach Token.flatten.strength rest
    some ⟨(.each (.flatten left) q, r), by simp at h ⊢; omega⟩
  | .filter :: rest => do
    let ⟨(q, r), h⟩ ← filtered left rest
    some ⟨(q, r), by simp at h ⊢; omega⟩
  | _ => none
termination_by ts => (ts.length, 0)

/-- What is done with each item of a list. -/
def forEach (limit : Nat) (ts : List Token) : Option (Within Query (ts.length + 1)) :=
  match ts with
  | .dot :: rest => do
    let ⟨(q, r), h⟩ ← selection limit rest
    some ⟨(q, r), by simp at h ⊢; omega⟩
  | .openBracket :: rest => do
    let ⟨(q, r), h⟩ ← expression limit (.openBracket :: rest)
    some ⟨(q, r), by simp at h ⊢; omega⟩
  | .filter :: rest => do
    let ⟨(q, r), h⟩ ← expression limit (.filter :: rest)
    some ⟨(q, r), by simp at h ⊢; omega⟩
  | ts => if strength ts < eachLimit then some ⟨(.current, ts), by simp⟩ else none
termination_by (ts.length, 3)

/-- What may follow a dot. -/
def selection (limit : Nat) (ts : List Token) : Option (Within Query ts.length) :=
  match ts with
  | .openBracket :: rest => do
    let ⟨(qs, r), h⟩ ← items .closeBracket rest
    some ⟨(.list qs, r), by simp at h ⊢; omega⟩
  | t :: rest => match t with
    | .name _ | .quotedName _ | .star | .openBrace | .reference => expression limit (t :: rest)
    | _ => none
  | [] => none
termination_by (ts.length, 2)

/-- The inside of brackets: a number, a slice or a star; or expressions, if nothing is before. -/
def bracketed (left : Option Query) (ts : List Token) : Option (Within Query ts.length) :=
  match brackets? ts with
  | some ⟨(.inl i, rest), h⟩ => some ⟨(.chain (left.getD .current) (.index i), rest), h⟩
  | some ⟨(.inr (start, stop, step), rest), h⟩ => do
    let ⟨(q, r), h'⟩ ← forEach Token.star.strength rest
    some ⟨(.chain (left.getD .current) (.each (.slice start stop step) q), r),
      by simp at h h' ⊢; omega⟩
  | none => match everyItem? ts, left with
    | some ⟨rest, h⟩, left => do
      let ⟨(q, r), h'⟩ ← forEach Token.star.strength rest
      some ⟨(.each (left.getD .current) q, r), by simp at h h' ⊢; omega⟩
    | none, none => do
      let ⟨(qs, r), h⟩ ← items .closeBracket ts
      some ⟨(.list qs, r), h⟩
    | none, some _ => none
termination_by (ts.length, 3)

/-- A condition, and what is done with each item for which it holds. -/
def filtered (left : Query) (ts : List Token) : Option (Within Query ts.length) := do
  let ⟨(condition, rest), h⟩ ← expression 0 ts
  let ⟨rest', h'⟩ ← expect? .closeBracket rest
  have : rest'.length < ts.length := Nat.lt_trans h' h
  let ⟨(q, r), h''⟩ ← forEach Token.filter.strength rest'
  some ⟨(.each left (.guarded condition q), r), by simp at h h' h'' ⊢; omega⟩
termination_by (ts.length, 2)

/-- Expressions up to a closing token. A comma between them may be left out, but none may stand
before the closing token. -/
def items (closing : Token) (ts : List Token) : Option (Within (List Query) ts.length) :=
  match expect? closing ts with
  | some ⟨rest, h⟩ => some ⟨([], rest), h⟩
  | none => do
    let ⟨(q, rest), h⟩ ← expression 0 ts
    match expect? .comma rest with
    | some ⟨rest', h'⟩ =>
      if rest'.head? = some closing then none
      else
        have : rest'.length < ts.length := Nat.lt_trans h' h
        let ⟨(qs, r), h''⟩ ← items closing rest'
        some ⟨(q :: qs, r), by simp at h h' h'' ⊢; omega⟩
    | none =>
      let ⟨(qs, r), h''⟩ ← items closing rest
      some ⟨(q :: qs, r), by simp at h h'' ⊢; omega⟩
termination_by (ts.length, 2)

/-- A name or a text in quotes, a colon and an expression. -/
def members (ts : List Token) : Option (Within (List (String × Query)) ts.length) :=
  match ts with
  | .name k :: .colon :: rest => do
    let ⟨(ms, r), h⟩ ← membersAfter k rest
    some ⟨(ms, r), by simp at h ⊢; omega⟩
  | .quotedName k :: .colon :: rest => do
    let ⟨(ms, r), h⟩ ← membersAfter k rest
    some ⟨(ms, r), by simp at h ⊢; omega⟩
  | _ => none
termination_by (ts.length, 0)

/-- The value of a key and the members behind it. -/
def membersAfter (k : String) (ts : List Token) :
    Option (Within (List (String × Query)) ts.length) := do
  let ⟨(q, rest), h⟩ ← expression 0 ts
  match expect? .closeBrace rest with
  | some ⟨r, h'⟩ => some ⟨([(k, q)], r), by simp at h h' ⊢; omega⟩
  | none =>
    let ⟨rest', h'⟩ ← expect? .comma rest
    have : rest'.length < ts.length := Nat.lt_trans h' h
    let ⟨(ms, r), h''⟩ ← members rest'
    some ⟨((k, q) :: ms, r), by simp at h h' h'' ⊢; omega⟩
termination_by (ts.length, 2)
end

def read? (query : String) : Option Query :=
  match tokens (settleLiterals query).toList with
  | none => none
  | some ts => match expression 0 ts with
    | some ⟨(q, []), _⟩ => some q
    | _ => none

/-- Why there is no answer to a query. -/
inductive Fault where
  | invalid (query : String)
  | failed
deriving DecidableEq

def Fault.message : Fault → String
  | .invalid query => "Invalid JMESPath expression: " ++ query
  | .failed => "JMESPath query failed"

/-- The answer to a query on a value. -/
def answer (query : String) (v : Json) : Except Fault Json :=
  match read? query with
  | none => .error (.invalid query)
  | some q => match eval q v with
    | none => .error .failed
    | some x => .ok x

end BackupAdmin.Query
