import BackupAdmin.Json.Number
import BackupAdmin.Query.Basic

/-! The value of a query on a value. -/
namespace BackupAdmin.Query

/-- A value that counts as true: not null, false, or empty. -/
def holds : Json → Bool
  | .null | .unreadable | .bool false | .string "" | .array [] | .object [] => false
  | _ => true

/-- The two zeros of binary64 as one. -/
def plainNumber : JsonNumber → JsonNumber
  | .float bits => .float (if bits = 0x8000000000000000 then 0 else bits)
  | n => n

mutual
/-- The value as far as equality sees it. -/
def plain : Json → Json
  | .number n => .number (plainNumber n)
  | .array items => .array (plainItems items)
  | .object ms => .object (plainMembers ms)
  | v => v
def plainItems : List Json → List Json
  | [] => []
  | v :: vs => plain v :: plainItems vs
def plainMembers : List (String × Json) → List (String × Json)
  | [] => []
  | (k, v) :: ms => (k, plain v) :: plainMembers ms
end

/-- The answer of a comparison; only numbers have an order. -/
def compare (how : Comparison) (a b : Json) : Json :=
  match how, a, b with
  | .equal, a, b => .bool (plain a = plain b)
  | .unequal, a, b => .bool (plain a ≠ plain b)
  | .less, .number m, .number n => .bool (m.toFloat < n.toFloat)
  | .atMost, .number m, .number n => .bool (m.toFloat ≤ n.toFloat)
  | .greater, .number m, .number n => .bool (n.toFloat < m.toFloat)
  | .atLeast, .number m, .number n => .bool (n.toFloat ≤ m.toFloat)
  | _, _, _ => .null

/-- The item at a place, counted from the end when negative. -/
def itemAt (i : Int) : Json → Json
  | .array items =>
    let place := if i < 0 then i + items.length else i
    if place < 0 then .null else items[place.toNat]?.getD .null
  | _ => .null

/-- An end of a slice as a place in a list of `n` items. -/
def place (n step i : Int) : Int :=
  if i < 0 then (if 0 ≤ i + n then i + n else if step < 0 then -1 else 0)
  else if i < n then i
  else if step < 0 then n - 1 else n

/-- The places from `i` on in steps, as long as they are before the end; there are at most `fuel`. -/
def places (step stop : Int) : (fuel : Nat) → Int → List Nat
  | 0, _ => []
  | fuel + 1, i =>
    if (if 0 < step then i < stop else stop < i) then i.toNat :: places step stop fuel (i + step)
    else []

/-- The items of a slice; the step is not zero. -/
def sliceItems (start stop : Option Int) (step : Int) (items : List Json) : List Json :=
  let n : Int := items.length
  let first := (start.map (place n step)).getD (if step < 0 then n - 1 else 0)
  let last := (stop.map (place n step)).getD (if step < 0 then -1 else n)
  if items.isEmpty then [] else (places step last items.length first).filterMap (items[·]?)

/-- One level of lists inside a list is removed. -/
def flattenItems : Json → Json
  | .array items => .array (items.flatMap fun
    | .array inner => inner
    | v => [v])
  | _ => .null

def memberValues : Json → Json
  | .object ms => .array (ms.map (·.2))
  | _ => .null

mutual
/-- The value of a query; `none` when it fails. There are no functions, so every call fails. -/
def eval : Query → Json → Option Json
  | .current, v => some v
  | .field name, v => some ((v.field? name).getD .null)
  | .index i, v => some (itemAt i v)
  | .slice start stop step, v =>
    if step = 0 then none
    else match v with
      | .array items => some (.array (sliceItems start stop step items))
      | _ => some .null
  | .literal c, _ => some c
  | .chain a b, v => (eval a v).bind (eval b)
  | .either a b, v => (eval a v).bind fun x => if holds x then some x else eval b v
  | .both a b, v => (eval a v).bind fun x => if holds x then eval b v else some x
  | .negation a, v => (eval a v).map fun x => .bool !(holds x)
  | .comparison how a b, v => do
    let x ← eval a v
    let y ← eval b v
    some (compare how x y)
  | .each items of, v => (eval items v).bind fun
    | .array xs => (xs.mapM (eval of)).map fun ys => .array (ys.filter (· ≠ .null))
    | _ => some .null
  | .guarded condition next, v =>
    (eval condition v).bind fun x => if holds x then eval next v else some .null
  | .flatten a, v => (eval a v).map flattenItems
  | .values a, v => (eval a v).map memberValues
  | .list items, v => if v = .null then some .null else (evalItems items v).map .array
  | .fields ms, v => if v = .null then some .null else (evalMembers ms v).map Json.record
  | .call _ _, _ => none
  | .reference _, _ => some .null
def evalItems : List Query → Json → Option (List Json)
  | [], _ => some []
  | q :: qs, v => do
    let x ← eval q v
    let xs ← evalItems qs v
    some (x :: xs)
def evalMembers : List (String × Query) → Json → Option (List (String × Json))
  | [], _ => some []
  | (k, q) :: ms, v => do
    let x ← eval q v
    let xs ← evalMembers ms v
    some ((k, x) :: xs)
end

end BackupAdmin.Query
