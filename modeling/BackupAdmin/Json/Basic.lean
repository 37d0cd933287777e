/-! JSON values as a reader finds them: members keep their order and their repetitions. -/
namespace BackupAdmin

/-- A number of a JSON text is a whole number of at most 64 bits or a binary64 number by its bits. -/
inductive JsonNumber where
  | int (n : Int)
  | float (bits : UInt64)
deriving DecidableEq

/-- A JSON value. An `unreadable` leaf is well-formed text that denotes no value: a lone
surrogate, a number beyond the range, or a nesting too deep. It may only be skipped. -/
inductive Json where
  | null
  | bool (b : Bool)
  | number (n : JsonNumber)
  | string (s : String)
  | array (items : List Json)
  | object (members : List (String × Json))
  | unreadable
deriving Inhabited

namespace Json

mutual
def decEq : (a b : Json) → Decidable (a = b)
  | .null, .null => isTrue rfl
  | .bool a, .bool b =>
    if h : a = b then isTrue (by rw [h]) else isFalse fun e => h (by cases e; rfl)
  | .number a, .number b =>
    if h : a = b then isTrue (by rw [h]) else isFalse fun e => h (by cases e; rfl)
  | .string a, .string b =>
    if h : a = b then isTrue (by rw [h]) else isFalse fun e => h (by cases e; rfl)
  | .array a, .array b => match decEqItems a b with
    | isTrue h => isTrue (by rw [h])
    | isFalse h => isFalse fun e => h (by cases e; rfl)
  | .object a, .object b => match decEqMembers a b with
    | isTrue h => isTrue (by rw [h])
    | isFalse h => isFalse fun e => h (by cases e; rfl)
  | .unreadable, .unreadable => isTrue rfl
  | .null, .bool _ | .null, .number _ | .null, .string _ | .null, .array _ | .null, .object _
  | .null, .unreadable | .bool _, .null | .bool _, .number _ | .bool _, .string _
  | .bool _, .array _ | .bool _, .object _ | .bool _, .unreadable | .number _, .null
  | .number _, .bool _ | .number _, .string _ | .number _, .array _ | .number _, .object _
  | .number _, .unreadable | .string _, .null | .string _, .bool _ | .string _, .number _
  | .string _, .array _ | .string _, .object _ | .string _, .unreadable | .array _, .null
  | .array _, .bool _ | .array _, .number _ | .array _, .string _ | .array _, .object _
  | .array _, .unreadable | .object _, .null | .object _, .bool _ | .object _, .number _
  | .object _, .string _ | .object _, .array _ | .object _, .unreadable | .unreadable, .null
  | .unreadable, .bool _ | .unreadable, .number _ | .unreadable, .string _
  | .unreadable, .array _ | .unreadable, .object _ => isFalse (by intro e; cases e)
def decEqItems : (a b : List Json) → Decidable (a = b)
  | [], [] => isTrue rfl
  | a :: as, b :: bs => match decEq a b, decEqItems as bs with
    | isTrue h, isTrue t => isTrue (by rw [h, t])
    | isFalse h, _ => isFalse fun e => h (by cases e; rfl)
    | _, isFalse t => isFalse fun e => t (by cases e; rfl)
  | [], _ :: _ | _ :: _, [] => isFalse (by intro e; cases e)
def decEqMembers : (a b : List (String × Json)) → Decidable (a = b)
  | [], [] => isTrue rfl
  | (k, a) :: as, (l, b) :: bs => match decEq a b, decEqMembers as bs with
    | isTrue h, isTrue t =>
      if e : k = l then isTrue (by rw [e, h, t]) else isFalse (by simp [e])
    | isFalse h, _ => isFalse (by simp_all)
    | _, isFalse t => isFalse (by simp_all)
  | [], _ :: _ | _ :: _, [] => isFalse (by intro e; cases e)
end

instance : DecidableEq Json := decEq

def ofInt (n : Int) : Json := .number (.int n)

def ofNat (n : Nat) : Json := .number (.int n)

def ofOption {α : Type} (f : α → Json) : Option α → Json
  | none => .null
  | some a => f a

/-- Puts a member at its place in the order of keys, in place of one with the same key. -/
def insertMember (k : String) (v : Json) : List (String × Json) → List (String × Json)
  | [] => [(k, v)]
  | (l, w) :: rest =>
    if k < l then (k, v) :: (l, w) :: rest
    else if k = l then (k, v) :: rest
    else (l, w) :: insertMember k v rest

/-- The members in the order of their keys; of a repeated key the last one stays. -/
def sortMembers (ms : List (String × Json)) : List (String × Json) :=
  ms.foldl (fun acc (k, v) => insertMember k v acc) []

mutual
/-- The value with the members of every object sorted; `none` when some part is unreadable. -/
def canonical? : Json → Option Json
  | .array items => (canonicalItems? items).map .array
  | .object ms => (canonicalMembers? ms).map (.object ∘ sortMembers)
  | .unreadable => none
  | v => some v
def canonicalItems? : List Json → Option (List Json)
  | [] => some []
  | v :: vs => do
    let v ← canonical? v
    let vs ← canonicalItems? vs
    some (v :: vs)
def canonicalMembers? : List (String × Json) → Option (List (String × Json))
  | [] => some []
  | (k, v) :: ms => do
    let v ← canonical? v
    let ms ← canonicalMembers? ms
    some ((k, v) :: ms)
end

def record (ms : List (String × Json)) : Json := .object (sortMembers ms)

def field? (v : Json) (k : String) : Option Json :=
  match v with
  | .object ms => ms.lookup k
  | _ => none

example : record [("b", .null), ("a", .null), ("b", .bool true)] =
    .object [("a", .null), ("b", .bool true)] := by decide

end Json
end BackupAdmin
