import BackupAdmin.Admin.Session

/-! Listings read page by page: a page is asked for when another item is wanted and the pages
read so far hold no more. -/
namespace BackupAdmin

/-- How to get one page, over states of type `τ`. -/
abbrev Fetch (τ α : Type) := PageRequest → τ → Except AdminError (Page α) × τ

/-- A listing: its source, and what all its pages are asked for with. -/
structure Pager (τ α : Type) where
  fetch : Fetch τ α
  filter : Option String := none
  pageSize : Option Nat := none

/-- What a reader got: items, the error that stopped it, and whether it has seen the end. -/
structure Taken (α : Type) where
  items : List α
  failure : Option AdminError := none
  ended : Bool := false

namespace Pager
variable {τ α : Type}

/-- The error of a page that names its own token as the next one. -/
def repeatedToken (token : String) : AdminError :=
  .decode (some ("page token '" ++ token ++ "' returned twice"))

/-- What follows a page that was asked for with `token`: the end, an error or another page. -/
def following (token : Option String) (page : Page α) : Except AdminError (Option String) :=
  match page.next with
  | none => .ok none
  | some next =>
    if next = "" then .ok none
    else if token = some next then .error (repeatedToken next)
    else .ok (some next)

/-- The first `want` of some items, or all of them for `none`. -/
def wanted (want : Option Nat) (items : List α) : List α :=
  match want with
  | none => items
  | some n => items.take n

/-- Reads `want` items, or all for `none`, from the page of a token on. There is no result when
page follows page for ever and they do not hold the items that are wanted. -/
def readFrom (p : Pager τ α) (token : Option String) (want : Option Nat) (t : τ) :
    Option (Taken α × τ) :=
  if want = some 0 then some (⟨[], none, false⟩, t)
  else
    let (result, t) := p.fetch ⟨p.filter, p.pageSize, token⟩ t
    match result with
    | .error e => some (⟨[], some e, false⟩, t)
    | .ok page => match following token page with
      | .error e => some (⟨[], some e, false⟩, t)
      | .ok next =>
        let items := wanted want page.items
        let left := want.map (· - items.length)
        if left = some 0 then some (⟨items, none, false⟩, t)
        else match next with
          | none => some (⟨items, none, true⟩, t)
          | some next => do
            let (rest, t) ← p |>.readFrom (some next) left t
            return (⟨items ++ rest.items, rest.failure, rest.ended⟩, t)
partial_fixpoint

def take (p : Pager τ α) (n : Nat) (t : τ) : Option (Taken α × τ) := p.readFrom none (some n) t

/-- All items, unless a page fails. -/
def collect (p : Pager τ α) (t : τ) : Option (Except AdminError (List α) × τ) := do
  let (taken, t) ← p.readFrom none none t
  match taken.failure with
  | some e => return (.error e, t)
  | none => return (.ok taken.items, t)

end Pager

namespace Client
variable {σ : Type}

def fetch (c : Client σ) {α : Type} (call : PageRequest → Call)
    (h : ∀ p, (call p).Answer = Page α) : Fetch (World σ) α := fun p w =>
  let r := c.service.answer (call p) w.service
  (r.result.map (h p ▸ ·), w.after (call p) r)

def backups (c : Client σ) (i : Instance) (filter : Option String) : Pager (World σ) Backup :=
  { fetch := c.fetch (.listBackups i) (fun _ => rfl), filter }

def operations (c : Client σ) (kind : OperationListKind) (i : Instance) (filter : Option String) :
    Pager (World σ) Operation :=
  { fetch := c.fetch (.listOperations kind i) (fun _ => rfl), filter }

end Client
end BackupAdmin
