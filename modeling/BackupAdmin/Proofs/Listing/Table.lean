import BackupAdmin.Proofs.Listing.Reading
import Mathlib.Logic.Relation
import Mathlib.Data.List.Perm.Subperm

/-! Listings over a finite table of pages. Main statement: such a listing ends within one request
more than the table has entries, unless its tokens run in a circle; then it never ends. -/
namespace BackupAdmin
open Relation
variable {α : Type}

/-- The answers to requests by their tokens, that to the first request under none. A token that is
not there is answered with an error. -/
structure PageTable (α : Type) where
  entries : List (Option String × Except AdminError (Page α))
  absent : Option String → AdminError

namespace PageTable

def answer (tb : PageTable α) (token : Option String) : Except AdminError (Page α) :=
  (tb.entries.lookup token).getD (.error (tb.absent token))

def pager (tb : PageTable α) (filter : Option String) (pageSize : Option Nat) : Pager Unit α :=
  { fetch := fun r t => (tb.answer r.token, t), filter, pageSize }

/-- The page of one token names another one as the next. -/
def Leads (tb : PageTable α) (a b : Option String) : Prop :=
  ∃ page next, tb.answer a = .ok page ∧ page.next.filter (· ≠ "") = some next ∧
    b = some next ∧ a ≠ b

/-- Among the tokens that a listing comes to, one leads back to itself through others. -/
def Circular (tb : PageTable α) : Prop :=
  ∃ token, ReflTransGen tb.Leads none token ∧ TransGen tb.Leads token token

/-- The chain of pages from a token on, as far as `k` requests. -/
def chain (tb : PageTable α) (filter : Option String) (pageSize : Option Nat) (k : Nat)
    (token : Option String) : Walk Unit α := (tb.pager filter pageSize).walk k token ()

section
variable {tb : PageTable α} {filter : Option String} {pageSize : Option Nat}
  {token a b : Option String}

theorem chain_leads (filter : Option String) (pageSize : Option Nat) (h : tb.Leads a b) (k : Nat) :
    ∃ page, tb.chain filter pageSize (k + 1) a =
      (tb.chain filter pageSize k b).cons page ⟨filter, pageSize, a⟩ := by
  obtain ⟨page, next, answer, more, rfl, other⟩ := h
  have fetched : (tb.pager filter pageSize).fetch ((tb.pager filter pageSize).request a) () =
      (.ok page, ()) := congrArg (·, ()) answer
  exact ⟨page, Pager.walk_next fetched more other k⟩

/-- A token leads to another one, or its request is the last one. -/
theorem leads_or_closed (tb : PageTable α) (filter : Option String) (pageSize : Option Nat)
    (token : Option String) :
    (∃ next, tb.Leads token next) ∨ ∀ k,
      (∀ next, (tb.chain filter pageSize (k + 1) token).cursor ≠ .next next) ∧
        (tb.chain filter pageSize (k + 1) token).requests = [⟨filter, pageSize, token⟩] := by
  rcases (tb.pager filter pageSize).fetch_cases token () with ⟨e, _, answer⟩ |
    ⟨page, _, answer, last | ⟨next, more, same | other⟩⟩
  · refine .inr fun k => ?_
    rw [chain, Pager.walk_failed answer]
    exact ⟨by simp, rfl⟩
  · refine .inr fun k => ?_
    rw [chain, Pager.walk_ended answer last]
    exact ⟨by simp, rfl⟩
  · refine .inr fun k => ?_
    rw [chain, Pager.walk_repeated answer more same]
    exact ⟨by simp, rfl⟩
  · exact .inl ⟨some next, page, next, congrArg (·.1) answer, more, rfl, other⟩

/-- A token that leads to another one is in the table. -/
theorem Leads.mem_keys (h : tb.Leads a b) : a ∈ tb.entries.map (·.1) := by
  obtain ⟨page, next, answer, -⟩ := h
  by_contra missing
  have absent : tb.entries.lookup a = none := by
    refine List.lookup_eq_none_iff.2 fun entry mem => ?_
    simpa using fun same => missing (List.mem_map.2 ⟨entry, mem, same.symm⟩)
  simp [PageTable.answer, absent] at answer

theorem length_requests_le (tb : PageTable α) (filter : Option String) (pageSize : Option Nat)
    (k : Nat) (token : Option String) :
    (tb.chain filter pageSize k token).requests.length ≤ k := by
  induction k generalizing token with
  | zero => exact Nat.le_refl 0
  | succ k ih =>
    rcases tb.leads_or_closed filter pageSize token with ⟨next, leads⟩ | closed
    · obtain ⟨page, eq⟩ := chain_leads filter pageSize leads k
      rw [eq]
      exact Nat.succ_le_succ (ih next)
    · rw [(closed k).2]
      exact Nat.succ_le_succ (Nat.zero_le k)

/-- Every request has a token that the first one leads to, and each token leads to those of the
requests after it. -/
theorem chain_tokens (tb : PageTable α) (filter : Option String) (pageSize : Option Nat) (k : Nat)
    (token : Option String) :
    (∀ r ∈ (tb.chain filter pageSize k token).requests, ReflTransGen tb.Leads token r.token) ∧
      ((tb.chain filter pageSize k token).requests.map (·.token)).Pairwise (TransGen tb.Leads) := by
  induction k generalizing token with
  | zero => simp [chain, Pager.walk]
  | succ k ih =>
    rcases tb.leads_or_closed filter pageSize token with ⟨next, leads⟩ | closed
    · obtain ⟨page, eq⟩ := chain_leads filter pageSize leads k
      obtain ⟨reached, ordered⟩ := ih next
      have behind {t : Option String} (mem : t ∈
          (tb.chain filter pageSize k next).requests.map (·.token)) :
          TransGen tb.Leads token t := by
        obtain ⟨r, asked, rfl⟩ := List.mem_map.1 mem
        exact .head' leads (reached r asked)
      rw [eq]
      refine ⟨List.forall_mem_cons.2 ⟨.refl, fun r mem => ?_⟩, ?_⟩
      · exact (behind (List.mem_map_of_mem mem)).to_reflTransGen
      · exact List.pairwise_cons.2 ⟨fun t => behind, ordered⟩
    · simp [(closed k).2, ReflTransGen.refl]

/-- A chain that goes on has made all its requests, each of them for a token in the table. -/
theorem chain_open {next : Option String} (k : Nat) (token : Option String)
    (goes_on : (tb.chain filter pageSize k token).cursor = .next next) :
    (tb.chain filter pageSize k token).requests.length = k ∧
      ∀ r ∈ (tb.chain filter pageSize k token).requests, r.token ∈ tb.entries.map (·.1) := by
  induction k generalizing token with
  | zero => simp [chain, Pager.walk]
  | succ k ih =>
    rcases tb.leads_or_closed filter pageSize token with ⟨t, leads⟩ | closed
    · obtain ⟨page, eq⟩ := chain_leads filter pageSize leads k
      rw [eq, Walk.cursor_cons] at goes_on
      obtain ⟨length, known⟩ := ih t goes_on
      rw [eq]
      exact ⟨congrArg (· + 1) length, List.forall_mem_cons.2 ⟨leads.mem_keys, known⟩⟩
    · exact absurd goes_on ((closed k).1 next)

/-- Without a circle the chain is closed after one request more than there are entries. -/
theorem chain_closed (filter : Option String) (pageSize : Option Nat) (straight : ¬ tb.Circular)
    (next : Option String) :
    (tb.chain filter pageSize (tb.entries.length + 1) none).cursor ≠ .next next := by
  intro goes_on
  obtain ⟨length, known⟩ := chain_open _ _ goes_on
  obtain ⟨reached, ordered⟩ := tb.chain_tokens filter pageSize (tb.entries.length + 1) none
  -- tokens that repeat would run in a circle, and without repetition there are too few entries
  have distinct : ((tb.chain filter pageSize (tb.entries.length + 1) none).requests.map
      (·.token)).Nodup := by
    refine ordered.imp_of_mem fun {a b} mem _ behind same => straight ?_
    obtain ⟨r, asked, rfl⟩ := List.mem_map.1 mem
    exact ⟨r.token, reached r asked, same ▸ behind⟩
  have inside : ((tb.chain filter pageSize (tb.entries.length + 1) none).requests.map
      (·.token)) ⊆ tb.entries.map (·.1) := by
    intro t mem
    obtain ⟨r, asked, rfl⟩ := List.mem_map.1 mem
    exact known r asked
  have le := (List.subperm_of_subset distinct inside).length_le
  rw [List.length_map, List.length_map, length] at le
  exact absurd le (Nat.not_succ_le_self _)

theorem chain_goes_on (filter : Option String) (pageSize : Option Nat) (h : TransGen tb.Leads a a)
    (k : Nat) :
    ∃ next, (tb.chain filter pageSize k a).cursor = .next next := by
  induction k generalizing a with
  | zero => exact ⟨a, rfl⟩
  | succ k ih =>
    obtain ⟨b, leads, back⟩ := TransGen.head'_iff.1 h
    obtain ⟨page, eq⟩ := chain_leads filter pageSize leads k
    rw [eq, Walk.cursor_cons]
    exact ih (.tail' back leads)

/-- A listing that comes to a circle goes on after any number of requests. -/
theorem Circular.goes_on (filter : Option String) (pageSize : Option Nat) (h : tb.Circular)
    (k : Nat) :
    ∃ next, (tb.chain filter pageSize k none).cursor = .next next := by
  obtain ⟨token, path, circle⟩ := h
  generalize none = start at path ⊢
  induction path using ReflTransGen.head_induction_on generalizing k with
  | refl => exact chain_goes_on filter pageSize circle k
  | @head a b leads _ ih =>
    cases k with
    | zero => exact ⟨a, rfl⟩
    | succ k =>
      obtain ⟨page, eq⟩ := chain_leads filter pageSize leads k
      rw [eq, Walk.cursor_cons]
      exact ih k

/-- Collecting ends just when the chain is closed, and then tells how. -/
theorem collect_eq_some_iff {result : Except AdminError (List α)} {log : List PageRequest} :
    (tb.pager filter pageSize).recorded.collect ((), []) = some (result, (), log) ↔
      ∃ k, (((tb.chain filter pageSize k none).cursor = .ended ∧
          result = .ok (tb.chain filter pageSize k none).items) ∨
        ∃ e, (tb.chain filter pageSize k none).cursor = .failed e ∧ result = .error e) ∧
        log = (tb.chain filter pageSize k none).requests := by
  rw [Pager.collect_eq_some_iff]
  refine exists_congr fun k => ?_
  simp only [Pager.walk_recorded, List.nil_append, Prod.mk.injEq, true_and]
  rfl

/-- A listing that comes to a circle is never read to its end. -/
theorem Circular.collect_eq_none (filter : Option String) (pageSize : Option Nat)
    (h : tb.Circular) :
    (tb.pager filter pageSize).recorded.collect ((), []) = none := by
  refine Option.eq_none_iff_forall_ne_some.2 fun ⟨result, _, log⟩ ends => ?_
  obtain ⟨k, closed, -⟩ := collect_eq_some_iff.1 ends
  obtain ⟨next, goes_on⟩ := h.goes_on filter pageSize k
  simp [goes_on] at closed

/-- A listing over a finite table ends within one request more than there are entries, with all
items of its chain of pages or with the error that closes the chain, unless its tokens run in a
circle. In a circle of several pages it goes on for ever, since only a page that names its own token
is refused. -/
theorem collect_bounded_or_circular (tb : PageTable α) (filter : Option String)
    (pageSize : Option Nat) :
    (¬ tb.Circular ∧ ∃ k result,
      (tb.pager filter pageSize).recorded.collect ((), []) =
        some (result, (), (tb.chain filter pageSize k none).requests) ∧
      (tb.chain filter pageSize k none).requests.length ≤ tb.entries.length + 1 ∧
      (((tb.chain filter pageSize k none).cursor = .ended ∧
          result = .ok (tb.chain filter pageSize k none).items) ∨
        ∃ e, (tb.chain filter pageSize k none).cursor = .failed e ∧ result = .error e)) ∨
    (tb.Circular ∧ (tb.pager filter pageSize).recorded.collect ((), []) = none) := by
  by_cases circular : tb.Circular
  · exact .inr ⟨circular, circular.collect_eq_none ..⟩
  · refine .inl ⟨circular, tb.entries.length + 1, ?_⟩
    have closed := chain_closed filter pageSize circular
    have bound := tb.length_requests_le filter pageSize (tb.entries.length + 1) none
    cases cursor : (tb.chain filter pageSize (tb.entries.length + 1) none).cursor with
    | next token => exact absurd cursor (closed token)
    | ended =>
      exact ⟨_, collect_eq_some_iff.2 ⟨_, .inl ⟨cursor, rfl⟩, rfl⟩, bound, .inl ⟨rfl, rfl⟩⟩
    | failed e =>
      exact ⟨_, collect_eq_some_iff.2 ⟨_, .inr ⟨e, cursor, rfl⟩, rfl⟩, bound, .inr ⟨e, rfl, rfl⟩⟩

/-- Three pages of which the second and the third name each other. -/
def twoInACircle : PageTable Nat where
  entries := [(none, .ok ⟨[1], some "a"⟩), (some "a", .ok ⟨[2], some "b"⟩),
    (some "b", .ok ⟨[3], some "a"⟩)]
  absent := fun _ => .invalidArgument "no such page"

/-- A finite table whose listing never ends. -/
theorem collect_twoInACircle :
    (twoInACircle.pager none none).recorded.collect ((), []) = none := by
  have first : twoInACircle.Leads none (some "a") :=
    ⟨⟨[1], some "a"⟩, "a", rfl, rfl, rfl, by simp⟩
  have there : twoInACircle.Leads (some "a") (some "b") :=
    ⟨⟨[2], some "b"⟩, "b", rfl, rfl, rfl, by simp⟩
  have back : twoInACircle.Leads (some "b") (some "a") :=
    ⟨⟨[3], some "a"⟩, "a", rfl, rfl, rfl, by simp⟩
  exact Circular.collect_eq_none none none ⟨some "a", .single first, .head there (.single back)⟩

end

end PageTable
end BackupAdmin
