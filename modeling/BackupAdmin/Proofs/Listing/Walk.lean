import BackupAdmin.Admin.Pager

/-! The chain of a listing's pages: what a number of requests yields, asked without any regard to
how many items are wanted. -/
namespace BackupAdmin
variable {τ α : Type}

/-- Where a walk along the pages stands: before another page, at the end, or at an error. -/
inductive Cursor where
  | next (token : Option String)
  | ended
  | failed (e : AdminError)

/-- What a walk along the pages has seen: the pages that count, and all its requests. -/
structure Walk (τ α : Type) where
  pages : List (Page α)
  requests : List PageRequest
  cursor : Cursor
  state : τ

namespace Walk

/-- The items of the pages one after another. -/
def items (w : Walk τ α) : List α := w.pages.flatMap (·.items)

/-- The walk with a page and its request in front. -/
def cons (page : Page α) (r : PageRequest) (w : Walk τ α) : Walk τ α :=
  { w with pages := page :: w.pages, requests := r :: w.requests }

/-- There are enough items, or there is no other page to ask for. -/
def Suffices (w : Walk τ α) (want : Option Nat) : Prop :=
  (∃ n, want = some n ∧ n ≤ w.items.length) ∨ ∀ token, w.cursor ≠ .next token

/-- All items, and how the walk came to its end. -/
def whole (w : Walk τ α) : Taken α :=
  match w.cursor with
  | .next _ => ⟨w.items, none, false⟩
  | .ended => ⟨w.items, none, true⟩
  | .failed e => ⟨w.items, some e, false⟩

/-- What a reader has when it stops here: the first items if there are as many as it wants, otherwise
all items and how the walk came to its end. -/
def taken (w : Walk τ α) : Option Nat → Taken α
  | none => w.whole
  | some n => if n ≤ w.items.length then ⟨w.items.take n, none, false⟩ else w.whole

@[simp] theorem items_cons (page : Page α) (r : PageRequest) (w : Walk τ α) :
    (w.cons page r).items = page.items ++ w.items := by simp [cons, items]

@[simp] theorem cursor_cons (page : Page α) (r : PageRequest) (w : Walk τ α) :
    (w.cons page r).cursor = w.cursor := rfl

@[simp] theorem state_cons (page : Page α) (r : PageRequest) (w : Walk τ α) :
    (w.cons page r).state = w.state := rfl

theorem suffices_cons {page : Page α} {r : PageRequest} {w : Walk τ α} {want : Option Nat} :
    (w.cons page r).Suffices want ↔ w.Suffices (want.map (· - page.items.length)) := by
  unfold Suffices
  rw [items_cons, cursor_cons, List.length_append]
  refine or_congr_left ?_
  cases want with
  | none => simp
  | some n => simp [Nat.add_comm]

/-- A page in front adds its items to all that there are. -/
theorem whole_cons (page : Page α) (r : PageRequest) (w : Walk τ α) :
    (w.cons page r).whole = ⟨page.items ++ w.whole.items, w.whole.failure, w.whole.ended⟩ := by
  unfold whole
  rw [items_cons, cursor_cons]
  cases w.cursor <;> rfl

/-- A page in front adds as many of its items as are wanted. -/
theorem taken_cons (page : Page α) (r : PageRequest) (w : Walk τ α) (want : Option Nat) :
    (w.cons page r).taken want =
      let rest := w.taken (want.map (· - page.items.length))
      ⟨Pager.wanted want page.items ++ rest.items, rest.failure, rest.ended⟩ := by
  cases want with
  | none => exact whole_cons page r w
  | some n =>
    have enough : n ≤ page.items.length + w.items.length ↔
        n - page.items.length ≤ w.items.length := by omega
    simp only [taken, Option.map_some, items_cons, List.length_append, enough, Pager.wanted]
    split
    · rw [List.take_append]
    case isFalse short =>
      rw [whole_cons, List.take_of_length_le (by omega : page.items.length ≤ n)]

/-- A reader that wants an item and meets an error first has just that error. -/
theorem taken_failed {want : Option Nat} (some_wanted : want ≠ some 0) (r : PageRequest)
    (e : AdminError) (t : τ) :
    (⟨[], [r], .failed e, t⟩ : Walk τ α).taken want = ⟨[], some e, false⟩ := by
  cases want with
  | none => rfl
  | some n =>
    have ne : n ≠ 0 := fun zero => some_wanted (congrArg some zero)
    simp [taken, whole, items, ne]

end Walk

namespace Pager

/-- What the page of a token is asked for with. -/
def request (p : Pager τ α) (token : Option String) : PageRequest := ⟨p.filter, p.pageSize, token⟩

/-- The walk of at most `k` requests from the page of a token on. A page without another token is
the last one; one that names its own token is an error, and its items do not count. -/
def walk (p : Pager τ α) : Nat → Option String → τ → Walk τ α
  | 0, token, t => ⟨[], [], .next token, t⟩
  | k + 1, token, t =>
    match p.fetch (p.request token) t with
    | (.error e, t) => ⟨[], [p.request token], .failed e, t⟩
    | (.ok page, t) => match page.next.filter (· ≠ "") with
      | none => ⟨[page], [p.request token], .ended, t⟩
      | some next =>
        if token = some next then ⟨[], [p.request token], .failed (repeatedToken next), t⟩
        else (p.walk k (some next) t).cons page (p.request token)

section
variable {p : Pager τ α} {token : Option String} {t t' : τ} {page : Page α} {next : String}

theorem walk_failed {e : AdminError} (answer : p.fetch (p.request token) t = (.error e, t'))
    (k : Nat) : p.walk (k + 1) token t = ⟨[], [p.request token], .failed e, t'⟩ := by
  simp only [walk, answer]

theorem walk_ended (answer : p.fetch (p.request token) t = (.ok page, t'))
    (last : page.next.filter (· ≠ "") = none) (k : Nat) :
    p.walk (k + 1) token t = ⟨[page], [p.request token], .ended, t'⟩ := by
  simp only [walk, answer, last]

theorem walk_repeated (answer : p.fetch (p.request token) t = (.ok page, t'))
    (more : page.next.filter (· ≠ "") = some next) (same : token = some next) (k : Nat) :
    p.walk (k + 1) token t = ⟨[], [p.request token], .failed (repeatedToken next), t'⟩ := by
  simp only [walk, answer, more, if_pos same]

theorem walk_next (answer : p.fetch (p.request token) t = (.ok page, t'))
    (more : page.next.filter (· ≠ "") = some next) (other : token ≠ some next) (k : Nat) :
    p.walk (k + 1) token t = (p.walk k (some next) t').cons page (p.request token) := by
  simp only [walk, answer, more, if_neg other]

/-- A request is answered with an error, a last page, a page that repeats its token, or a page that
another one follows. -/
theorem fetch_cases (p : Pager τ α) (token : Option String) (t : τ) :
    (∃ e t', p.fetch (p.request token) t = (.error e, t')) ∨
    ∃ page t', p.fetch (p.request token) t = (.ok page, t') ∧
      (page.next.filter (· ≠ "") = none ∨ ∃ next, page.next.filter (· ≠ "") = some next ∧
        (token = some next ∨ token ≠ some next)) := by
  obtain ⟨result, t'⟩ := p.fetch (p.request token) t
  cases result with
  | error e => exact .inl ⟨e, t', rfl⟩
  | ok page =>
    refine .inr ⟨page, t', rfl, ?_⟩
    cases page.next.filter (· ≠ "") with
    | none => exact .inl rfl
    | some next => exact .inr ⟨next, rfl, Classical.em _⟩

end

/-- Every request asks for the same filter and page size. -/
theorem walk_requests (p : Pager τ α) (k : Nat) (token : Option String) (t : τ) :
    ∀ r ∈ (p.walk k token t).requests, r.filter = p.filter ∧ r.pageSize = p.pageSize := by
  induction k generalizing token t with
  | zero => simp [walk]
  | succ k ih =>
    rcases p.fetch_cases token t with ⟨e, t', answer⟩ |
      ⟨page, t', answer, last | ⟨next, more, same | other⟩⟩
    · simp [walk_failed answer, request]
    · simp [walk_ended answer last, request]
    · simp [walk_repeated answer more same, request]
    · rw [walk_next answer more other]
      exact List.forall_mem_cons.2 ⟨⟨rfl, rfl⟩, ih (some next) t'⟩

/-- The first request has the token that the walk begins with, and each other one the token that the
page before it names. -/
theorem walk_tokens (p : Pager τ α) (k : Nat) (token : Option String) (t : τ) :
    (p.walk k token t).requests.map (·.token) =
      (token :: (p.walk k token t).pages.map (·.next)).take (p.walk k token t).requests.length := by
  induction k generalizing token t with
  | zero => simp [walk]
  | succ k ih =>
    rcases p.fetch_cases token t with ⟨e, t', answer⟩ |
      ⟨page, t', answer, last | ⟨next, more, same | other⟩⟩
    · simp [walk_failed answer, request]
    · simp [walk_ended answer last, request]
    · simp [walk_repeated answer more same, request]
    · have named : page.next = some next := (Option.filter_eq_some_iff.1 more).1
      simp [walk_next answer more other, Walk.cons, request, named, ih (some next) t']

/-- A walk that has come to its end goes no further. -/
theorem walk_stable (p : Pager τ α) {k : Nat} {token : Option String} {t : τ}
    (closed : ∀ next, (p.walk k token t).cursor ≠ .next next) {k' : Nat} (le : k ≤ k') :
    p.walk k' token t = p.walk k token t := by
  induction k generalizing token t k' with
  | zero => exact absurd rfl (closed token)
  | succ k ih =>
    obtain ⟨k', rfl⟩ : ∃ n, k' = n + 1 := ⟨k' - 1, by omega⟩
    rcases p.fetch_cases token t with ⟨e, t', answer⟩ |
      ⟨page, t', answer, last | ⟨next, more, same | other⟩⟩
    · rw [walk_failed answer, walk_failed answer]
    · rw [walk_ended answer last, walk_ended answer last]
    · rw [walk_repeated answer more same, walk_repeated answer more same]
    · rw [walk_next answer more other] at closed ⊢
      rw [walk_next answer more other, ih closed (Nat.le_of_succ_le_succ le)]

/-- More requests only add pages behind those that were read. -/
theorem walk_extends (p : Pager τ α) {k k' : Nat} (le : k ≤ k') (token : Option String) (t : τ) :
    (p.walk k token t).items <+: (p.walk k' token t).items := by
  induction k generalizing token t k' with
  | zero => exact List.nil_prefix
  | succ k ih =>
    obtain ⟨k', rfl⟩ : ∃ n, k' = n + 1 := ⟨k' - 1, by omega⟩
    rcases p.fetch_cases token t with ⟨e, t', answer⟩ |
      ⟨page, t', answer, last | ⟨next, more, same | other⟩⟩
    · simp only [walk_failed answer, List.prefix_rfl]
    · simp only [walk_ended answer last, List.prefix_rfl]
    · simp only [walk_repeated answer more same, List.prefix_rfl]
    · rw [walk_next answer more other, walk_next answer more other, Walk.items_cons,
        Walk.items_cons]
      exact (List.prefix_append_right_inj _).2 (ih (Nat.le_of_succ_le_succ le) (some next) t')

/-- The listing with a record of all requests. -/
def recorded (p : Pager τ α) : Pager (τ × List PageRequest) α :=
  { filter := p.filter, pageSize := p.pageSize
    fetch := fun r s => ((p.fetch r s.1).1, (p.fetch r s.1).2, s.2 ++ [r]) }

/-- Walking along a recorded listing records the requests of the walk. -/
theorem walk_recorded (p : Pager τ α) (k : Nat) (token : Option String) (t : τ)
    (log : List PageRequest) :
    p.recorded.walk k token (t, log) =
      let w := p.walk k token t
      ⟨w.pages, w.requests, w.cursor, w.state, log ++ w.requests⟩ := by
  induction k generalizing token t log with
  | zero => simp [walk]
  | succ k ih =>
    have recorded_answer {a : Except AdminError (Page α)} {t' : τ}
        (answer : p.fetch (p.request token) t = (a, t')) :
        p.recorded.fetch (p.recorded.request token) (t, log) =
          (a, t', log ++ [p.request token]) := by
      change ((p.fetch (p.request token) t).1, (p.fetch (p.request token) t).2, _) = _
      rw [answer]
      rfl
    rcases p.fetch_cases token t with ⟨e, t', answer⟩ |
      ⟨page, t', answer, last | ⟨next, more, same | other⟩⟩
    · rw [walk_failed answer, walk_failed (recorded_answer answer)]
      rfl
    · rw [walk_ended answer last, walk_ended (recorded_answer answer) last]
      rfl
    · rw [walk_repeated answer more same, walk_repeated (recorded_answer answer) more same]
      rfl
    · rw [walk_next answer more other, walk_next (recorded_answer answer) more other, ih]
      simp [Walk.cons, request, recorded]

end Pager
end BackupAdmin
