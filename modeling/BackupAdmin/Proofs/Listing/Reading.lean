import BackupAdmin.Proofs.Listing.Walk
import Mathlib.Data.Nat.Find

/-! Reading a listing. Main statement: a reader stops at the first request after which it has what
it wants or there is no other page, and it has just the items that come first in the chain of
pages. -/
namespace BackupAdmin.Pager
variable {τ α : Type} {p : Pager τ α} {token : Option String} {want : Option Nat} {t t' : τ}
  {page : Page α} {next : String}

theorem following_ended (last : page.next.filter (· ≠ "") = none) :
    following token page = .ok none := by
  unfold following
  cases named : page.next with
  | none => rfl
  | some next => simp_all

theorem following_repeated (more : page.next.filter (· ≠ "") = some next)
    (same : token = some next) : following token page = .error (repeatedToken next) := by
  obtain ⟨named, nonempty⟩ := Option.filter_eq_some_iff.1 more
  have ne : next ≠ "" := by simpa using nonempty
  simp only [following, named, if_neg ne, if_pos same]

theorem following_next (more : page.next.filter (· ≠ "") = some next)
    (other : token ≠ some next) : following token page = .ok (some next) := by
  obtain ⟨named, nonempty⟩ := Option.filter_eq_some_iff.1 more
  have ne : next ≠ "" := by simpa using nonempty
  simp only [following, named, if_neg ne, if_neg other]

theorem readFrom_zero (p : Pager τ α) (token : Option String) (t : τ) :
    p.readFrom token (some 0) t = some (⟨[], none, false⟩, t) := by
  rw [readFrom, if_pos rfl]

theorem readFrom_failed (some_wanted : want ≠ some 0) {e : AdminError}
    (answer : p.fetch (p.request token) t = (.error e, t')) :
    p.readFrom token want t = some (⟨[], some e, false⟩, t') := by
  rw [request] at answer
  rw [readFrom, if_neg some_wanted]
  simp only [answer]

theorem readFrom_repeated (some_wanted : want ≠ some 0)
    (answer : p.fetch (p.request token) t = (.ok page, t'))
    (more : page.next.filter (· ≠ "") = some next) (same : token = some next) :
    p.readFrom token want t = some (⟨[], some (repeatedToken next), false⟩, t') := by
  rw [request] at answer
  rw [readFrom, if_neg some_wanted]
  simp only [answer, following_repeated more same]

/-- How many items are left to read behind a page. -/
theorem left_eq (want : Option Nat) (items : List α) :
    want.map (· - (wanted want items).length) = want.map (· - items.length) := by
  cases want with
  | none => rfl
  | some n =>
    simp only [wanted, Option.map_some, List.length_take, Option.some.injEq]
    omega

theorem readFrom_ended (some_wanted : want ≠ some 0)
    (answer : p.fetch (p.request token) t = (.ok page, t'))
    (last : page.next.filter (· ≠ "") = none) :
    p.readFrom token want t =
      some ((⟨[page], [p.request token], .ended, t'⟩ : Walk τ α).taken want, t') := by
  rw [request] at answer
  rw [readFrom, if_neg some_wanted]
  simp only [answer, following_ended last, left_eq]
  have items : (⟨[page], [p.request token], .ended, t'⟩ : Walk τ α).items = page.items := by
    simp [Walk.items]
  cases want with
  | none => simp [Walk.taken, Walk.whole, items, wanted]
  | some n =>
    have enough : n - page.items.length = 0 ↔ n ≤ page.items.length := Nat.sub_eq_zero_iff_le
    simp only [Option.map_some, Option.some.injEq, enough, Walk.taken, Walk.whole, items]
    split
    · rfl
    case isFalse short =>
      have all : wanted (some n) page.items = page.items := List.take_of_length_le (by omega)
      rw [all]

theorem readFrom_next (some_wanted : want ≠ some 0)
    (answer : p.fetch (p.request token) t = (.ok page, t'))
    (more : page.next.filter (· ≠ "") = some next) (other : token ≠ some next) :
    p.readFrom token want t =
      (p.readFrom (some next) (want.map (· - page.items.length)) t').map fun r =>
        (⟨wanted want page.items ++ r.1.items, r.1.failure, r.1.ended⟩, r.2) := by
  rw [request] at answer
  rw [readFrom, if_neg some_wanted]
  simp only [answer, following_next more other, left_eq]
  split
  case isTrue none_left => simp [none_left, readFrom_zero]
  case isFalse => cases p.readFrom (some next) (want.map (· - page.items.length)) t' <;> rfl

/-- The first number of requests after which a reader can stop. -/
def StopsAt (p : Pager τ α) (want : Option Nat) (token : Option String) (t : τ) (k : Nat) : Prop :=
  (p.walk k token t).Suffices want ∧ ∀ j < k, ¬ (p.walk j token t).Suffices want

/-- A reader that can stop after `k` requests, and not before, has what the walk of `k` requests
has. -/
theorem StopsAt.readFrom_eq {k : Nat} (h : p.StopsAt want token t k) :
    p.readFrom token want t = some ((p.walk k token t).taken want, (p.walk k token t).state) := by
  induction k generalizing token want t with
  | zero =>
    rcases h.1 with ⟨n, rfl, le⟩ | closed
    · obtain rfl : n = 0 := by simpa [walk, Walk.items] using le
      rw [readFrom_zero]
      rfl
    · exact absurd rfl (closed token)
  | succ k ih =>
    have some_wanted : want ≠ some 0 := fun none_wanted =>
      h.2 0 (Nat.succ_pos k) (.inl ⟨0, none_wanted, Nat.zero_le _⟩)
    rcases p.fetch_cases token t with ⟨e, t', answer⟩ |
      ⟨page, t', answer, last | ⟨next, more, same | other⟩⟩
    · rw [walk_failed answer, readFrom_failed some_wanted answer, Walk.taken_failed some_wanted]
    · rw [walk_ended answer last, readFrom_ended some_wanted answer last]
    · rw [walk_repeated answer more same, readFrom_repeated some_wanted answer more same,
        Walk.taken_failed some_wanted]
    · have rest : p.StopsAt (want.map (· - page.items.length)) (some next) t' k := by
        obtain ⟨enough, least⟩ := h
        rw [walk_next answer more other, Walk.suffices_cons] at enough
        refine ⟨enough, fun j lt early => least (j + 1) (Nat.succ_lt_succ lt) ?_⟩
        rw [walk_next answer more other, Walk.suffices_cons]
        exact early
      rw [readFrom_next some_wanted answer more other, ih rest, walk_next answer more other,
        Walk.taken_cons]
      rfl

/-- What is read has come from as many requests as some walk needs. -/
theorem exists_suffices {r : Taken α × τ} (h : p.readFrom token want t = some r) :
    ∃ k, (p.walk k token t).Suffices want := by
  -- nothing decreases along an endless chain: the induction is on how the result was built
  refine readFrom.partial_correctness p
    (fun token want t _ => ∃ k, (p.walk k token t).Suffices want)
    (fun read ih token want t r h => ?_) token want t r h
  split at h
  case isTrue none_wanted => exact ⟨0, .inl ⟨0, none_wanted, Nat.zero_le _⟩⟩
  case isFalse some_wanted =>
    rcases p.fetch_cases token t with ⟨e, t', answer⟩ |
      ⟨page, t', answer, last | ⟨next, more, same | other⟩⟩
    · exact ⟨1, .inr fun token => by simp [walk_failed answer]⟩
    · exact ⟨1, .inr fun token => by simp [walk_ended answer last]⟩
    · exact ⟨1, .inr fun token => by simp [walk_repeated answer more same]⟩
    · have from_rest {k : Nat}
          (enough : (p.walk k (some next) t').Suffices (want.map (· - page.items.length))) :
          ∃ k, (p.walk k token t).Suffices want := by
        refine ⟨k + 1, ?_⟩
        rw [walk_next answer more other]
        exact Walk.suffices_cons.2 enough
      rw [request] at answer
      simp only [answer, following_next more other, left_eq] at h
      split at h
      case isTrue none_left =>
        exact from_rest (k := 0) (.inl ⟨0, none_left, Nat.zero_le _⟩)
      case isFalse some_left =>
        obtain ⟨r', rest, -⟩ := Option.bind_eq_some_iff.1 h
        obtain ⟨k, enough⟩ := ih _ _ _ _ rest
        exact from_rest enough

/-- Reading comes to an end just when some walk has what is wanted, and then has what the shortest
such walk has. -/
theorem readFrom_eq_some_iff {r : Taken α × τ} :
    p.readFrom token want t = some r ↔
      ∃ k, p.StopsAt want token t k ∧
        r = ((p.walk k token t).taken want, (p.walk k token t).state) := by
  constructor
  · intro h
    classical
    have exists_enough := exists_suffices h
    have stops : p.StopsAt want token t (Nat.find exists_enough) :=
      ⟨Nat.find_spec exists_enough, fun j lt => Nat.find_min exists_enough lt⟩
    rw [stops.readFrom_eq, Option.some.injEq] at h
    exact ⟨_, stops, h.symm⟩
  · rintro ⟨k, stops, rfl⟩
    exact stops.readFrom_eq

theorem stopsAt_recorded {log : List PageRequest} {k : Nat} :
    p.recorded.StopsAt want token (t, log) k ↔ p.StopsAt want token t k := by
  simp only [StopsAt, walk_recorded]
  exact Iff.rfl

/-- A walk that is closed tells how reading all items ends. -/
theorem readFrom_all (p : Pager τ α) (token : Option String) (t : τ) {k : Nat}
    (closed : ∀ next, (p.walk k token t).cursor ≠ .next next) :
    p.readFrom token none t = some ((p.walk k token t).taken none, (p.walk k token t).state) := by
  classical
  have exists_closed : ∃ k, (p.walk k token t).Suffices none := ⟨k, .inr closed⟩
  have stops : p.StopsAt none token t (Nat.find exists_closed) :=
    ⟨Nat.find_spec exists_closed, fun j lt => Nat.find_min exists_closed lt⟩
  have closed' : ∀ next, (p.walk (Nat.find exists_closed) token t).cursor ≠ .next next := by
    rcases stops.1 with ⟨n, none_eq, -⟩ | closed'
    · contradiction
    · exact closed'
  rw [p.walk_stable closed' (Nat.find_min' exists_closed (.inr closed))]
  exact stops.readFrom_eq

/-- What reading all items comes to as a result. -/
theorem collect_eq_some_iff {result : Except AdminError (List α)} :
    p.collect t = some (result, t') ↔ ∃ k,
      (((p.walk k none t).cursor = .ended ∧ result = .ok (p.walk k none t).items) ∨
        ∃ e, (p.walk k none t).cursor = .failed e ∧ result = .error e) ∧
      t' = (p.walk k none t).state := by
  constructor
  · intro h
    obtain ⟨⟨taken, u⟩, read, ends⟩ := Option.bind_eq_some_iff.1 h
    obtain ⟨k, ⟨closed, -⟩, same⟩ := readFrom_eq_some_iff.1 read
    obtain ⟨rfl, rfl⟩ := Prod.mk.inj same
    refine ⟨k, ?_⟩
    rcases closed with ⟨n, none_eq, -⟩ | closed
    · contradiction
    · unfold Walk.taken Walk.whole at ends
      cases cursor : (p.walk k none t).cursor with
      | next token => exact absurd cursor (closed token)
      | ended =>
        rw [cursor] at ends
        cases ends
        exact ⟨.inl ⟨rfl, rfl⟩, rfl⟩
      | failed e =>
        rw [cursor] at ends
        cases ends
        exact ⟨.inr ⟨e, rfl, rfl⟩, rfl⟩
  · rintro ⟨k, ⟨ended, rfl⟩ | ⟨e, failed, rfl⟩, rfl⟩
    · have read := p.readFrom_all none t (k := k) (by simp [ended])
      simp [collect, read, Walk.taken, Walk.whole, ended]
    · have read := p.readFrom_all none t (k := k) (by simp [failed])
      simp [collect, read, Walk.taken, Walk.whole, failed]

/-- Reading the first items of a listing, or all of them, gives what comes first in the chain of its
pages, by no more requests than it takes, all for the same filter and page size and each with the
token of the page before. All items can be collected just when the chain ends without an error. -/
theorem recorded_readFrom_iff (p : Pager τ α) (t : τ) (log : List PageRequest) :
    (∀ want taken t' log', p.recorded.readFrom none want (t, log) = some (taken, t', log') ↔
      ∃ k, p.StopsAt want none t k ∧ taken = (p.walk k none t).taken want ∧
        t' = (p.walk k none t).state ∧ log' = log ++ (p.walk k none t).requests) ∧
    (∀ k, (∀ r ∈ (p.walk k none t).requests, r.filter = p.filter ∧ r.pageSize = p.pageSize) ∧
      (p.walk k none t).requests.map (·.token) =
        (none :: (p.walk k none t).pages.map (·.next)).take (p.walk k none t).requests.length ∧
      ∀ k', k ≤ k' → (p.walk k none t).items <+: (p.walk k' none t).items) ∧
    (∀ items t', p.collect t = some (.ok items, t') ↔
      ∃ k, (p.walk k none t).cursor = .ended ∧ items = (p.walk k none t).items ∧
        t' = (p.walk k none t).state) ∧
    ∀ e t', p.collect t = some (.error e, t') ↔
      ∃ k, (p.walk k none t).cursor = .failed e ∧ t' = (p.walk k none t).state := by
  refine ⟨fun want taken t' log' => ?_, fun k => ⟨p.walk_requests k none t, p.walk_tokens k none t,
    fun k' le => p.walk_extends le none t⟩, fun items t' => ?_, fun e t' => ?_⟩
  · rw [readFrom_eq_some_iff]
    refine exists_congr fun k => and_congr stopsAt_recorded ?_
    rw [walk_recorded, Prod.mk.injEq, Prod.mk.injEq]
    rfl
  · rw [collect_eq_some_iff]
    refine exists_congr fun k => ?_
    simp [and_assoc]
  · rw [collect_eq_some_iff]
    refine exists_congr fun k => ?_
    simp

end BackupAdmin.Pager
