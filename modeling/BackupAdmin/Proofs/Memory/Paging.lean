import BackupAdmin.Proofs.Listing.Reading
import BackupAdmin.Proofs.Memory.Filing
import BackupAdmin.Proofs.Text.Digits
import Mathlib.Algebra.Order.Floor.Div

/-! Listings of a service in memory, read page by page. Main statement: whatever the page size is,
they come to the same result, by as many requests as there are pages. -/
open Relation (ReflTransGen)
namespace BackupAdmin.Memory

/-- What a selection comes to: all items that a test admits, in their order, or the error of the
first item on which the test fails. -/
inductive Selects {α : Type} (test : α → Except AdminError Bool) (items : List α) :
    Except AdminError (List α) → Prop
  | all (decided : ∀ a ∈ items, ∃ b, test a = .ok b) :
      Selects test items (.ok (items.filter fun a => (test a).toOption.getD false))
  | failed (before after : List α) (a : α) (e : AdminError) (split : items = before ++ a :: after)
      (decided : ∀ b ∈ before, ∃ d, test b = .ok d) (fails : test a = .error e) :
      Selects test items (.error e)

theorem selects_filterM {α : Type} (test : α → Except AdminError Bool) (items : List α) :
    Selects test items (filterM test items) := by
  induction items with
  | nil => exact .all (by simp)
  | cons a as ih =>
    cases head : test a with
    | error e =>
      have fails : filterM test (a :: as) = .error e := by simp [filterM, head, bind, Except.bind]
      exact fails ▸ .failed [] as a e rfl (by simp) head
    | ok d =>
      generalize rest : filterM test as = result at ih
      cases ih with
      | all decided =>
        have all : filterM test (a :: as) =
            .ok ((a :: as).filter fun a => (test a).toOption.getD false) := by
          cases d <;> simp [filterM, head, rest, bind, Except.bind, pure, Except.pure,
            Except.toOption]
        exact all ▸ .all (List.forall_mem_cons.2 ⟨⟨d, head⟩, decided⟩)
      | failed before after b e split decided fails =>
        have failed : filterM test (a :: as) = .error e := by
          simp [filterM, head, rest, bind, Except.bind]
        refine failed ▸ .failed (a :: before) after b e (by rw [split]; rfl) ?_ fails
        exact List.forall_mem_cons.2 ⟨⟨d, head⟩, decided⟩

/-- The token of a page is read as the place at which the page starts. -/
theorem pageStart_toString {n : Nat} (lt : n < UInt64.size) :
    pageStart (some (toString n)) = .ok n := by
  have digits : (toString n).toList = Nat.toDigits 10 n := by simp
  have unsigned : ∀ ds, Nat.toDigits 10 n ≠ '+' :: ds := fun ds signed => by
    have digit := Text.isDigit_of_mem_toDigits (n := n) (signed ▸ List.mem_cons_self)
    exact absurd digit (by decide)
  have read : (Text.natOf? 10 (Nat.toDigits 10 n)).filter (· < UInt64.size) = some n := by
    simp [Text.natOf?_toDigits, lt]
  -- without a sign in front the digits are read as they are
  simp only [pageStart, digits, read]

/-- How many items a page may hold when there are `n` of them. -/
def pageLength (size : Option Nat) (n : Nat) : Nat :=
  match size with
  | some (m + 1) => m + 1
  | _ => max n 1

section
variable {α : Type} {items : List α} {r : PageRequest} {start : Nat}

theorem pageLength_pos (size : Option Nat) (n : Nat) : 0 < pageLength size n := by
  unfold pageLength
  split <;> omega

theorem pageOf_eq (begins : pageStart r.token = .ok start) (items : List α) :
    pageOf items r =
      let stop := min (start + pageLength r.pageSize items.length) items.length
      .ok (.ofAnswer ((items.take stop).drop start)
        (if stop < items.length then some (toString stop) else none)) := by
  simp only [pageOf, begins]
  rfl

/-- The page that takes all items that are left is the last one. -/
theorem pageOf_last (begins : pageStart r.token = .ok start)
    (le : items.length ≤ start + pageLength r.pageSize items.length) :
    pageOf items r = .ok ⟨items.drop start, none⟩ := by
  rw [pageOf_eq begins]
  simp [Nat.min_eq_right le, Page.ofAnswer]

/-- A page that leaves items names the place of the first of them as the next page. -/
theorem pageOf_next (begins : pageStart r.token = .ok start)
    (lt : start + pageLength r.pageSize items.length < items.length) :
    pageOf items r =
      .ok ⟨(items.take (start + pageLength r.pageSize items.length)).drop start,
        some (toString (start + pageLength r.pageSize items.length))⟩ := by
  rw [pageOf_eq begins]
  simp [Nat.min_eq_left (Nat.le_of_lt lt), lt, Page.ofAnswer]

end

/-- How many requests it takes to read a listing with a result to its end. -/
def pageCount {α : Type} (size : Option Nat) : Except AdminError (List α) → Nat
  | .error _ => 1
  | .ok items => match size with
    | some (m + 1) => max 1 (items.length ⌈/⌉ (m + 1))
    | _ => 1

section
variable {α : Type} {p : Pager (World Store) α} {call : PageRequest → Call} {st : Store}
  {items : List α} {w : World Store}

/-- All pages of a listing are cut from one result, and asking for one leaves the service as it
is. -/
def Pages (p : Pager (World Store) α) (call : PageRequest → Call) (st : Store)
    (result : Except AdminError (List α)) : Prop :=
  ∀ token w, w.service = st → ∃ w',
    p.fetch (p.request token) w = (result >>= (pageOf · (p.request token)), w') ∧
    w'.service = st ∧ w'.calls = w.calls ++ [call (p.request token)]

/-- From the place of a token on, the walk takes in what is left of the items, page by page. -/
theorem Pages.walk_ended (h : Pages p call st (.ok items)) (fits : items.length < UInt64.size)
    {token : Option String} {start : Nat} (begins : pageStart token = .ok start) (k : Nat)
    (more : k = 0 ∨ start + pageLength p.pageSize items.length * k < items.length)
    (all : items.length ≤ start + pageLength p.pageSize items.length * (k + 1))
    (here : w.service = st) :
    (p.walk (k + 1) token w).cursor = .ended ∧
      (p.walk (k + 1) token w).items = items.drop start ∧
      (p.walk (k + 1) token w).requests.length = k + 1 ∧
      (p.walk (k + 1) token w).state.service = st ∧
      (p.walk (k + 1) token w).state.calls =
        w.calls ++ (p.walk (k + 1) token w).requests.map call := by
  generalize size : pageLength p.pageSize items.length = n at more all
  induction k generalizing token start w with
  | zero =>
    obtain ⟨w', answer, stays, noted⟩ := h token w here
    have page : pageOf items (p.request token) = .ok ⟨items.drop start, none⟩ := by
      refine pageOf_last begins ?_
      change items.length ≤ start + pageLength p.pageSize items.length
      rw [size]
      omega
    have fetched : p.fetch (p.request token) w = (.ok ⟨items.drop start, none⟩, w') := by
      rw [answer, ← page]; rfl
    rw [Pager.walk_ended fetched rfl]
    simp [Walk.items, stays, noted]
  | succ k ih =>
    obtain ⟨w', answer, stays, noted⟩ := h token w here
    have left : start + n + n * k < items.length := by
      have := more.resolve_left (Nat.succ_ne_zero k)
      rw [Nat.mul_succ] at this
      omega
    have inside : start + n < items.length := Nat.lt_of_le_of_lt (Nat.le_add_right ..) left
    have page : pageOf items (p.request token) =
        .ok ⟨(items.take (start + n)).drop start, some (toString (start + n))⟩ :=
      size ▸ pageOf_next begins (size ▸ inside)
    have fetched : p.fetch (p.request token) w =
        (.ok ⟨(items.take (start + n)).drop start, some (toString (start + n))⟩, w') := by
      rw [answer, ← page]; rfl
    have begins' : pageStart (some (toString (start + n))) = .ok (start + n) :=
      pageStart_toString (Nat.lt_trans inside fits)
    -- the next page starts further on, so it has another token
    have other : token ≠ some (toString (start + n)) := by
      rintro rfl
      have pos : 0 < n := size ▸ pageLength_pos ..
      injection begins.symm.trans begins' with same
      omega
    obtain ⟨cursor, read, count, service, calls⟩ := ih begins' stays (.inr left)
      (by rw [Nat.mul_succ] at all; omega)
    rw [Pager.walk_next fetched (by simp) other]
    refine ⟨cursor, ?_, ?_, service, ?_⟩
    · rw [Walk.items_cons, read, List.drop_take, Nat.add_sub_cancel_left, ← List.drop_drop,
        List.take_append_drop]
    · exact congrArg (· + 1) count
    · rw [Walk.state_cons, calls, noted]
      simp [Walk.cons]

/-- All pages but the last one are full, and the last one is empty only when it is the first. -/
theorem pageCount_eq (size : Option Nat) (items : List α) :
    pageCount size (.ok items) = (items.length - 1) / pageLength size items.length + 1 := by
  have whole : (items.length - 1) / max items.length 1 = 0 :=
    Nat.div_eq_of_lt (by omega)
  match size with
  | none | some 0 => simp [pageCount, pageLength, whole]
  | some (m + 1) =>
    simp only [pageCount, pageLength, Nat.ceilDiv_eq_add_pred_div]
    cases items with
    | nil => simp [Nat.div_eq_of_lt]
    | cons a as =>
      have shift : (a :: as).length + (m + 1) - 1 = as.length + (m + 1) := by
        rw [List.length_cons]; omega
      rw [shift, Nat.add_div_right _ (Nat.succ_pos m)]
      simp

/-- A listing that is asked for without a page size comes in one page, however long it is. -/
theorem Pages.collect_whole {result : Except AdminError (List α)} (h : Pages p call w.service result)
    (whole : p.pageSize = none) :
    ∃ w' : World Store, p.collect w = some (result, w') ∧ w'.service = w.service ∧
      w'.calls = w.calls ++ [call ⟨p.filter, none, none⟩] := by
  obtain ⟨w', answer, stays, noted⟩ := h none w rfl
  rw [Pager.request, whole] at noted
  refine ⟨w', ?_, stays, noted⟩
  cases result with
  | error e =>
    have failed : p.walk 1 none w = ⟨[], [p.request none], .failed e, w'⟩ :=
      Pager.walk_failed answer 0
    exact Pager.collect_eq_some_iff.2 ⟨1, .inr ⟨e, by rw [failed], rfl⟩, by rw [failed]⟩
  | ok items =>
    have length : pageLength (p.request none).pageSize items.length = max items.length 1 := by
      rw [Pager.request, whole]
      rfl
    have all : items.length ≤ 0 + pageLength (p.request none).pageSize items.length := by omega
    have page : pageOf items (p.request none) = .ok ⟨items, none⟩ := pageOf_last rfl all
    have fetched : p.fetch (p.request none) w = (.ok ⟨items, none⟩, w') := by
      rw [answer, ← page]
      rfl
    have ended : p.walk 1 none w = ⟨[⟨items, none⟩], [p.request none], .ended, w'⟩ :=
      Pager.walk_ended fetched rfl 0
    refine Pager.collect_eq_some_iff.2 ⟨1, .inl ⟨by rw [ended], ?_⟩, by rw [ended]⟩
    simp [ended, Walk.items]

/-- A listing is read to its end by as many requests as it has pages. -/
theorem Pages.collect {result : Except AdminError (List α)} (h : Pages p call w.service result)
    (fits : ∀ items, result = .ok items → items.length < UInt64.size) :
    ∃ (w' : World Store) (requests : List PageRequest), p.collect w = some (result, w') ∧
      requests.length = pageCount p.pageSize result ∧
      (∀ r ∈ requests, r.filter = p.filter ∧ r.pageSize = p.pageSize) ∧
      w'.service = w.service ∧ w'.calls = w.calls ++ requests.map call := by
  cases result with
  | error e =>
    obtain ⟨w', answer, stays, noted⟩ := h none w rfl
    have failed : p.walk 1 none w = ⟨[], [p.request none], .failed e, w'⟩ :=
      Pager.walk_failed answer 0
    refine ⟨w', [p.request none], Pager.collect_eq_some_iff.2 ⟨1, .inr ⟨e, ?_, rfl⟩, ?_⟩, rfl,
      by simp [Pager.request], stays, noted⟩ <;> rw [failed]
  | ok items =>
    generalize last : (items.length - 1) / pageLength p.pageSize items.length = k
    have start : pageLength p.pageSize items.length * k ≤ items.length - 1 :=
      last ▸ Nat.mul_div_le ..
    have stop : items.length - 1 < pageLength p.pageSize items.length * (k + 1) :=
      last ▸ Nat.lt_mul_div_succ _ (pageLength_pos ..)
    have more : k = 0 ∨ 0 + pageLength p.pageSize items.length * k < items.length := by
      rcases Nat.eq_zero_or_pos items.length with empty | nonempty
      · exact .inl (by rw [← last, empty, Nat.zero_sub, Nat.zero_div])
      · exact .inr (by omega)
    have first : pageStart none = .ok 0 := rfl
    obtain ⟨ended, all, count, stays, noted⟩ :=
      h.walk_ended (fits items rfl) first k more (by omega) rfl
    refine ⟨_, _, Pager.collect_eq_some_iff.2 ⟨_, .inl ⟨ended, ?_⟩, rfl⟩, ?_,
      p.walk_requests _ none w, stays, noted⟩
    · rw [all]; rfl
    · rw [count, pageCount_eq, last]

end

end BackupAdmin.Memory
