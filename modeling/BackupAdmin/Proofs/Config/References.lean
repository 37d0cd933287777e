import BackupAdmin.Config.Expansion
import BackupAdmin.Proofs.Text.Splitting

/-! Texts without references that stand for something else. Main statement: expansion leaves them
as they are. -/
namespace BackupAdmin.Environment
open Text

/-- A dollar in front of such a text is left as it is: it begins no reference, or one without a
default to a variable that is not set. -/
inductive Idle (e : Environment) : List Char → Prop
  | last : Idle e []
  | other {c : Char} {cs : List Char} (brace : c ≠ '{') (dollar : c ≠ '$')
      (name : isNameChar c = false) : Idle e (c :: cs)
  | braced {name cs : List Char} (chars : ∀ c ∈ name, isNameChar c = true)
      (unset : e.get? (String.ofList name) = none) : Idle e ('{' :: (name ++ '}' :: cs))
  | named {name cs : List Char} (some : name ≠ []) (chars : ∀ c ∈ name, isNameChar c = true)
      (ends : ∀ c ∈ cs.head?, isNameChar c = false)
      (unset : e.get? (String.ofList name) = none) : Idle e (name ++ cs)

/-- All dollars of a text are left as they are. -/
def Keeps (e : Environment) : List Char → Prop
  | [] => True
  | c :: cs => (c = '$' → e.Idle cs) ∧ e.Keeps cs

section
variable {e : Environment} {as bs cs : List Char}

theorem ne_of_isNameChar {c d : Char} (h : isNameChar c = true) (other : isNameChar d = false) :
    c ≠ d := by
  rintro rfl
  exact Bool.false_ne_true (other.symm.trans h)

theorem Keeps.of_append (kept : e.Keeps (as ++ bs)) : e.Keeps bs := by
  induction as with
  | nil => exact kept
  | cons a as ih => exact ih kept.2

/-- Characters that belong to a reference are passed over. -/
theorem expandFrom_skip (e : Environment) (as bs : List Char) :
    e.expandFrom as.length (as ++ bs) = e.expandFrom 0 bs := by
  induction as with
  | nil => rfl
  | cons a as ih => exact ih

theorem expandFrom_other {c : Char} (other : c ≠ '$') (cs : List Char) :
    e.expandFrom 0 (c :: cs) = c :: e.expandFrom 0 cs := by
  simp [expandFrom, other]

/-- A reference in braces to a variable that is not set stays. -/
theorem expandFrom_braced (chars : ∀ c ∈ as, isNameChar c = true)
    (unset : e.get? (String.ofList as) = none) (bs : List Char) :
    e.expandFrom 0 ('$' :: '{' :: (as ++ '}' :: bs)) =
      '$' :: '{' :: (as ++ '}' :: e.expandFrom 0 bs) := by
  have close : '}' ∉ as := fun mem => ne_of_isNameChar (chars _ mem) (by decide) rfl
  have colon : ':' ∉ as := fun mem => ne_of_isNameChar (chars _ mem) (by decide) rfl
  have inside : splitFirst? ['}'] (as ++ '}' :: bs) = some (as, bs) :=
    splitFirst?_append close [] bs
  have alone : nameAndDefault as = (as, none) := by
    rw [nameAndDefault, splitFirst?_eq_none (List.mem_cons_self) colon]
  have rest : e.expandFrom (as.length + 1) (as ++ '}' :: bs) = e.expandFrom 0 bs := by
    simpa using expandFrom_skip e (as ++ ['}']) bs
  simp [expandFrom, inside, alone, resolve, unset, rest]

/-- A reference by its name alone to a variable that is not set stays. -/
theorem expandFrom_named (some : as ≠ []) (chars : ∀ c ∈ as, isNameChar c = true)
    (ends : ∀ c ∈ bs.head?, isNameChar c = false) (unset : e.get? (String.ofList as) = none) :
    e.expandFrom 0 ('$' :: (as ++ bs)) = '$' :: (as ++ e.expandFrom 0 bs) := by
  have taken : (as ++ bs).takeWhile isNameChar = as := by
    rw [List.takeWhile_append_of_pos chars]
    cases bs with
    | nil => simp
    | cons b bs => simp [ends b rfl]
  have stays : resolve e as none ('$' :: as) = '$' :: as := by simp only [resolve, unset]
  have rest := expandFrom_skip e as bs
  obtain ⟨a, as, rfl⟩ := List.exists_cons_of_ne_nil some
  have first := chars a List.mem_cons_self
  have brace : a ≠ '{' := ne_of_isNameChar first (by decide)
  rw [List.cons_append] at taken rest ⊢
  simp only [expandFrom, ne_eq, not_true, if_false, brace, first, if_true, taken, stays, rest]
  rfl

/-- Expansion leaves such texts as they are. -/
theorem expandFrom_eq_self : ∀ {cs : List Char}, e.Keeps cs → e.expandFrom 0 cs = cs
  | [], _ => rfl
  | c :: cs, ⟨idle, kept⟩ => by
    have rest := expandFrom_eq_self kept
    by_cases dollar : c = '$'
    · subst dollar
      cases idle rfl with
      | last => rfl
      | other brace dollar name =>
        simpa [expandFrom, brace, dollar, name] using rest
      | @braced name more chars unset =>
        have behind : e.Keeps (name ++ '}' :: more) := kept.2
        rw [expandFrom_braced chars unset, expandFrom_eq_self behind.of_append.2]
      | @named name more some chars ends unset =>
        rw [expandFrom_named some chars ends unset, expandFrom_eq_self kept.of_append]
    · rw [expandFrom_other dollar, rest]
termination_by cs => cs.length

theorem expand_eq_self {s : String} (kept : e.Keeps s.toList) : e.expand s = s := by
  rw [expand, expandFrom_eq_self kept, String.ofList_toList]

/-- What may follow a text without changing what its dollars mean. -/
def Ends (cs : List Char) : Prop := ∀ c ∈ cs.head?, c ≠ '{' ∧ c ≠ '$' ∧ isNameChar c = false

theorem Idle.append (idle : e.Idle as) (ends : Ends bs) : e.Idle (as ++ bs) := by
  cases idle with
  | last =>
    cases bs with
    | nil => exact .last
    | cons b bs =>
      obtain ⟨brace, dollar, name⟩ := ends b rfl
      exact .other brace dollar name
  | other brace dollar name => exact .other brace dollar name
  | braced chars unset =>
    rw [List.cons_append, List.append_assoc]
    exact .braced chars unset
  | @named name cs some chars close unset =>
    rw [List.append_assoc]
    refine .named some chars ?_ unset
    cases cs with
    | nil => exact fun c first => (ends c first).2.2
    | cons c cs => exact close

theorem Keeps.append (kept : e.Keeps as) (ends : Ends bs) (rest : e.Keeps bs) :
    e.Keeps (as ++ bs) := by
  induction as with
  | nil => exact rest
  | cons a as ih => exact ⟨fun dollar => (kept.1 dollar).append ends, ih kept.2⟩

theorem keeps_append_of_notMem (plain : '$' ∉ as) (rest : e.Keeps bs) : e.Keeps (as ++ bs) := by
  induction as with
  | nil => exact rest
  | cons a as ih =>
    obtain ⟨ne, plain⟩ := not_or.1 (List.mem_cons.not.1 plain)
    exact ⟨fun dollar => absurd dollar.symm ne, ih plain⟩

theorem keeps_of_notMem (plain : '$' ∉ as) : e.Keeps as := by
  have all : e.Keeps (as ++ []) := keeps_append_of_notMem plain trivial
  rwa [List.append_nil] at all

end

end BackupAdmin.Environment
