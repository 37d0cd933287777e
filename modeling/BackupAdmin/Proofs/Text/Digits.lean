import BackupAdmin.Text.Digits

/-! Decimal digits that are read back. Main statements: the digits of a number spell it, with zeros
in front of them and without. -/
namespace BackupAdmin.Text

theorem isDigit_eq (c : Char) : isDigit c = c.isDigit := rfl

/-- The numbers of letters and digits. -/
theorem toNat_of_isAlphanum {c : Char} (h : c.isAlphanum = true) :
    (65 ≤ c.toNat ∧ c.toNat ≤ 90) ∨ (97 ≤ c.toNat ∧ c.toNat ≤ 122) ∨
      (48 ≤ c.toNat ∧ c.toNat ≤ 57) := by
  have classes : c.isAlphanum = (c.isUpper || c.isLower || c.isDigit) := rfl
  rw [classes, Bool.or_eq_true, Bool.or_eq_true] at h
  rcases h with (upper | lower) | digit
  · exact .inl (of_decide_eq_true upper)
  · exact .inr (.inl ((Bool.and_eq_true_iff.1 lower).imp of_decide_eq_true of_decide_eq_true))
  · exact .inr (.inr ((Bool.and_eq_true_iff.1 digit).imp of_decide_eq_true of_decide_eq_true))

theorem isDigit_of_mem_toDigits {n : Nat} {c : Char} (h : c ∈ Nat.toDigits 10 n) :
    isDigit c = true :=
  (isDigit_eq c).trans (Nat.isDigit_of_mem_toDigits (by decide) (by decide) h)

theorem hexValue?_of_isDigit {c : Char} (h : isDigit c = true) :
    hexValue? c = some (c.toNat - 48) := if_pos h

theorem sub_lt_ten_of_isDigit {c : Char} (h : isDigit c = true) : c.toNat - 48 < 10 := by
  simp only [isDigit, Bool.and_eq_true, decide_eq_true_eq, Char.le_def] at h
  have le : c.toNat ≤ '9'.toNat := h.2
  have nine : '9'.toNat = 57 := rfl
  omega

/-- One more digit of a number that is being read. -/
theorem natOf?_foldl {cs : List Char} (h : ∀ c ∈ cs, isDigit c = true) (m : Nat) :
    cs.foldl (fun acc c => do
      let n ← acc
      let d ← hexValue? c
      if d < 10 then some (n * 10 + d) else none) (some m) = some (Nat.ofDigitChars 10 cs m) := by
  induction cs generalizing m with
  | nil => rfl
  | cons c cs ih =>
    obtain ⟨digit, digits⟩ := List.forall_mem_cons.1 h
    rw [List.foldl_cons, Nat.ofDigitChars_cons, ← ih digits, Nat.mul_comm 10]
    simp [hexValue?_of_isDigit digit, sub_lt_ten_of_isDigit digit]

theorem natOf?_toDigits (n : Nat) : natOf? 10 (Nat.toDigits 10 n) = some n := by
  have digits : ∀ c ∈ Nat.toDigits 10 n, isDigit c = true := fun c => isDigit_of_mem_toDigits
  rw [natOf?, if_neg (by simp [Nat.toDigits_ne_nil])]
  exact (natOf?_foldl digits 0).trans (congrArg some Nat.ofDigitChars_ten_toDigits)

theorem intOf?_toDigits (n : Nat) : intOf? (Nat.toDigits 10 n) = some (n : Int) := by
  have signed {c : Char} (mem : c ∈ Nat.toDigits 10 n) (sign : isDigit c = false) : False := by
    rw [isDigit_of_mem_toDigits mem] at sign
    contradiction
  unfold intOf?
  split
  case h_1 minus => exact (signed (minus ▸ List.mem_cons_self) (by decide)).elim
  case h_2 plus => exact (signed (plus ▸ List.mem_cons_self) (by decide)).elim
  case h_3 => rw [natOf?_toDigits]; rfl

theorem toList_toString (n : Int) : (toString n).toList =
    if n < 0 then '-' :: Nat.toDigits 10 n.natAbs else Nat.toDigits 10 n.natAbs := by
  cases n with
  | ofNat n =>
    rw [if_neg (by simp)]
    exact String.toList_ofList
  | negSucc n =>
    rw [if_pos (Int.negSucc_lt_zero n)]
    change ("-" ++ String.ofList (Nat.toDigits 10 (n + 1))).toList = _
    simp only [String.toList_append, String.toList_ofList, Int.natAbs_negSucc]
    rfl

/-- A number is read from its text. -/
theorem intOf?_toString (n : Int) : intOf? (toString n).toList = some n := by
  rw [toList_toString]
  split
  · next negative =>
    have back : -(n.natAbs : Int) = n := by omega
    rw [intOf?, natOf?_toDigits]
    exact congrArg some back
  · next nonneg =>
    rw [intOf?_toDigits]
    exact congrArg some (by omega)

theorem int64?_toInt (w : Int64) : int64? w.toInt = some w := by
  rw [int64?, if_pos ⟨w.minValue_le_toInt, w.toInt_le⟩, Int64.ofInt_toInt]

theorem int32?_toInt (w : Int32) : int32? w.toInt = some w := by
  rw [int32?, if_pos ⟨w.minValue_le_toInt, w.toInt_le⟩, Int32.ofInt_toInt]

/-- The digits of a number within a word are read as that word. -/
theorem int64?_toDigits {n : Nat} (small : (n : Int) ≤ Int64.maxValue.toInt) :
    ∃ w, (intOf? (Nat.toDigits 10 n)).bind int64? = some w ∧ w.toInt = n := by
  have low : Int64.minValue.toInt ≤ (n : Int) := Int.le_trans (by decide) (Int.natCast_nonneg n)
  refine ⟨.ofInt n, ?_, Int64.toInt_ofInt_of_le low ?_⟩
  · rw [intOf?_toDigits, Option.bind_some, int64?, if_pos ⟨low, small⟩]
  · exact Int.lt_of_le_of_lt small (by decide)

/-- Of a number above zero the first digit is above zero. -/
theorem head?_toDigits {n : Nat} (pos : 0 < n) : (Nat.toDigits 10 n).head? ≠ some '0' := by
  induction n using Nat.strongRecOn with
  | ind n ih =>
    rw [Nat.toDigits_eq_if (by decide)]
    split
    case isTrue lt =>
      have all : ∀ m < 10, 0 < m → [Nat.digitChar m].head? ≠ some '0' := by decide
      exact all n lt pos
    case isFalse le =>
      have first := ih (n / 10) (by omega) (by omega)
      obtain ⟨c, cs, digits⟩ :=
        List.exists_cons_of_ne_nil (Nat.toDigits_ne_nil (b := 10) (n := n / 10))
      rw [digits] at first ⊢
      exact first

theorem decimal_eq (cs : List Char) : decimal cs = Nat.ofDigitChars 10 cs 0 := by
  simp only [decimal, Nat.ofDigitChars, Nat.mul_comm 10]
  rfl

theorem isDigit_of_mem_padded {width n : Nat} {c : Char} (h : c ∈ padded width n) :
    isDigit c = true := by
  rcases List.mem_append.1 h with zero | digit
  · rw [(List.mem_replicate.1 zero).2]
    rfl
  · exact isDigit_of_mem_toDigits digit

theorem ofDigitChars_replicate_zero (k : Nat) :
    Nat.ofDigitChars 10 (List.replicate k '0') 0 = 0 := by
  induction k with
  | zero => rfl
  | succ k ih => rw [List.replicate_succ, Nat.ofDigitChars_cons]; exact ih

@[simp] theorem decimal_padded (width n : Nat) : decimal (padded width n) = n := by
  rw [decimal_eq, padded, Nat.ofDigitChars_append, ofDigitChars_replicate_zero,
    Nat.ofDigitChars_ten_toDigits]

/-- A number that has no more digits than the width is padded to just the width. -/
theorem length_padded {width n : Nat} (le : (Nat.toDigits 10 n).length ≤ width) :
    (padded width n).length = width := by
  rw [padded, List.length_append, List.length_replicate]
  exact Nat.sub_add_cancel le

theorem length_padded_pos (width n : Nat) : 0 < (padded width n).length := by
  rw [padded, List.length_append]
  exact Nat.add_pos_right _ (List.length_pos_iff.2 Nat.toDigits_ne_nil)

end BackupAdmin.Text
