import BackupAdmin.Time.Rfc3339
import BackupAdmin.Proofs.Text.Digits
import BackupAdmin.Proofs.Text.Splitting
import BackupAdmin.Proofs.Time.Calendar

/-! Times as text, read back. Main statements: the lenient reader reads the form of data as the point
in time that it was written for, and whatever it reads is such a point; the form of list filters is
that of data for whole seconds. -/
namespace BackupAdmin.Instant
open Text

theorem isBlank_of_isDigit {c : Char} (h : isDigit c = true) : isBlank c = false := by
  simp only [isDigit, Bool.and_eq_true, decide_eq_true_eq, Char.le_def] at h
  have low : 48 ≤ c.toNat := h.1
  have high : c.toNat ≤ 57 := h.2
  simp only [isBlank, Bool.or_eq_false_iff, Bool.and_eq_false_iff, decide_eq_false_iff_not,
    beq_eq_false_iff_ne]
  omega

theorem trimStart_cons {c : Char} (h : isBlank c = false) (cs : List Char) :
    trimStart (c :: cs) = c :: cs := by
  rw [trimStart, List.dropWhile_cons, if_neg (by simp [h])]

theorem trimStart_digits {ds : List Char} (digits : ∀ c ∈ ds, isDigit c = true) (ne : ds ≠ [])
    (cs : List Char) : trimStart (ds ++ cs) = ds ++ cs := by
  cases ds with
  | nil => exact absurd rfl ne
  | cons d ds => exact trimStart_cons (isBlank_of_isDigit (digits d List.mem_cons_self)) _

/-- Digits are read up to a character that is none. -/
theorem digitsBetween?_append {low high : Nat} {ds cs : List Char} {c : Char}
    (digits : ∀ d ∈ ds, isDigit d = true) (le : low ≤ ds.length) (fits : ds.length ≤ high)
    (stop : isDigit c = false) :
    digitsBetween? low high (ds ++ c :: cs) = some (decimal ds, c :: cs) := by
  have read : ((ds ++ c :: cs).take high).takeWhile isDigit = ds := by
    obtain ⟨k, rfl⟩ := Nat.exists_eq_add_of_le fits
    rw [List.take_length_add_append, List.takeWhile_append_of_pos digits]
    cases k with
    | zero => simp
    | succ k => simp [stop]
  simp only [digitsBetween?, read, if_neg (Nat.not_lt.2 le), List.drop_left]

/-- A field of two digits is read to its end. -/
theorem lenientField?_padded {n : Nat} (lt : n < 100) {c : Char} (stop : isDigit c = false)
    (cs : List Char) : lenientField? (padded 2 n ++ c :: cs) = some (n, c :: cs) := by
  have digits : ∀ d ∈ padded 2 n, isDigit d = true := fun d => isDigit_of_mem_padded
  have length : (padded 2 n).length = 2 :=
    length_padded ((Nat.length_toDigits_le_iff (by decide) (by decide)).2 lt)
  have ne : padded 2 n ≠ [] := List.ne_nil_of_length_pos (by omega)
  rw [lenientField?, trimStart_digits digits ne,
    digitsBetween?_append digits (by omega) (by omega) stop, decimal_padded]

theorem lenientYear?_of_isDigit {c : Char} (h : isDigit c = true) (cs : List Char) :
    lenientYear? (c :: cs) = (digitsBetween? 1 4 (c :: cs)).map fun (n, r) => ((n : Int), r) := by
  unfold lenientYear?
  split
  case h_1 minus => cases minus; exact absurd h (by decide)
  case h_2 plus => cases plus; exact absurd h (by decide)
  case h_3 => rfl

/-- Years are read with their sign, and without one when they have four digits. -/
theorem lenientYear?_yearText (y : Int) (cs : List Char) :
    lenientYear? (trimStart (yearText y ++ '-' :: cs)) = some (y, '-' :: cs) := by
  have dash : isDigit '-' = false := by decide
  by_cases four : 0 ≤ y ∧ y ≤ 9999
  · have digits : ∀ d ∈ padded 4 y.toNat, isDigit d = true := fun d => isDigit_of_mem_padded
    have length : (padded 4 y.toNat).length = 4 :=
      length_padded ((Nat.length_toDigits_le_iff (by decide) (by decide)).2 (by omega))
    have ne : padded 4 y.toNat ≠ [] := List.ne_nil_of_length_pos (length_padded_pos ..)
    have read : digitsBetween? 1 4 (padded 4 y.toNat ++ '-' :: cs) =
        some (y.toNat, '-' :: cs) := by
      rw [digitsBetween?_append digits (by omega) (by omega) dash, decimal_padded]
    rw [yearText, if_pos four, trimStart_digits digits ne]
    obtain ⟨d, ds, eq⟩ := List.exists_cons_of_ne_nil ne
    rw [eq] at digits read ⊢
    rw [List.cons_append] at read ⊢
    rw [lenientYear?_of_isDigit (digits d List.mem_cons_self), read, Option.map_some]
    exact congrArg some (Prod.ext (Int.toNat_of_nonneg four.1) rfl)
  · have digits : ∀ d ∈ padded 4 y.natAbs, isDigit d = true := fun d => isDigit_of_mem_padded
    have read : digitsBetween? 1 (padded 4 y.natAbs ++ '-' :: cs).length
        (padded 4 y.natAbs ++ '-' :: cs) = some (y.natAbs, '-' :: cs) := by
      have fits : (padded 4 y.natAbs).length ≤ (padded 4 y.natAbs ++ '-' :: cs).length := by simp
      rw [digitsBetween?_append digits (length_padded_pos ..) fits dash, decimal_padded]
    rw [yearText, if_neg four]
    by_cases negative : y < 0
    · rw [if_pos negative, List.cons_append, trimStart_cons (by decide), lenientYear?, read,
        Option.map_some]
      simp only [Option.some.injEq, Prod.mk.injEq, and_true]
      omega
    · rw [if_neg negative, List.cons_append, trimStart_cons (by decide), lenientYear?, read,
        Option.map_some]
      simp only [Option.some.injEq, Prod.mk.injEq, and_true]
      omega

/-- The second of the day, put together again from its hours, minutes and seconds. -/
theorem secondOfDay_parts (t : Instant) :
    t.secondOfDay / 3600 ≤ 23 ∧
      Int.fdiv t.seconds 86400 * 86400 + (t.secondOfDay / 3600 * 3600 +
        t.secondOfDay / 60 % 60 * 60 + t.secondOfDay % 60 : Nat) = t.seconds := by
  have days : Int.fdiv t.seconds 86400 = t.seconds / 86400 :=
    Int.fdiv_eq_ediv_of_nonneg _ (by decide)
  rw [secondOfDay, days]
  omega

/-- The point has a date in range, and a leap second follows the last second of a minute. -/
structure Valid (t : Instant) : Prop where
  low : Date.minYear ≤ t.date.year
  high : t.date.year ≤ Date.maxYear
  nanos : t.nanos < second ∨ t.nanos < 2 * second ∧ t.seconds % 60 = 59

/-- The second of a minute that is shown, which is the sixtieth for a leap second. -/
def shownSecond (t : Instant) : Nat := t.secondOfDay % 60 + if t.nanos < second then 0 else 1

theorem Valid.shownSecond_cases {t : Instant} (h : t.Valid) :
    (t.nanos < second ∧ t.shownSecond = t.secondOfDay % 60) ∨
      (second ≤ t.nanos ∧ t.nanos < 2 * second ∧ t.secondOfDay % 60 = 59 ∧ t.shownSecond = 60) := by
  unfold shownSecond
  by_cases usual : t.nanos < second
  · left
    simp [usual]
  · right
    obtain ⟨bounded, last⟩ := h.nanos.resolve_left usual
    have days : Int.fdiv t.seconds 86400 = t.seconds / 86400 :=
      Int.fdiv_eq_ediv_of_nonneg _ (by decide)
    have minute : t.secondOfDay % 60 = 59 := by
      rw [secondOfDay, days]
      omega
    exact ⟨Nat.le_of_not_lt usual, bounded, minute, by rw [if_neg usual, minute]⟩

/-- A point of a date in range comes from its parts. -/
theorem ofParts?_date {t : Instant} (h : t.Valid) :
    ofParts? t.date (t.secondOfDay / 3600) (t.secondOfDay / 60 % 60) t.shownSecond
      (t.nanos % second) 0 = some t := by
  obtain ⟨hours, seconds⟩ := t.secondOfDay_parts
  have exists_ : t.date.valid = true := Date.valid_ofDays h.low h.high
  have days : t.date.toDays = Int.fdiv t.seconds 86400 := Date.toDays_ofDays _
  have minutes : t.secondOfDay / 60 % 60 ≤ 59 := by omega
  have point (s n : Nat) (as_second : s = t.secondOfDay % 60) (as_nanos : n = t.nanos) :
      (⟨Int.fdiv t.seconds 86400 * 86400 + (t.secondOfDay / 3600 * 3600 +
        t.secondOfDay / 60 % 60 * 60 + s : Nat) - 0, n⟩ : Instant) = t := by
    rw [as_second, as_nanos, seconds, Int.sub_zero]
  rcases h.shownSecond_cases with ⟨usual, shown⟩ | ⟨leap, bounded, minute, shown⟩
  · have no_leap : t.secondOfDay % 60 ≠ 60 := by omega
    have in_minute : t.secondOfDay % 60 ≤ 60 := by omega
    simp only [ofParts?, shown, exists_, hours, minutes, in_minute, no_leap, days, decide_true,
      Bool.and_true, Int.natAbs_zero, if_false, point _ _ rfl (Nat.mod_eq_of_lt usual), h.low,
      h.high]
    simp
  · have nanos : second + t.nanos % second = t.nanos := by
      rw [Nat.mod_eq_sub_mod leap, Nat.mod_eq_of_lt (by omega)]
      omega
    simp only [ofParts?, shown, exists_, hours, minutes, days, decide_true, Bool.and_true,
      Int.natAbs_zero, if_true, point _ _ minute.symm nanos, h.low, h.high]
    simp

theorem char?_trimStart {c : Char} (h : isBlank c = false) (cs : List Char) :
    char? c (trimStart (c :: cs)) = some cs := by
  rw [trimStart_cons h, char?, if_pos rfl]

theorem mem_yearText {y : Int} {c : Char} (h : c ∈ yearText y) :
    isDigit c = true ∨ c ∈ ['-', '+'] := by
  unfold yearText at h
  split at h
  · exact .inl (isDigit_of_mem_padded h)
  · rcases List.mem_cons.1 h with rfl | digit
    · split <;> simp
    · exact .inl (isDigit_of_mem_padded digit)

/-- Digits after a point are read as the nanoseconds they stand for. -/
theorem fraction?_padded {width n : Nat} (fits : (Nat.toDigits 10 n).length ≤ width)
    (pos : 1 ≤ width) (nine : width ≤ 9) {c : Char} (stop : isDigit c = false) (cs : List Char) :
    fraction? ('.' :: (padded width n ++ c :: cs)) = some (n * Nat.pow 10 (9 - width), c :: cs) := by
  have digits : ∀ d ∈ padded width n, isDigit d = true := fun d => isDigit_of_mem_padded
  have length := length_padded fits
  have read : digitsBetween? 1 9 (padded width n ++ c :: cs) = some (n, c :: cs) := by
    rw [digitsBetween?_append digits (by omega) (by omega) stop, decimal_padded]
  have rest : (c :: cs).dropWhile isDigit = c :: cs := by
    rw [List.dropWhile_cons, if_neg (by simp [stop])]
  have used : (padded width n ++ c :: cs).length - (c :: cs).length = width := by
    rw [List.length_append, Nat.add_sub_cancel, length]
  simp only [fraction?, read, Option.bind_eq_bind, Option.bind_some, rest, used]

/-- The fraction of a second is read back, whatever the number of its digits. -/
theorem fraction?_fractionText (t : Instant) {c : Char} (stop : isDigit c = false)
    (no_point : c ≠ '.') (cs : List Char) :
    fraction? (fractionText t ++ c :: cs) = some (t.nanos % second, c :: cs) := by
  have below : t.nanos % second < 10 ^ 9 := Nat.mod_lt _ (by decide)
  have fits {k n : Nat} (lt : n < 10 ^ k) (pos : 0 < k) : (Nat.toDigits 10 n).length ≤ k :=
    (Nat.length_toDigits_le_iff (by decide) pos).2 lt
  unfold fractionText
  dsimp only
  split
  case isTrue zero =>
    rw [zero, List.nil_append]
    unfold fraction?
    split
    case h_1 point => cases point; contradiction
    case h_2 => rfl
  · split
    case isTrue millis =>
      rw [List.cons_append, fraction?_padded (fits (by omega) (by decide)) (by decide) (by decide)
        stop, show Nat.pow 10 (9 - 3) = 1000000 by decide, Nat.div_mul_cancel
        (Nat.dvd_of_mod_eq_zero millis)]
    · split
      case isTrue micros =>
        rw [List.cons_append, fraction?_padded (fits (by omega) (by decide)) (by decide) (by decide)
          stop, show Nat.pow 10 (9 - 6) = 1000 by decide, Nat.div_mul_cancel
          (Nat.dvd_of_mod_eq_zero micros)]
      case isFalse =>
        rw [List.cons_append, fraction?_padded (fits below (by decide)) (by decide) (by decide) stop,
          show Nat.pow 10 (9 - 9) = 1 by decide, Nat.mul_one]

/-- The form of data by its fields. -/
theorem toList_text (t : Instant) :
    t.text.toList = yearText t.date.year ++ '-' :: (padded 2 t.date.month ++ '-' ::
      (padded 2 t.date.day ++ 'T' :: (padded 2 (t.secondOfDay / 3600) ++ ':' ::
        (padded 2 (t.secondOfDay / 60 % 60) ++ ':' ::
          (padded 2 t.shownSecond ++ (fractionText t ++ ['Z'])))))) := by
  simp only [text, dateTimeText, dateText, clockText, shownSecond, String.toList_ofList,
    List.append_assoc, List.cons_append]

/-- No digit follows the second, with a fraction or without. -/
theorem exists_fractionText (t : Instant) :
    ∃ c cs, fractionText t ++ ['Z'] = c :: cs ∧ isDigit c = false := by
  unfold fractionText
  dsimp only
  split
  · exact ⟨'Z', [], rfl, by decide⟩
  · refine ⟨'.', ?_⟩
    split_ifs <;> exact ⟨_, rfl, by decide⟩

/-- A reader of parts, after its first part was read. -/
theorem bind_read {α β : Type} {o : Option α} {a : α} {f : α → Option β} {result : Option β}
    (read : o = some a) (rest : f a = result) : (o >>= f) = result := by
  rw [read]
  exact rest

/-- The form of data is read back, also of a leap second and of a year with a sign. -/
theorem ofLenientText?_text {t : Instant} (h : t.Valid) : ofLenientText? t.text = some t := by
  have valid : t.date.valid = true := Date.valid_ofDays h.low h.high
  obtain ⟨month, day⟩ := Date.lt_hundred_of_valid valid
  have hours : t.secondOfDay / 3600 < 100 := by have := t.secondOfDay_parts.1; omega
  have minutes : t.secondOfDay / 60 % 60 < 100 := by omega
  have seconds : t.shownSecond < 100 := by
    rcases h.shownSecond_cases with ⟨-, shown⟩ | ⟨-, -, -, shown⟩ <;> omega
  have dash : isBlank '-' = false := by decide
  have colon : isBlank ':' = false := by decide
  obtain ⟨c, cs, rest, stop⟩ := t.exists_fractionText
  have fraction : fraction? (c :: cs) = some (t.nanos % second, ['Z']) :=
    rest ▸ fraction?_fractionText t (by decide) (by decide) []
  rw [ofLenientText?, toList_text, rest]
  refine bind_read (lenientYear?_yearText _ _) ?_
  refine bind_read (char?_trimStart dash _) ?_
  refine bind_read (lenientField?_padded month (by decide) _) ?_
  refine bind_read (char?_trimStart dash _) ?_
  refine bind_read (lenientField?_padded day (by decide) _) ?_
  refine bind_read (lenientField?_padded hours (by decide) _) ?_
  refine bind_read (char?_trimStart colon _) ?_
  refine bind_read (lenientField?_padded minutes (by decide) _) ?_
  refine bind_read (char?_trimStart colon _) ?_
  refine bind_read (lenientField?_padded seconds stop _) ?_
  refine bind_read fraction ?_
  exact ofParts?_date h

theorem decimal_lt {ds : List Char} (digits : ∀ d ∈ ds, isDigit d = true) :
    decimal ds < 10 ^ ds.length := by
  rw [decimal_eq]
  suffices ∀ m, Nat.ofDigitChars 10 ds m < (m + 1) * 10 ^ ds.length by simpa using this 0
  induction ds with
  | nil => simp
  | cons d ds ih =>
    intro m
    obtain ⟨digit, digits⟩ := List.forall_mem_cons.1 digits
    have small : d.toNat - '0'.toNat < 10 := sub_lt_ten_of_isDigit digit
    rw [Nat.ofDigitChars_cons, List.length_cons, Nat.pow_succ', ← Nat.mul_assoc]
    refine Nat.lt_of_lt_of_le (ih digits _) (Nat.mul_le_mul_right _ ?_)
    omega

theorem digitsBetween?_cases {low high n : Nat} {cs rest : List Char}
    (read : digitsBetween? low high cs = some (n, rest)) :
    ∃ k ≤ high, n < 10 ^ k ∧ cs.length - rest.length = k := by
  unfold digitsBetween? at read
  dsimp only at read
  split at read
  · contradiction
  obtain ⟨rfl, rfl⟩ := Prod.mk.injEq .. ▸ Option.some.inj read
  have taken : ((cs.take high).takeWhile isDigit).length ≤ (cs.take high).length :=
    (List.takeWhile_prefix _).length_le
  rw [List.length_take] at taken
  refine ⟨_, by omega, decimal_lt fun d mem => List.all_eq_true.1 List.all_takeWhile d mem, ?_⟩
  rw [List.length_drop]
  omega

/-- A fraction is less than the second. -/
theorem fraction?_lt {cs rest : List Char} {n : Nat} (read : fraction? cs = some (n, rest)) :
    n < second := by
  unfold fraction? at read
  split at read
  case h_2 => cases read; decide
  case h_1 cs =>
    obtain ⟨⟨m, rest'⟩, digits, read⟩ := Option.bind_eq_some_iff.1 read
    obtain ⟨k, le, lt, used⟩ := digitsBetween?_cases digits
    cases read
    have nine : (10 : Nat) ^ k * 10 ^ (9 - k) = second := by
      rw [← Nat.pow_add, Nat.add_sub_cancel' le]
      rfl
    change m * 10 ^ _ < second
    rw [used, ← nine]
    exact Nat.mul_lt_mul_of_pos_right lt (Nat.pow_pos (by decide))

/-- Offsets are whole minutes. -/
theorem offset?_dvd {gap : List Char → Option (List Char)} {cs rest : List Char} {o : Int}
    (read : offset? gap cs = some (o, rest)) : 60 ∣ o := by
  unfold offset? at read
  split at read
  · contradiction
  split at read
  · cases read; exact Int.dvd_zero _
  split at read
  · obtain ⟨⟨h, _⟩, -, read⟩ := Option.bind_eq_some_iff.1 read
    obtain ⟨_, -, read⟩ := Option.bind_eq_some_iff.1 read
    obtain ⟨⟨m, _⟩, -, read⟩ := Option.bind_eq_some_iff.1 read
    dsimp only at read
    split at read
    · contradiction
    cases read
    split
    · exact Int.dvd_mul_left _ _
    · exact Int.dvd_neg.2 (Int.dvd_mul_left _ _)
  · contradiction

theorem lenientOffset?_dvd {cs rest : List Char} {o : Int}
    (read : lenientOffset? cs = some (o, rest)) : 60 ∣ o := by
  unfold lenientOffset? at read
  split at read
  · cases read; exact Int.dvd_zero _
  · exact offset?_dvd read

/-- A point that has its parts has a date in range; a leap second is the last of a minute, since
offsets are whole minutes. -/
theorem valid_of_ofParts? {d : Date} {h m s n : Nat} {o : Int} {t : Instant}
    (read : ofParts? d h m s n o = some t) (fraction : n < second) (minutes : 60 ∣ o) :
    t.Valid := by
  obtain ⟨-, read⟩ := Option.ite_none_right_eq_some.1 read
  obtain ⟨years, point⟩ := Option.ite_none_right_eq_some.1 read
  simp only [Bool.and_eq_true, decide_eq_true_eq] at years
  rw [← Option.some.inj point]
  refine ⟨years.1, years.2, ?_⟩
  by_cases leap : s = 60
  · have bounded : second + n < 2 * second := by omega
    obtain ⟨k, rfl⟩ := minutes
    simp only [if_pos leap]
    exact .inr ⟨bounded, by omega⟩
  · simp only [if_neg leap]
    exact .inl fraction

theorem valid_of_ofLenientText? {s : String} {t : Instant} (read : ofLenientText? s = some t) :
    t.Valid := by
  unfold ofLenientText? at read
  obtain ⟨_, -, read⟩ := Option.bind_eq_some_iff.1 read
  obtain ⟨_, -, read⟩ := Option.bind_eq_some_iff.1 read
  obtain ⟨_, -, read⟩ := Option.bind_eq_some_iff.1 read
  obtain ⟨_, -, read⟩ := Option.bind_eq_some_iff.1 read
  obtain ⟨_, -, read⟩ := Option.bind_eq_some_iff.1 read
  dsimp only at read
  split at read
  case h_2 => contradiction
  split at read
  case isFalse => contradiction
  obtain ⟨_, -, read⟩ := Option.bind_eq_some_iff.1 read
  obtain ⟨_, -, read⟩ := Option.bind_eq_some_iff.1 read
  obtain ⟨_, -, read⟩ := Option.bind_eq_some_iff.1 read
  obtain ⟨_, -, read⟩ := Option.bind_eq_some_iff.1 read
  obtain ⟨_, -, read⟩ := Option.bind_eq_some_iff.1 read
  obtain ⟨⟨n, _⟩, fraction, read⟩ := Option.bind_eq_some_iff.1 read
  obtain ⟨⟨o, _⟩, offset, read⟩ := Option.bind_eq_some_iff.1 read
  dsimp only at read
  split at read
  · exact valid_of_ofParts? read (fraction?_lt fraction) (lenientOffset?_dvd offset)
  · contradiction

/-- Whole seconds have the form of data in list filters. -/
theorem filterText_eq {t : Instant} (whole : t.nanos = 0) : t.filterText = t.text := by
  have no_fraction : fractionText t = [] := by simp [fractionText, whole]
  rw [filterText, text, dateTimeText, no_fraction, List.append_nil]

/-- There are no characters in it but digits and what stands between them. -/
theorem mem_filterText {t : Instant} (whole : t.nanos = 0) {c : Char}
    (h : c ∈ t.filterText.toList) : isDigit c = true ∨ c ∈ ['-', '+', 'T', ':', 'Z'] := by
  have no_fraction : fractionText t = [] := by simp [fractionText, whole]
  rw [filterText_eq whole, toList_text, no_fraction] at h
  simp only [List.nil_append, List.mem_append, List.mem_cons] at h
  rcases h with h | rfl | h | rfl | h | rfl | h | rfl | h | rfl | h | rfl | none
  · exact (mem_yearText h).imp_right fun sign => List.mem_append_left ['T', ':', 'Z'] sign
  all_goals first
    | exact .inr (by decide)
    | exact .inl (isDigit_of_mem_padded h)
    | contradiction

theorem wholeSeconds_cases (t : Instant) :
    t.wholeSeconds = ⟨t.seconds, 0⟩ ∨ t.wholeSeconds = ⟨t.seconds, second⟩ := by
  by_cases usual : t.nanos < second <;> simp [wholeSeconds, usual]

/-- Whole days from a whole second on there is a whole second, also from a leap second on. -/
theorem nanos_plusDays (t : Instant) {n : Nat} (pos : 0 < n) :
    (t.wholeSeconds.plusDays n).nanos = 0 := by
  have days : Duration.ofDays n = n * 86400 * second := rfl
  have long : ¬ n * 86400 * second < second := by
    rw [second]
    omega
  have starts : 0 < second := by decide
  rcases t.wholeSeconds_cases with usual | leap
  · simp [usual, plusDays, days, plus, starts]
  · rw [leap, plusDays, days, plus, if_neg (by simp), if_neg (by simp [long])]
    simp

theorem nanos_minusDays (t : Instant) (n : Nat) : (t.wholeSeconds.minusDays n).nanos = 0 := by
  rcases t.wholeSeconds_cases with usual | leap
  · have starts : 0 < second := by decide
    simp [usual, minusDays, starts]
  · rw [leap, minusDays, if_neg (by simp)]
    simp

theorem ofLenientText?_filterText {t : Instant} (whole : t.nanos = 0)
    (low : Date.minYear ≤ t.date.year) (high : t.date.year ≤ Date.maxYear) :
    ofLenientText? t.filterText = some t := by
  have usual : t.nanos < second := by rw [whole]; decide
  rw [filterText_eq whole]
  exact ofLenientText?_text ⟨low, high, .inl usual⟩

end BackupAdmin.Instant
