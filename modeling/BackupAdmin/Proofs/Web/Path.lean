import BackupAdmin.Proofs.Text.Splitting
import BackupAdmin.Proofs.Web.Percent
import BackupAdmin.Web.Url

/-! The segments of a path, with the moves within it and what is encoded. Main statement: every
segment that is read can stand in a path as it is, and segments that can are read as they are. -/
namespace BackupAdmin.Web.Url
open Text

/-! ### Dots -/

section
variable {a b c : Char} {s : List Char}

/-- A hexadecimal digit by its value. -/
theorem hexValue?_cases {n : Nat} (value : hexValue? c = some n) :
    isPathChar c = true ∧ n < 16 ∧ (n = 2 → c = '2') ∧ (n = 14 → c = 'e' ∨ c = 'E') := by
  have small : c.toNat < 128 := by
    refine Nat.lt_of_not_le fun large => ?_
    simp [hexValue?, not_le_of_large large (d := '9') (by decide),
      not_le_of_large large (d := 'f') (by decide),
      not_le_of_large large (d := 'F') (by decide)] at value
  refine of_ascii (P := fun c => ∀ m ∈ hexValue? c, isPathChar c = true ∧ m < 16 ∧
    (m = 2 → c = '2') ∧ (m = 14 → c = 'e' ∨ c = 'E')) ?_ small n value
  decide +kernel

/-- A character of an encoded dot by its small letter. -/
theorem of_toLower (c : Char) : (c.toLower = '%' → c = '%') ∧ (c.toLower = '2' → c = '2') ∧
    (c.toLower = '.' → c = '.') ∧ (c.toLower = 'e' → c = 'e' ∨ c = 'E') := by
  by_cases small : c.toNat < 128
  · refine of_ascii (P := fun c => (c.toLower = '%' → c = '%') ∧ (c.toLower = '2' → c = '2') ∧
      (c.toLower = '.' → c = '.') ∧ (c.toLower = 'e' → c = 'e' ∨ c = 'E')) ?_ small
    decide +kernel
  · have same : c.toLower = c := by
      refine dif_neg ?_
      rintro ⟨-, le⟩
      exact not_le_of_large (Nat.not_lt.1 small) (d := 'Z') (by decide) le
    rw [same]
    exact ⟨id, id, id, .inl⟩

/-- The spellings of a dot. -/
def dots : List (List Char) := [['.'], ['%', '2', 'e'], ['%', '2', 'E']]

theorem mem_dots_of_map (folded : s.map Char.toLower = ['.'] ∨
    s.map Char.toLower = ['%', '2', 'e']) : s ∈ dots := by
  rcases folded with dot | encoded
  · obtain ⟨c, cs, rfl, h, rest⟩ := List.map_eq_cons_iff.1 dot
    obtain rfl := List.map_eq_nil_iff.1 rest
    obtain rfl := (of_toLower c).2.2.1 h
    decide
  · obtain ⟨a, as, rfl, h₁, rest⟩ := List.map_eq_cons_iff.1 encoded
    obtain ⟨b, bs, rfl, h₂, rest⟩ := List.map_eq_cons_iff.1 rest
    obtain ⟨c, cs, rfl, h₃, rest⟩ := List.map_eq_cons_iff.1 rest
    obtain rfl := List.map_eq_nil_iff.1 rest
    obtain rfl := (of_toLower a).1 h₁
    obtain rfl := (of_toLower b).2.1 h₂
    rcases (of_toLower c).2.2.2 h₃ with rfl | rfl
    · decide
    · decide

theorem isHere_iff_mem : isHere s = true ↔ s ∈ dots := by
  constructor
  · intro here
    rw [isHere, Bool.or_eq_true, decide_eq_true_iff] at here
    rcases here with rfl | folded
    · decide
    · exact mem_dots_of_map (.inr (by simpa [equalFold] using folded))
  · intro mem
    have all : ∀ d ∈ dots, isHere d = true := by decide +kernel
    exact all s mem

/-- Two dots, each in one of its spellings. -/
theorem isUp_iff_mem : isUp s = true ↔ ∃ d ∈ dots, ∃ d' ∈ dots, s = d ++ d' := by
  constructor
  · intro up
    -- a text is split where the text with small letters is
    have split (as bs : List Char) (folded : s.map Char.toLower = as ++ bs)
        (first : as = ['.'] ∨ as = ['%', '2', 'e']) (second : bs = ['.'] ∨ bs = ['%', '2', 'e']) :
        ∃ d ∈ dots, ∃ d' ∈ dots, s = d ++ d' := by
      obtain ⟨d, d', rfl, same, same'⟩ := List.map_eq_append_iff.1 folded
      exact ⟨d, mem_dots_of_map (same ▸ first), d', mem_dots_of_map (same' ▸ second), rfl⟩
    simp only [isUp, Bool.or_eq_true, decide_eq_true_iff] at up
    rcases up with ((rfl | folded) | folded) | folded
    · exact ⟨['.'], by decide, ['.'], by decide, rfl⟩
    · exact split ['.'] ['%', '2', 'e'] (by simpa [equalFold] using folded) (.inl rfl) (.inr rfl)
    · exact split ['%', '2', 'e'] ['.'] (by simpa [equalFold] using folded) (.inr rfl) (.inl rfl)
    · exact split ['%', '2', 'e'] ['%', '2', 'e'] (by simpa [equalFold] using folded) (.inr rfl)
        (.inr rfl)
  · rintro ⟨d, mem, d', mem', rfl⟩
    have all : ∀ d ∈ dots, ∀ d' ∈ dots, isUp (d ++ d') = true := by decide +kernel
    exact all d mem d' mem'

/-- The byte of a dot comes from a dot, in one of its spellings. -/
theorem decodedBytes_eq_dot {xs : List UInt8} (h : decodedBytes s = 46 :: xs) :
    ∃ d ∈ dots, ∃ r, s = d ++ r ∧ decodedBytes r = xs := by
  unfold decodedBytes at h
  split at h
  · next a b rest =>
    split at h
    · next h₁ h₂ high low =>
      obtain ⟨byte, rfl⟩ := List.cons.inj h
      obtain ⟨-, lt₁, two, -⟩ := hexValue?_cases high
      obtain ⟨-, lt₂, -, fourteen⟩ := hexValue?_cases low
      have value : (16 * h₁ + h₂) % 256 = 46 := by
        rw [← UInt8.toNat_ofNat', byte]
        rfl
      obtain rfl := two (by omega)
      rcases fourteen (by omega) with rfl | rfl
      · exact ⟨['%', '2', 'e'], by decide, rest, rfl, rfl⟩
      · exact ⟨['%', '2', 'E'], by decide, rest, rfl, rfl⟩
    · obtain ⟨byte, -⟩ := List.cons.inj h
      exact absurd byte (by decide)
  · next c rest short =>
    obtain ⟨code, rfl⟩ := utf8EncodeChar_append_eq_cons (by decide) h
    obtain rfl : c = '.' := Char.toNat_inj.1 code
    exact ⟨['.'], by decide, rest, rfl, rfl⟩
  · contradiction

theorem decodedBytes_dots {d : List Char} (mem : d ∈ dots) (r : List Char) :
    decodedBytes (d ++ r) = 46 :: decodedBytes r := by
  have two : hexValue? '2' = some 2 := by decide
  rcases List.mem_cons.1 mem with rfl | mem
  · exact decodedBytes_cons (by decide)
  rcases List.mem_cons.1 mem with rfl | mem
  · have fourteen : hexValue? 'e' = some 14 := by decide
    exact decodedBytes_hex two fourteen
  · have fourteen : hexValue? 'E' = some 14 := by decide
    obtain rfl := List.mem_singleton.1 mem
    exact decodedBytes_hex two fourteen

/-- A text without a dot and without a percent sign is no move. -/
theorem still_of_notMem (no_dot : '.' ∉ s) (no_percent : '%' ∉ s) :
    isUp s = false ∧ isHere s = false := by
  have first : ∀ d ∈ dots, '.' ∈ d ∨ '%' ∈ d := by decide
  constructor
  · refine Bool.eq_false_iff.2 fun up => ?_
    obtain ⟨d, mem, d', -, rfl⟩ := isUp_iff_mem.1 up
    rcases first d mem with dot | percent
    · exact no_dot (List.mem_append_left d' dot)
    · exact no_percent (List.mem_append_left d' percent)
  · refine Bool.eq_false_iff.2 fun here => ?_
    rcases first s (isHere_iff_mem.1 here) with dot | percent
    · exact no_dot dot
    · exact no_percent percent

theorem isHere_iff : isHere s = true ↔ decodedBytes s = [46] := by
  rw [isHere_iff_mem]
  constructor
  · intro mem
    simpa using decodedBytes_dots mem []
  · intro bytes
    obtain ⟨d, mem, r, rfl, rest⟩ := decodedBytes_eq_dot bytes
    rw [decodedBytes_eq_nil rest, List.append_nil]
    exact mem

theorem isUp_iff : isUp s = true ↔ decodedBytes s = [46, 46] := by
  rw [isUp_iff_mem]
  constructor
  · rintro ⟨d, mem, d', mem', rfl⟩
    rw [decodedBytes_dots mem]
    simpa using decodedBytes_dots mem' []
  · intro bytes
    obtain ⟨d, mem, r, rfl, rest⟩ := decodedBytes_eq_dot bytes
    exact ⟨d, mem, r, isHere_iff_mem.1 (isHere_iff.2 rest), rfl⟩

end

/-! ### Segments -/

/-- A text that stands in a path as it is: nothing in it is encoded or taken for a slash, and no
segment of it is a move. -/
structure Verbatim (cs : List Char) : Prop where
  chars : ∀ c ∈ cs, isPathChar c = true ∧ c ≠ '\\'
  still : ∀ s ∈ pieces '/' cs, isUp s = false ∧ isHere s = false

instance (cs : List Char) : Decidable (Verbatim cs) :=
  decidable_of_iff ((cs.all fun c => isPathChar c && c != '\\') = true ∧
      (pieces '/' cs).all (fun s => !isUp s && !isHere s) = true) (by
    simp only [List.all_eq_true, Bool.and_eq_true, bne_iff_ne, Bool.not_eq_true']
    exact ⟨fun ⟨chars, still⟩ => ⟨chars, still⟩, fun h => ⟨h.chars, h.still⟩⟩)

theorem verbatim_append {as bs : List Char} :
    Verbatim (as ++ '/' :: bs) ↔ Verbatim as ∧ Verbatim bs := by
  have slash : isPathChar '/' = true ∧ '/' ≠ '\\' := by decide
  constructor
  · intro h
    have still := h.still
    rw [pieces_append, List.forall_mem_append] at still
    have chars := List.forall_mem_append.1 h.chars
    exact ⟨⟨chars.1, still.1⟩, (List.forall_mem_cons.1 chars.2).2, still.2⟩
  · rintro ⟨before, behind⟩
    constructor
    · exact List.forall_mem_append.2 ⟨before.chars, List.forall_mem_cons.2 ⟨slash, behind.chars⟩⟩
    · rw [pieces_append]
      exact List.forall_mem_append.2 ⟨before.still, behind.still⟩

/-- A segment of a path that was read. -/
structure Settled (s : List Char) : Prop where
  chars : ∀ c ∈ s, isPathChar c = true ∧ c ≠ '\\' ∧ c ≠ '/'
  still : isUp s = false ∧ isHere s = false

section
variable {s t : List Char} {w ss : List (List Char)}

/-- The characters of an encoded byte belong in a path. -/
theorem of_mem_encodeByte {x : UInt8} {c : Char} (mem : c ∈ encodeByte x) :
    isPathChar c = true ∧ c ≠ '\\' ∧ c ≠ '/' := by
  have all : ∀ n < 256, ('%' :: paddedHex 2 n).all
      (fun c => isPathChar c && c != '\\' && c != '/') = true := by
    decide +kernel
  have plain := List.all_eq_true.1 (all x.toNat x.toNat_lt) c mem
  simpa only [Bool.and_eq_true, bne_iff_ne, and_assoc] using plain

theorem of_mem_encodeBut {c : Char} (mem : c ∈ encodeBut isPathChar s) :
    isPathChar c = true ∧ (c ∈ s ∨ c ≠ '\\' ∧ c ≠ '/') := by
  obtain ⟨d, here, inside⟩ := List.mem_flatMap.1 mem
  split at inside
  · next kept =>
    obtain rfl := List.mem_singleton.1 inside
    exact ⟨kept, .inl here⟩
  · obtain ⟨x, -, inside⟩ := List.mem_flatMap.1 inside
    exact (of_mem_encodeByte inside).imp_right .inr

/-- A segment is no more and no less a move after it was encoded. -/
theorem decodedBytes_encodeBut_isPathChar (s : List Char) :
    decodedBytes (encodeBut isPathChar s) = decodedBytes s := by
  refine decodedBytes_encodeBut (by decide) (fun c digit => ?_) s
  obtain ⟨n, value⟩ := Option.ne_none_iff_exists'.1 digit
  exact (hexValue?_cases value).1

theorem settled_encodeBut (chars : ∀ c ∈ s, c ≠ '\\' ∧ c ≠ '/') (still : isUp s = false)
    (still' : isHere s = false) : Settled (encodeBut isPathChar s) where
  chars c mem := by
    obtain ⟨kept, inside | other⟩ := of_mem_encodeBut mem
    · exact ⟨kept, chars c inside⟩
    · exact ⟨kept, other⟩
  still := by
    simp only [Bool.eq_false_iff, ne_eq, isUp_iff, isHere_iff] at still still' ⊢
    rw [decodedBytes_encodeBut_isPathChar]
    exact ⟨still, still'⟩

/-- What was walked when one more segment, not the last one, has been read. -/
def step (walked : List (List Char)) (s : List Char) : List (List Char) :=
  if isUp s then walked.drop 1
  else if isHere s then walked
  else encodeBut isPathChar s :: walked

theorem walk_cons (ne : ss ≠ []) : walk w (s :: ss) = walk (step w s) ss := by
  have more : ss.isEmpty = false := by simpa using ne
  rw [walk, step, more]
  split
  · rfl
  · split <;> rfl

theorem walk_append (ss : List (List Char)) {ts : List (List Char)} (ne : ts ≠ []) :
    walk w (ss ++ ts) = walk (ss.foldl step w) ts := by
  induction ss generalizing w with
  | nil => rfl
  | cons s ss ih => rw [List.cons_append, walk_cons (by simp [ne]), ih, List.foldl_cons]

theorem settled_step (walked : ∀ s ∈ w, Settled s) (chars : ∀ c ∈ s, c ≠ '\\' ∧ c ≠ '/') :
    ∀ t ∈ step w s, Settled t := by
  unfold step
  split
  · exact fun t mem => walked t (List.mem_of_mem_drop mem)
  split
  · exact walked
  · next up here =>
    refine List.forall_mem_cons.2 ⟨settled_encodeBut chars ?_ ?_, walked⟩
    · simpa using up
    · simpa using here

theorem settled_foldl (walked : ∀ s ∈ w, Settled s)
    (chars : ∀ s ∈ ss, ∀ c ∈ s, c ≠ '\\' ∧ c ≠ '/') : ∀ s ∈ ss.foldl step w, Settled s := by
  induction ss generalizing w with
  | nil => exact walked
  | cons s ss ih =>
    obtain ⟨first, chars⟩ := List.forall_mem_cons.1 chars
    exact ih (settled_step walked first) chars

theorem settled_nil : Settled [] := ⟨List.forall_mem_nil _, by decide⟩

/-- Every segment that is read is settled. -/
theorem settled_walk (walked : ∀ s ∈ w, Settled s)
    (chars : ∀ s ∈ ss, ∀ c ∈ s, c ≠ '\\' ∧ c ≠ '/') : ∀ s ∈ walk w ss, Settled s := by
  have reversed {w : List (List Char)} (walked : ∀ s ∈ w, Settled s) :
      ∀ s ∈ w.reverse, Settled s := fun s mem => walked s (List.mem_reverse.1 mem)
  induction ss generalizing w with
  | nil => exact reversed walked
  | cons s ss ih =>
    obtain ⟨first, chars⟩ := List.forall_mem_cons.1 chars
    cases ss with
    | cons t ss =>
      rw [walk_cons (List.cons_ne_nil t ss)]
      exact ih (settled_step walked first) chars
    | nil =>
      -- a move at the end leaves an empty segment
      have stepped := settled_step walked first
      unfold step at stepped
      rw [walk]
      split
      · next up =>
        rw [if_pos up] at stepped
        exact reversed (List.forall_mem_cons.2 ⟨settled_nil, stepped⟩)
      · next up =>
        rw [if_neg up] at stepped
        split
        · next here =>
          rw [if_pos here] at stepped
          exact reversed (List.forall_mem_cons.2 ⟨settled_nil, stepped⟩)
        · next here =>
          rw [if_neg here] at stepped
          exact reversed stepped

/-- Segments that are read as they are. -/
theorem walk_eq (keep : ∀ s ∈ ss, (∀ c ∈ s, isPathChar c = true) ∧
    isUp s = false ∧ isHere s = false) : walk w ss = w.reverse ++ ss := by
  induction ss generalizing w with
  | nil => rw [walk, List.append_nil]
  | cons s ss ih =>
    obtain ⟨⟨chars, up, here⟩, keep⟩ := List.forall_mem_cons.1 keep
    rw [walk, up, here, if_neg Bool.false_ne_true, if_neg Bool.false_ne_true,
      encodeBut_eq_self chars, ih keep, List.reverse_cons, List.append_assoc]
    rfl

end

end BackupAdmin.Web.Url
