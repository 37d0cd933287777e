import BackupAdmin.Text.Blank
import Mathlib.Data.List.Infix

/-! Splitting, searching and trimming of texts that are put together from known parts. -/
namespace BackupAdmin.Text
variable {p : Char → Bool} {c : Char} {as bs cs sep : List Char}

section
variable {P : Char → Prop} [DecidablePred P]

/-- What holds of the characters of a list, checked one after the other: to decide such a statement
as one about all characters there are is hopeless. -/
theorem forall_mem_of_all (h : cs.all (fun c => P c) = true) : ∀ c ∈ cs, P c := by
  simpa using h

theorem forall_mem_of_all? {o : Option Char} (h : o.all (fun c => P c) = true) :
    ∀ c ∈ o, P c := by
  rintro c rfl
  exact of_decide_eq_true h

end

/-- What holds of all characters below 128 can be checked by their codes. -/
theorem of_ascii {P : Char → Prop} (all : ∀ n < 128, P (Char.ofNat n)) (small : c.toNat < 128) :
    P c := by
  have here := all c.toNat small
  rwa [Char.ofNat_toNat] at here

theorem not_le_of_large {d : Char} (large : 128 ≤ c.toNat) (small : d.toNat < 128) : ¬ c ≤ d :=
  fun le => absurd (Nat.le_trans large le) (Nat.not_le.2 small)

theorem after?_eq_none (h : ¬ sep <+: cs) : after? sep cs = none :=
  if_neg (by simpa using h)

theorem after?_append (sep cs : List Char) : after? sep (sep ++ cs) = some cs := by
  simp [after?]

/-- A text without one of the separator's characters is not split. -/
theorem splitFirst?_eq_none (mem : c ∈ sep) (absent : c ∉ cs) : splitFirst? sep cs = none := by
  induction cs with
  | nil => simp [splitFirst?, List.ne_nil_of_mem mem]
  | cons a cs ih =>
    have not_here : ¬ sep <+: a :: cs := fun here => absent (here.subset mem)
    have absent_rest : c ∉ cs := fun later => absent (List.mem_cons_of_mem a later)
    simp only [splitFirst?, after?_eq_none not_here, ih absent_rest, Option.map_none]

/-- A text is split at the first place where the separator's first character stands. -/
theorem splitFirst?_append (absent : c ∉ as) (sep bs : List Char) :
    splitFirst? (c :: sep) (as ++ (c :: sep ++ bs)) = some (as, bs) := by
  induction as with
  | nil =>
    have here := after?_append (c :: sep) bs
    simp only [List.nil_append, List.cons_append] at here ⊢
    simp only [splitFirst?, here]
  | cons a as ih =>
    obtain ⟨ne, absent⟩ := not_or.1 (List.mem_cons.not.1 absent)
    have not_here : ¬ c :: sep <+: a :: (as ++ (c :: sep ++ bs)) := fun here =>
      ne (List.cons_prefix_cons.1 here).1
    rw [List.cons_append, splitFirst?, after?_eq_none not_here]
    simp only [ih absent, Option.map_some]

/-- A separator that stands somewhere in a text is found there, and leaves what comes behind. -/
theorem splitFirst?_of_infix (h : sep <:+: as) (bs : List Char) :
    ∃ before rest, splitFirst? sep (as ++ bs) = some (before, rest ++ bs) ∧ rest <:+ as := by
  induction as with
  | nil =>
    obtain rfl := List.infix_nil.1 h
    cases bs with
    | nil => exact ⟨[], [], rfl, List.suffix_rfl⟩
    | cons b bs => exact ⟨[], [], by simp [splitFirst?, after?], List.suffix_rfl⟩
  | cons a as ih =>
    by_cases here : sep <+: a :: as
    · obtain ⟨rest, whole⟩ := here
      have found : after? sep (a :: (as ++ bs)) = some (rest ++ bs) := by
        rw [← List.cons_append, ← whole, List.append_assoc, after?_append]
      refine ⟨[], rest, ?_, whole ▸ List.suffix_append sep rest⟩
      rw [List.cons_append, splitFirst?, found]
    · -- the separator fits into the rest, so it does not begin here and end behind the text either
      have later : sep <:+: as := (List.infix_cons_iff.1 h).resolve_left here
      have not_here : ¬ sep <+: a :: (as ++ bs) := fun both =>
        here (List.prefix_of_prefix_length_le both (List.prefix_append (a :: as) bs)
          (later.length_le.trans (Nat.le_succ _)))
      obtain ⟨before, rest, found, suffix⟩ := ih later
      refine ⟨a :: before, rest, ?_, suffix.trans (List.suffix_cons a as)⟩
      rw [List.cons_append, splitFirst?, after?_eq_none not_here]
      simp only [found, Option.map_some]

/-- A text is split at the first of the separators in it, wherever that is. -/
theorem splitFirst?_singleton (c : Char) (as bs : List Char) :
    ∃ rest, splitFirst? [c] (as ++ c :: bs) = some (as.takeWhile (· ≠ c), rest) := by
  induction as with
  | nil => exact ⟨bs, splitFirst?_append List.not_mem_nil [] bs⟩
  | cons a as ih =>
    by_cases here : a = c
    · subst here
      refine ⟨as ++ a :: bs, ?_⟩
      rw [List.takeWhile_cons, if_neg (by simp)]
      exact splitFirst?_append List.not_mem_nil [] (as ++ a :: bs)
    · obtain ⟨rest, found⟩ := ih
      have not_here : ¬ [c] <+: a :: (as ++ c :: bs) := fun first =>
        here (List.cons_prefix_cons.1 first).1.symm
      refine ⟨rest, ?_⟩
      rw [List.takeWhile_cons, if_pos (by simpa using here), List.cons_append, splitFirst?,
        after?_eq_none not_here]
      simp only [found, Option.map_some]

theorem contains_iff : contains sep cs = true ↔ sep <:+: cs := by
  unfold contains
  induction cs with
  | nil => by_cases empty : sep = [] <;> simp [splitFirst?, empty]
  | cons a cs ih =>
    rw [List.infix_cons_iff, ← ih]
    by_cases here : sep <+: a :: cs
    · have found : after? sep (a :: cs) = some ((a :: cs).drop sep.length) :=
        if_pos (by simpa using here)
      simp [splitFirst?, found, here]
    · simp [splitFirst?, after?_eq_none here, here]

/-- A text without one of the separator's characters is one piece. -/
theorem piecesFrom_eq_singleton (mem : c ∈ sep) (absent : c ∉ cs) : piecesFrom sep 0 cs = [cs] := by
  induction cs with
  | nil => rfl
  | cons a cs ih =>
    have not_here : ¬ sep.isPrefixOf (a :: cs) = true := fun here =>
      absent ((List.isPrefixOf_iff_prefix.1 here).subset mem)
    have absent_rest : c ∉ cs := fun later => absent (List.mem_cons_of_mem a later)
    rw [piecesFrom, if_neg not_here, ih absent_rest]

theorem piecesFrom_skip (sep as bs : List Char) :
    piecesFrom sep as.length (as ++ bs) = piecesFrom sep 0 bs := by
  induction as with
  | nil => rfl
  | cons a as ih => exact ih

/-- The first piece ends where the separator comes, when its second character is new there. -/
theorem piecesFrom_append {d : Char} (ne : c ≠ d) (absent : d ∉ as) (sep bs : List Char) :
    piecesFrom (c :: d :: sep) 0 (as ++ (c :: d :: sep ++ bs)) =
      as :: piecesFrom (c :: d :: sep) 0 bs := by
  induction as with
  | nil =>
    have here : (c :: d :: sep).isPrefixOf (c :: (d :: sep ++ bs)) = true := by simp
    change piecesFrom (c :: d :: sep) 0 (c :: (d :: sep ++ bs)) = _
    rw [piecesFrom, if_pos here]
    exact congrArg _ (piecesFrom_skip (c :: d :: sep) (d :: sep) bs)
  | cons a as ih =>
    obtain ⟨-, absent_rest⟩ := not_or.1 (List.mem_cons.not.1 absent)
    have not_here : ¬ (c :: d :: sep).isPrefixOf (a :: (as ++ (c :: d :: sep ++ bs))) = true := by
      intro here
      obtain ⟨-, next⟩ := List.cons_prefix_cons.1 (List.isPrefixOf_iff_prefix.1 here)
      cases as with
      | nil => exact ne (List.cons_prefix_cons.1 next).1.symm
      | cons b as => exact absent_rest ((List.cons_prefix_cons.1 next).1 ▸ List.mem_cons_self)
    rw [List.cons_append, piecesFrom, if_neg not_here, ih absent_rest]

section
variable {sep : Char} {s : List Char}

theorem pieces_sep (sep : Char) (cs : List Char) : pieces sep (sep :: cs) = [] :: pieces sep cs :=
  if_pos rfl

theorem pieces_ne_nil (sep : Char) (cs : List Char) : pieces sep cs ≠ [] := by
  cases cs with
  | nil => exact List.cons_ne_nil _ _
  | cons c cs =>
    rw [pieces]
    split
    · exact List.cons_ne_nil _ _
    · split <;> exact List.cons_ne_nil _ _

/-- The pieces of a text are those before one of the separators and those behind it. -/
theorem pieces_append (sep : Char) (as bs : List Char) :
    pieces sep (as ++ sep :: bs) = pieces sep as ++ pieces sep bs := by
  induction as with
  | nil => exact pieces_sep sep bs
  | cons a as ih =>
    rw [List.cons_append, pieces, pieces, ih]
    split
    · rfl
    · cases before : pieces sep as with
      | nil => exact absurd before (pieces_ne_nil sep as)
      | cons p ps => rfl

/-- The pieces with the separator in front of each make up the text again. -/
theorem flatMap_pieces (sep : Char) (cs : List Char) :
    (pieces sep cs).flatMap (sep :: ·) = sep :: cs := by
  induction cs with
  | nil => rfl
  | cons c cs ih =>
    rw [pieces]
    split
    · next same => rw [List.flatMap_cons, ih, same, List.cons_append, List.nil_append]
    · cases rest : pieces sep cs with
      | nil => exact absurd rest (pieces_ne_nil sep cs)
      | cons p ps =>
        rw [rest, List.flatMap_cons, List.cons_append] at ih
        obtain ⟨-, same⟩ := List.cons.inj ih
        rw [List.flatMap_cons, ← same]
        rfl

theorem sep_notMem_of_mem_pieces (mem : s ∈ pieces sep cs) : sep ∉ s := by
  induction cs generalizing s with
  | nil =>
    obtain rfl := List.mem_singleton.1 mem
    exact List.not_mem_nil
  | cons d cs ih =>
    rw [pieces] at mem
    split at mem
    · rcases List.mem_cons.1 mem with rfl | mem
      · exact List.not_mem_nil
      · exact ih mem
    · next ne =>
      split at mem
      · next none => exact absurd none (pieces_ne_nil sep cs)
      · next p ps before =>
        rcases List.mem_cons.1 mem with rfl | later
        · have absent := ih (before ▸ List.mem_cons_self)
          simpa [Ne.symm ne] using absent
        · exact ih (before ▸ List.mem_cons_of_mem p later)

/-- What is no separator stands in one of the pieces. -/
theorem exists_mem_pieces (sep : Char) (mem : c ∈ cs) : c = sep ∨ ∃ s ∈ pieces sep cs, c ∈ s := by
  have inside : c ∈ (pieces sep cs).flatMap (sep :: ·) :=
    flatMap_pieces sep cs ▸ List.mem_cons_of_mem sep mem
  obtain ⟨s, piece, here⟩ := List.mem_flatMap.1 inside
  exact (List.mem_cons.1 here).imp_right fun here => ⟨s, piece, here⟩

theorem mem_of_mem_pieces (mem : s ∈ pieces sep cs) (here : c ∈ s) : c ∈ cs := by
  have inside : c ∈ (pieces sep cs).flatMap (sep :: ·) :=
    List.mem_flatMap.2 ⟨s, mem, List.mem_cons_of_mem sep here⟩
  rw [flatMap_pieces] at inside
  rcases List.mem_cons.1 inside with rfl | inside
  · exact absurd here (sep_notMem_of_mem_pieces mem)
  · exact inside

/-- A text without the separator is one piece. -/
theorem pieces_eq_singleton (absent : sep ∉ cs) : pieces sep cs = [cs] := by
  induction cs with
  | nil => rfl
  | cons c cs ih =>
    obtain ⟨other, absent⟩ := not_or.1 (List.mem_cons.not.1 absent)
    rw [pieces, if_neg (Ne.symm other), ih absent]

/-- Texts without the separator, with one in front of each, are split into just these. -/
theorem pieces_flatMap {ss : List (List Char)} (absent : ∀ s ∈ ss, sep ∉ s) :
    pieces sep (ss.flatMap (sep :: ·)) = [] :: ss := by
  induction ss with
  | nil => rfl
  | cons s ss ih =>
    obtain ⟨first, absent⟩ := List.forall_mem_cons.1 absent
    rw [List.flatMap_cons, List.cons_append, pieces_sep]
    cases ss with
    | nil => simp [pieces_eq_singleton first]
    | cons t ss =>
      have rest := ih absent
      rw [List.flatMap_cons, List.cons_append] at rest ⊢
      rw [pieces_sep] at rest
      rw [pieces_append, pieces_eq_singleton first, (List.cons.inj rest).2]
      rfl

end

/-- Texts without the separator are told apart from what stands behind it. -/
theorem append_sep_inj {sep : Char} {ds : List Char} (absent : sep ∉ as) (absent' : sep ∉ bs) :
    as ++ sep :: cs = bs ++ sep :: ds ↔ as = bs ∧ cs = ds := by
  induction as generalizing bs with
  | nil => cases bs with
    | nil => simp
    | cons b bs => simp_all
  | cons a as ih => cases bs with
    | nil => simp_all [eq_comm]
    | cons b bs =>
      have tails := ih (List.not_mem_of_not_mem_cons absent) (List.not_mem_of_not_mem_cons absent')
      simp only [List.cons_append, List.cons.injEq, tails, and_assoc]

theorem dropWhile_eq_self (first : ∀ c ∈ cs.head?, p c = false) : cs.dropWhile p = cs := by
  cases cs with
  | nil => rfl
  | cons c cs => rw [List.dropWhile_cons, if_neg (by simp [first c rfl])]

theorem dropEndWhile_eq_self (last : ∀ c ∈ cs.getLast?, p c = false) : dropEndWhile p cs = cs := by
  rw [dropEndWhile, dropWhile_eq_self (by rwa [List.head?_reverse]), List.reverse_reverse]

/-- A run of characters of one kind ends where a character of another kind stands. -/
theorem takeWhile_append_stop (run : ∀ c ∈ as, p c = true) (stop : ∀ c ∈ bs.head?, p c = false) :
    (as ++ bs).takeWhile p = as := by
  have nothing : bs.takeWhile p = [] := by
    cases bs with
    | nil => rfl
    | cons b bs => rw [List.takeWhile_cons, if_neg (by simp [stop b rfl])]
  rw [List.takeWhile_append_of_pos run, nothing, List.append_nil]

theorem dropWhile_append_stop (run : ∀ c ∈ as, p c = true) (stop : ∀ c ∈ bs.head?, p c = false) :
    (as ++ bs).dropWhile p = bs := by
  rw [List.dropWhile_append_of_pos run, dropWhile_eq_self stop]

/-- A run ends at the latest at a character of another kind. -/
theorem takeWhile_append_cons (stop : p c = false) (as bs : List Char) :
    (as ++ c :: bs).takeWhile p = as.takeWhile p := by
  have nothing : (c :: bs).takeWhile p = [] := by rw [List.takeWhile_cons, if_neg (by simp [stop])]
  rw [List.takeWhile_append, nothing, List.append_nil]
  split
  · next whole => rw [(List.takeWhile_prefix p).eq_of_length whole]
  · rfl

theorem takeWhile_append_of_mem (mem : c ∈ as) (stop : p c = false) (bs : List Char) :
    (as ++ bs).takeWhile p = as.takeWhile p := by
  obtain ⟨before, behind, rfl⟩ := List.append_of_mem mem
  rw [List.append_assoc, List.cons_append, takeWhile_append_cons stop, takeWhile_append_cons stop]

theorem dropWhile_append_cons (stop : p c = false) (as bs : List Char) :
    (as ++ c :: bs).dropWhile p = as.dropWhile p ++ c :: bs := by
  have same : (c :: bs).dropWhile p = c :: bs := dropWhile_eq_self (by rintro _ ⟨⟩; exact stop)
  rw [List.dropWhile_append, same]
  split
  · next empty => rw [List.isEmpty_iff.1 empty, List.nil_append]
  · rfl

theorem dropEndWhile_cons (stop : p c = false) (cs : List Char) :
    dropEndWhile p (c :: cs) = c :: dropEndWhile p cs := by
  rw [dropEndWhile, List.reverse_cons, dropWhile_append_cons stop, List.reverse_append,
    List.reverse_singleton, List.singleton_append, dropEndWhile]

theorem dropEndWhile_concat (cs : List Char) (c : Char) :
    dropEndWhile p (cs ++ [c]) = if p c then dropEndWhile p cs else cs ++ [c] := by
  rw [dropEndWhile, List.reverse_append, List.reverse_singleton, List.singleton_append,
    List.dropWhile_cons, dropEndWhile]
  split
  · rfl
  · simp

/-- Nothing is trimmed from a text that has nothing of the kind at its ends. -/
theorem trimWhile_eq_self (first : ∀ c ∈ cs.head?, p c = false)
    (last : ∀ c ∈ cs.getLast?, p c = false) : trimWhile p cs = cs := by
  rw [trimWhile, dropWhile_eq_self first, dropEndWhile_eq_self last]

theorem trimWhile_eq_self_of_forall (h : ∀ c ∈ cs, p c = false) : trimWhile p cs = cs :=
  trimWhile_eq_self (fun c mem => h c (List.mem_of_mem_head? mem))
    fun c mem => h c (List.mem_of_mem_getLast? mem)

theorem trimWhile_cons (h : p c = true) (cs : List Char) :
    trimWhile p (c :: cs) = trimWhile p cs := by
  rw [trimWhile, List.dropWhile_cons, if_pos h, trimWhile]

/-- A text between two characters that are trimmed. -/
theorem trimWhile_enclosed {a b : Char} (begins : p a = true) (ends : p b = true)
    (inside : ∀ c ∈ cs, p c = false) : trimWhile p (a :: (cs ++ [b])) = cs := by
  rw [trimWhile_cons begins]
  cases cs with
  | nil => simp [trimWhile, dropEndWhile, ends]
  | cons c cs =>
    have first : ∀ d ∈ (c :: cs ++ [b]).head?, p d = false := by
      rintro d ⟨⟩
      exact inside c List.mem_cons_self
    have last : ∀ d ∈ (c :: cs).reverse.head?, p d = false := fun d mem =>
      inside d (List.mem_reverse.1 (List.mem_of_mem_head? mem))
    rw [trimWhile, dropWhile_eq_self first, dropEndWhile, List.reverse_append]
    change ((b :: (c :: cs).reverse).dropWhile p).reverse = _
    rw [List.dropWhile_cons, if_pos ends, dropWhile_eq_self last, List.reverse_reverse]

/-- What has an end that is not dropped keeps all that stands before it. -/
theorem dropEndWhile_append (as : List Char) (kept : dropEndWhile p bs ≠ []) :
    dropEndWhile p (as ++ bs) = as ++ dropEndWhile p bs := by
  have some_left : bs.reverse.dropWhile p ≠ [] := fun nothing =>
    kept (by simp [dropEndWhile, nothing])
  rw [dropEndWhile, List.reverse_append, List.dropWhile_append, if_neg (by simpa using some_left),
    List.reverse_append, List.reverse_reverse, dropEndWhile]

/-- A text that is trimmed keeps its ends when something else stands before it. -/
theorem trimWhile_append (ne : as ≠ []) (first : ∀ c ∈ as.head?, p c = false)
    (kept : trimWhile p bs ≠ []) :
    trimWhile p (as ++ bs) = as ++ bs.takeWhile p ++ trimWhile p bs := by
  have head : (as ++ bs).head? = as.head? := List.head?_append_of_ne_nil as ne
  have split : as ++ bs = (as ++ bs.takeWhile p) ++ bs.dropWhile p := by simp
  rw [trimWhile, dropWhile_eq_self (by rwa [head]), split, dropEndWhile_append _ kept, trimWhile]

theorem getLast?_trimWhile (h : c ∈ (trimWhile p cs).getLast?) : p c = false := by
  rw [trimWhile, dropEndWhile, List.getLast?_reverse] at h
  have first := List.head?_dropWhile_not p (cs.dropWhile p).reverse
  rw [h] at first
  exact first

/-- What is dropped is of the kind that is dropped. -/
theorem mem_dropWhile_iff (other : p c = false) : c ∈ cs.dropWhile p ↔ c ∈ cs := by
  refine ⟨fun mem => (List.dropWhile_suffix p).subset mem, fun mem => ?_⟩
  rw [← List.takeWhile_append_dropWhile (p := p) (l := cs)] at mem
  rcases List.mem_append.1 mem with taken | stays
  · exact absurd (List.all_eq_true.1 List.all_takeWhile c taken) (by simp [other])
  · exact stays

/-- What trimming takes away is of the kind that is trimmed. -/
theorem mem_trimWhile (mem : c ∈ cs) : p c = true ∨ c ∈ trimWhile p cs := by
  cases kind : p c with
  | true => exact .inl rfl
  | false =>
    rw [trimWhile, dropEndWhile, List.mem_reverse, mem_dropWhile_iff kind, List.mem_reverse,
      mem_dropWhile_iff kind]
    exact .inr mem

theorem mem_of_mem_trimWhile (mem : c ∈ trimWhile p cs) : c ∈ cs := by
  rw [trimWhile, dropEndWhile, List.mem_reverse] at mem
  exact (List.dropWhile_suffix p).subset
    (List.mem_reverse.1 ((List.dropWhile_suffix p).subset mem))

/-- Text without the separator belongs to the last piece. -/
theorem lastPiece_append_of_notMem {sep : Char} (cs : List Char) (absent : sep ∉ bs) :
    lastPiece sep (cs ++ bs) = lastPiece sep cs ++ bs := by
  have keep : ∀ c ∈ bs.reverse, decide (c ≠ sep) = true := fun c mem =>
    decide_eq_true fun same => absent (same ▸ List.mem_reverse.1 mem)
  rw [lastPiece, List.reverse_append, List.takeWhile_append_of_pos keep, List.reverse_append,
    List.reverse_reverse, lastPiece]

theorem mem_of_mem_lastPiece {sep : Char} (h : c ∈ lastPiece sep cs) : c ∈ cs :=
  List.mem_reverse.1 ((List.takeWhile_subset _) (List.mem_reverse.1 h))

/-- The last piece is empty where the text ends with the separator. -/
theorem lastPiece_eq_nil_iff {sep : Char} :
    lastPiece sep cs = [] ↔ ∀ c ∈ cs.getLast?, c = sep := by
  rw [lastPiece, List.reverse_eq_nil_iff, ← List.head?_reverse]
  cases cs.reverse with
  | nil => simp
  | cons a as => by_cases same : a = sep <;> simp [same]

end BackupAdmin.Text
