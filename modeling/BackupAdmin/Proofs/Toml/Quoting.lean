import BackupAdmin.Toml.Printer
import BackupAdmin.Toml.Token

/-! Texts in quotes that are read back. Main statement: what a printed text is followed by, it is
read as one token of just its characters. -/
namespace BackupAdmin.Toml
open Text

/-- Characters that cannot stand in a text without an escape, line ends among them. -/
theorem isControl_eq (c : Char) : isControl c = (needsEscape c || c = '\n') := by
  have newline : isControl '\n' = true := by decide
  by_cases same : c = '\n'
  · simp [same, newline]
  · simp [isControl, needsEscape, same]

theorem toNat_lt_of_needsEscape {c : Char} (h : needsEscape c = true) : c.toNat < 128 := by
  simp only [needsEscape, Bool.or_eq_true, Bool.and_eq_true, decide_eq_true_eq] at h
  omega

/-- The escape for a character below 128 by its number. -/
theorem escape?_paddedHex {c : Char} (small : c.toNat < 128) (r : List Char) :
    escape? ('u' :: (paddedHex 4 c.toNat ++ r)) = some (c, (paddedHex 4 c.toNat).length + 1) := by
  have all : ∀ n < 128, (paddedHex 4 n).length = 4 ∧
      charOfHex? (paddedHex 4 n) = some (Char.ofNat n) := by decide +kernel
  obtain ⟨length, read⟩ := all c.toNat small
  have taken : (paddedHex 4 c.toNat ++ r).take 4 = paddedHex 4 c.toNat := List.take_left' length
  simp [escape?, taken, length, read, Char.ofNat_toNat]

/-- A character is written as an escape that spells it, or it stands for itself. -/
theorem escapedChar_cases (keepsLines : Bool) (c : Char) :
    (∃ d w, escapedChar keepsLines c = '\\' :: d :: w ∧
      (isGap d = false ∧ d ≠ '\r' ∧ d ≠ '\n') ∧
      ∀ r, escape? (d :: (w ++ r)) = some (c, w.length + 1)) ∨
    (escapedChar keepsLines c = [c] ∧ c ≠ '\\' ∧ needsEscape c = false ∧
      (c = '\n' → keepsLines = true)) := by
  unfold escapedChar
  split
  case isTrue same => exact .inl ⟨'b', [], rfl, by decide, fun r => same ▸ rfl⟩
  split
  case isTrue same => exact .inl ⟨'t', [], rfl, by decide, fun r => same ▸ rfl⟩
  split
  case isTrue same =>
    subst same
    cases keepsLines with
    | true => exact .inr ⟨rfl, by decide, by decide, fun _ => rfl⟩
    | false => exact .inl ⟨'n', [], rfl, by decide, fun r => rfl⟩
  case isFalse line =>
    split
    case isTrue same => exact .inl ⟨'f', [], rfl, by decide, fun r => same ▸ rfl⟩
    split
    case isTrue same => exact .inl ⟨'r', [], rfl, by decide, fun r => same ▸ rfl⟩
    split
    case isTrue same =>
      subst same
      exact .inl ⟨'\\', [], rfl, by decide, fun r => rfl⟩
    case isFalse backslash =>
      split
      case isTrue escape =>
        exact .inl ⟨'u', paddedHex 4 c.toNat, rfl, by decide,
          escape?_paddedHex (toNat_lt_of_needsEscape escape)⟩
      case isFalse plain =>
        exact .inr ⟨rfl, backslash, by simpa using plain, fun same => absurd same line⟩

theorem escapedText_of_ne {c : Char} (quote : c ≠ '"') (keepsLines : Bool) (allowed run : Nat)
    (cs : List Char) : escapedText keepsLines allowed run (c :: cs) =
      escapedChar keepsLines c ++ escapedText keepsLines allowed 0 cs := by
  rw [escapedText, if_neg quote]

section
variable {e : Bool} {q c : Char} {r cs rest : List Char}

/-- Characters that belong to an escape are passed over. -/
theorem lineText_skip (e : Bool) (q : Char) (xs r : List Char) :
    lineText e q xs.length (xs ++ r) = lineText e q 0 r := by
  induction xs with
  | nil => rfl
  | cons x xs ih => exact ih

theorem lineText_plain (r : List Char) (quote : c ≠ q) (plain : isControl c = false)
    (backslash : e = true → c ≠ '\\') :
    lineText e q 0 (c :: r) = (lineText e q 0 r).map fun (cs, rest) => (c :: cs, rest) := by
  have no_escape : (e && decide (c = '\\')) = false := by cases e <;> simp_all
  simp [lineText, quote, plain, no_escape]

theorem lineText_escape {d : Char} {w : List Char} (r : List Char) (quote : q ≠ '\\')
    (read : escape? (d :: (w ++ r)) = some (c, w.length + 1)) :
    lineText true q 0 ('\\' :: d :: (w ++ r)) =
      (lineText true q 0 r).map fun (cs, rest) => (c :: cs, rest) := by
  have skip := lineText_skip true q w r
  have backslash : isControl '\\' = false := by decide
  simp [lineText, Ne.symm quote, backslash, read, skip]

/-- A text without escapes, on one line. -/
theorem lineText_raw (rest : List Char) (plain : ∀ c ∈ cs, c ≠ q ∧ isControl c = false) :
    lineText false q 0 (cs ++ q :: rest) = some (cs, rest) := by
  induction cs with
  | nil => simp [lineText]
  | cons c cs ih =>
    obtain ⟨⟨quote, control⟩, plain⟩ := List.forall_mem_cons.1 plain
    rw [List.cons_append, lineText_plain _ quote control (by simp), ih plain]
    rfl

/-- A text with escapes, on one line. -/
theorem lineText_escapedText (cs rest : List Char) (run : Nat) :
    lineText true '"' 0 (escapedText false 0 run cs ++ '"' :: rest) = some (cs, rest) := by
  induction cs generalizing run with
  | nil => simp [escapedText, lineText]
  | cons c cs ih =>
    by_cases quote : c = '"'
    · subst quote
      have body :
          escapedText false 0 run ('"' :: cs) = '\\' :: '"' :: escapedText false 0 0 cs := by
        simp [escapedText]
      rw [body]
      have quoted := lineText_escape (q := '"') (c := '"') (d := '"') (w := [])
        (escapedText false 0 0 cs ++ '"' :: rest) (by decide) rfl
      rw [List.nil_append, ih 0] at quoted
      exact quoted
    · rw [escapedText_of_ne quote]
      rcases escapedChar_cases false c with ⟨d, w, text, -, read⟩ | ⟨text, backslash, escape, line⟩
      · rw [text]
        simp only [List.cons_append, List.append_assoc]
        rw [lineText_escape _ (by decide) (read _), ih 0]
        rfl
      · have control : isControl c = false := by
          rw [isControl_eq, escape]
          simpa using line
        rw [text, List.append_assoc, List.singleton_append,
          lineText_plain _ quote control fun _ => backslash, ih 0]
        rfl

/-- Behind an escape the text goes on as in front of it. -/
theorem linesText_skipping_zero (e : Bool) (q : Char) (r : List Char) :
    linesText e q (.skipping 0) r = linesText e q .text r := by
  induction r with
  | nil => rfl
  | cons c r ih => simp [linesText, ih]

theorem linesText_skip (e : Bool) (q : Char) (xs r : List Char) :
    linesText e q (.skipping xs.length) (xs ++ r) = linesText e q .text r := by
  induction xs with
  | nil => exact linesText_skipping_zero e q r
  | cons x xs ih => exact ih

theorem linesText_plain (r : List Char) (quote : c ≠ q) (plain : needsEscape c = false)
    (backslash : e = true → c ≠ '\\') :
    linesText e q .text (c :: r) =
      (linesText e q .text r).map fun (cs, rest) => (c :: cs, rest) := by
  have no_escape : (e && decide (c = '\\')) = false := by cases e <;> simp_all
  have feed : c ≠ '\r' := by
    rintro rfl
    simp [needsEscape] at plain
  have control : isControl c = true → c = '\n' := by
    rw [isControl_eq, plain]
    simp
  simp only [linesText]
  simp [quote, feed, no_escape]
  intro a b
  exact absurd (control a) b

theorem linesText_escape {d : Char} {w : List Char} (r : List Char) (quote : q ≠ '\\')
    (inner : isGap d = false ∧ d ≠ '\r' ∧ d ≠ '\n')
    (read : escape? (d :: (w ++ r)) = some (c, w.length + 1)) :
    linesText true q .text ('\\' :: d :: (w ++ r)) =
      (linesText true q .text r).map fun (cs, rest) => (c :: cs, rest) := by
  have skip := linesText_skip true q w r
  have backslash : isControl '\\' = false := by decide
  simp [linesText, Ne.symm quote, backslash, read, skip, inner]

theorem takeWhile_run (n : Nat) (ne : r.head? ≠ some q) :
    (List.replicate n q ++ r).takeWhile (· = q) = List.replicate n q := by
  have none : r.takeWhile (· = q) = [] := by
    cases r with
    | nil => rfl
    | cons c r => exact List.takeWhile_cons_of_neg (by simpa using ne)
  rw [List.takeWhile_append_of_pos fun c mem => by simp [List.eq_of_mem_replicate mem], none,
    List.append_nil]

/-- At most two quotes in a row belong to the text when something else follows them. -/
theorem linesText_run {n : Nat} (le : n ≤ 2) (feed : q ≠ '\r') (ne : r.head? ≠ some q) :
    linesText e q .text (List.replicate n q ++ r) =
      (linesText e q .text r).map fun (cs, rest) => (List.replicate n q ++ cs, rest) := by
  induction n with
  | zero => simp
  | succ n ih =>
    have run := takeWhile_run (n + 1) ne
    rw [List.replicate_succ, List.cons_append] at run ⊢
    have few : ¬ 3 ≤ n + 1 := by omega
    simp [linesText, feed, run, few, ih (by omega), Function.comp_def]

/-- Three quotes close a text, and up to two quotes in front of them belong to it. -/
theorem linesText_close {n : Nat} (le : n ≤ 2) (feed : q ≠ '\r') (ne : rest.head? ≠ some q) :
    linesText e q .text (List.replicate n q ++ q :: q :: q :: rest) =
      some (List.replicate n q, rest) := by
  have split : List.replicate n q ++ q :: q :: q :: rest =
      q :: (List.replicate (n + 2) q ++ rest) := by
    have three : q :: q :: q :: rest = List.replicate 3 q ++ rest := rfl
    rw [three, ← List.append_assoc, List.replicate_append_replicate]
    rfl
  have run := takeWhile_run (n + 3) ne
  rw [List.replicate_succ, List.cons_append] at run
  have five : min (n + 3) 5 = n + 3 := by omega
  have dropped : (List.replicate (n + 2) q ++ rest).drop (n + 2) = rest :=
    List.drop_left' List.length_replicate
  rw [split]
  simp [linesText, feed, run, five, dropped]

/-- A text of several lines without escapes. -/
theorem linesText_raw {n : Nat} (feed : q ≠ '\r') (plain : ∀ c ∈ cs, needsEscape c = false)
    (few : longestRun q n cs ≤ 2) (ne : rest.head? ≠ some q) :
    linesText false q .text (List.replicate n q ++ (cs ++ q :: q :: q :: rest)) =
      some (List.replicate n q ++ cs, rest) := by
  induction cs generalizing n with
  | nil => simpa [longestRun] using linesText_close (n := n) few feed ne
  | cons c cs ih =>
    obtain ⟨escape, plain⟩ := List.forall_mem_cons.1 plain
    unfold longestRun at few
    split at few
    case isTrue same =>
      subst same
      have more := ih plain few
      simpa [List.replicate_succ', List.append_assoc] using more
    case isFalse quote =>
      have head : (c :: cs ++ q :: q :: q :: rest).head? ≠ some q := by simpa using quote
      have more := ih (n := 0) plain (by omega)
      rw [linesText_run (by omega) feed head, List.cons_append,
        linesText_plain _ quote escape (by simp)]
      rw [List.replicate_zero, List.nil_append, List.nil_append] at more
      rw [more]
      rfl

/-- A text of several lines with escapes, also for quotes that would close it. -/
theorem linesText_escapedText {n : Nat} (le : n ≤ 2) (ne : rest.head? ≠ some '"') :
    linesText true '"' .text (List.replicate n '"' ++
        (escapedText true 2 n cs ++ '"' :: '"' :: '"' :: rest)) =
      some (List.replicate n '"' ++ cs, rest) := by
  induction cs generalizing n with
  | nil => simpa [escapedText] using linesText_close le (by decide) ne
  | cons c cs ih =>
    by_cases quote : c = '"'
    · subst quote
      by_cases lt : n < 2
      · have more := ih (n := n + 1) (by omega)
        simpa [escapedText, lt, List.replicate_succ', List.append_assoc] using more
      · -- two quotes stand there already, so this one is escaped
        have more := ih (n := 0) (by omega)
        rw [List.replicate_zero, List.nil_append, List.nil_append] at more
        have quoted := linesText_escape (q := '"') (c := '"') (d := '"') (w := [])
          (escapedText true 2 0 cs ++ '"' :: '"' :: '"' :: rest) (by decide) (by decide) rfl
        rw [List.nil_append, more] at quoted
        have body : escapedText true 2 n ('"' :: cs) = '\\' :: '"' :: escapedText true 2 0 cs := by
          simp [escapedText, lt]
        rw [body, List.cons_append, List.cons_append, linesText_run le (by decide) (by simp),
          quoted]
        rfl
    · have more := ih (n := 0) (by omega)
      rw [List.replicate_zero, List.nil_append, List.nil_append] at more
      rw [escapedText_of_ne quote]
      rcases escapedChar_cases true c with ⟨d, w, text, inner, read⟩ | ⟨text, backslash, escape, -⟩
      · rw [text]
        simp only [List.cons_append, List.append_assoc]
        rw [linesText_run le (by decide) (by simp), linesText_escape _ (by decide) inner (read _),
          more]
        rfl
      · rw [text]
        simp only [List.cons_append, List.nil_append]
        rw [linesText_run le (by decide) (by simpa using quote),
          linesText_plain _ quote escape fun _ => backslash, more]
        rfl

end

/-- What follows does not go on with a quoted text or with a run. -/
def Stops (rest : List Char) : Prop :=
  ∀ c, rest.head? = some c → c ≠ '"' ∧ c ≠ '\'' ∧ isBare c = false

section
variable {q : Char} {body cs rest : List Char} {t : Token}

theorem Stops.ne_quote (stops : Stops rest) (quote : q = '"' ∨ q = '\'') :
    rest.head? ≠ some q := by
  intro same
  obtain ⟨double, single, -⟩ := stops q same
  exact quote.elim double single

theorem tokens_quoted (quote : q = '"' ∨ q = '\'') (read : quoted? q cs = some (t, rest)) :
    tokens (q :: cs) = (tokens rest).map (t :: ·) := by
  rw [tokens]
  have first : q ≠ '\n' ∧ q ≠ '\r' ∧ isGap q = false ∧ q ≠ '#' := by
    rcases quote with rfl | rfl <;> decide
  have quotes : (decide (q = '"') || decide (q = '\'')) = true := by simpa using quote
  simp only [first, quotes, if_false, if_true, Bool.false_eq_true]
  split
  case h_1 none => rw [read] at none; contradiction
  case h_2 u r found =>
    rw [read] at found
    obtain ⟨rfl, rfl⟩ := Prod.mk.inj (Option.some.inj found)
    rfl

theorem tokens_onLine (quote : q = '"' ∨ q = '\'') (head : body.head? ≠ some q)
    (stops : Stops rest)
    (read : lineText (decide (q = '"')) q 0 (body ++ q :: rest) = some (cs, rest)) :
    tokens (onLine q body ++ rest) = (tokens rest).map (.quoted cs false :: ·) := by
  have ne := stops.ne_quote quote
  have one : ¬ [q, q] <+: body ++ q :: rest := by
    rintro ⟨r, same⟩
    cases body with
    | nil =>
      obtain ⟨-, same⟩ := List.cons.inj same
      exact ne (same ▸ rfl)
    | cons c body =>
      obtain ⟨same, -⟩ := List.cons.inj same
      exact head (same ▸ rfl)
  rw [onLine, List.cons_append, List.append_assoc, List.singleton_append]
  refine tokens_quoted quote ?_
  simp [quoted?, mt List.isPrefixOf_iff_prefix.1 one, read]

theorem tokens_onLines (quote : q = '"' ∨ q = '\'')
    (read : linesText (decide (q = '"')) q .text (body ++ q :: q :: q :: rest) = some (cs, rest)) :
    tokens (onLines q body ++ rest) = (tokens rest).map (.quoted cs true :: ·) := by
  have shape : onLines q body ++ rest = q :: q :: q :: '\n' :: (body ++ q :: q :: q :: rest) := by
    simp [onLines]
  rw [shape]
  refine tokens_quoted quote ?_
  simp [quoted?, List.isPrefixOf, withoutFirstLine, read]

end

/-- What is written with escapes does not begin with a quote. -/
theorem head?_escapedText (cs : List Char) : (escapedText false 0 0 cs).head? ≠ some '"' := by
  cases cs with
  | nil => simp [escapedText]
  | cons c cs =>
    by_cases quote : c = '"'
    · subst quote
      rw [escapedText, if_pos rfl, if_neg (Nat.not_lt_zero 0), List.head?_cons]
      decide
    · rw [escapedText_of_ne quote]
      rcases escapedChar_cases false c with ⟨d, w, text, -⟩ | ⟨text, -⟩
      · rw [text, List.cons_append, List.head?_cons]
        decide
      · rw [text, List.cons_append, List.head?_cons]
        simpa using quote

theorem le_longestRun (q : Char) (n : Nat) (cs : List Char) : n ≤ longestRun q n cs := by
  induction cs generalizing n with
  | nil => exact Nat.le_refl n
  | cons c cs ih =>
    unfold longestRun
    split
    · exact Nat.le_of_succ_le (ih (n + 1))
    · exact Nat.le_max_left ..

theorem notMem_of_longestRun {q : Char} {n : Nat} {cs : List Char} (none : longestRun q n cs = 0) :
    q ∉ cs := by
  induction cs generalizing n with
  | nil => exact List.not_mem_nil
  | cons c cs ih =>
    unfold longestRun at none
    split at none
    · have one := le_longestRun q (n + 1) cs
      omega
    case isFalse ne =>
      rintro (_ | ⟨_, mem⟩)
      · exact ne rfl
      · exact ih (Nat.max_eq_zero_iff.1 none).2 mem

theorem tokens_escaped (cs : List Char) {rest : List Char} (stops : Stops rest) :
    tokens (onLine '"' (escapedText false 0 0 cs) ++ rest) =
      (tokens rest).map (.quoted cs false :: ·) :=
  tokens_onLine (.inl rfl) (head?_escapedText cs) stops (lineText_escapedText cs rest 0)

theorem tokens_raw {cs rest : List Char} (plain : ∀ c ∈ cs, c ≠ '\'' ∧ isControl c = false)
    (stops : Stops rest) :
    tokens (onLine '\'' cs ++ rest) = (tokens rest).map (.quoted cs false :: ·) := by
  refine tokens_onLine (.inr rfl) (fun head => ?_) stops (lineText_raw rest plain)
  exact (plain _ (List.mem_of_mem_head? head)).1 rfl

/-- What needs no escape at all. -/
theorem needsEscape_eq_false {cs : List Char} (h : (!cs.any needsEscape) = true) :
    ∀ c ∈ cs, needsEscape c = false := by
  simpa using h

/-- A text in the quotes that suit it is one token of its characters. -/
theorem tokens_quotedText (s : String) {rest : List Char} (stops : Stops rest) :
    ∃ lines, tokens (quotedText s ++ rest) = (tokens rest).map (.quoted s.toList lines :: ·) := by
  have lines_escaped : tokens (onLines '"' (escapedText true 2 0 s.toList) ++ rest) =
      (tokens rest).map (.quoted s.toList true :: ·) :=
    tokens_onLines (.inl rfl)
      (linesText_escapedText (n := 0) (by omega) (stops.ne_quote (.inl rfl)))
  unfold quotedText
  dsimp only
  split
  · exact ⟨_, tokens_escaped s.toList stops⟩
  split
  case isTrue plain =>
    simp only [Bool.and_eq_true, decide_eq_true_eq] at plain
    obtain ⟨⟨escape, singles⟩, line⟩ := plain
    refine ⟨_, tokens_raw (fun c mem => ⟨?_, ?_⟩) stops⟩
    · rintro rfl
      exact notMem_of_longestRun singles mem
    · rw [isControl_eq, needsEscape_eq_false escape c mem]
      have other : c ≠ '\n' := by
        rintro rfl
        simp [mem] at line
      simpa using other
  split
  · exact ⟨_, lines_escaped⟩
  split
  case isTrue plain =>
    simp only [Bool.and_eq_true, decide_eq_true_eq] at plain
    refine ⟨_, tokens_onLines (.inr rfl) ?_⟩
    exact linesText_raw (n := 0) (by decide) (needsEscape_eq_false plain.1) plain.2
      (stops.ne_quote (.inr rfl))
  split
  · exact ⟨_, lines_escaped⟩
  · exact ⟨_, tokens_escaped s.toList stops⟩

end BackupAdmin.Toml
