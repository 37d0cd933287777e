import BackupAdmin.Query.Literal
import BackupAdmin.Proofs.Json.Reading

/-! Literals that are put in quotes. Main statement: quotes make a literal JSON, and settle a query
for good, just where no backtick and no control character stands between them. -/
namespace BackupAdmin.Query
open Text Json

/-- The insides of the literals of a text. -/
def literals (cs : List Char) : List (List Char) :=
  (parts cs).filterMap fun
    | .char _ => none
    | .literal inside => some inside

/-- A literal is JSON, or it becomes so in quotes: between its blanks there is neither a backtick
nor a control character. -/
def Quotable (inside : List Char) : Prop :=
  isJson inside = true ∨ ∀ c ∈ trim inside, c ≠ '`' ∧ 0x20 ≤ c.toNat

/-- A text with its literals settled. -/
def settled (cs : List Char) : List Char := (parts cs).flatMap fun p => p.settle.spelled

/-- A literal is left as it is if it is JSON, and else the text between its blanks is quoted. -/
def settledInside (inside : List Char) : List Char :=
  if isJson inside then inside else inQuotes (trim inside)

section
variable {c : Char} {as bs cs inside rest : List Char}

/-! ### Parts from the left -/

theorem parts_of_ne (other : c ≠ '`') (cs : List Char) : parts (c :: cs) = .char c :: parts cs := by
  rw [parts, if_neg other]

theorem parts_of_none (unread : literal? cs = none) : parts ('`' :: cs) = .char '`' :: parts cs := by
  rw [parts, if_pos rfl]
  split <;> simp_all

theorem parts_of_some (found : literal? cs = some (inside, rest)) :
    parts ('`' :: cs) = .literal inside :: parts rest := by
  rw [parts, if_pos rfl]
  split <;> simp_all

theorem settled_nil : settled [] = [] := by rw [settled, parts]; rfl

theorem settled_of_ne (other : c ≠ '`') (cs : List Char) : settled (c :: cs) = c :: settled cs := by
  rw [settled, parts_of_ne other]
  rfl

theorem settled_of_none (unread : literal? cs = none) :
    settled ('`' :: cs) = '`' :: settled cs := by
  rw [settled, parts_of_none unread]
  rfl

theorem settled_of_some (found : literal? cs = some (inside, rest)) :
    settled ('`' :: cs) = '`' :: (settledInside inside ++ '`' :: settled rest) := by
  rw [settled, parts_of_some found, List.flatMap_cons]
  simp [settledInside, settled, Part.settle, Part.spelled]

theorem literals_of_ne (other : c ≠ '`') (cs : List Char) : literals (c :: cs) = literals cs := by
  rw [literals, parts_of_ne other]
  rfl

theorem literals_of_none (unread : literal? cs = none) : literals ('`' :: cs) = literals cs := by
  rw [literals, parts_of_none unread]
  rfl

theorem literals_of_some (found : literal? cs = some (inside, rest)) :
    literals ('`' :: cs) = inside :: literals rest := by
  rw [literals, parts_of_some found]
  rfl

/-! ### Texts that are scanned whole -/

/-- A text is read inside a literal as far as it goes, whatever comes behind it. -/
def Scans (as : List Char) : Prop :=
  ∀ cs, literal? (as ++ cs) = (literal? cs).map fun (inside, rest) => (as ++ inside, rest)

namespace Scans

theorem nil : Scans [] := fun cs => by
  cases h : literal? cs <;> simp [h]

theorem append (first : Scans as) (second : Scans bs) : Scans (as ++ bs) := fun cs => by
  rw [List.append_assoc, first, second, Option.map_map]
  simp [Function.comp_def]

theorem char (backtick : c ≠ '`') (backslash : c ≠ '\\') : Scans [c] := fun cs => by
  rw [List.singleton_append, literal?]
  · rfl
  · exact fun same => backtick same
  · exact fun same => absurd same backslash
  · exact fun _ _ same => absurd same backslash

theorem pair (line : c ≠ '\n') : Scans ['\\', c] := fun cs => by
  simp only [List.cons_append, List.nil_append, literal?, if_neg line]

/-- Such a text is the inside of a literal that ends behind it. -/
theorem ends (scans : Scans as) (rest : List Char) : literal? (as ++ '`' :: rest) = some (as, rest) := by
  rw [scans, literal?]
  simp

end Scans

/-- Neither a backslash at the end nor one before another character is no backslash. -/
theorem ne_backslash (last : c = '\\' → cs = [] → False)
    (pair : ∀ d ds, c = '\\' → cs = d :: ds → False) : c ≠ '\\' := by
  intro same
  cases cs with
  | nil => exact last same rfl
  | cons d ds => exact pair d ds same rfl

/-- What is read inside a literal is read in the same way wherever it stands. -/
theorem scans_of_some (found : literal? cs = some (inside, rest)) : Scans inside := by
  fun_induction literal? cs generalizing inside rest with
  | case1 => contradiction
  | case2 =>
    obtain ⟨rfl, -⟩ := Prod.mk.inj (Option.some.inj found)
    exact .nil
  | case3 => contradiction
  | case4 => contradiction
  | case5 c cs line ih =>
    obtain ⟨⟨inside', r⟩, read, same⟩ := Option.map_eq_some_iff.1 found
    obtain ⟨rfl, -⟩ := Prod.mk.inj same
    exact (Scans.pair line).append (ih read)
  | case6 c cs backtick last pair ih =>
    obtain ⟨⟨inside', r⟩, read, same⟩ := Option.map_eq_some_iff.1 found
    obtain ⟨rfl, -⟩ := Prod.mk.inj same
    exact (Scans.char backtick (ne_backslash last pair)).append (ih read)

/-- A backtick that opens no literal opens none when the literals behind it are settled: what
stops the scan stays where it is, and the literals are all behind that. -/
theorem literal?_settled_eq_none (unread : literal? cs = none) : literal? (settled cs) = none := by
  fun_induction literal? cs with
  | case1 => rw [settled_nil, literal?]
  | case2 => contradiction
  | case3 => rw [settled_of_ne (by decide), settled_nil, literal?]
  | case4 rest =>
    rw [settled_of_ne (by decide), settled_of_ne (by decide)]
    simp [literal?]
  | case5 c cs line ih =>
    have inner := Option.map_eq_none_iff.1 unread
    have pair : settled ('\\' :: c :: cs) = ['\\', c] ++ settled cs := by
      rw [settled_of_ne (by decide)]
      by_cases backtick : c = '`'
      · subst backtick
        rw [settled_of_none inner]
        rfl
      · rw [settled_of_ne backtick]
        rfl
    rw [pair, Scans.pair line, ih inner]
    rfl
  | case6 c cs backtick last pair ih =>
    have inner := Option.map_eq_none_iff.1 unread
    have char := Scans.char backtick (ne_backslash last pair) (settled cs)
    rw [settled_of_ne backtick, ← List.singleton_append, char, ih inner]
    rfl

/-! ### Texts in quotes -/

/-- A character as it stands between quotes. -/
def escapedChar (c : Char) : List Char :=
  if c = '"' then ['\\', '"'] else if c = '\\' then ['\\', '\\'] else [c]

theorem inQuotes_eq (cs : List Char) : inQuotes cs = '"' :: (cs.flatMap escapedChar ++ ['"']) := by
  have char (c : Char) : (if c = '\\' then ['\\', '\\'] else [c]).flatMap
      (fun x => if x = '"' then ['\\', '"'] else [x]) = escapedChar c := by
    unfold escapedChar
    by_cases backslash : c = '\\'
    · subst backslash
      rfl
    · simp [backslash]
  rw [inQuotes, replaceChar, replaceChar, List.flatMap_assoc]
  simp only [char]

theorem scans_escaped (plain : '`' ∉ cs) : Scans (cs.flatMap escapedChar) := by
  induction cs with
  | nil => exact .nil
  | cons c cs ih =>
    obtain ⟨first, plain⟩ := not_or.1 (List.mem_cons.not.1 plain)
    refine Scans.append ?_ (ih plain)
    unfold escapedChar
    split
    · exact .pair (by decide)
    split
    · exact .pair (by decide)
    · next backslash => exact .char (Ne.symm first) backslash

/-- A character in quotes is read as itself, unless it is a control character. -/
theorem stringPieces_escapedChar (c : Char) (cs : List Char) :
    stringPieces (escapedChar c ++ cs) =
      if 0x20 ≤ c.toNat then (stringPieces cs).map (withPiece (.char c)) else none := by
  unfold escapedChar
  by_cases quote : c = '"'
  · subst quote
    exact stringPieces_escape (by decide) rfl cs
  by_cases backslash : c = '\\'
  · subst backslash
    exact stringPieces_escape (by decide) rfl cs
  rw [if_neg quote, if_neg backslash, List.singleton_append]
  split
  next plain => exact stringPieces_plain quote backslash (Nat.not_lt.2 plain) cs
  next control =>
    rw [stringPieces, if_pos (Nat.not_le.1 control)]
    · exact quote
    · exact fun _ _ _ _ _ same _ => backslash same
    · exact fun _ _ same _ => backslash same

theorem stringPieces_escaped (cs rest : List Char) :
    stringPieces (cs.flatMap escapedChar ++ rest) =
      if cs.all (0x20 ≤ ·.toNat) then
        (stringPieces rest).map fun x => (cs.map .char ++ x.1, x.2)
      else none := by
  induction cs with
  | nil => simp
  | cons c cs ih =>
    rw [List.flatMap_cons, List.append_assoc, stringPieces_escapedChar, ih, List.all_cons]
    by_cases first : 0x20 ≤ c.toNat
    · rw [if_pos first, decide_eq_true first, Bool.true_and]
      split
      · rw [Option.map_map]
        rfl
      · rfl
    · rw [if_neg first, decide_eq_false first, Bool.false_and, if_neg Bool.false_ne_true]

theorem joinPieces_chars (cs : List Char) : joinPieces (cs.map .char) = some cs := by
  induction cs with
  | nil => rfl
  | cons c cs ih => rw [List.map_cons, joinPieces, ih, Option.map_some]

/-- What is trimmed from the end of a text is trimmed from the text between quotes. -/
theorem dropEndWhile_escaped (cs : List Char) : dropEndWhile isBlank (cs.flatMap escapedChar) =
    (dropEndWhile isBlank cs).flatMap escapedChar := by
  have last (c : Char) : ∃ as, escapedChar c = as ++ [c] ∧ (isBlank c = true → as = []) := by
    unfold escapedChar
    split
    · next quote => exact ⟨['\\'], by rw [quote]; rfl, by rw [quote]; decide⟩
    split
    · next backslash => exact ⟨['\\'], by rw [backslash]; rfl, by rw [backslash]; decide⟩
    · exact ⟨[], rfl, fun _ => rfl⟩
  induction cs using List.reverseRecOn with
  | nil => rfl
  | append_singleton cs c ih =>
    obtain ⟨as, char, plain⟩ := last c
    rw [List.flatMap_append, List.flatMap_singleton, char, ← List.append_assoc,
      dropEndWhile_concat, dropEndWhile_concat]
    split
    · next blank => rw [plain blank, List.append_nil, ih]
    · rw [List.flatMap_append, List.flatMap_singleton, char, List.append_assoc]

theorem trim_inQuotes (cs : List Char) : trim (inQuotes cs) = inQuotes cs := by
  rw [inQuotes_eq]
  refine trimWhile_eq_self ?_ ?_
  · rintro c ⟨⟩
    decide
  · intro c last
    rw [← List.cons_append, List.getLast?_append_of_ne_nil _ (List.cons_ne_nil _ _)] at last
    obtain rfl := Option.some.inj last
    decide

theorem length_lt_inQuotes (cs : List Char) : cs.length < (inQuotes cs).length := by
  have longer : cs.length ≤ (cs.flatMap escapedChar).length := by
    induction cs with
    | nil => exact Nat.le_refl 0
    | cons c cs ih =>
      have char : 0 < (escapedChar c).length := by
        unfold escapedChar
        split
        · decide
        · split <;> simp
      rw [List.flatMap_cons, List.length_append, List.length_cons]
      omega
  rw [inQuotes_eq, List.length_cons, List.length_append]
  omega

/-- A text in quotes is JSON if it has no control characters. -/
theorem isJson_inQuotes (cs : List Char) :
    isJson (inQuotes cs) = true ↔ ∀ c ∈ cs, 0x20 ≤ c.toNat := by
  have closed : stringPieces ['"'] = some ([], []) := rfl
  have plain_iff : cs.all (0x20 ≤ ·.toNat) = true ↔ ∀ c ∈ cs, 0x20 ≤ c.toNat := by
    simp only [List.all_eq_true, decide_eq_true_eq]
  rw [← plain_iff, isJson, trim_inQuotes, inQuotes_eq, Json.readValue, Json.read,
    String.toList_ofList, tokens_quote, stringPieces_escaped, closed]
  split
  next plain =>
    have text : (tokens []).map (.string ((joinPieces (cs.map .char)).map String.ofList) :: ·) =
        some [.string (some (String.ofList cs))] := by
      rw [tokens, joinPieces_chars]
      rfl
    rw [Option.map_some, Option.bind_some, List.append_nil, text]
    exact iff_of_true rfl plain
  next control => exact iff_of_false Bool.false_ne_true control

/-- A quote that is not closed is no JSON. -/
theorem isJson_unclosed (cs : List Char) : isJson ('"' :: cs.flatMap escapedChar) = false := by
  have quote : isBlank '"' = false := by decide
  have unclosed := stringPieces_escaped (dropEndWhile isBlank cs) []
  have nothing : stringPieces [] = none := rfl
  rw [isJson, trim, trimWhile, List.dropWhile_cons, quote, if_neg (by decide),
    dropEndWhile_cons quote, dropEndWhile_escaped, Json.readValue, Json.read,
    String.toList_ofList, tokens_quote]
  rw [List.append_nil, nothing] at unclosed
  rw [unclosed]
  simp

/-! ### Settled texts -/

theorem backtick_notMem_escaped (plain : '`' ∉ cs) : '`' ∉ cs.flatMap escapedChar := by
  intro mem
  obtain ⟨c, there, here⟩ := List.mem_flatMap.1 mem
  unfold escapedChar at here
  split at here
  · simp at here
  split at here
  · simp at here
  · obtain rfl := List.mem_singleton.1 here
    exact plain there

/-- The literal that is read where one was settled: it is JSON if the old one could be quoted, and
then it ends where that did; it is the old one only if that was JSON. -/
theorem literal?_settledInside (scans : Scans inside) (rest : List Char) :
    ∃ found behind, literal? (settledInside inside ++ '`' :: rest) = some (found, behind) ∧
      (isJson found = true ↔ Quotable inside) ∧ (found = inside → isJson inside = true) ∧
      (Quotable inside → behind = rest) := by
  unfold settledInside
  split
  next json =>
    exact ⟨inside, rest, scans.ends rest, iff_of_true json (.inl json), fun _ => json, fun _ => rfl⟩
  next other =>
    by_cases backtick : '`' ∈ trim inside
    · -- the backtick ends the literal that is read, inside its quotes
      obtain ⟨before, behind, split, plain⟩ := List.eq_append_cons_of_mem backtick
      have opened : Scans ('"' :: before.flatMap escapedChar) :=
        Scans.append (.char (by decide) (by decide)) (scans_escaped plain)
      have spelled : inQuotes (trim inside) ++ '`' :: rest =
          '"' :: before.flatMap escapedChar ++
            '`' :: (behind.flatMap escapedChar ++ '"' :: '`' :: rest) := by
        rw [inQuotes_eq, split]
        simp [escapedChar]
      have hopeless : ¬ Quotable inside := fun quotable =>
        quotable.elim other fun clean => (clean _ backtick).1 rfl
      refine ⟨_, _, spelled ▸ opened.ends _, ?_, fun same => ?_, fun quotable =>
        absurd quotable hopeless⟩
      · rw [isJson_unclosed]
        exact iff_of_false Bool.false_ne_true hopeless
      · have inside_backtick : '`' ∈ inside := mem_of_mem_trimWhile backtick
        rw [← same] at inside_backtick
        simp [backtick_notMem_escaped plain] at inside_backtick
    · have scans : Scans (inQuotes (trim inside)) := by
        rw [inQuotes_eq]
        exact Scans.append (.char (by decide) (by decide))
          ((scans_escaped backtick).append (.char (by decide) (by decide)))
      refine ⟨_, rest, scans.ends rest, ?_, fun same => ?_, fun _ => rfl⟩
      · rw [isJson_inQuotes]
        refine ⟨fun clean => .inr fun c mem => ⟨fun tick => backtick (tick ▸ mem), clean c mem⟩,
          fun quotable => ?_⟩
        exact quotable.elim (absurd · other) fun clean c mem => (clean c mem).2
      · have longer := length_lt_inQuotes (trim inside)
        rw [← trim_inQuotes, same] at longer
        exact absurd longer (Nat.lt_irrefl _)

/-- Once settled, all literals are JSON just where all could be quoted. -/
theorem isJson_literals_settled (cs : List Char) :
    (∀ l ∈ literals (settled cs), isJson l = true) ↔ ∀ l ∈ literals cs, Quotable l := by
  fun_induction parts cs with
  | case1 => simp [settled_nil, literals, parts]
  | case2 cs inside rest found ih =>
    obtain ⟨l, behind, read, json, -, ends⟩ :=
      literal?_settledInside (scans_of_some found) (settled rest)
    rw [settled_of_some found, literals_of_some read, literals_of_some found, List.forall_mem_cons,
      List.forall_mem_cons, json]
    exact and_congr_right fun quotable => ends quotable ▸ ih
  | case3 cs unread ih =>
    rw [settled_of_none unread, literals_of_none (literal?_settled_eq_none unread),
      literals_of_none unread]
    exact ih
  | case4 c cs other ih =>
    rw [settled_of_ne other, literals_of_ne other, literals_of_ne other]
    exact ih

/-- A text is left as it is just where all its literals are JSON. -/
theorem settled_eq_self_iff (cs : List Char) :
    settled cs = cs ↔ ∀ l ∈ literals cs, isJson l = true := by
  fun_induction parts cs with
  | case1 => simp [settled_nil, literals, parts]
  | case2 cs inside rest found ih =>
    rw [settled_of_some found, literals_of_some found, List.forall_mem_cons, ← ih]
    refine ⟨fun same => ?_, fun ⟨json, same⟩ => ?_⟩
    · obtain ⟨-, same⟩ := List.cons.inj same
      obtain ⟨l, behind, read, -, old, -⟩ :=
        literal?_settledInside (scans_of_some found) (settled rest)
      rw [same, found] at read
      obtain ⟨rfl, rfl⟩ := Prod.mk.inj (Option.some.inj read)
      have json := old rfl
      rw [settledInside, if_pos json, literal?_spells found] at same
      exact ⟨json, (List.cons.inj (List.append_cancel_left same)).2⟩
    · rw [settledInside, if_pos json, same, ← literal?_spells found]
  | case3 cs unread ih =>
    rw [settled_of_none unread, literals_of_none unread, ← ih, List.cons_inj_right]
  | case4 c cs other ih =>
    rw [settled_of_ne other, literals_of_ne other, ← ih, List.cons_inj_right]

end

/-- The literals of a query that is settled are JSON, and settling it again changes nothing, just
where each literal is JSON or has neither a backtick nor a control character between its blanks.
A query is left as it is just where all its literals are JSON. -/
theorem settles_iff (query : String) :
    ((∀ l ∈ literals (settleLiterals query).toList, isJson l = true) ↔
      ∀ l ∈ literals query.toList, Quotable l) ∧
    (settleLiterals (settleLiterals query) = settleLiterals query ↔
      ∀ l ∈ literals query.toList, Quotable l) ∧
    (settleLiterals query = query ↔ ∀ l ∈ literals query.toList, isJson l = true) := by
  have toList (query : String) : (settleLiterals query).toList = settled query.toList :=
    String.toList_ofList
  refine ⟨?_, ?_, ?_⟩
  · rw [toList, isJson_literals_settled]
  · rw [← String.toList_inj, toList, toList, settled_eq_self_iff, isJson_literals_settled]
  · rw [← String.toList_inj, toList, settled_eq_self_iff]

/-- A text with an escaped backtick, and one with a tab: what becomes of them is not JSON, and
settling them again changes them again. -/
theorem unsettled_backtick_tab :
    literals (settleLiterals "[?s==`a\\`b`]").toList = ["\"a\\\\".toList] ∧
      isJson "\"a\\\\".toList = false ∧
      settleLiterals (settleLiterals "[?s==`a\\`b`]") ≠ settleLiterals "[?s==`a\\`b`]" ∧
      literals (settleLiterals "`a\tb`").toList = ["\"a\tb\"".toList] ∧
      isJson "\"a\tb\"".toList = false ∧
      settleLiterals (settleLiterals "`a\tb`") ≠ settleLiterals "`a\tb`" := by
  decide +kernel

end BackupAdmin.Query
