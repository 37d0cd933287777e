import BackupAdmin.Proofs.Config.References
import BackupAdmin.Proofs.Toml.RoundTrip

/-! References in printed documents. Main statement: printing makes none: when all dollars of the
names and texts in a value are left as they are, so are those of its print. -/
namespace BackupAdmin.Toml
open Environment Text

section
variable {e : Environment} {b : Bool} {a run : Nat} {c q : Char} {name cs body rest : List Char}

theorem escapedChar_of_isNameChar (h : isNameChar c = true) (b : Bool) : escapedChar b c = [c] := by
  have all : ∀ n < 128, isNameChar (Char.ofNat n) = true → needsEscape (Char.ofNat n) = false := by
    decide +kernel
  have plain : needsEscape c = false := by
    cases escape : needsEscape c with
    | false => rfl
    | true =>
      have ascii := all c.toNat (toNat_lt_of_needsEscape escape)
      rw [Char.ofNat_toNat] at ascii
      exact absurd (ascii h) (by simp [escape])
  have other : c ≠ '\x08' ∧ c ≠ '\t' ∧ c ≠ '\n' ∧ c ≠ '\x0c' ∧ c ≠ '\r' ∧ c ≠ '\\' := by
    refine ⟨?_, ?_, ?_, ?_, ?_, ?_⟩ <;> exact ne_of_isNameChar h (by decide)
  simp [escapedChar, plain, other]

/-- No escape has a dollar in it. -/
theorem dollar_notMem_escapedChar (ne : c ≠ '$') (b : Bool) : '$' ∉ escapedChar b c := by
  have all : ∀ n < 128, '$' ∉ paddedHex 4 n := by decide +kernel
  have hex (escape : needsEscape c = true) : '$' ∉ paddedHex 4 c.toNat :=
    all c.toNat (toNat_lt_of_needsEscape escape)
  unfold escapedChar
  repeat' split
  all_goals simp_all [Ne.symm ne]

/-- Names stand in an escaped text as they are. -/
theorem escapedText_name (chars : ∀ c ∈ name, isNameChar c = true) (run : Nat) (cs : List Char) :
    ∃ run', escapedText b a run (name ++ cs) = name ++ escapedText b a run' cs := by
  induction name generalizing run with
  | nil => exact ⟨run, rfl⟩
  | cons c name ih =>
    obtain ⟨first, chars⟩ := List.forall_mem_cons.1 chars
    obtain ⟨run', rest⟩ := ih chars 0
    refine ⟨run', ?_⟩
    rw [List.cons_append, escapedText_of_ne (ne_of_isNameChar first (by decide)),
      escapedChar_of_isNameChar first, rest]
    rfl

theorem head?_escapedText_cases (cs : List Char) :
    ∀ d ∈ (escapedText b a run cs).head?, d = '\\' ∨ cs.head? = some d := by
  cases cs with
  | nil => simp [escapedText]
  | cons c cs =>
    by_cases quote : c = '"'
    · subst quote
      rw [escapedText, if_pos rfl]
      split <;> simp
    · rw [escapedText_of_ne quote]
      rcases escapedChar_cases b c with ⟨d, w, same, -⟩ | ⟨same, -⟩ <;> simp [same]

/-- A dollar that is left in a text is left in the escaped text. -/
theorem idle_escapedText (idle : e.Idle cs) (b : Bool) (a run : Nat) :
    e.Idle (escapedText b a run cs) := by
  cases idle with
  | last => exact .last
  | @other c cs brace dollar name =>
    have head : ∀ d ∈ (escapedText b a run (c :: cs)).head?, d = '\\' ∨ (c :: cs).head? = some d :=
      head?_escapedText_cases (c :: cs)
    cases escaped : escapedText b a run (c :: cs) with
    | nil => exact .last
    | cons d ds =>
      rcases head d (by rw [escaped]; rfl) with rfl | same
      · exact .other (by decide) (by decide) (by decide)
      · obtain rfl : c = d := Option.some.inj same
        exact .other brace dollar name
  | @braced name cs chars unset =>
    obtain ⟨run', rest⟩ := escapedText_name (b := b) (a := a) chars 0 ('}' :: cs)
    have braces : escapedText b a run ('{' :: (name ++ '}' :: cs)) =
        '{' :: (name ++ '}' :: escapedText b a 0 cs) := by
      rw [escapedText_of_ne (by decide), rest]
      rfl
    rw [braces]
    exact .braced chars unset
  | @named name cs some chars ends unset =>
    obtain ⟨run', rest⟩ := escapedText_name (b := b) (a := a) chars run cs
    rw [rest]
    refine .named some chars (fun d first => ?_) unset
    rcases head?_escapedText_cases cs d first with rfl | same
    · decide
    · exact ends d same

theorem keeps_escapedText (kept : e.Keeps cs) (b : Bool) (a run : Nat) :
    e.Keeps (escapedText b a run cs) := by
  induction cs generalizing run with
  | nil => trivial
  | cons c cs ih =>
    obtain ⟨idle, kept⟩ := kept
    by_cases dollar : c = '$'
    · subst dollar
      exact ⟨fun _ => idle_escapedText (idle rfl) b a 0, ih kept 0⟩
    · by_cases quote : c = '"'
      · subst quote
        rw [escapedText, if_pos rfl]
        split
        · exact ⟨by simp, ih kept _⟩
        · exact ⟨by simp, by simp, ih kept _⟩
      · rw [escapedText_of_ne quote]
        exact keeps_append_of_notMem (dollar_notMem_escapedChar dollar b) (ih kept 0)

theorem ends_quote (quote : q = '"' ∨ q = '\'') (cs : List Char) : Ends (q :: cs) := by
  rintro c ⟨⟩
  rcases quote with rfl | rfl <;> decide

theorem keeps_between {as bs : List Char} (opens : '$' ∉ as) (closes : '$' ∉ bs)
    (ends : Ends (bs ++ rest)) (kept : e.Keeps body) (behind : e.Keeps rest) :
    e.Keeps (as ++ (body ++ (bs ++ rest))) :=
  keeps_append_of_notMem opens (kept.append ends (keeps_append_of_notMem closes behind))

theorem keeps_onLine (quote : q = '"' ∨ q = '\'') (kept : e.Keeps body) (behind : e.Keeps rest) :
    e.Keeps (onLine q body ++ rest) := by
  have plain : '$' ∉ [q] := by rcases quote with rfl | rfl <;> decide
  simpa [onLine] using keeps_between plain plain (ends_quote quote rest) kept behind

theorem keeps_onLines (quote : q = '"' ∨ q = '\'') (kept : e.Keeps body) (behind : e.Keeps rest) :
    e.Keeps (onLines q body ++ rest) := by
  have opens : '$' ∉ [q, q, q, '\n'] := by rcases quote with rfl | rfl <;> decide
  have closes : '$' ∉ [q, q, q] := by rcases quote with rfl | rfl <;> decide
  simpa [onLines] using keeps_between opens closes (ends_quote quote _) kept behind

theorem keeps_quotedText {s : String} (kept : e.Keeps s.toList) (behind : e.Keeps rest) :
    e.Keeps (quotedText s ++ rest) := by
  unfold quotedText
  dsimp only
  split
  · exact keeps_onLine (.inl rfl) (keeps_escapedText kept false 0 0) behind
  split
  · exact keeps_onLine (.inr rfl) kept behind
  split
  · exact keeps_onLines (.inl rfl) (keeps_escapedText kept true 2 0) behind
  split
  · exact keeps_onLines (.inr rfl) kept behind
  split
  · exact keeps_onLines (.inl rfl) (keeps_escapedText kept true 2 0) behind
  · exact keeps_onLine (.inl rfl) (keeps_escapedText kept false 0 0) behind

theorem keeps_keyText {s : String} (kept : e.Keeps s.toList) (behind : e.Keeps rest) :
    e.Keeps (keyText s ++ rest) := by
  unfold keyText
  dsimp only
  split
  · next bare =>
    have plain : '$' ∉ s.toList := fun mem =>
      absurd (List.all_eq_true.1 (Bool.and_eq_true_iff.1 bare).2 _ mem) (by decide)
    exact keeps_append_of_notMem plain behind
  split
  · exact keeps_onLine (.inl rfl) (keeps_escapedText kept false 0 0) behind
  split
  · exact keeps_onLine (.inr rfl) kept behind
  · exact keeps_onLine (.inl rfl) (keeps_escapedText kept false 0 0) behind

theorem keeps_pathText {path : List String} (kept : ∀ s ∈ path, e.Keeps s.toList)
    (behind : e.Keeps rest) : e.Keeps (pathText path ++ rest) := by
  unfold pathText
  induction path with
  | nil => exact behind
  | cons s path ih =>
    obtain ⟨first, kept⟩ := List.forall_mem_cons.1 kept
    cases path with
    | nil => simpa [List.intercalate] using keeps_keyText first behind
    | cons t path =>
      have dotted : e.Keeps ('.' :: (['.'].intercalate ((t :: path).map keyText) ++ rest)) :=
        ⟨by simp, ih kept⟩
      simpa [List.intercalate] using keeps_keyText first dotted

end

mutual
/-- The names and texts in a table. -/
def strings : Json → List String
  | .string s => [s]
  | .object ms => memberStrings ms
  | _ => []
def memberStrings : List (String × Json) → List String
  | [] => []
  | (k, v) :: ms => k :: (strings v ++ memberStrings ms)
end

def Line.strings : Line → List String
  | .blank => []
  | .header path => path
  | .pair k v => k :: Toml.strings v

theorem keeps_leafText {e : Environment} {v : Json} {rest : List Char} (leaf : Leaf v)
    (kept : ∀ s ∈ strings v, e.Keeps s.toList) (behind : e.Keeps rest) :
    e.Keeps (leafText v ++ rest) := by
  cases leaf with
  | string s => exact keeps_quotedText (kept s List.mem_cons_self) behind
  | @number n small =>
    have plain : '$' ∉ Nat.toDigits 10 n := fun mem =>
      absurd (isDigit_of_mem_toDigits mem) (by decide)
    rw [leafText_ofNat]
    exact keeps_append_of_notMem plain behind

theorem keeps_chars {e : Environment} {l : Line} {rest : List Char} (plain : l.Plain)
    (kept : ∀ s ∈ l.strings, e.Keeps s.toList) (behind : e.Keeps rest) :
    e.Keeps (l.chars ++ rest) := by
  cases plain with
  | blank => exact ⟨by simp, behind⟩
  | @header path ne =>
    have close : e.Keeps ("]\n".toList ++ rest) := keeps_append_of_notMem (by decide) behind
    have all : e.Keeps ('[' :: (pathText path ++ ("]\n".toList ++ rest))) :=
      ⟨by simp, keeps_pathText kept close⟩
    simpa [Line.chars] using all
  | @pair k v leaf =>
    obtain ⟨key, kept⟩ := List.forall_mem_cons.1 kept
    have value : e.Keeps (leafText v ++ '\n' :: rest) :=
      keeps_leafText leaf kept ⟨by simp, behind⟩
    have equals : '$' ∉ " = ".toList := by decide
    simpa [Line.chars] using keeps_keyText key (keeps_append_of_notMem equals value)

theorem memberStrings_eq (ms : List (String × Json)) :
    memberStrings ms = ms.flatMap fun m => m.1 :: strings m.2 := by
  induction ms with
  | nil => rfl
  | cons m ms ih => rw [memberStrings, ih, List.flatMap_cons, List.cons_append]

theorem memberStrings_append (ms ns : List (String × Json)) :
    memberStrings (ms ++ ns) = memberStrings ms ++ memberStrings ns := by
  simp only [memberStrings_eq, List.flatMap_append]

mutual
/-- What stands on the lines of a value are names on the way to it and what it holds. -/
theorem strings_sectionLines (path : List String) (v : Json) :
    ∀ l ∈ (sectionLines path v).flatten, ∀ s ∈ l.strings, s ∈ path ∨ s ∈ strings v := by
  cases v with
  | object ms =>
    have header : ∀ l ∈ (if path.isEmpty then [] else [Line.header path]), ∀ s ∈ l.strings,
        s ∈ path ∨ s ∈ memberStrings ms := by
      split
      · simp
      · simpa [Line.strings] using fun s mem => .inl mem
    have own : ∀ l ∈ ownPairs ms, ∀ s ∈ l.strings, s ∈ path ∨ s ∈ memberStrings ms := by
      intro l own s there
      obtain ⟨m, mem, rfl⟩ := List.mem_map.1 own
      rw [memberStrings_eq]
      exact .inr (List.mem_flatMap.2 ⟨m, (List.mem_filter.1 mem).1, there⟩)
    rw [sectionLines, List.flatten_append]
    refine List.forall_mem_append.2 ⟨?_, strings_innerLines path ms⟩
    split
    · simp
    · rw [List.flatten_singleton]
      exact List.forall_mem_append.2 ⟨header, own⟩
  | _ => simp [sectionLines]
theorem strings_innerLines (path : List String) (ms : List (String × Json)) :
    ∀ l ∈ (innerLines path ms).flatten, ∀ s ∈ l.strings, s ∈ path ∨ s ∈ memberStrings ms := by
  cases ms with
  | nil => simp [innerLines]
  | cons m ms =>
    obtain ⟨k, v⟩ := m
    rw [innerLines, List.flatten_append, memberStrings]
    refine List.forall_mem_append.2 ⟨fun l mem s own => ?_, fun l mem s own => ?_⟩
    · have there := strings_sectionLines (path ++ [k]) v l mem s own
      simp only [List.mem_append, List.mem_cons, List.not_mem_nil, or_false] at there ⊢
      tauto
    · have there := strings_innerLines path ms l mem s own
      simp only [List.mem_append, List.mem_cons] at there ⊢
      tauto
end

/-- Where all dollars of the names and texts of a table are left as they are, so are those of
its print. -/
theorem keeps_text {e : Environment} {v : Json} (orderly : Orderly v)
    (kept : ∀ s ∈ strings v, e.Keeps s.toList) : e.Keeps (text v).toList := by
  have own : ∀ l ∈ documentLines v, ∀ s ∈ l.strings, e.Keeps s.toList := by
    intro l mem s own
    rcases mem_documentLines mem with rfl | mem
    · contradiction
    · have there := strings_sectionLines [] v l mem s own
      exact kept s (by simpa using there)
  have plain := plain_documentLines orderly
  rw [toList_text]
  generalize documentLines v = ls at own plain
  induction ls with
  | nil => trivial
  | cons l ls ih =>
    obtain ⟨first, plain⟩ := List.forall_mem_cons.1 plain
    obtain ⟨firstOwn, own⟩ := List.forall_mem_cons.1 own
    exact keeps_chars first firstOwn (ih own plain)

end BackupAdmin.Toml
