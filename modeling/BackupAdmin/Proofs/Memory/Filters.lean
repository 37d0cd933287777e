import BackupAdmin.Admin.Filter
import BackupAdmin.Memory.Match
import BackupAdmin.Proofs.Time.Reading

/-! What a service in memory makes of the filters that listings of backups are asked with. Main
statements: each filter admits just the backups that it is named for. -/
namespace BackupAdmin.Memory
open Text

/-- A filter makes sense for every backup and admits just those with a property. -/
def Means (filter : Option String) (P : Backup → Prop) : Prop :=
  ∀ b, ∃ d, admits (backupField b) filter = .ok d ∧ (d = true ↔ P b)

theorem means_none : Means none fun _ => True := fun b => ⟨true, rfl, by simp⟩

/-- A term with nothing around it that is taken off. -/
structure Bare (term : List Char) : Prop where
  nonempty : term ≠ []
  first : ∀ c ∈ term.head?, isBlank c = false ∧ c ≠ '('
  last : ∀ c ∈ term.getLast?, isBlank c = false ∧ c ≠ ')'

section
variable {field : String → Option Field} {filter : String} {term term' key value : List Char}

theorem Bare.of_forall (nonempty : term ≠ [])
    (h : ∀ c ∈ term, isBlank c = false ∧ c ≠ '(' ∧ c ≠ ')') : Bare term where
  nonempty := nonempty
  first c mem := ⟨(h c (List.mem_of_mem_head? mem)).1, (h c (List.mem_of_mem_head? mem)).2.1⟩
  last c mem := ⟨(h c (List.mem_of_mem_getLast? mem)).1, (h c (List.mem_of_mem_getLast? mem)).2.2⟩

theorem Bare.trim_eq (h : Bare term) : trim term = term :=
  trimWhile_eq_self (fun c mem => (h.first c mem).1) fun c mem => (h.last c mem).1

theorem Bare.of_ends {as bs : List Char} (nonempty : as ≠ [])
    (first : ∀ c ∈ as.head?, isBlank c = false ∧ c ≠ '(') (nonempty' : bs ≠ [])
    (last : ∀ c ∈ bs.getLast?, isBlank c = false ∧ c ≠ ')') (cs : List Char) :
    Bare (as ++ (cs ++ bs)) := by
  refine ⟨by simp [nonempty], fun c mem => first c ?_, fun c mem => last c ?_⟩
  · rwa [List.head?_append_of_ne_nil _ nonempty] at mem
  · rwa [← List.append_assoc, List.getLast?_append_of_ne_nil _ nonempty'] at mem

/-- A part of a filter, without blanks around it, and the term that it is read as. -/
structure Wraps (part term : List Char) : Prop where
  nonempty : part ≠ []
  first : ∀ c ∈ part.head?, isBlank c = false
  last : ∀ c ∈ part.getLast?, isBlank c = false
  unwrap_eq : trim (dropEndWhile (· = ')') ((trim part).dropWhile (· = '('))) = term

theorem Bare.wraps (h : Bare term) : Wraps term term := by
  refine ⟨h.nonempty, fun c mem => (h.first c mem).1, fun c mem => (h.last c mem).1, ?_⟩
  have first : term.dropWhile (· = '(') = term :=
    dropWhile_eq_self fun c mem => by simpa using (h.first c mem).2
  have last : dropEndWhile (· = ')') term = term :=
    dropEndWhile_eq_self fun c mem => by simpa using (h.last c mem).2
  rw [h.trim_eq, first, last, h.trim_eq]

/-- The brackets around a term are taken off. -/
theorem Bare.bracketed (h : Bare term) : Wraps ('(' :: (term ++ [')'])) term := by
  have ends : ('(' :: (term ++ [')'])).getLast? = some ')' := by
    rw [← List.cons_append, List.getLast?_concat]
  have first : ∀ c ∈ ('(' :: (term ++ [')'])).head?, isBlank c = false := by
    rintro c ⟨⟩
    decide
  have last : ∀ c ∈ ('(' :: (term ++ [')'])).getLast?, isBlank c = false := by
    rw [ends]
    rintro c ⟨⟩
    decide
  have opened : ('(' :: (term ++ [')'])).dropWhile (· = '(') = term ++ [')'] := by
    rw [List.dropWhile_cons, if_pos (by decide)]
    refine dropWhile_eq_self fun c mem => ?_
    rw [List.head?_append_of_ne_nil _ h.nonempty] at mem
    simpa using (h.first c mem).2
  have closed : dropEndWhile (· = ')') (term ++ [')']) = term := by
    rw [dropEndWhile, List.reverse_append, List.reverse_singleton, List.singleton_append,
      List.dropWhile_cons, if_pos (by decide), ← dropEndWhile]
    exact dropEndWhile_eq_self fun c mem => by simpa using (h.last c mem).2
  have trimmed : trim ('(' :: (term ++ [')'])) = '(' :: (term ++ [')']) :=
    trimWhile_eq_self first last
  exact ⟨List.cons_ne_nil _ _, first, last, by rw [trimmed, opened, closed, h.trim_eq]⟩

theorem admits_some (nonempty : filter.toList ≠ [])
    (first : ∀ c ∈ filter.toList.head?, isBlank c = false)
    (last : ∀ c ∈ filter.toList.getLast?, isBlank c = false) :
    admits field (some filter) = termsAdmit field (terms filter.toList) := by
  have nonempty' : filter.toList.isEmpty = false := by simpa using nonempty
  have trimmed : trim filter.toList = filter.toList := trimWhile_eq_self first last
  simp only [admits, Option.getD_some, trimmed, nonempty', Bool.false_eq_true, if_false]

theorem termsAdmit_cons {d : Bool} (decided : termAdmits? field term = some d)
    (rest : List (List Char)) :
    termsAdmit field (term :: rest) = if d then termsAdmit field rest else .ok false := by
  cases d <;> simp only [termsAdmit, decided] <;> rfl

/-- A filter of one term decides as the term does. -/
theorem admits_one {c : Char} {d : Bool} (wraps : Wraps filter.toList term)
    (mem : c ∈ " AND ".toList) (absent : c ∉ filter.toList)
    (decided : termAdmits? field term = some d) :
    admits field (some filter) = .ok d := by
  rw [admits_some wraps.nonempty wraps.first wraps.last, terms,
    piecesFrom_eq_singleton mem absent, List.map_singleton, wraps.unwrap_eq,
    termsAdmit_cons decided]
  cases d <;> rfl

/-- A filter of two terms admits what both of them admit. -/
theorem admits_two {part part' : List Char} {c : Char} {d d' : Bool}
    (written : filter.toList = part ++ (" AND ".toList ++ part')) (wraps : Wraps part term)
    (wraps' : Wraps part' term') (absent : 'A' ∉ part) (mem : c ∈ " AND ".toList)
    (absent' : c ∉ part') (decided : termAdmits? field term = some d)
    (decided' : termAdmits? field term' = some d') :
    admits field (some filter) = .ok (d && d') := by
  have parts : piecesFrom " AND ".toList 0 filter.toList = [part, part'] := by
    rw [written]
    refine (piecesFrom_append (by decide : ' ' ≠ 'A') absent ['N', 'D', ' '] part').trans ?_
    exact congrArg (part :: ·) (piecesFrom_eq_singleton mem absent')
  have first : ∀ c ∈ filter.toList.head?, isBlank c = false := by
    rw [written, List.head?_append_of_ne_nil _ wraps.nonempty]
    exact wraps.first
  have last : ∀ c ∈ filter.toList.getLast?, isBlank c = false := by
    rw [written, ← List.append_assoc, List.getLast?_append_of_ne_nil _ wraps'.nonempty]
    exact wraps'.last
  rw [admits_some (by simp [written, wraps.nonempty]) first last, terms, parts, List.map_cons,
    List.map_singleton, wraps.unwrap_eq, wraps'.unwrap_eq, termsAdmit_cons decided,
    termsAdmit_cons decided']
  cases d <;> cases d' <;> rfl

/-- A term is split at the first spelling that stands in it, in the order they are looked for. -/
theorem splitTerm_eq (signs : List Char) {op : String} {r : Relation}
    {before after : List (String × Relation)} (listed : comparisons = before ++ (op, r) :: after)
    (known : ∀ o ∈ before, signs.any (· ∈ o.1.toList) = true) (absent : ∀ c ∈ signs, c ∉ term)
    (here : splitFirst? op.toList term = some (key, value)) :
    splitTerm term = some (key, r, value) := by
  unfold splitTerm
  rw [listed, List.findSome?_append, List.findSome?_eq_none_iff.2, Option.none_or,
    List.findSome?_cons]
  · simp only [here, Option.map_some]
  · intro o mem
    obtain ⟨c, sign, inside⟩ := List.any_eq_true.1 (known o mem)
    simp only [splitFirst?_eq_none (of_decide_eq_true inside) (absent c sign), Option.map_none]

theorem splitTerm_ge (greater : '>' ∉ key) (value : List Char) :
    splitTerm (key ++ '>' :: '=' :: value) = some (key, .ge, value) := by
  have listed : comparisons = [] ++ (">=", .ge) :: comparisons.tail := rfl
  exact splitTerm_eq [] listed (by decide) (by simp) (splitFirst?_append greater ['='] value)

theorem splitTerm_gt (equals : '=' ∉ key ++ '>' :: value) (greater : '>' ∉ key) :
    splitTerm (key ++ '>' :: value) = some (key, .gt, value) := by
  have listed : comparisons = comparisons.take 3 ++ (">", .gt) :: comparisons.drop 4 := rfl
  exact splitTerm_eq ['='] listed (by decide) (by simpa using equals)
    (splitFirst?_append greater [] value)

theorem splitTerm_lt (plain : ∀ c ∈ ['=', '>'], c ∉ key ++ '<' :: value) (less : '<' ∉ key) :
    splitTerm (key ++ '<' :: value) = some (key, .lt, value) := by
  have listed : comparisons = comparisons.take 4 ++ ("<", .lt) :: comparisons.drop 5 := rfl
  exact splitTerm_eq ['=', '>'] listed (by decide) plain (splitFirst?_append less [] value)

/-- A term without signs of comparison is split at its first colon. -/
theorem splitTerm_has (plain : ∀ c ∈ ['=', '<', '>'], c ∉ key ++ ':' :: value)
    (colon : ':' ∉ key) : splitTerm (key ++ ':' :: value) = some (key, .has, value) := by
  have known : ∀ o ∈ comparisons, ['=', '<', '>'].any (· ∈ o.1.toList) = true := by decide
  have here : splitFirst? [':'] (key ++ ':' :: value) = some (key, value) :=
    splitFirst?_append colon [] value
  unfold splitTerm
  rw [List.findSome?_eq_none_iff.2, here]
  · rfl
  · intro o mem
    obtain ⟨c, sign, inside⟩ := List.any_eq_true.1 (known o mem)
    simp only [splitFirst?_eq_none (of_decide_eq_true inside) (plain c sign), Option.map_none]

/-- What a term of a text says: the value stands without quotes and blanks around it. -/
theorem termAdmits?_text {r : Relation} {s : String}
    (split : splitTerm term = some (key, r, value))
    (named : field (String.ofList (trim key)) = some (.text s)) :
    termAdmits? field term = r.holdsText s (trimWhile (· = '"') (trim value)) := by
  simp only [termAdmits?, split, named, Option.bind_eq_bind, Option.bind_some]

theorem termAdmits?_size {r : Relation} {m n : Int64}
    (split : splitTerm term = some (key, r, value))
    (named : field (String.ofList (trim key)) = some (.size m))
    (read : sizeValue? (trimWhile (· = '"') (trim value)) = some n) :
    termAdmits? field term = some (r.holds (compare m.toInt n.toInt)) := by
  simp only [termAdmits?, split, named, read, Option.bind_eq_bind, Option.bind_some]
  rfl

/-- A term of a time admits nothing where there is no time. -/
theorem termAdmits?_time {r : Relation} {t : Option Instant} {u : Instant}
    (split : splitTerm term = some (key, r, value))
    (named : field (String.ofList (trim key)) = some (.time t))
    (read : Instant.ofLenientText? (String.ofList (trimWhile (· = '"') (trim value))) = some u) :
    termAdmits? field term = some (t.any fun t => r.holds (compareInstants t u)) := by
  cases t with
  | none =>
    simp only [termAdmits?, split, named, Option.bind_eq_bind, Option.bind_some]
    rfl
  | some t =>
    simp only [termAdmits?, split, named, read, Option.bind_eq_bind, Option.bind_some]
    rfl

end

section
variable {id : String}

/-- The characters of ids, as far as filters are put together from them. -/
def isIdChar (c : Char) : Bool := c.isAlphanum || c = '_' || c = '-' || c = '.' || c = '/'

theorem isBlank_of_isIdChar {c : Char} (h : isIdChar c = true) : isBlank c = false := by
  have bounds : 45 ≤ c.toNat ∧ c.toNat ≤ 122 := by
    simp only [isIdChar, Bool.or_eq_true, decide_eq_true_eq] at h
    rcases h with (((alphanum | rfl) | rfl) | rfl) | rfl
    · have between := toNat_of_isAlphanum alphanum
      omega
    all_goals decide
  simp only [isBlank, Bool.or_eq_false_iff, Bool.and_eq_false_iff, decide_eq_false_iff_not,
    beq_eq_false_iff_ne]
  omega

theorem isIdChar_of_isDigit {c : Char} (h : isDigit c = true) : isIdChar c = true := by
  have digit : c.isDigit = true := (isDigit_eq c).symm.trans h
  simp [isIdChar, Char.isAlphanum, digit]

theorem notMem_of_plain {cs : List Char} (plain : ∀ c ∈ cs, isIdChar c = true) {c : Char}
    (other : isIdChar c = false) : c ∉ cs := fun mem => by
  rw [plain c mem] at other
  contradiction

theorem trim_of_plain {cs : List Char} (plain : ∀ c ∈ cs, isIdChar c = true) : trim cs = cs :=
  trimWhile_eq_self_of_forall fun c mem => isBlank_of_isIdChar (plain c mem)

theorem trimQuotes_of_plain {cs : List Char} (plain : ∀ c ∈ cs, isIdChar c = true) :
    trimWhile (· = '"') cs = cs :=
  trimWhile_eq_self_of_forall fun c mem => decide_eq_false fun quote =>
    notMem_of_plain plain (by decide : isIdChar '"' = false) (quote ▸ mem)

/-- A term that looks for an id in the text that a key names. -/
def keyed (key id : String) : List Char := key.toList ++ ':' :: id.toList

section
variable {key : String} {c : Char}

theorem mem_keyed (plain_key : ∀ c ∈ key.toList, isIdChar c = true ∨ c = '@')
    (plain : ∀ c ∈ id.toList, isIdChar c = true) (mem : c ∈ keyed key id) :
    isIdChar c = true ∨ c = '@' ∨ c = ':' := by
  rcases List.mem_append.1 mem with mem | mem
  · exact (plain_key c mem).imp_right .inl
  · exact (List.mem_cons.1 mem).symm.imp (plain c) .inr

theorem notMem_keyed (plain_key : ∀ c ∈ key.toList, isIdChar c = true ∨ c = '@')
    (plain : ∀ c ∈ id.toList, isIdChar c = true)
    (other : isIdChar c = false ∧ c ≠ '@' ∧ c ≠ ':') : c ∉ keyed key id := fun mem => by
  rcases mem_keyed plain_key plain mem with h | h | h
  · exact Bool.false_ne_true (other.1.symm.trans h)
  · exact other.2.1 h
  · exact other.2.2 h

theorem bare_keyed (plain_key : ∀ c ∈ key.toList, isIdChar c = true ∨ c = '@')
    (plain : ∀ c ∈ id.toList, isIdChar c = true) : Bare (keyed key id) := by
  refine .of_forall (by simp [keyed]) fun c mem => ?_
  rcases mem_keyed plain_key plain mem with h | rfl | rfl
  · refine ⟨isBlank_of_isIdChar h, ?_, ?_⟩ <;> rintro rfl <;> exact absurd h (by decide)
  · decide
  · decide

/-- Such a term admits what has the id in the text. -/
theorem termAdmits?_keyed {field : String → Option Field} {text : String}
    (plain_key : ∀ c ∈ key.toList, isIdChar c = true ∨ c = '@')
    (plain : ∀ c ∈ id.toList, isIdChar c = true) (named : field key = some (.text text)) :
    termAdmits? field (keyed key id) = some (contains id.toList text.toList) := by
  have signs : ∀ c ∈ ['=', '<', '>'], isIdChar c = false ∧ c ≠ '@' ∧ c ≠ ':' :=
    forall_mem_of_all (by decide)
  have colon : ':' ∉ key.toList := fun mem =>
    (plain_key _ mem).elim (fun h => absurd h (by decide)) fun h => absurd h (by decide)
  have trimmed : trim key.toList = key.toList := by
    refine trimWhile_eq_self_of_forall fun c mem => ?_
    rcases plain_key c mem with h | rfl
    · exact isBlank_of_isIdChar h
    · decide
  have split : splitTerm (keyed key id) = some (key.toList, .has, id.toList) :=
    splitTerm_has (fun c sign => notMem_keyed plain_key plain (signs c sign)) colon
  have found : field (String.ofList (trim key.toList)) = some (.text text) := by
    rw [trimmed, String.ofList_toList, named]
  rw [termAdmits?_text split found, trim_of_plain plain, trimQuotes_of_plain plain]
  rfl

end

/-- A filter of one term that looks for an id in a text. -/
theorem means_contains {filter key : String} {text : Backup → String}
    (written : filter.toList = keyed key id)
    (plain_key : ∀ c ∈ key.toList, isIdChar c = true ∨ c = '@')
    (named : ∀ b, backupField b key = some (.text (text b)))
    (plain : ∀ c ∈ id.toList, isIdChar c = true) :
    Means (some filter) fun b => id.toList <:+: (text b).toList := by
  intro b
  refine ⟨contains id.toList (text b).toList, ?_, contains_iff⟩
  exact admits_one (written ▸ (bare_keyed plain_key plain).wraps)
    (by decide : ' ' ∈ " AND ".toList)
    (written ▸ notMem_keyed plain_key plain (by decide))
    (termAdmits?_keyed plain_key plain (named b))

theorem means_nameContains (plain : ∀ c ∈ id.toList, isIdChar c = true) :
    Means (some (Filter.nameContains id)) fun b => id.toList <:+: b.name.toList := by
  have written : (Filter.nameContains id).toList = keyed "name" id := by
    simp [Filter.nameContains, keyed]
  exact means_contains written (forall_mem_of_all (by decide)) (fun b => rfl) plain

theorem means_databaseContains (plain : ∀ c ∈ id.toList, isIdChar c = true) :
    Means (some (Filter.databaseContains id)) fun b => id.toList <:+: b.database.toList := by
  have written : (Filter.databaseContains id).toList = keyed "database" id := by
    simp [Filter.databaseContains, keyed]
  exact means_contains written (forall_mem_of_all (by decide)) (fun b => rfl) plain

end

/-- A filter of one term that looks for sizes above a number. -/
theorem means_largerThan {n : Nat} (small : (n : Int) ≤ Int64.maxValue.toInt) :
    Means (some (Filter.largerThan n)) fun b => n < b.sizeBytes.toInt := by
  have number : Filter.largerThan n = "size_bytes > " ++ toString n := rfl
  have written : (Filter.largerThan n).toList =
      "size_bytes ".toList ++ '>' :: ' ' :: Nat.toDigits 10 n := by
    rw [number]
    simp
  have plain : ∀ c ∈ Nat.toDigits 10 n, isIdChar c = true := fun c mem =>
    isIdChar_of_isDigit (isDigit_of_mem_toDigits mem)
  have bare : Bare ("size_bytes ".toList ++ '>' :: ' ' :: Nat.toDigits 10 n) := by
    refine .of_ends (by decide) (forall_mem_of_all? (by decide)) Nat.toDigits_ne_nil
      (fun c mem => ?_) ['>', ' ']
    have digit := plain c (List.mem_of_mem_getLast? mem)
    refine ⟨isBlank_of_isIdChar digit, ?_⟩
    rintro rfl
    exact absurd digit (by decide)
  have absent : ∀ c ∈ ['=', 'A'], c ∉ "size_bytes ".toList ++ '>' :: ' ' :: Nat.toDigits 10 n := by
    intro c mem
    have others : ∀ c ∈ ['=', 'A'], isDigit c = false ∧ c ∉ "size_bytes ".toList ∧ c ≠ '>' ∧
        c ≠ ' ' := forall_mem_of_all (by decide)
    obtain ⟨no_digit, no_key, no_greater, no_blank⟩ := others c mem
    have no_number : c ∉ Nat.toDigits 10 n := fun digit =>
      Bool.false_ne_true (no_digit.symm.trans (isDigit_of_mem_toDigits digit))
    simp only [List.mem_append, List.mem_cons, no_key, no_greater, no_blank, no_number, or_self,
      not_false_eq_true]
  have trimmed : trimWhile (· = '"') (trim (' ' :: Nat.toDigits 10 n)) = Nat.toDigits 10 n := by
    have blank := trimWhile_cons (by decide : isBlank ' ' = true) (Nat.toDigits 10 n)
    rw [trim, blank, ← trim, trim_of_plain plain, trimQuotes_of_plain plain]
  obtain ⟨m, read, same⟩ := int64?_toDigits small
  intro b
  refine ⟨_, admits_one (written ▸ bare.wraps) (by decide : 'A' ∈ " AND ".toList) ?_
    (written ▸ termAdmits?_size (splitTerm_gt (absent '=' (by decide)) (by decide)) rfl
      (trimmed ▸ read)), ?_⟩
  · rw [written]
    exact absent 'A' (by decide)
  · rw [same]
    exact decide_eq_true_iff.trans compare_gt_iff_gt

/-- A text that is read as a point in time and has no characters but those of such texts. -/
structure Stamp (text : String) (u : Instant) : Prop where
  chars : ∀ c ∈ text.toList, isDigit c = true ∨ c ∈ ['-', '+', 'T', ':', 'Z']
  read : Instant.ofLenientText? text = some u

theorem stamp_filterText {u : Instant} (whole : u.nanos = 0) (low : Date.minYear ≤ u.date.year)
    (high : u.date.year ≤ Date.maxYear) : Stamp u.filterText u :=
  ⟨fun _ mem => Instant.mem_filterText whole mem, Instant.ofLenientText?_filterText whole low high⟩

section
variable {text : String} {u : Instant} {term : List Char}

/-- A text in quotes, with a blank before it. -/
def quoted (text : String) : List Char := ' ' :: '"' :: (text.toList ++ ['"'])

theorem Stamp.notMem_quoted (h : Stamp text u) {c : Char} (no_digit : isDigit c = false)
    (no_sign : c ∉ ['-', '+', 'T', ':', 'Z', ' ', '"']) : c ∉ quoted text := by
  have no_text : c ∉ text.toList := fun mem => by
    rcases h.chars c mem with digit | sign
    · exact Bool.false_ne_true (no_digit.symm.trans digit)
    · exact no_sign (List.mem_append_left [' ', '"'] sign)
  simp only [List.mem_cons, not_or] at no_sign
  simp [quoted, no_text, no_sign]

/-- A key, a sign and a text in quotes. -/
theorem bare_quoted {key : List Char} (nonempty : key ≠ [])
    (first : ∀ c ∈ key.head?, isBlank c = false ∧ c ≠ '(') (sign : List Char) (text : String) :
    Bare (key ++ (sign ++ quoted text)) := by
  have ends := Bare.of_ends nonempty first (by decide : ['"'] ≠ [])
    (forall_mem_of_all? (by decide)) (sign ++ ' ' :: '"' :: text.toList)
  rwa [List.append_assoc] at ends

/-- A time in quotes is read as itself. -/
theorem Stamp.read_quoted (h : Stamp text u) :
    Instant.ofLenientText? (String.ofList (trimWhile (· = '"') (trim (quoted text)))) = some u := by
  have trimmed : trim (quoted text) = '"' :: (text.toList ++ ['"']) := by
    refine (trimWhile_cons (by decide : isBlank ' ' = true) _).trans
      (trimWhile_eq_self (fun c mem => ?_) fun c mem => ?_)
    · cases mem
      decide
    · rw [← List.cons_append, List.getLast?_concat] at mem
      cases mem
      decide
  have no_quote : ∀ c ∈ text.toList, decide (c = '"') = false := by
    refine fun c mem => decide_eq_false ?_
    rintro rfl
    rcases h.chars _ mem with digit | sign
    · exact absurd digit (by decide)
    · exact absurd sign (by decide)
  rw [trimmed, trimWhile_enclosed (by decide) (by decide) no_quote, String.ofList_toList, h.read]

theorem holds_lt_compareInstants (t u : Instant) :
    Relation.lt.holds (compareInstants t u) = t.before u := by
  unfold compareInstants
  cases t.before u
  · cases u.before t <;> rfl
  · rfl

theorem holds_ge_compareInstants (t u : Instant) :
    Relation.ge.holds (compareInstants t u) = !t.before u := by
  unfold compareInstants
  cases t.before u
  · cases u.before t <;> rfl
  · rfl

/-- A filter of one term that looks for times before another one. -/
theorem Stamp.means_before (h : Stamp text u) :
    Means (some ("expire_time < \"" ++ text ++ "\"")) fun b =>
      ∃ t, b.expireTime = some t ∧ t.before u = true := by
  have written : ("expire_time < \"" ++ text ++ "\"").toList =
      "expire_time ".toList ++ '<' :: quoted text := by
    simp [quoted]
  have bare : Bare ("expire_time ".toList ++ '<' :: quoted text) :=
    bare_quoted (by decide) (forall_mem_of_all? (by decide)) ['<'] text
  have others : ∀ c ∈ ['=', '>', 'A'], isDigit c = false ∧
      c ∉ ['-', '+', 'T', ':', 'Z', ' ', '"'] ∧ c ∉ "expire_time ".toList ∧ c ≠ '<' :=
    forall_mem_of_all (by decide)
  have absent : ∀ c ∈ ['=', '>', 'A'], c ∉ "expire_time ".toList ++ '<' :: quoted text := by
    intro c mem
    obtain ⟨no_digit, no_sign, no_key, no_less⟩ := others c mem
    simp only [List.mem_append, List.mem_cons, no_key, no_less, false_or]
    exact h.notMem_quoted no_digit no_sign
  have split : splitTerm ("expire_time ".toList ++ '<' :: quoted text) =
      some ("expire_time ".toList, .lt, quoted text) :=
    splitTerm_lt (fun c sign => absent c (List.mem_append_left ['A'] sign)) (by decide)
  intro b
  refine ⟨b.expireTime.any (·.before u), ?_, by simp [Option.any_eq_true]⟩
  refine admits_one (written ▸ bare.wraps) (by decide : 'A' ∈ " AND ".toList) ?_ ?_
  · rw [written]
    exact absent 'A' (by decide)
  · rw [written, termAdmits?_time split rfl h.read_quoted]
    simp only [holds_lt_compareInstants]

/-- A filter of two terms that looks for times not before another one, of backups that are ready. -/
theorem Stamp.means_ready_since (h : Stamp text u) :
    Means (some ("create_time >= \"" ++ text ++ "\" AND state:READY")) fun b =>
      ∃ t, b.createTime = some t ∧ t.before u = false ∧ b.state = .ready := by
  have written : ("create_time >= \"" ++ text ++ "\" AND state:READY").toList =
      ("create_time ".toList ++ '>' :: '=' :: quoted text) ++
        (" AND ".toList ++ "state:READY".toList) := by
    simp [quoted]
  have bare : Bare ("create_time ".toList ++ '>' :: '=' :: quoted text) :=
    bare_quoted (by decide) (forall_mem_of_all? (by decide)) ['>', '='] text
  have bare' : Bare "state:READY".toList :=
    ⟨by decide, forall_mem_of_all? (by decide), forall_mem_of_all? (by decide)⟩
  have absent : 'A' ∉ "create_time ".toList ++ '>' :: '=' :: quoted text := by
    have no_key : 'A' ∉ "create_time ".toList := by decide
    have no_text : 'A' ∉ quoted text := h.notMem_quoted (by decide) (by decide)
    simp only [List.mem_append, List.mem_cons, no_key, no_text]
    decide
  have split' : splitTerm "state:READY".toList = some ("state".toList, .has, "READY".toList) := by
    decide +kernel
  have state : ∀ s : BackupState, contains "READY".toList s.text.toList = decide (s = .ready) := by
    intro s
    cases s <;> decide +kernel
  intro b
  refine ⟨b.createTime.any (fun t => !t.before u) && decide (b.state = .ready), ?_, ?_⟩
  · refine admits_two written bare.wraps bare'.wraps absent (by decide : 'N' ∈ " AND ".toList)
      (by decide) ?_ ?_
    · rw [termAdmits?_time (splitTerm_ge (by decide) _) rfl h.read_quoted]
      simp only [holds_ge_compareInstants]
    · rw [termAdmits?_text split' rfl, ← state]
      rfl
  · simp only [Bool.and_eq_true, Option.any_eq_true, Bool.not_eq_true', decide_eq_true_eq]
    constructor
    · rintro ⟨⟨t, found, late⟩, ready⟩
      exact ⟨t, found, late, ready⟩
    · rintro ⟨t, found, late, ready⟩
      exact ⟨⟨t, found, late⟩, ready⟩

end

end BackupAdmin.Memory
