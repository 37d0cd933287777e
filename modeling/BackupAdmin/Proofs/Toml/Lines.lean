import BackupAdmin.Proofs.Text.Digits
import BackupAdmin.Proofs.Toml.Quoting
import BackupAdmin.Toml.Reader

/-! Lines of a printed document. Main statement: a text made of headers and of keys with their
values is read line by line. -/
namespace BackupAdmin.Toml
open Text

section
variable {cs rest : List Char} {c : Char}

/-- Characters of keys that need no quotes. -/
theorem isBare_of_key (h : (c.isAlphanum || c = '_' || c = '-') = true) : isBare c = true := by
  have all : ∀ n < 123, 45 ≤ n ∧ n ≠ 46 ∧ n ≠ 61 ∧ n ≠ 91 ∧ n ≠ 93 →
      isBare (Char.ofNat n) = true := by decide +kernel
  have bounds : c.toNat < 123 ∧ 45 ≤ c.toNat ∧ c.toNat ≠ 46 ∧ c.toNat ≠ 61 ∧ c.toNat ≠ 91 ∧
      c.toNat ≠ 93 := by
    simp only [Bool.or_eq_true, decide_eq_true_eq] at h
    rcases h with (alphanum | rfl) | rfl
    · have between := toNat_of_isAlphanum alphanum
      omega
    all_goals decide
  have bare := all c.toNat bounds.1 bounds.2
  rwa [Char.ofNat_toNat] at bare

/-- A run of plain characters is one token. -/
theorem tokens_bare (ne : cs ≠ []) (bare : ∀ c ∈ cs, isBare c = true) (stops : Stops rest) :
    tokens (cs ++ rest) = (tokens rest).map (.bare cs :: ·) := by
  obtain ⟨c, cs, rfl⟩ := List.exists_cons_of_ne_nil ne
  obtain ⟨first, bare⟩ := List.forall_mem_cons.1 bare
  have ends : rest.takeWhile isBare = [] ∧ rest.dropWhile isBare = rest := by
    cases rest with
    | nil => exact ⟨rfl, rfl⟩
    | cons d rest =>
      obtain ⟨-, -, stop⟩ := stops d rfl
      simp [stop]
  have taken : (cs ++ rest).takeWhile isBare = cs := by
    rw [List.takeWhile_append_of_pos bare, ends.1, List.append_nil]
  have dropped : (cs ++ rest).dropWhile isBare = rest := by
    rw [List.dropWhile_append_of_pos bare, ends.2]
  have chars : isGap c = false ∧ isControl c = false ∧ sign? c = none ∧ c ≠ '"' ∧ c ≠ '\'' ∧
      c ≠ '#' := by
    simpa [isBare, and_assoc] using first
  obtain ⟨gap, control, sign, double, single, comment⟩ := chars
  have line : c ≠ '\n' ∧ c ≠ '\r' := by
    constructor <;> (rintro rfl; simp [isControl] at control)
  rw [List.cons_append, tokens]
  simp [gap, sign, double, single, comment, line, first, taken, dropped]

end

theorem stops_of_sign {c : Char} (h : c ≠ '"' ∧ c ≠ '\'' ∧ isBare c = false) (rest : List Char) :
    Stops (c :: rest) := by
  rintro d ⟨⟩
  exact h

/-- A part of a key is one token, which spells it. -/
theorem tokens_keyText (k : String) :
    ∃ t, keyPart? t = some k ∧ ∀ rest, Stops rest →
      tokens (keyText k ++ rest) = (tokens rest).map (t :: ·) := by
  unfold keyText
  dsimp only
  split
  case isTrue plain =>
    obtain ⟨ne, chars⟩ := Bool.and_eq_true_iff.1 plain
    have bare := fun c mem => isBare_of_key (List.all_eq_true.1 chars c mem)
    refine ⟨.bare k.toList, ?_, fun rest stops => tokens_bare (by simpa using ne) bare stops⟩
    simp only [keyPart?, if_pos chars, String.ofList_toList]
  split
  · exact ⟨.quoted k.toList false, by simp [keyPart?], fun rest => tokens_escaped k.toList⟩
  split
  case isTrue plain =>
    simp only [Bool.and_eq_true] at plain
    obtain ⟨escape, single⟩ := plain
    refine ⟨.quoted k.toList false, by simp [keyPart?], fun rest =>
      tokens_raw fun c mem => ⟨?_, ?_⟩⟩
    · rintro rfl
      simp [mem] at single
    · rw [isControl_eq]
      have none := escape
      simp only [Bool.not_eq_true', List.any_eq_false] at none
      simpa using none c mem
  · exact ⟨.quoted k.toList false, by simp [keyPart?], fun rest => tokens_escaped k.toList⟩

/-- Tokens that are parts of keys are neither blanks nor brackets. -/
theorem isKeyToken_of_keyPart? {t : Token} {k : String} (h : keyPart? t = some k) :
    isKeyToken t = true ∧ isGapToken t = false := by
  cases t <;> simp_all [keyPart?, isKeyToken, isGapToken]

/-- The tokens of a path, which spell it. -/
theorem tokens_pathText {path : List String} (ne : path ≠ []) :
    ∃ ts, keyParts? ts = some path ∧ ts ≠ [] ∧
      (∀ t ∈ ts, isKeyToken t = true ∧ isGapToken t = false) ∧
      ∀ rest, Stops rest → tokens (pathText path ++ rest) = (tokens rest).map (ts ++ ·) := by
  induction path with
  | nil => contradiction
  | cons k path ih =>
    obtain ⟨t, part, read⟩ := tokens_keyText k
    have own := isKeyToken_of_keyPart? part
    cases path with
    | nil =>
      refine ⟨[t], by simp [keyParts?, part], by simp, by simpa using own, fun rest stops => ?_⟩
      have text : pathText [k] = keyText k := by simp [pathText, List.intercalate]
      rw [text]
      exact read rest stops
    | cons l path =>
      obtain ⟨ts, parts, some, keys, reads⟩ := ih (by simp)
      have dot : isKeyToken .dot = true ∧ isGapToken .dot = false := ⟨rfl, rfl⟩
      refine ⟨t :: .dot :: ts, by simp [keyParts?, part, parts], by simp,
        by simpa [own, dot] using keys, fun rest stops => ?_⟩
      have text : pathText (k :: l :: path) ++ rest =
          keyText k ++ '.' :: (pathText (l :: path) ++ rest) := by
        simp [pathText, List.intercalate]
      have point (cs : List Char) : tokens ('.' :: cs) = (tokens cs).map (.dot :: ·) := by
        rw [tokens]
        simp [isGap, sign?]
      rw [text, read _ (stops_of_sign (by decide) _), point, reads rest stops]
      simp [Function.comp_def]

/-- A key is read up to the first token that is no part of it. -/
theorem key?_append {own r : List Token} {path : List String}
    (keys : ∀ t ∈ own, isKeyToken t = true) (ends : ∀ t, r.head? = some t → isKeyToken t = false)
    (parts : keyParts? (own.filter (!isGapToken ·)) = some path) :
    key? (own ++ r) = some (path, ⟨r, (List.suffix_append own r).length_le⟩) := by
  have none : r.takeWhile isKeyToken = [] := by
    cases r with
    | nil => rfl
    | cons t r => simp [ends t rfl]
  have taken : (own ++ r).takeWhile isKeyToken = own := by
    rw [List.takeWhile_append_of_pos keys, none, List.append_nil]
  simp [key?, taken, parts]

/-- Values that stand on the line of their key: texts, and whole numbers of a word. -/
inductive Leaf : Json → Prop
  | string (s : String) : Leaf (.string s)
  | number {n : Nat} (small : n < UInt64.size) : Leaf (.ofNat n)

theorem isTable_leaf {v : Json} (h : Leaf v) : isTable v = false := by
  cases h <;> rfl

section
variable {ds : List Char} (digits : ∀ c ∈ ds, Text.isDigit c = true)
include digits

theorem ungrouped?_digits : ungrouped? Text.isDigit ds = some ds := by
  induction ds with
  | nil => rfl
  | cons c ds ih =>
    obtain ⟨digit, digits⟩ := List.forall_mem_cons.1 digits
    have plain {d : Char} (h : Text.isDigit d = true) : d ≠ '_' := by
      rintro rfl
      simp [Text.isDigit] at h
    unfold ungrouped?
    split
    case h_1 a b r same =>
      obtain ⟨rfl, rfl⟩ := List.cons.inj same
      exact absurd rfl (plain (List.forall_mem_cons.1 digits).1)
    case h_2 d r same =>
      obtain ⟨rfl, rfl⟩ := List.cons.inj same
      rw [if_neg (plain digit), ih digits]
      rfl
    case h_3 same => exact absurd same (List.cons_ne_nil c ds)

/-- What is behind some digits is no mark of a date or a time. -/
theorem mark?_drop {c : Char} (mark : Text.isDigit c = false) (n : Nat) :
    mark? c (ds.drop n) = none := by
  cases rest : ds.drop n with
  | nil => rfl
  | cons d r =>
    have digit : Text.isDigit d = true :=
      digits d (List.mem_of_mem_drop (rest ▸ List.mem_cons_self))
    have ne : c ≠ d := by
      rintro rfl
      rw [digit] at mark
      contradiction
    simp [mark?, ne]

theorem isDateTime_digits : isDateTime ds = false := by
  have field (width low high : Nat) :
      field? width low high ds = none ∨ field? width low high ds = some (ds.drop width) := by
    dsimp only [field?]
    split
    · exact .inl rfl
    · split
      · exact .inr rfl
      · exact .inl rfl
  have date : afterDate? ds = none := by
    unfold afterDate?
    rcases field 4 0 9999 with none | year
    · simp [none]
    · simp [year, mark?_drop digits (c := '-') (by decide)]
  have time : afterTime? ds = none := by
    unfold afterTime?
    rcases field 2 0 23 with none | hour
    · simp [none]
    · simp [hour, mark?_drop digits (c := ':') (by decide)]
  simp [isDateTime, date, time]

end

/-- The digits of a number are a value without quotes. -/
theorem scalar?_toDigits {n : Nat} (small : n < UInt64.size) :
    scalar? (Nat.toDigits 10 n) = some (.ofNat n) := by
  have digits : ∀ c ∈ Nat.toDigits 10 n, Text.isDigit c = true := fun c => isDigit_of_mem_toDigits
  have other {c : Char} (mem : c ∈ Nat.toDigits 10 n) (none : Text.isDigit c = false) : False := by
    rw [digits c mem] at none
    contradiction
  have word : decimal? (Nat.toDigits 10 n) = some (.ofNat n) := by
    have plain : signed (Nat.toDigits 10 n) = (false, Nat.toDigits 10 n) := by
      unfold signed
      split
      case h_1 same => exact (other (same ▸ List.mem_cons_self) (by decide)).elim
      case h_2 same => exact (other (same ▸ List.mem_cons_self) (by decide)).elim
      case h_3 => rfl
    have inf : Nat.toDigits 10 n ≠ ['i', 'n', 'f'] := fun same =>
      other (c := 'i') (by simp [same]) (by decide)
    have nan : Nat.toDigits 10 n ≠ ['n', 'a', 'n'] := fun same =>
      other (c := 'a') (by simp [same]) (by decide)
    have first : (Nat.toDigits 10 n).head? ≠ some '_' := fun same =>
      other (List.mem_of_mem_head? same) (by decide)
    have zero : ¬ ((Nat.toDigits 10 n).head? = some '0' ∧ 1 < (Nat.toDigits 10 n).length) := by
      rintro ⟨zero, long⟩
      have none : n = 0 := Nat.eq_zero_of_not_pos fun pos => head?_toDigits pos zero
      rw [none] at long
      exact absurd long (by decide)
    have value : Text.decimal (Nat.toDigits 10 n) = n := by
      rw [decimal_eq, Nat.ofDigitChars_ten_toDigits]
    have fits : wholeNumber? (n : Int) = some (.ofNat n) := by
      have size : (UInt64.size : Int) = 18446744073709551616 := rfl
      have bound : (n : Int) < UInt64.size := Int.ofNat_lt.2 small
      dsimp only [wholeNumber?]
      rw [if_pos (by omega)]
      rfl
    simp only [decimal?, plain]
    simp [inf, nan, ungroupedDecimal?, first, ungrouped?_digits digits, Nat.toDigits_ne_nil]
    rw [if_pos digits, if_neg zero, value, fits]
  unfold scalar?
  split
  case isTrue same => exact (other (c := 't') (by simp [same]) (by decide)).elim
  split
  case isTrue same => exact (other (c := 'f') (by simp [same]) (by decide)).elim
  split
  case h_1 ds same => exact (other (c := 'x') (by simp [same]) (by decide)).elim
  case h_2 ds same => exact (other (c := 'o') (by simp [same]) (by decide)).elim
  case h_3 ds same => exact (other (c := 'b') (by simp [same]) (by decide)).elim
  case h_4 => rw [isDateTime_digits digits, if_neg Bool.false_ne_true, word]

theorem leafText_ofNat (n : Nat) : leafText (.ofNat n) = Nat.toDigits 10 n := by
  have same : toString (n : Int) = toString n := rfl
  change (toString (n : Int)).toList = _
  rw [same, Nat.toString_eq_ofList_toDigits, String.toList_ofList]

/-- A value on its line is one token, which spells it. -/
theorem tokens_leafText {v : Json} (h : Leaf v) {rest : List Char} (stops : Stops rest) :
    ∃ t, tokens (leafText v ++ rest) = (tokens rest).map (t :: ·) ∧ isGapToken t = false ∧
      ∀ r, value? (t :: .newline :: r) = some (v, ⟨.newline :: r, Nat.lt_add_one _⟩) := by
  cases h with
  | string s =>
    obtain ⟨lines, read⟩ := tokens_quotedText s stops
    exact ⟨_, read, rfl, fun r => by simp [value?]⟩
  | @number n small =>
    have bare : ∀ c ∈ Nat.toDigits 10 n, isBare c = true := fun c mem =>
      isBare_of_key (by simp [Char.isAlphanum, ← isDigit_eq, isDigit_of_mem_toDigits mem])
    refine ⟨.bare (Nat.toDigits 10 n), ?_, rfl, fun r => ?_⟩
    · rw [leafText_ofNat]
      exact tokens_bare Nat.toDigits_ne_nil bare stops
    · have first : Nat.toDigits 10 n ++ run (.newline :: r) = Nat.toDigits 10 n := by simp [run]
      simp only [value?, bareValue?, first, scalar?_toDigits small]
      simp [afterRun]

/-- A line of a printed document. -/
inductive Line where
  | blank
  | header (path : List String)
  | pair (key : String) (value : Json)

namespace Line

def chars : Line → List Char
  | .blank => ['\n']
  | .header path => '[' :: pathText path ++ "]\n".toList
  | .pair k v => keyText k ++ " = ".toList ++ leafText v ++ ['\n']

/-- What a line does to the document in front of it. -/
def apply (d : Document) : Line → Option Document
  | .blank => some d
  | .header path => (openTable false path d.members).map fun ms => ⟨ms, path⟩
  | .pair k v => (changeAt (addValue [k] v) d.here d.members).map fun ms => { d with members := ms }

/-- Headers with a name, and values that stand on the line of their key. -/
inductive Plain : Line → Prop
  | blank : Plain .blank
  | header {path : List String} (ne : path ≠ []) : Plain (.header path)
  | pair (k : String) {v : Json} (leaf : Leaf v) : Plain (.pair k v)

end Line

theorem tokens_newline (cs : List Char) :
    tokens ('\n' :: cs) = (tokens cs).map (.newline :: ·) := by
  rw [tokens, if_pos rfl]

theorem tokens_sign {c : Char} {t : Token} (sign : sign? c = some t) (cs : List Char) :
    tokens (c :: cs) = (tokens cs).map (t :: ·) := by
  have other : c ≠ '\n' ∧ c ≠ '\r' ∧ c ≠ ' ' ∧ c ≠ '\t' ∧ c ≠ '#' ∧ c ≠ '"' ∧ c ≠ '\'' := by
    refine ⟨?_, ?_, ?_, ?_, ?_, ?_, ?_⟩ <;> (rintro rfl; simp [sign?] at sign)
  rw [tokens]
  simp [isGap, other, sign]

theorem tokens_blank {cs : List Char} (ends : ∀ c, cs.head? = some c → isGap c = false) :
    tokens (' ' :: cs) = (tokens cs).map (.gap [' '] :: ·) := by
  have none : cs.takeWhile isGap = [] ∧ cs.dropWhile isGap = cs := by
    cases cs with
    | nil => exact ⟨rfl, rfl⟩
    | cons c cs => simp [ends c rfl]
  have blank : isGap ' ' = true := rfl
  rw [tokens]
  simp [blank, none]

/-- A value on its line does not begin with a blank. -/
theorem head?_leafText {v : Json} (h : Leaf v) (rest : List Char) :
    ∀ c, (leafText v ++ rest).head? = some c → isGap c = false := by
  have shown {q : Char} {cs : List Char} (same : leafText v = q :: cs) (plain : isGap q = false) :
      ∀ c, (leafText v ++ rest).head? = some c → isGap c = false := by
    rintro c first
    rw [same] at first
    exact Option.some.inj first ▸ plain
  cases h with
  | string s =>
    have quoted : ∃ q cs, quotedText s = q :: cs ∧ isGap q = false := by
      unfold quotedText
      dsimp only
      repeat' split
      all_goals exact ⟨_, _, rfl, by decide⟩
    obtain ⟨q, cs, same, plain⟩ := quoted
    exact shown same plain
  | @number n small =>
    obtain ⟨c, cs, digits⟩ := List.exists_cons_of_ne_nil (Nat.toDigits_ne_nil (b := 10) (n := n))
    have digit : Text.isDigit c = true := isDigit_of_mem_toDigits (digits ▸ List.mem_cons_self)
    refine shown ((leafText_ofNat n).trans digits) ?_
    cases gap : isGap c with
    | false => rfl
    | true =>
      simp only [isGap, Bool.or_eq_true, decide_eq_true_eq] at gap
      rcases gap with rfl | rfl <;> contradiction

theorem header?_append {ts r : List Token} {path : List String} (d : Document)
    (keys : ∀ t ∈ ts, isKeyToken t = true ∧ isGapToken t = false)
    (parts : keyParts? ts = some path) :
    header? false d (ts ++ .closeBracket :: .newline :: r) =
      (openTable false path d.members).map fun ms => (⟨ms, path⟩, r) := by
  have own : ts.filter (!isGapToken ·) = ts :=
    List.filter_eq_self.2 fun t mem => by simp [keys t mem]
  have key := key?_append (r := .closeBracket :: .newline :: r) (fun t mem => (keys t mem).1)
    (by rintro t ⟨⟩; rfl) (own.symm ▸ parts)
  have ends : lineEnd? (.newline :: r) = some r := rfl
  simp only [header?, key, Option.bind_eq_bind, Option.bind_some, ends]
  cases openTable false path d.members <;> rfl

theorem pair?_cons {t u : Token} {k : String} {v : Json} {r : List Token} (d : Document)
    (part : keyPart? t = some k) (gap : isGapToken u = false)
    (value : value? (u :: .newline :: r) = some (v, ⟨.newline :: r, Nat.lt_add_one _⟩)) :
    pair? d (t :: .gap [' '] :: .equals :: .gap [' '] :: u :: .newline :: r) =
      (changeAt (addValue [k] v) d.here d.members).map fun ms => ({ d with members := ms }, r) := by
  obtain ⟨keyToken, keyGap⟩ := isKeyToken_of_keyPart? part
  have parts : keyParts? ([t, .gap [' ']].filter (!isGapToken ·)) = some [k] := by
    have blank : isGapToken (.gap [' ']) = true := rfl
    simp only [List.filter, keyGap, blank]
    simp [keyParts?, part]
  have keys : ∀ t' ∈ [t, .gap [' ']], isKeyToken t' = true := by
    rintro t' (_ | ⟨_, _ | ⟨_, ⟨⟩⟩⟩)
    · exact keyToken
    · rfl
  have key : key? (t :: .gap [' '] :: .equals :: .gap [' '] :: u :: .newline :: r) =
      some ([k], ⟨.equals :: .gap [' '] :: u :: .newline :: r, by simp⟩) :=
    key?_append (r := .equals :: .gap [' '] :: u :: .newline :: r) keys (by rintro t ⟨⟩; rfl) parts
  have spaced :
      (Token.gap [' '] :: u :: .newline :: r).dropWhile isGapToken = u :: .newline :: r := by
    have blank : isGapToken (.gap [' ']) = true := rfl
    rw [List.dropWhile_cons_of_pos blank, List.dropWhile_cons_of_neg (by simp [gap])]
  have ends : lineEnd? (.newline :: r) = some r := rfl
  simp only [pair?, key, Option.bind_eq_bind, Option.bind_some, afterEquals?, spaced, value, ends]
  cases changeAt (addValue [k] v) d.here d.members <;> rfl

theorem readLines_header {t : Token} (first : isKeyToken t = true) (n : Nat) (d : Document)
    (r : List Token) : readLines (n + 1) d (.openBracket :: t :: r) =
      (header? false d (t :: r)).bind fun (d, r) => readLines n d r := by
  cases t <;> first | rfl | contradiction

theorem readLines_pair {t : Token} {k : String} (part : keyPart? t = some k) (n : Nat)
    (d : Document) (r : List Token) : readLines (n + 1) d (t :: r) =
      (pair? d (t :: r)).bind fun (d, r) => readLines n d r := by
  cases t <;> first | rfl | contradiction

/-- A line is read as what it does, in front of a rest that is read as `f` says. -/
theorem reads_line {l : Line} (plain : l.Plain) (rest : List Char) :
    ∃ ts, ts ≠ [] ∧ tokens (l.chars ++ rest) = (tokens rest).map (ts ++ ·) ∧
      ∀ (f : Document → Option Document) (r : List Token) (n : Nat),
        (∀ d m, n ≤ m → readLines m d r = f d) →
          ∀ d m, n ≤ m → readLines (m + 1) d (ts ++ r) = (l.apply d).bind f := by
  cases plain with
  | blank =>
    refine ⟨[.newline], by simp, tokens_newline rest, fun f r n reads d m le => ?_⟩
    exact reads d (m + 1) (by omega)
  | @header path ne =>
    obtain ⟨ts, parts, some, keys, read⟩ := tokens_pathText ne
    refine ⟨.openBracket :: ts ++ [.closeBracket, .newline], by simp, ?_,
      fun f r n reads d m le => ?_⟩
    · have text : (Line.header path).chars ++ rest =
          '[' :: (pathText path ++ ']' :: '\n' :: rest) := by simp [Line.chars]
      rw [text, tokens_sign (t := .openBracket) rfl, read _ (stops_of_sign (by decide) _),
        tokens_sign (t := .closeBracket) rfl, tokens_newline]
      simp [Function.comp_def]
    · obtain ⟨t, ts, rfl⟩ := List.exists_cons_of_ne_nil some
      have first := (keys t List.mem_cons_self).1
      have header := header?_append (r := r) d keys parts
      simp only [List.cons_append, List.append_assoc, List.nil_append] at header ⊢
      rw [readLines_header first, header, Line.apply]
      cases openTable false path d.members with
      | none => rfl
      | some ms => exact reads _ m le
  | @pair k v leaf =>
    obtain ⟨t, part, read⟩ := tokens_keyText k
    obtain ⟨u, readValue, gap, value⟩ :=
      tokens_leafText leaf (stops_of_sign (c := '\n') (by decide) rest)
    refine ⟨[t, .gap [' '], .equals, .gap [' '], u, .newline], by simp, ?_,
      fun f r n reads d m le => ?_⟩
    · have text : (Line.pair k v).chars ++ rest =
          keyText k ++ ' ' :: '=' :: ' ' :: (leafText v ++ '\n' :: rest) := by simp [Line.chars]
      rw [text, read _ (stops_of_sign (by decide) _), tokens_blank (by rintro c ⟨⟩; rfl),
        tokens_sign (t := .equals) rfl, tokens_blank (head?_leafText leaf _), readValue,
        tokens_newline]
      simp [Function.comp_def]
    · simp only [List.cons_append, List.nil_append]
      rw [readLines_pair part, pair?_cons d part gap (value r), Line.apply]
      cases changeAt (addValue [k] v) d.here d.members with
      | none => rfl
      | some ms => exact reads _ m le

/-- A text made of lines is read line by line. -/
theorem reads_lines {ls : List Line} (plain : ∀ l ∈ ls, l.Plain) :
    ∃ ts, tokens (ls.flatMap Line.chars) = some ts ∧ ls.length ≤ ts.length ∧
      ∀ d n, ls.length < n → readLines n d ts = ls.foldlM Line.apply d := by
  induction ls with
  | nil =>
    refine ⟨[], by simp [tokens], Nat.le_refl 0, fun d n lt => ?_⟩
    obtain ⟨n, rfl⟩ := Nat.exists_eq_succ_of_ne_zero (Nat.ne_of_gt lt)
    rfl
  | cons l ls ih =>
    obtain ⟨first, plain⟩ := List.forall_mem_cons.1 plain
    obtain ⟨ts, read, length, reads⟩ := ih plain
    obtain ⟨own, ne, readOwn, readsOwn⟩ := reads_line first (ls.flatMap Line.chars)
    refine ⟨own ++ ts, ?_, ?_, fun d n lt => ?_⟩
    · rw [List.flatMap_cons, readOwn, read]
      rfl
    · have some := List.length_pos_iff.2 ne
      simp only [List.length_append, List.length_cons]
      omega
    · rw [List.length_cons] at lt
      obtain ⟨n, rfl⟩ := Nat.exists_eq_succ_of_ne_zero (Nat.ne_zero_of_lt lt)
      rw [List.foldlM_cons]
      exact readsOwn (fun d => ls.foldlM Line.apply d) ts (ls.length + 1)
        (fun d m le => reads d m le) d n (by omega)

end BackupAdmin.Toml
