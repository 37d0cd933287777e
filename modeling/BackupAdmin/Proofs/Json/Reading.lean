import BackupAdmin.Json.Printer
import BackupAdmin.Json.Reader
import BackupAdmin.Proofs.Json.Records
import BackupAdmin.Proofs.Text.Splitting

/-! JSON text that is read back. Main statements: the text of a value on one line is cut into the
tokens of that value, and from these tokens the reader puts the value together again, when it has
no numbers with a point and is not nested too deep. -/
namespace BackupAdmin.Json
open Text

/-! ### Strings -/

/-- A piece that is read in front of other pieces. -/
def withPiece (p : Piece) : List Piece × List Char → List Piece × List Char :=
  fun (ps, rest) => (p :: ps, rest)

theorem stringPieces_plain {c : Char} (quote : c ≠ '"') (backslash : c ≠ '\\')
    (plain : ¬ c.toNat < 0x20) (cs : List Char) :
    stringPieces (c :: cs) = (stringPieces cs).map (withPiece (.char c)) := by
  rw [stringPieces, if_neg plain]
  · cases stringPieces cs <;> rfl
  · exact quote
  · exact fun _ _ _ _ _ same _ => backslash same
  · exact fun _ _ same _ => backslash same

theorem stringPieces_escape {e c : Char} (unit : e ≠ 'u') (escape : escaped? e = some c)
    (cs : List Char) :
    stringPieces ('\\' :: e :: cs) = (stringPieces cs).map (withPiece (.char c)) := by
  rw [stringPieces, escape]
  · cases stringPieces cs <;> rfl
  · intro a b c d r same
    exact absurd same unit

theorem stringPieces_unit {a b c d : Char} {n : Nat} (unit : unit? a b c d = some n)
    (cs : List Char) :
    stringPieces ('\\' :: 'u' :: a :: b :: c :: d :: cs) =
      (stringPieces cs).map (withPiece (.unit n)) := by
  rw [stringPieces, unit]
  cases stringPieces cs <;> rfl

/-- A unit that is no surrogate is a character of its own. -/
theorem joinPieces_unit {n : Nat} (small : n < 0xD800) (ps : List Piece) :
    joinPieces (.unit n :: ps) = (joinPieces ps).map (Char.ofNat n :: ·) := by
  cases ps with
  | nil => simp [joinPieces]; omega
  | cons p ps =>
    cases p with
    | char c => simp [joinPieces]; omega
    | unit m =>
      have high : (decide (0xD800 ≤ n) && decide (n < 0xDC00)) = false := by simp; omega
      have low : (decide (0xDC00 ≤ n) && decide (n < 0xE000)) = false := by simp; omega
      simp [joinPieces, high, low]

/-- A character in quotes is read as one piece of a text, which stands for it. -/
theorem stringPieces_quotedChar (c : Char) : ∃ p : Piece,
    (∀ cs, stringPieces (quotedChar c ++ cs) = (stringPieces cs).map (withPiece p)) ∧
      ∀ ps, joinPieces (p :: ps) = (joinPieces ps).map (c :: ·) := by
  have escaped {e : Char} (text : quotedChar c = ['\\', e]) (unit : e ≠ 'u')
      (escape : escaped? e = some c) : ∃ p : Piece,
      (∀ cs, stringPieces (quotedChar c ++ cs) = (stringPieces cs).map (withPiece p)) ∧
        ∀ ps, joinPieces (p :: ps) = (joinPieces ps).map (c :: ·) :=
    ⟨.char c, fun cs => text ▸ stringPieces_escape unit escape cs, fun _ => rfl⟩
  by_cases quote : c = '"'
  · subst quote
    exact escaped rfl (by decide) rfl
  by_cases backslash : c = '\\'
  · subst backslash
    exact escaped rfl (by decide) rfl
  by_cases newline : c = '\n'
  · subst newline
    exact escaped rfl (by decide) rfl
  by_cases return_ : c = '\r'
  · subst return_
    exact escaped rfl (by decide) rfl
  by_cases tab : c = '\t'
  · subst tab
    exact escaped rfl (by decide) rfl
  by_cases back : c = '\x08'
  · subst back
    exact escaped rfl (by decide) rfl
  by_cases feed : c = '\x0c'
  · subst feed
    exact escaped rfl (by decide) rfl
  by_cases control : c.toNat < 0x20
  · have units : ∀ n < 0x20, unit? '0' '0' (Nat.digitChar (n / 16)) (Nat.digitChar (n % 16)) =
        some n := by decide
    refine ⟨.unit c.toNat, fun cs => ?_, fun ps => ?_⟩
    · simp only [quotedChar, if_neg quote, if_neg backslash, if_neg newline, if_neg return_,
        if_neg tab, if_neg back, if_neg feed, if_pos control]
      exact stringPieces_unit (units _ control) cs
    · rw [joinPieces_unit (by omega), Char.ofNat_toNat]
  · refine ⟨.char c, fun cs => ?_, fun _ => rfl⟩
    simp only [quotedChar, if_neg quote, if_neg backslash, if_neg newline, if_neg return_,
      if_neg tab, if_neg back, if_neg feed, if_neg control]
    exact stringPieces_plain quote backslash control cs

theorem stringPieces_quoted (cs rest : List Char) :
    ∃ ps, stringPieces (cs.flatMap quotedChar ++ '"' :: rest) = some (ps, rest) ∧
      joinPieces ps = some cs := by
  induction cs with
  | nil => exact ⟨[], by simp [stringPieces], rfl⟩
  | cons c cs ih =>
    obtain ⟨ps, read, join⟩ := ih
    obtain ⟨p, step, joined⟩ := stringPieces_quotedChar c
    refine ⟨p :: ps, ?_, ?_⟩
    · rw [List.flatMap_cons, List.append_assoc, step, read]
      rfl
    · rw [joined, join, Option.map_some]

/-- Behind a quote the pieces of a string are read. -/
theorem tokens_quote (cs : List Char) :
    tokens ('"' :: cs) = (stringPieces cs).bind fun x =>
      (tokens x.2).map (.string ((joinPieces x.1).map String.ofList) :: ·) := by
  have no_gap : isGap '"' = false := by decide
  rw [tokens]
  simp only [no_gap, Bool.false_eq_true, Char.reduceEq, if_false, if_true]
  split
  · next failed => rw [failed, Option.bind_none]
  · next ps rest read => rw [read, Option.bind_some]

/-- A quoted text is one token. -/
theorem tokens_quoted (s : String) (rest : List Char) :
    tokens (quoted s ++ rest) = (tokens rest).map (.string (some s) :: ·) := by
  obtain ⟨ps, read, join⟩ := stringPieces_quoted s.toList rest
  have text : quoted s ++ rest = '"' :: (s.toList.flatMap quotedChar ++ '"' :: rest) := by
    simp [quoted]
  rw [text, tokens_quote, read, Option.bind_some, join, Option.map_some, String.ofList_toList]

/-! ### Numbers -/

theorem le_ofDigitChars (cs : List Char) (m : Nat) : m ≤ Nat.ofDigitChars 10 cs m := by
  induction cs generalizing m with
  | nil => exact Nat.le_refl m
  | cons c cs ih =>
    rw [Nat.ofDigitChars_cons]
    have rest := ih (10 * m + (c.toNat - '0'.toNat))
    omega

/-- Digits are accumulated to their number when it fits a word. -/
theorem accumulate_eq {cs : List Char} {m : Nat}
    (small : Nat.ofDigitChars 10 cs m < UInt64.size) :
    JsonNumber.accumulate m cs = (Nat.ofDigitChars 10 cs m, []) := by
  induction cs generalizing m with
  | nil => rfl
  | cons c cs ih =>
    have zero : '0'.toNat = 48 := rfl
    rw [Nat.ofDigitChars_cons, Nat.mul_comm, zero] at small ⊢
    have below := le_ofDigitChars cs (m * 10 + (c.toNat - 48))
    have next : ¬ UInt64.size ≤ m * 10 + (c.toNat - 48) := by omega
    simp only [JsonNumber.accumulate, if_neg next]
    exact ih small

theorem accumulate_toDigits {n : Nat} (small : n < UInt64.size) :
    JsonNumber.accumulate 0 (Nat.toDigits 10 n) = (n, []) := by
  have number : Nat.ofDigitChars 10 (Nat.toDigits 10 n) 0 = n := Nat.ofDigitChars_ten_toDigits
  rw [accumulate_eq (by rwa [number]), number]

/-- The digits of a number are a literal without a sign, and one with it. -/
theorem literal?_toDigits (n : Nat) :
    JsonNumber.literal? (Nat.toDigits 10 n) = some ⟨false, Nat.toDigits 10 n, none, none⟩ ∧
      JsonNumber.literal? ('-' :: Nat.toDigits 10 n) =
        some ⟨true, Nat.toDigits 10 n, none, none⟩ := by
  have digits : ∀ c ∈ Nat.toDigits 10 n, isDigit c = true := fun c => isDigit_of_mem_toDigits
  have taken : (Nat.toDigits 10 n).takeWhile isDigit = Nat.toDigits 10 n := by
    simpa using takeWhile_append_stop digits (nofun : ∀ c ∈ [].head?, isDigit c = false)
  have dropped : (Nat.toDigits 10 n).dropWhile isDigit = [] := by
    simpa using dropWhile_append_stop digits (nofun : ∀ c ∈ [].head?, isDigit c = false)
  have some_digits : (Nat.toDigits 10 n).isEmpty = false :=
    List.isEmpty_eq_false_iff.2 Nat.toDigits_ne_nil
  have no_zeros : (decide ((Nat.toDigits 10 n).head? = some '0') &&
      decide (1 < (Nat.toDigits 10 n).length)) = false := by
    cases n with
    | zero => decide
    | succ n => simp [head?_toDigits (Nat.succ_pos n)]
  constructor
  · unfold JsonNumber.literal?
    split
    next negative r same =>
      split at same
      · next minus => exact absurd (digits '-' (minus ▸ List.mem_cons_self)) (by decide)
      · obtain ⟨rfl, rfl⟩ := Prod.mk.inj same
        simp only [taken, dropped, some_digits, no_zeros]
        rfl
  · simp only [JsonNumber.literal?, taken, dropped, some_digits, no_zeros]
    rfl

/-- A whole number of 64 bits, with a sign or without. -/
def InWord (n : Int) : Prop := Int64.minValue.toInt ≤ n ∧ n < UInt64.size

theorem exists_literal {n : Int} (word : InWord n) :
    ∃ l, JsonNumber.literal? (toString n).toList = some l ∧ l.value = some (.int n) := by
  obtain ⟨low, high⟩ := word
  have least : Int64.minValue.toInt = -(UInt64.size / 2 : Nat) := rfl
  have small : n.natAbs < UInt64.size := by omega
  rw [toList_toString]
  split
  · next negative =>
    refine ⟨_, (literal?_toDigits n.natAbs).2, ?_⟩
    have inside : (decide (n.natAbs = 0) || decide (UInt64.size / 2 < n.natAbs)) = false := by
      simp
      omega
    have back : -(n.natAbs : Int) = n := by omega
    simp only [JsonNumber.Literal.value, accumulate_toDigits small, inside, back]
    rfl
  · next nonneg =>
    refine ⟨_, (literal?_toDigits n.natAbs).1, ?_⟩
    have back : (n.natAbs : Int) = n := by omega
    simp only [JsonNumber.Literal.value, accumulate_toDigits small, back]
    rfl

/-- What is written behind a value goes on neither with a number nor with a word. -/
def Stops (rest : List Char) : Prop :=
  ∀ c ∈ rest.head?, isNumberChar c = false ∧ c.isAlpha = false

theorem tokens_int {n : Int} (word : InWord n) {rest : List Char} (stops : Stops rest) :
    tokens ((toString n).toList ++ rest) = (tokens rest).map (.number (some (.int n)) :: ·) := by
  obtain ⟨l, literal, value⟩ := exists_literal word
  have text : ∃ c cs, (toString n).toList = c :: cs ∧ (isDigit c || c = '-') = true ∧
      ∀ d ∈ cs, isNumberChar d = true := by
    have digits : ∀ c ∈ Nat.toDigits 10 n.natAbs, isDigit c = true :=
      fun c => isDigit_of_mem_toDigits
    have numeric {c : Char} (digit : isDigit c = true) : isNumberChar c = true := by
      simp [isNumberChar, digit]
    rw [toList_toString]
    split
    · exact ⟨'-', _, rfl, by decide, fun d mem => numeric (digits d mem)⟩
    · obtain ⟨c, cs, eq⟩ :=
        List.exists_cons_of_ne_nil (Nat.toDigits_ne_nil (b := 10) (n := n.natAbs))
      rw [eq] at digits ⊢
      obtain ⟨first, digits⟩ := List.forall_mem_cons.1 digits
      exact ⟨c, cs, rfl, by simp [first], fun d mem => numeric (digits d mem)⟩
  obtain ⟨c, cs, eq, start, numeric⟩ := text
  have taken := takeWhile_append_stop numeric fun d mem => (stops d mem).1
  have dropped := dropWhile_append_stop numeric fun d mem => (stops d mem).1
  rw [eq] at literal ⊢
  have other (d : Char) (no_start : isDigit d = false ∧ d ≠ '-') : c ≠ d := by
    rintro rfl
    simp [no_start] at start
  have no_gap : isGap c = false := by
    simp only [isGap, Bool.or_eq_false_iff, beq_eq_false_iff_ne]
    exact ⟨⟨⟨other _ (by decide), other _ (by decide)⟩, other _ (by decide)⟩, other _ (by decide)⟩
  rw [List.cons_append, tokens, no_gap, if_neg (by decide), if_neg (other _ (by decide)),
    if_neg (other _ (by decide)), if_neg (other _ (by decide)), if_neg (other _ (by decide)),
    if_neg (other _ (by decide)), if_neg (other _ (by decide)), if_neg (other _ (by decide)),
    if_pos start, taken, dropped]
  simp only [literal, value]

theorem tokens_word {w : List Char} {t : Token} (word : word? w = some t) {rest : List Char}
    (stops : Stops rest) : tokens (w ++ rest) = (tokens rest).map (t :: ·) := by
  have words : w ∈ ["null".toList, "true".toList, "false".toList] := by
    unfold word? at word
    split at word
    · next same => simp [same]
    split at word
    · next same => simp [same]
    split at word
    · next same => simp [same]
    · contradiction
  have letters : ∀ v ∈ ["null".toList, "true".toList, "false".toList], ∃ c cs, v = c :: cs ∧
      c ∈ ['n', 't', 'f'] ∧ ∀ d ∈ cs, d.isAlpha = true := by
    simp
  obtain ⟨c, cs, rfl, start, alpha⟩ := letters w words
  have taken := takeWhile_append_stop alpha fun d mem => (stops d mem).2
  have dropped := dropWhile_append_stop alpha fun d mem => (stops d mem).2
  have starts : ∀ c ∈ ['n', 't', 'f'], isGap c = false ∧ c ≠ '\x7b' ∧ c ≠ '\x7d' ∧ c ≠ '[' ∧
      c ≠ ']' ∧ c ≠ ',' ∧ c ≠ ':' ∧ c ≠ '"' ∧ (isDigit c || c = '-') = false ∧ c.isAlpha = true := by
    rw [List.forall_mem_cons, List.forall_mem_cons, List.forall_mem_singleton]
    decide
  obtain ⟨h₁, h₂, h₃, h₄, h₅, h₆, h₇, h₈, h₉, h₁₀⟩ := starts c start
  rw [List.cons_append, tokens, h₁, if_neg (by decide), if_neg h₂, if_neg h₃, if_neg h₄, if_neg h₅,
    if_neg h₆, if_neg h₇, if_neg h₈, h₉, if_neg (by decide), if_pos h₁₀, taken, dropped]
  simp only [word]

/-! ### Values -/

/-- Values without numbers that have a point, nested at most so deep. -/
inductive Plain : Nat → Json → Prop
  | null {n : Nat} : Plain n .null
  | bool {n : Nat} (b : Bool) : Plain n (.bool b)
  | int {n : Nat} {i : Int} (word : InWord i) : Plain n (.ofInt i)
  | string {n : Nat} (s : String) : Plain n (.string s)
  | array {n : Nat} {items : List Json} (inner : ∀ v ∈ items, Plain n v) :
    Plain (n + 1) (.array items)
  | object {n : Nat} {ms : List (String × Json)} (inner : ∀ m ∈ ms, Plain n m.2) :
    Plain (n + 1) (.object ms)

mutual
/-- The tokens that a value is written in. -/
def spelled : Json → List Token
  | .null | .unreadable => [.null]
  | .bool b => [.bool b]
  | .number n => [.number (some n)]
  | .string s => [.string (some s)]
  | .array items => .openBracket :: (spelledItems items ++ [.closeBracket])
  | .object ms => .openBrace :: (spelledMembers ms ++ [.closeBrace])
def spelledItems : List Json → List Token
  | [] => []
  | v :: vs => spelled v ++ (if vs.isEmpty then [] else .comma :: spelledItems vs)
def spelledMembers : List (String × Json) → List Token
  | [] => []
  | (k, v) :: ms => .string (some k) :: .colon :: (spelled v ++
      (if ms.isEmpty then [] else .comma :: spelledMembers ms))
end

/-- The characters that are tokens by themselves. -/
def marks : List (Char × Token) :=
  [('\x7b', .openBrace), ('\x7d', .closeBrace), ('[', .openBracket), (']', .closeBracket),
    (',', .comma), (':', .colon)]

theorem tokens_mark {c : Char} {t : Token} (mark : (c, t) ∈ marks) (rest : List Char) :
    tokens (c :: rest) = (tokens rest).map (t :: ·) := by
  simp only [marks, List.mem_cons, Prod.mk.injEq, List.not_mem_nil, or_false] at mark
  rcases mark with ⟨rfl, rfl⟩ | ⟨rfl, rfl⟩ | ⟨rfl, rfl⟩ | ⟨rfl, rfl⟩ | ⟨rfl, rfl⟩ | ⟨rfl, rfl⟩ <;>
    rw [tokens] <;> simp [isGap]

theorem stops_mark {c : Char} {t : Token} (mark : (c, t) ∈ marks) (rest : List Char) :
    Stops (c :: rest) := by
  rintro d ⟨⟩
  simp only [marks, List.mem_cons, Prod.mk.injEq, List.not_mem_nil, or_false] at mark
  rcases mark with ⟨rfl, -⟩ | ⟨rfl, -⟩ | ⟨rfl, -⟩ | ⟨rfl, -⟩ | ⟨rfl, -⟩ | ⟨rfl, -⟩ <;> decide

/-- The text is cut into these tokens, whatever stops it behind. -/
def Cuts (cs : List Char) (ts : List Token) : Prop :=
  ∀ rest, Stops rest → tokens (cs ++ rest) = (tokens rest).map (ts ++ ·)

namespace Cuts
variable {as bs : List Char} {ts us : List Token} {c : Char} {t : Token}

theorem nil : Cuts [] [] := fun _ _ => by simp

theorem mark (mark : (c, t) ∈ marks) (cuts : Cuts bs us) : Cuts (c :: bs) (t :: us) := by
  intro rest stops
  rw [List.cons_append, tokens_mark mark, cuts rest stops, Option.map_map]
  rfl

/-- Texts with a mark between them. -/
theorem join (first : Cuts as ts) (mark : (c, t) ∈ marks) (second : Cuts bs us) :
    Cuts (as ++ c :: bs) (ts ++ t :: us) := by
  intro rest stops
  rw [List.append_assoc, List.cons_append, first _ (stops_mark mark _), tokens_mark mark,
    second rest stops]
  simp [Function.comp_def]

theorem quoted (s : String) (cuts : Cuts bs us) :
    Cuts (Json.quoted s ++ bs) (.string (some s) :: us) := by
  intro rest stops
  rw [List.append_assoc, tokens_quoted, cuts rest stops, Option.map_map]
  rfl

end Cuts

theorem cuts_items {items : List Json}
    (cuts : ∀ v ∈ items, Cuts (compactChars v) (spelled v)) :
    Cuts (compactItems items) (spelledItems items) := by
  induction items with
  | nil => exact .nil
  | cons v vs ih =>
    obtain ⟨first, cuts⟩ := List.forall_mem_cons.1 cuts
    cases vs with
    | nil => simpa [compactItems, spelledItems] using first
    | cons w vs => exact first.join (by simp [marks]) (ih cuts)

theorem cuts_members {ms : List (String × Json)}
    (cuts : ∀ m ∈ ms, Cuts (compactChars m.2) (spelled m.2)) :
    Cuts (compactMembers ms) (spelledMembers ms) := by
  induction ms with
  | nil => exact .nil
  | cons m ms ih =>
    obtain ⟨first, cuts⟩ := List.forall_mem_cons.1 cuts
    have member : Cuts (quoted m.1 ++ ':' :: compactChars m.2)
        (.string (some m.1) :: .colon :: spelled m.2) :=
      (first.mark (by simp [marks])).quoted m.1
    cases ms with
    | nil => simpa [compactMembers, spelledMembers] using member
    | cons l ms => exact member.join (by simp [marks]) (ih cuts)

/-- The text of a value is cut into its tokens. -/
theorem cuts_compactChars {n : Nat} {v : Json} (plain : Plain n v) :
    Cuts (compactChars v) (spelled v) := by
  induction plain with
  | null => exact fun rest stops => tokens_word rfl stops
  | bool b => cases b <;> exact fun rest stops => tokens_word rfl stops
  | int word => exact fun rest stops => tokens_int word stops
  | string s => exact fun rest _ => tokens_quoted s rest
  | array inner ih => exact ((cuts_items ih).join (by simp [marks]) .nil).mark (by simp [marks])
  | object inner ih => exact ((cuts_members ih).join (by simp [marks]) .nil).mark (by simp [marks])

theorem tokens_compactChars {n : Nat} {v : Json} (plain : Plain n v) :
    tokens (compactChars v) = some (spelled v) := by
  have read := cuts_compactChars plain [] (by simp [Stops])
  simpa [tokens] using read

/-! ### The reader -/

theorem Reader.run_append (r : Reader) (ts us : List Token) :
    r.run (ts ++ us) = (r.run ts).bind (·.run us) := by
  induction ts generalizing r with
  | nil => rfl
  | cons t ts ih =>
    rw [List.cons_append, run, run]
    cases r.step t with
    | none => rfl
    | some r => exact ih r

theorem Reader.run_singleton (r : Reader) (t : Token) : r.run [t] = r.step t := by
  rw [run]
  cases r.step t <;> rfl

/-- From the tokens of the value the reader gets the value, inside any containers. -/
def Reads (v : Json) (depth : Nat) : Prop :=
  ∀ stack, stack.length + depth < depthLimit →
    Reader.run ⟨.value, stack, none⟩ (spelled v) = Reader.put v stack

theorem run_firstItem (v : Json) (vs : List Json) (stack : List Open) :
    Reader.run ⟨.firstItem, stack, none⟩ (spelledItems (v :: vs)) =
      Reader.run ⟨.value, stack, none⟩ (spelledItems (v :: vs)) := by
  cases v <;> rfl

theorem run_items {depth : Nat} {v : Json} {vs : List Json} (reads : ∀ w ∈ v :: vs, Reads w depth)
    (done : List Json) {stack : List Open} (deep : stack.length + 1 + depth < depthLimit) :
    Reader.run ⟨.value, .array done :: stack, none⟩ (spelledItems (v :: vs)) =
      some ⟨.separator, .array ((v :: vs).reverse ++ done) :: stack, none⟩ := by
  induction vs generalizing v done with
  | nil =>
    have first := reads v List.mem_cons_self (.array done :: stack) deep
    rw [spelledItems, List.isEmpty_nil, if_pos rfl, List.append_nil]
    exact first
  | cons w vs ih =>
    obtain ⟨first, reads⟩ := List.forall_mem_cons.1 reads
    have first := first (.array done :: stack) deep
    have rest := ih reads (v :: done)
    have tokens_eq :
        spelledItems (v :: w :: vs) = spelled v ++ .comma :: spelledItems (w :: vs) := rfl
    rw [tokens_eq, Reader.run_append, first]
    refine Eq.trans ?_ (rest.trans (by simp))
    rfl

theorem run_members {depth : Nat} {m : String × Json} {ms : List (String × Json)}
    (reads : ∀ l ∈ m :: ms, Reads l.2 depth) (done : List (Option String × Json))
    {stack : List Open} (deep : stack.length + 1 + depth < depthLimit) :
    Reader.run ⟨.key, .object done :: stack, none⟩ (spelledMembers (m :: ms)) =
      some ⟨.separator, .object (((m :: ms).map fun l => (some l.1, l.2)).reverse ++ done) :: stack,
        none⟩ := by
  induction ms generalizing m done with
  | nil =>
    have first := reads m List.mem_cons_self (.member done (some m.1) :: stack) deep
    have tokens_eq : spelledMembers [m] = .string (some m.1) :: .colon :: spelled m.2 := by
      simp [spelledMembers]
    rw [tokens_eq]
    exact first
  | cons l ms ih =>
    obtain ⟨first, reads⟩ := List.forall_mem_cons.1 reads
    have first := first (.member done (some m.1) :: stack) deep
    have rest := ih reads ((some m.1, m.2) :: done)
    have tokens_eq : spelledMembers (m :: l :: ms) =
        .string (some m.1) :: .colon :: (spelled m.2 ++ .comma :: spelledMembers (l :: ms)) := rfl
    have step : Reader.run ⟨.key, .object done :: stack, none⟩
        (.string (some m.1) :: .colon :: (spelled m.2 ++ .comma :: spelledMembers (l :: ms))) =
        Reader.run ⟨.value, .member done (some m.1) :: stack, none⟩
          (spelled m.2 ++ .comma :: spelledMembers (l :: ms)) := rfl
    rw [tokens_eq, step, Reader.run_append, first]
    refine Eq.trans ?_ (rest.trans (by simp))
    rfl

theorem ofMembers_reverse (ms : List (String × Json)) :
    ofMembers ((ms.map fun l => (some l.1, l.2)).reverse) = .object ms := by
  simp [ofMembers, Function.comp_def]

theorem closed_eq {n : Nat} (shallow : n + 1 < depthLimit) (v : Json) : closed n v = v :=
  if_neg (Nat.not_le.2 shallow)

theorem reads_of_plain {n : Nat} {v : Json} (plain : Plain n v) : Reads v n := by
  induction plain with
  | null | bool | int | string => exact fun stack _ => Reader.run_singleton ⟨.value, stack, none⟩ _
  | @array n items inner ih =>
    intro stack deep
    have shallow : stack.length + 1 < depthLimit := by omega
    have close (done : List Json) :
        Reader.run ⟨.separator, .array done :: stack, none⟩ [.closeBracket] =
          Reader.put (.array done.reverse) stack := by
      rw [Reader.run_singleton, ← closed_eq shallow (.array done.reverse)]
      rfl
    have opened : Reader.run ⟨.value, stack, none⟩ (spelled (.array items)) =
        Reader.run ⟨.firstItem, .array [] :: stack, none⟩
          (spelledItems items ++ [.closeBracket]) := rfl
    rw [opened]
    cases items with
    | nil => exact close []
    | cons v vs =>
      rw [Reader.run_append, run_firstItem, run_items ih [] (by omega), Option.bind_some, close,
        List.append_nil, List.reverse_reverse]
  | @object n ms inner ih =>
    intro stack deep
    have shallow : stack.length + 1 < depthLimit := by omega
    have close (done : List (Option String × Json)) :
        Reader.run ⟨.separator, .object done :: stack, none⟩ [.closeBrace] =
          Reader.put (ofMembers done) stack := by
      rw [Reader.run_singleton, ← closed_eq shallow (ofMembers done)]
      rfl
    have opened : Reader.run ⟨.value, stack, none⟩ (spelled (.object ms)) =
        Reader.run ⟨.firstKey, .object [] :: stack, none⟩
          (spelledMembers ms ++ [.closeBrace]) := rfl
    rw [opened]
    cases ms with
    | nil => exact close []
    | cons m ms =>
      have first : Reader.run ⟨.firstKey, .object [] :: stack, none⟩ (spelledMembers (m :: ms)) =
          Reader.run ⟨.key, .object [] :: stack, none⟩ (spelledMembers (m :: ms)) := rfl
      rw [Reader.run_append, first, run_members ih [] (by omega), Option.bind_some, close,
        List.append_nil, ofMembers_reverse]

/-- The text of a value is read as this value. -/
theorem read_compact {n : Nat} {v : Json} (plain : Plain n v) (deep : n < depthLimit) :
    read (compact v) = some v := by
  have reads := reads_of_plain plain [] (by simpa using deep)
  rw [read, compact, String.toList_ofList, tokens_compactChars plain]
  exact (bind_of_eq_some reads _).trans rfl

/-- A limit on the depth may be raised. -/
theorem Plain.mono {n m : Nat} {v : Json} (plain : Plain n v) (le : n ≤ m) : Plain m v := by
  induction plain generalizing m with
  | null => exact .null
  | bool b => exact .bool b
  | int word => exact .int word
  | string s => exact .string s
  | array inner ih =>
    obtain ⟨m, rfl⟩ := Nat.exists_eq_add_of_le' (Nat.lt_of_lt_of_le (Nat.succ_pos _) le)
    exact .array fun v mem => ih v mem (by omega)
  | object inner ih =>
    obtain ⟨m, rfl⟩ := Nat.exists_eq_add_of_le' (Nat.lt_of_lt_of_le (Nat.succ_pos _) le)
    exact .object fun l mem => ih l mem (by omega)

@[simp] theorem plain_string (n : Nat) (s : String) : Plain n (.string s) := .string s

@[simp] theorem plain_bool (n : Nat) (b : Bool) : Plain n (.bool b) := .bool b

theorem plain_textSlot {n : Nat} {s : String} {v : Json} (there : textSlot s = some v) :
    Plain n v := by
  obtain ⟨-, rfl⟩ : s ≠ "" ∧ .string s = v := by simpa [textSlot] using there
  exact .string s

theorem plain_listSlot {n : Nat} {ss : List String} {v : Json}
    (there : listSlot .string ss = some v) : Plain (n + 1) v := by
  obtain ⟨-, rfl⟩ : ss ≠ [] ∧ .array (ss.map .string) = v := by simpa [listSlot] using there
  exact .array (by simp)

/-- A record of plain slots. -/
theorem Plain.present {n : Nat} {slots : List (String × Option Json)}
    (inner : ∀ s ∈ slots, ∀ v ∈ s.2, Plain n v) : Plain (n + 1) (record (Json.present slots)) :=
  .object (forall_sortMembers fun _ mem => inner _ (mem_present.1 mem) _ rfl)

end BackupAdmin.Json
