import BackupAdmin.Proofs.Web.Path

/-! Addresses that are made of a base and a text behind it. Main statement: the path of the base
goes on with just this text when it can stand in a path as it is and the base has neither query nor
fragment, and otherwise it does not. -/
namespace BackupAdmin.Web.Url
open Text

/-! ### What is cleaned and taken apart -/

section
variable {cs rest : List Char} {scheme : String}

/-- What is left of the start of an address when it is cleaned. -/
def cleanedStart (cs : List Char) : List Char :=
  (cs.dropWhile (·.toNat ≤ 32)).filter fun c => c ≠ '\t' && c ≠ '\n' && c ≠ '\r'

/-- What is left of the end of an address when it is cleaned. -/
def cleanedEnd (cs : List Char) : List Char :=
  (dropEndWhile (·.toNat ≤ 32) cs).filter fun c => c ≠ '\t' && c ≠ '\n' && c ≠ '\r'

theorem cleaned_append (as bs : List Char) :
    cleaned (as ++ '/' :: bs) = cleanedStart as ++ '/' :: cleanedEnd bs := by
  have stop : decide ('/'.toNat ≤ 32) = false := by decide
  have kept : dropEndWhile (fun c => decide (c.toNat ≤ 32)) ('/' :: bs) ≠ [] := by
    rw [dropEndWhile_cons stop]
    exact List.cons_ne_nil _ _
  rw [cleaned, trimWhile, dropWhile_append_cons stop, dropEndWhile_append _ kept,
    dropEndWhile_cons stop, List.filter_append, List.filter_cons_of_pos (by decide)]
  rfl

/-- What is visible is neither a tab nor a line break. -/
theorem kept_of_visible {c : Char} (visible : 32 < c.toNat) :
    (c ≠ '\t' && c ≠ '\n' && c ≠ '\r' : Bool) = true := by
  have other {d : Char} (low : d.toNat ≤ 32) : c ≠ d := by
    rintro rfl
    exact absurd visible (Nat.not_lt.2 low)
  have tab := other (d := '\t') (by decide)
  have feed := other (d := '\n') (by decide)
  have turn := other (d := '\r') (by decide)
  simp [tab, feed, turn]

theorem cleanedEnd_eq_self (chars : ∀ c ∈ cs, isPathChar c = true) : cleanedEnd cs = cs := by
  have visible (c : Char) (mem : c ∈ cs) : 32 < c.toNat := by
    have kept := chars c mem
    rw [isPathChar, Bool.and_eq_true, Bool.and_eq_true, decide_eq_true_iff] at kept
    exact kept.1.1
  rw [cleanedEnd, dropEndWhile_eq_self, List.filter_eq_self]
  · exact fun c mem => kept_of_visible (visible c mem)
  · intro c last
    simpa using visible c (List.mem_of_mem_getLast? last)

theorem mem_cleanedStart_iff {c : Char} (visible : 32 < c.toNat) :
    c ∈ cleanedStart cs ↔ c ∈ cs := by
  rw [cleanedStart, List.mem_filter, and_iff_left (kept_of_visible visible),
    mem_dropWhile_iff (p := fun c => decide (c.toNat ≤ 32)) (by simpa using visible)]

theorem scheme?_append (as bs : List Char) :
    scheme? (as ++ '/' :: bs) = (scheme? as).map fun x => (x.1, x.2 ++ '/' :: bs) := by
  cases as with
  | nil => rfl
  | cons a as =>
    rw [List.cons_append, scheme?, scheme?, ← List.cons_append]
    split
    · rw [dropWhile_append_cons (by decide), takeWhile_append_cons (by decide)]
      cases List.dropWhile _ (a :: as) with
      | nil => rfl
      | cons c rest =>
        by_cases colon : c = ':'
        · rw [colon]
          rfl
        · simp [colon]
    · rfl

/-- What is no part of a scheme stands behind its colon. -/
theorem mem_iff_of_scheme? (found : scheme? cs = some (scheme, rest)) {c : Char}
    (other : (c.isAlphanum || c = '+' || c = '-' || c = '.') = false) (ne : c ≠ ':') :
    c ∈ rest ↔ c ∈ cs := by
  unfold scheme? at found
  dsimp only at found
  split at found
  · split at found
    · split at found
      · next dropped =>
        obtain ⟨-, rfl⟩ := Prod.mk.inj (Option.some.inj found)
        refine Iff.trans ?_ (mem_dropWhile_iff
          (p := fun c => c.isAlphanum || c = '+' || c = '-' || c = '.') other)
        rw [dropped, List.mem_cons, or_iff_right ne]
      · contradiction
    · contradiction
  · contradiction

/-- A slash in an address with a common scheme. -/
def isSlash (c : Char) : Bool := c = '/' || c = '\\'

/-- An address with a common scheme has its host and port behind the slashes. -/
theorem parse_common {s : String} (found : scheme? (cleaned s.toList) = some (scheme, rest))
    (common : isCommon scheme = true) :
    parse s = (authority scheme ((rest.dropWhile isSlash).takeWhile (!endsAuthority true ·))).map
      fun a => withRest ⟨scheme, a.1, a.2, [], none⟩
        ((rest.dropWhile isSlash).dropWhile (!endsAuthority true ·)) := by
  rw [parse, found]
  simp only [common, if_true, splitWhere]
  unfold isSlash
  cases authority scheme _ <;> rfl

theorem scheme_of_parse {s : String} {u : Url} (read : parse s = .ok u) :
    ∃ rest, scheme? (cleaned s.toList) = some (u.scheme, rest) := by
  unfold parse at read
  cases found : scheme? (cleaned s.toList) with
  | none =>
    rw [found] at read
    contradiction
  | some x =>
    rw [found] at read
    refine ⟨x.2, ?_⟩
    have scheme : x.1 = u.scheme := by
      dsimp only at read
      split at read
      · cases read
        rfl
      · cases part : authority x.1 _ with
        | error f =>
          rw [part] at read
          contradiction
        | ok a =>
          rw [part] at read
          cases read
          rfl
    rw [← scheme]

/-- Without a host there is no address with a common scheme. -/
theorem authority_nil (common : isCommon scheme = true) :
    authority scheme [] = .error .emptyHost := by
  rw [authority, common]
  rfl

end

section
variable {base : String} {u : Url} {front : List Char}

theorem cleaned_behind (base t : String) : cleaned (base ++ "/" ++ t).toList =
    cleanedStart base.toList ++ '/' :: cleanedEnd t.toList := by
  rw [String.toList_append, String.toList_append, List.append_assoc]
  exact cleaned_append base.toList t.toList

/-- The scheme of an address is that of its base. -/
theorem scheme_of_base (read : parse (base ++ "/") = .ok u) :
    ∃ front, scheme? (cleanedStart base.toList) = some (u.scheme, front) := by
  obtain ⟨behind, found⟩ := scheme_of_parse read
  rw [← String.append_empty (s := base ++ "/"), cleaned_behind, scheme?_append,
    Option.map_eq_some_iff] at found
  obtain ⟨⟨scheme, front⟩, found, same⟩ := found
  exact ⟨front, (Prod.mk.inj same).1 ▸ found⟩

theorem parse_behind (found : scheme? (cleanedStart base.toList) = some (u.scheme, front))
    (common : isCommon u.scheme = true) (t : String) :
    parse (base ++ "/" ++ t) = (authority u.scheme
      (((front ++ '/' :: cleanedEnd t.toList).dropWhile isSlash).takeWhile
        (!endsAuthority true ·))).map
      fun a => withRest ⟨u.scheme, a.1, a.2, [], none⟩
        (((front ++ '/' :: cleanedEnd t.toList).dropWhile isSlash).dropWhile
          (!endsAuthority true ·)) := by
  refine parse_common ?_ common
  rw [cleaned_behind, scheme?_append, found, Option.map_some]

/-- A base has a host, as the slash behind it begins none. -/
theorem host_of_base (found : scheme? (cleanedStart base.toList) = some (u.scheme, front))
    (common : isCommon u.scheme = true) (read : parse (base ++ "/") = .ok u) :
    front.dropWhile isSlash ≠ [] := by
  intro empty
  have nothing : (front ++ ['/']).dropWhile isSlash = [] := by
    rw [List.dropWhile_append, empty]
    rfl
  have refused := parse_behind found common ""
  rw [String.append_empty, read, String.toList_empty, cleanedEnd_eq_self (List.forall_mem_nil _),
    nothing, List.takeWhile_nil, authority_nil common] at refused
  contradiction

/-- A query or a fragment in a base stands behind its host and port. -/
theorem mem_rest_iff (found : scheme? (cleanedStart base.toList) = some (u.scheme, front))
    {c : Char} (kind : c = '?' ∨ c = '#') :
    c ∈ (front.dropWhile isSlash).dropWhile (!endsAuthority true ·) ↔ c ∈ base.toList := by
  have stops : (!endsAuthority true c) = false := by rcases kind with rfl | rfl <;> decide
  have no_slash : isSlash c = false := by rcases kind with rfl | rfl <;> decide
  have visible : 32 < c.toNat := by rcases kind with rfl | rfl <;> decide
  have no_scheme : (c.isAlphanum || c = '+' || c = '-' || c = '.') = false ∧ c ≠ ':' := by
    rcases kind with rfl | rfl <;> decide
  rw [mem_dropWhile_iff stops, mem_dropWhile_iff no_slash,
    mem_iff_of_scheme? found no_scheme.1 no_scheme.2, mem_cleanedStart_iff visible]

/-- What stands behind a base is read behind what follows its host and port. -/
theorem exists_rest (read : parse (base ++ "/") = .ok u) (common : isCommon u.scheme = true) :
    ∃ rest, (∀ c ∈ rest.head?, endsAuthority true c = true) ∧
      (∀ c, c = '?' ∨ c = '#' → (c ∈ rest ↔ c ∈ base.toList)) ∧
      ∀ t, parse (base ++ "/" ++ t) = .ok
        (withRest ⟨u.scheme, u.host, u.port, [], none⟩ (rest ++ '/' :: cleanedEnd t.toList)) := by
  obtain ⟨front, found⟩ := scheme_of_base read
  have host := host_of_base found common read
  have stop : (!endsAuthority true '/') = false := by decide
  have behind (t : String) : parse (base ++ "/" ++ t) = (authority u.scheme
      ((front.dropWhile isSlash).takeWhile (!endsAuthority true ·))).map
        fun a => withRest ⟨u.scheme, a.1, a.2, [], none⟩
          ((front.dropWhile isSlash).dropWhile (!endsAuthority true ·) ++
            '/' :: cleanedEnd t.toList) := by
    rw [parse_behind found common, List.dropWhile_append, if_neg (by simpa using host),
      takeWhile_append_cons stop, dropWhile_append_cons stop]
  refine ⟨_, fun c mem => ?_, fun c kind => mem_rest_iff found kind, fun t => ?_⟩
  · have first := List.head?_dropWhile_not (!endsAuthority true ·) (front.dropWhile isSlash)
    rw [Option.mem_def.1 mem] at first
    simpa using first
  · have base_eq := behind ""
    rw [String.append_empty, read] at base_eq
    rw [behind t]
    cases part : authority u.scheme _ with
    | error f =>
      rw [part] at base_eq
      contradiction
    | ok a =>
      rw [part] at base_eq
      have host : u.host = a.1 := congrArg Url.host (Except.ok.inj base_eq)
      have port : u.port = a.2 := congrArg Url.port (Except.ok.inj base_eq)
      rw [host, port]
      rfl

end

/-! ### The path and the query behind a base -/

section
variable {rest : List Char} {scheme : String} {host : Option Host} {port : Option Nat}

/-- A text where a path with a host is read: its backslashes are slashes. -/
def slashed (cs : List Char) : List Char := cs.map fun c => if c = '\\' then '/' else c

theorem slashed_eq_self {cs : List Char} (chars : ∀ c ∈ cs, c ≠ '\\') : slashed cs = cs :=
  (List.map_congr_left fun c mem => if_neg (chars c mem)).trans (List.map_id cs)

theorem of_mem_pieces_slashed {cs s : List Char} (mem : s ∈ pieces '/' (slashed cs)) :
    ∀ c ∈ s, c ≠ '\\' ∧ c ≠ '/' := by
  intro c here
  constructor
  · rintro rfl
    obtain ⟨d, -, same⟩ := List.mem_map.1 (mem_of_mem_pieces mem here)
    split at same
    · contradiction
    · contradiction
  · rintro rfl
    exact sep_notMem_of_mem_pieces mem here

/-- What stands behind a base without a query and a fragment is walked behind the segments of the
base. -/
theorem exists_walked (first : ∀ c ∈ rest.head?, endsAuthority true c = true)
    (plain : '?' ∉ rest ∧ '#' ∉ rest) :
    ∃ walked, (∀ s ∈ walked, Settled s) ∧ ∀ cs,
      segmentsOf true (rest ++ '/' :: cs) = walk walked (pieces '/' (slashed cs)) := by
  cases rest with
  | nil => exact ⟨[], List.forall_mem_nil _, fun cs => rfl⟩
  | cons c rest =>
    have slash : (if c = '\\' then '/' else c) = '/' := by
      have ends := first c rfl
      have no_query : c ≠ '?' := fun same => plain.1 (same ▸ List.mem_cons_self)
      have no_fragment : c ≠ '#' := fun same => plain.2 (same ▸ List.mem_cons_self)
      split
      · rfl
      · next other => simpa [endsAuthority, no_query, no_fragment, other] using ends
    refine ⟨(pieces '/' (slashed rest)).foldl step [], ?_, fun cs => ?_⟩
    · exact settled_foldl (List.forall_mem_nil _) fun s mem => of_mem_pieces_slashed mem
    · rw [← walk_append _ (pieces_ne_nil '/' _), ← pieces_append]
      rw [segmentsOf, if_pos rfl, List.map_append, List.map_cons, List.cons_append, List.map_cons,
        slash, if_neg (by decide)]
      rfl

theorem segments_withRest (u : Url) (cs : List Char) : (withRest u cs).segments =
    segmentsOf (isCommon u.scheme) (cs.takeWhile fun c => !(c = '?' || c = '#')) := rfl

/-- What stands behind a query or a fragment is no part of the path. -/
theorem segments_withRest_of_mem {c : Char} (mem : c ∈ rest) (kind : c = '?' ∨ c = '#') (u : Url)
    (cs : List Char) : (withRest u (rest ++ cs)).segments = (withRest u rest).segments := by
  have stop : (!(c = '?' || c = '#')) = false := by rcases kind with rfl | rfl <;> decide
  rw [segments_withRest, segments_withRest, takeWhile_append_of_mem mem stop]

theorem takeWhile_plain (plain : '?' ∉ rest ∧ '#' ∉ rest) (cs : List Char) :
    (rest ++ cs).takeWhile (fun c => !(c = '?' || c = '#')) =
      rest ++ cs.takeWhile fun c => !(c = '?' || c = '#') := by
  refine List.takeWhile_append_of_pos fun c mem => ?_
  have no_query : c ≠ '?' := fun same => plain.1 (same ▸ mem)
  have no_fragment : c ≠ '#' := fun same => plain.2 (same ▸ mem)
  simp [no_query, no_fragment]

theorem takeWhile_eq_self (plain : '?' ∉ rest ∧ '#' ∉ rest) :
    rest.takeWhile (fun c => !(c = '?' || c = '#')) = rest := by
  have all := takeWhile_plain plain []
  rwa [List.append_nil, List.takeWhile_nil, List.append_nil] at all

theorem query_withRest (plain : '?' ∉ rest ∧ '#' ∉ rest) (u : Url) :
    (withRest u rest).query = none := by
  have parts := List.takeWhile_append_dropWhile (p := fun c => !(c = '?' || c = '#')) (l := rest)
  rw [takeWhile_eq_self plain, List.append_right_eq_self] at parts
  rw [withRest, splitWhere, parts]

end

/-! ### The path that goes on -/

/-- A base without a query and a fragment. -/
def Plain (base : String) : Prop := '?' ∉ base.toList ∧ '#' ∉ base.toList

instance (base : String) : Decidable (Plain base) := inferInstanceAs (Decidable (_ ∧ _))

section
variable {base : String} {u : Url} {cs es : List Char} {walked : List (List Char)}

theorem verbatim_of_settled (settled : ∀ s ∈ pieces '/' cs, Settled s) : Verbatim cs where
  chars c mem := by
    rcases exists_mem_pieces '/' mem with rfl | ⟨s, piece, here⟩
    · decide
    · obtain ⟨kept, no_slash, -⟩ := (settled s piece).chars c here
      exact ⟨kept, no_slash⟩
  still s piece := (settled s piece).still

/-- Only what can stand in a path as it is comes out of the walk as it is. -/
theorem verbatim_of_walk (settled : ∀ s ∈ walked, Settled s)
    (same : (walk walked (pieces '/' (slashed es))).flatMap ('/' :: ·) =
      walked.reverse.flatMap ('/' :: ·) ++ '/' :: cs) : Verbatim cs := by
  have read : ∀ s ∈ walk walked (pieces '/' (slashed es)), Settled s :=
    settled_walk settled fun s mem => of_mem_pieces_slashed mem
  have no_slash {s : List Char} (settled : Settled s) : '/' ∉ s := fun mem =>
    (settled.chars '/' mem).2.2 rfl
  have no_slash_base : ∀ s ∈ walked.reverse ++ pieces '/' cs, '/' ∉ s := by
    intro s mem
    rcases List.mem_append.1 mem with before | behind
    · exact no_slash (settled s (List.mem_reverse.1 before))
    · exact sep_notMem_of_mem_pieces behind
  rw [← flatMap_pieces '/' cs, ← List.flatMap_append] at same
  have split := congrArg (pieces '/') same
  rw [pieces_flatMap fun s mem => no_slash (read s mem), pieces_flatMap no_slash_base] at split
  obtain ⟨-, segments⟩ := List.cons.inj split
  exact verbatim_of_settled fun s mem =>
    read s (segments ▸ List.mem_append_right walked.reverse mem)

theorem Verbatim.plain (h : Verbatim cs) : '?' ∉ cs ∧ '#' ∉ cs :=
  ⟨fun mem => absurd (h.chars _ mem).1 (by decide), fun mem => absurd (h.chars _ mem).1 (by decide)⟩

theorem Verbatim.cleanedEnd_eq (h : Verbatim cs) : cleanedEnd cs = cs :=
  cleanedEnd_eq_self fun c mem => (h.chars c mem).1

/-- What can stand in a path as it is comes out of the walk as it is. -/
theorem Verbatim.walk_eq (h : Verbatim cs) :
    walk walked (pieces '/' (slashed ((cleanedEnd cs).takeWhile fun c => !(c = '?' || c = '#')))) =
      walked.reverse ++ pieces '/' cs := by
  rw [h.cleanedEnd_eq, takeWhile_eq_self h.plain, slashed_eq_self fun c mem => (h.chars c mem).2]
  refine Url.walk_eq fun s piece => ⟨fun c here => ?_, h.still s piece⟩
  exact (h.chars c (mem_of_mem_pieces piece here)).1

/-- Behind a path without a query and a fragment the path goes on with just what can stand in it as
it is. -/
theorem path_withRest_iff {rest : List Char} (first : ∀ c ∈ rest.head?, endsAuthority true c = true)
    (plain : '?' ∉ rest ∧ '#' ∉ rest) (common : isCommon u.scheme = true) :
    (withRest u (rest ++ '/' :: cleanedEnd cs)).path =
      (withRest u (rest ++ '/' :: cleanedEnd [])).path ++ cs ↔ Verbatim cs := by
  obtain ⟨walked, settled, segments_rest⟩ := exists_walked first plain
  have segments_behind (es : List Char) : (withRest u (rest ++ '/' :: es)).segments =
      walk walked (pieces '/' (slashed (es.takeWhile fun c => !(c = '?' || c = '#')))) := by
    rw [segments_withRest, takeWhile_plain plain, List.takeWhile_cons_of_pos (by decide), common,
      segments_rest]
  have verbatim_nil : Verbatim [] := by decide
  rw [path, path, segments_behind, segments_behind, verbatim_nil.walk_eq, List.flatMap_append,
    flatMap_pieces, List.append_assoc, List.singleton_append]
  constructor
  · exact verbatim_of_walk settled
  · intro verbatim
    rw [verbatim.walk_eq, List.flatMap_append, flatMap_pieces]

/-- A text behind a base whose address is common is read to the same host. The path of the base goes
on with the text just if the base is plain and the text can stand in a path as it is; nothing of the
text is then taken for a query. -/
theorem parse_append (read : parse (base ++ "/") = .ok u) (common : isCommon u.scheme = true)
    {t : String} (ne : t.toList ≠ []) :
    ∃ v, parse (base ++ "/" ++ t) = .ok v ∧ v.scheme = u.scheme ∧ v.host = u.host ∧
      v.port = u.port ∧ (v.path = u.path ++ t.toList ↔ Plain base ∧ Verbatim t.toList) ∧
      (Plain base → Verbatim t.toList → v.query = none) := by
  obtain ⟨rest, first, kinds, behind⟩ := exists_rest read common
  refine ⟨_, behind t, rfl, rfl, rfl, ?_⟩
  have base_eq := behind ""
  rw [String.append_empty, read] at base_eq
  have path_base := congrArg path (Except.ok.inj base_eq)
  by_cases plain : Plain base
  · have plain_rest : '?' ∉ rest ∧ '#' ∉ rest := by
      rwa [kinds '?' (.inl rfl), kinds '#' (.inr rfl)]
    refine ⟨?_, fun _ verbatim => ?_⟩
    · rw [path_base, and_iff_right plain]
      exact path_withRest_iff first plain_rest common
    · rw [verbatim.cleanedEnd_eq]
      refine query_withRest ?_ _
      simp [plain_rest, verbatim.plain]
  · have other : ∃ c, c ∈ rest ∧ (c = '?' ∨ c = '#') := by
      rw [Plain, not_and_or, not_not, not_not] at plain
      rcases plain with query | fragment
      · exact ⟨'?', (kinds '?' (.inl rfl)).2 query, .inl rfl⟩
      · exact ⟨'#', (kinds '#' (.inr rfl)).2 fragment, .inr rfl⟩
    obtain ⟨c, mem, kind⟩ := other
    refine ⟨⟨fun same => ?_, fun h => absurd h.1 plain⟩, fun h => absurd h plain⟩
    rw [path_base, path, path, segments_withRest_of_mem mem kind, segments_withRest_of_mem mem kind,
      List.self_eq_append_right] at same
    exact absurd same ne

end

end BackupAdmin.Web.Url
