import BackupAdmin.Arguments.Reader
import BackupAdmin.Catalog
import BackupAdmin.Proofs.Text.Splitting
import Mathlib.Data.List.Nodup

/-! Command lines that are made of arguments. Main statement: words that spell arguments and are
accepted are read as just these arguments, whatever their order and their way of writing. -/
namespace BackupAdmin.Arguments

/-- A word that is not taken for an option: at most one dash stands at its start, and then alone. -/
def IsPlain (word : String) : Prop := ∀ c cs, word.toList ≠ '-' :: c :: cs

/-- The words spell these arguments for a command that expects these positional ones. The value of
an option stands in the next word, if that is no option itself, or behind a sign of equality. -/
inductive Spells (g : Grammar) :
    List Parameter → List String → List (Parameter × String) → Prop
  | nil (ps : List Parameter) : Spells g ps [] []
  | alone {p : Parameter} {ps : List Parameter} {v : String} {ws : List String}
      {args : List (Parameter × String)} (plain : IsPlain v) (takes : p.takesValue = true)
      (rest : Spells g ps ws args) : Spells g (p :: ps) (v :: ws) ((p, v) :: args)
  | apart {p : Parameter} {ps : List Parameter} {long v : String} {ws : List String}
      {args : List (Parameter × String)} (found : g.long? long = some p)
      (takes : p.takesValue = true) (plain : IsPlain v) (rest : Spells g ps ws args) :
      Spells g ps (("--" ++ long) :: v :: ws) ((p, v) :: args)
  | attached {p : Parameter} {ps : List Parameter} {long v : String} {ws : List String}
      {args : List (Parameter × String)} (found : g.long? long = some p)
      (takes : p.takesValue = true) (rest : Spells g ps ws args) :
      Spells g ps (("--" ++ long ++ "=" ++ v) :: ws) ((p, v) :: args)

/-- A command without inner commands whose options have names that can be told from a value. -/
structure Grammar.Leaf (g : Grammar) : Prop where
  inner : g.inner = []
  named : ∀ p ∈ g.options, ∀ long ∈ p.long, long ≠ "" ∧ '=' ∉ long.toList

/-- What was given of a parameter is what the arguments say of its key; no parameter is given
twice, and every value is one that its parameter admits. -/
structure Reads (args : List (Parameter × String)) (given : List (String × Given)) : Prop where
  text (k : String) :
    given.lookup k = (args.find? (·.1.key = k)).map fun a => Given.text a.2
  distinct : (args.map (·.1.key)).Nodup
  allowed : ∀ a ∈ args, ∀ d, a.1.role = .value d → d.contains a.2 = true

theorem bind_eq_ok {α β : Type} {x : Except Fault α} {f : α → Except Fault β} {b : β}
    (h : (x >>= f) = .ok b) : ∃ a, x = .ok a ∧ f a = .ok b := by
  cases x with
  | error e => contradiction
  | ok a => exact ⟨a, rfl, h⟩

section
variable {s t : Progress} {p : Parameter} {v : String} {args : List (Parameter × String)}

theorem reads_nil : Reads [] [] := ⟨fun _ => rfl, .nil, nofun⟩

/-- A value that is settled adds an argument. -/
theorem Reads.store (reads : Reads args s.given) (takes : p.takesValue = true)
    (ok : s.store p (some v) = .ok t) :
    Reads (args ++ [(p, v)]) t.given ∧ t = { s with given := t.given } := by
  obtain ⟨d, role⟩ : ∃ d, p.role = .value d := by
    unfold Parameter.takesValue at takes
    split at takes
    · next d role => exact ⟨d, role⟩
    · contradiction
  unfold Progress.store at ok
  rw [role] at ok
  dsimp only at ok
  split at ok
  · contradiction
  next fresh =>
    have absent : args.find? (·.1.key = p.key) = none := by
      simpa [Progress.has, reads.text] using fresh
    split at ok
    case isFalse => split at ok <;> contradiction
    case isTrue member =>
      obtain rfl := Except.ok.inj ok
      refine ⟨⟨fun k => ?_, ?_, ?_⟩, rfl⟩
      · rw [Progress.put, List.lookup_cons, Catalog.lookup_filter_ne, List.find?_append, reads.text]
        by_cases here : k = p.key
        · subst here
          simp [absent]
        · simp [here, Ne.symm here, beq_eq_false_iff_ne.2 here]
      · rw [List.map_append, List.nodup_append]
        refine ⟨reads.distinct, by simp, ?_⟩
        intro k mem k' mem'
        grind
      · intro a mem d' role'
        rcases List.mem_append.1 mem with mem | mem
        · exact reads.allowed a mem d' role'
        · obtain rfl := List.mem_singleton.1 mem
          obtain rfl : d = d' := by simpa [role] using role'
          exact member

/-- Reading has come behind these arguments, all but the last of which are settled; these
positional ones are still expected. -/
structure Progress.Behind (s : Progress) (args : List (Parameter × String))
    (ps : List Parameter) : Prop where
  opened : s.closed = false
  expects : s.positionals = ps
  ready : s.isWaiting = false
  settles : ∀ t, s.settled = .ok t →
    Reads args t.given ∧ t = { s with given := t.given, pending := none }

variable {g : Grammar} {ps : List Parameter}

theorem behind_start (g : Grammar) : (Progress.start g).Behind [] g.positionals :=
  ⟨rfl, rfl, rfl, fun t settled => by
    obtain rfl := Except.ok.inj settled
    exact ⟨reads_nil, rfl⟩⟩

/-- A value that waits to be settled is one argument more. -/
theorem Reads.behind_pending (reads : Reads args s.given) (opened : s.closed = false)
    (expects : s.positionals = ps) (takes : p.takesValue = true) :
    Progress.Behind { s with pending := some (p, some v) } (args ++ [(p, v)]) ps :=
  ⟨opened, expects, rfl, fun t settled => by
    have stored : Progress.store { s with pending := none } p (some v) = .ok t := settled
    exact Reads.store (s := { s with pending := none }) reads takes stored⟩

/-- A plain word is not read as an option. -/
theorem word_of_plain (opened : s.closed = false) (plain : IsPlain v) :
    s.word g v = s.plainWord g v := by
  unfold Progress.word
  rw [opened, if_neg Bool.false_ne_true]
  split
  next two => exact absurd two (plain '-' [])
  next cs _ two => exact absurd two (plain '-' cs)
  next c cs _ _ one => exact absurd one (plain c cs)
  next => rfl

/-- A word behind two dashes is read as an option. -/
theorem word_of_long {c : Char} {cs : List Char} (opened : s.closed = false)
    (dashes : v.toList = '-' :: '-' :: c :: cs) : s.word g v = s.longOption g (c :: cs) := by
  unfold Progress.word
  rw [opened, if_neg Bool.false_ne_true, dashes]
  rfl

/-- The name of an option ends where its value is attached. -/
theorem longOption_named {long : String} (unsigned : '=' ∉ long.toList) (attached : Option String) :
    s.longOption g (long.toList ++ attached.elim [] ('=' :: ·.toList)) =
      (g.long? long).elim (.error (.unknown ("--" ++ long))) fun p =>
        if !p.takesValue && attached.isSome then .error (.valueUnwanted p.shown)
        else s.option p attached := by
  have run : ∀ c ∈ long.toList, decide (c ≠ '=') = true := fun c mem => by
    simpa using fun same : c = '=' => unsigned (same ▸ mem)
  have stop : ∀ c ∈ (attached.elim [] ('=' :: ·.toList)).head?, decide (c ≠ '=') = false := by
    cases attached with
    | none => nofun
    | some v => rintro c ⟨⟩; rfl
  unfold Progress.longOption
  rw [Text.takeWhile_append_stop run stop, Text.dropWhile_append_stop run stop,
    String.ofList_toList]
  dsimp only
  cases g.long? long with
  | none => rfl
  | some p =>
    cases attached with
    | none => rfl
    | some v => simp only [Option.elim, String.ofList_toList]

theorem longOption_eq {long : String} (found : g.long? long = some p)
    (takes : p.takesValue = true) (unsigned : '=' ∉ long.toList) (attached : Option String) :
    s.longOption g (long.toList ++ attached.elim [] ('=' :: ·.toList)) = s.option p attached := by
  rw [longOption_named unsigned, found]
  exact if_neg (by simp [takes])

/-- What was settled stays settled. -/
theorem Reads.behind (reads : Reads args s.given) (opened : s.closed = false)
    (expects : s.positionals = ps) (settled : s.pending = none) : s.Behind args ps := by
  refine ⟨opened, expects, ?_, fun t same => ?_⟩
  · rw [Progress.isWaiting, settled]
  · rw [Progress.settled, settled] at same
    obtain rfl := Except.ok.inj same
    exact ⟨reads, by rw [← settled]⟩

/-- A positional argument is one argument more. -/
theorem Progress.Behind.alone (behind : s.Behind args (p :: ps)) (plain : IsPlain v)
    (takes : p.takesValue = true) (ok : s.word g v = .ok t) : t.Behind (args ++ [(p, v)]) ps := by
  have positional : s.word g v = s.positional g v := by
    rw [word_of_plain behind.opened plain, Progress.plainWord]
    have ready := behind.ready
    unfold Progress.isWaiting at ready
    split
    · next p' waits => simp [waits] at ready
    · rfl
  rw [positional, Progress.positional, behind.expects] at ok
  obtain ⟨s₁, settled, ok⟩ := bind_eq_ok ok
  obtain ⟨reads, same⟩ := behind.settles s₁ settled
  obtain rfl := Except.ok.inj ok
  have opened : s₁.closed = false := by rw [same]; exact behind.opened
  exact Reads.behind_pending (s := { s₁ with positionals := ps }) reads opened rfl takes

/-- An option with its value in the next word is one argument more. -/
theorem Progress.Behind.apart {t₁ : Progress} (behind : s.Behind args ps) (plain : IsPlain v)
    (takes : p.takesValue = true) (first : s.option p none = .ok t₁)
    (second : t₁.word g v = .ok t) : t.Behind (args ++ [(p, v)]) ps := by
  obtain ⟨s₁, settled, first⟩ := bind_eq_ok first
  obtain ⟨reads, same⟩ := behind.settles s₁ settled
  rw [if_pos (by simp [takes])] at first
  obtain rfl := Except.ok.inj first
  have opened : s₁.closed = false := by rw [same]; exact behind.opened
  have expects : s₁.positionals = ps := by rw [same]; exact behind.expects
  rw [word_of_plain (s := { s₁ with pending := some (p, none) }) opened plain] at second
  obtain rfl := Except.ok.inj second
  exact reads.behind_pending opened expects takes

/-- An option with its value attached is one argument more. -/
theorem Progress.Behind.attached (behind : s.Behind args ps) (takes : p.takesValue = true)
    (ok : s.option p (some v) = .ok t) : t.Behind (args ++ [(p, v)]) ps := by
  obtain ⟨s₁, settled, ok⟩ := bind_eq_ok ok
  obtain ⟨reads, same⟩ := behind.settles s₁ settled
  rw [if_neg (by simp)] at ok
  obtain ⟨reads', same'⟩ := reads.store takes ok
  refine reads'.behind ?_ ?_ ?_
  · rw [same', same]; exact behind.opened
  · rw [same', same]; exact behind.expects
  · rw [same', same]

variable {e : Environment} {w : String} {ws : List String} {levels : List Level}

/-- A command without inner commands reads its words one by one. -/
theorem readFrom_cons (leaf : g.inner = []) :
    readFrom e g s (w :: ws) = (s.word g w >>= fun s => readFrom e g s ws) := by
  have no_child : g.child? w = none := by simp [Grammar.child?, leaf]
  rw [readFrom, no_child, leaf]
  split
  · rfl
  · dsimp only
    rw [if_neg (by simp)]

/-- A command that requires nothing leaves the words behind an inner command to that one. -/
theorem readFrom_inner {c : Grammar} (child : g.child? w = some c) (free : g.required = [])
    (ok : readFrom e g (.start g) (w :: ws) = .ok levels) :
    ∃ inner, levels = (g.name, []) :: inner ∧ readFrom e c (.start c) ws = .ok inner := by
  have finish : (Progress.start g).finish e g true = .ok [] := by
    simp [Progress.finish, Progress.settled, Progress.start, free, bind, Except.bind, pure,
      Except.pure]
  rw [readFrom, child, if_neg (by simp [Progress.start, Progress.isWaiting])] at ok
  obtain ⟨inner, read, ok⟩ := bind_eq_ok ok
  rw [finish] at ok
  exact ⟨inner, (Except.ok.inj ok).symm, read⟩

/-- At the end of the words what waits is settled. -/
theorem Progress.Behind.finish (behind : s.Behind args ps) {hasInner : Bool}
    {given : List (String × Given)} (ok : s.finish e g hasInner = .ok given) : Reads args given := by
  obtain ⟨t, settled, ok⟩ := bind_eq_ok ok
  obtain ⟨reads, -⟩ := behind.settles t settled
  dsimp only at ok
  split at ok
  · contradiction
  · split at ok
    · obtain rfl := Except.ok.inj ok
      exact reads
    · contradiction

/-- Words that spell arguments, and are accepted, give just those. -/
theorem Spells.reads (spells : Spells g ps ws args) (leaf : g.Leaf)
    {before : List (Parameter × String)} (behind : s.Behind before ps)
    (ok : readFrom e g s ws = .ok levels) :
    ∃ given, levels = [(g.name, given)] ∧ Reads (before ++ args) given := by
  have unsigned {long : String} {p : Parameter} (found : g.long? long = some p) :
      '=' ∉ long.toList ∧ ∃ c cs, long.toList = c :: cs := by
    have named : p.long = some long := by simpa using List.find?_some found
    obtain ⟨some_name, unsigned⟩ := leaf.named p (List.mem_of_find?_eq_some found) long named
    refine ⟨unsigned, List.exists_cons_of_ne_nil fun none => some_name ?_⟩
    rwa [String.toList_eq_nil_iff] at none
  induction spells generalizing s before with
  | nil ps =>
    obtain ⟨given, finished, same⟩ := bind_eq_ok ok
    obtain rfl := Except.ok.inj same
    exact ⟨given, rfl, by simpa using behind.finish finished⟩
  | alone plain takes rest ih =>
    rw [readFrom_cons leaf.inner] at ok
    obtain ⟨t, read, ok⟩ := bind_eq_ok ok
    simpa using ih (behind.alone plain takes read) ok
  | @apart p ps long v ws args found takes plain rest ih =>
    obtain ⟨clean, c, cs, letters⟩ := unsigned found
    rw [readFrom_cons leaf.inner] at ok
    obtain ⟨t₁, first, ok⟩ := bind_eq_ok ok
    rw [readFrom_cons leaf.inner] at ok
    obtain ⟨t, second, ok⟩ := bind_eq_ok ok
    have dashes : ("--" ++ long).toList = '-' :: '-' :: c :: cs := by simp [letters]
    have option : s.longOption g long.toList = s.option p none := by
      simpa using longOption_eq found takes clean none
    rw [word_of_long behind.opened dashes, ← letters, option] at first
    simpa using ih (behind.apart plain takes first second) ok
  | @attached p ps long v ws args found takes rest ih =>
    obtain ⟨clean, c, cs, letters⟩ := unsigned found
    rw [readFrom_cons leaf.inner] at ok
    obtain ⟨t, read, ok⟩ := bind_eq_ok ok
    have dashes : ("--" ++ long ++ "=" ++ v).toList = '-' :: '-' :: c :: (cs ++ '=' :: v.toList) := by
      simp [letters]
    have option : s.longOption g (long.toList ++ '=' :: v.toList) = s.option p (some v) :=
      longOption_eq found takes clean (some v)
    rw [word_of_long behind.opened dashes, ← List.cons_append, ← letters, option] at read
    simpa using ih (behind.attached takes read) ok

/-- Arguments that are spelled are of parameters of the command. -/
theorem Spells.mem_parameters (spells : Spells g ps ws args) {a : Parameter × String}
    (mem : a ∈ args) : a.1 ∈ g.options ++ ps := by
  induction spells with
  | nil ps => simp at mem
  | alone plain takes rest ih =>
    rcases List.mem_cons.1 mem with rfl | mem
    · simp
    · have := ih mem
      grind
  | apart found takes plain rest ih | attached found takes rest ih =>
    rcases List.mem_cons.1 mem with rfl | mem
    · exact List.mem_append_left _ (List.mem_of_find?_eq_some found)
    · exact ih mem

variable {given : List (String × Given)}

theorem Reads.lookup_of_mem (reads : Reads args given) (mem : (p, v) ∈ args) :
    given.lookup p.key = some (.text v) := by
  rw [reads.text]
  cases found : args.find? (·.1.key = p.key) with
  | none => simpa using List.find?_eq_none.1 found _ mem
  | some a =>
    have key : a.1.key = p.key := by simpa using List.find?_some found
    have same := List.inj_on_of_nodup_map reads.distinct (List.mem_of_find?_eq_some found) mem key
    rw [same]
    rfl

/-- Nothing is given of a parameter without an argument, where keys tell parameters apart. -/
theorem Spells.lookup_of_absent (spells : Spells g ps ws args) (reads : Reads args given)
    (keyed : ((g.options ++ ps).map (·.key)).Nodup) (own : p ∈ g.options ++ ps)
    (absent : ∀ v, (p, v) ∉ args) : given.lookup p.key = none := by
  have none : ∀ a ∈ args, a.1.key ≠ p.key := fun a mem key => by
    obtain rfl : a.1 = p := List.inj_on_of_nodup_map keyed (spells.mem_parameters mem) own key
    exact absent a.2 mem
  rw [reads.text, List.find?_eq_none.2 (by simpa using none)]
  rfl

end
end BackupAdmin.Arguments
