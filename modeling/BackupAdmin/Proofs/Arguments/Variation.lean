import BackupAdmin.Proofs.Arguments.Spelling
import Mathlib.Data.List.Forall2

/-! Command lines that differ only in the value of one option. Main statement: both are refused with
the same fault, or both are read, and nothing but that value tells the results apart. -/
namespace BackupAdmin.Arguments

/-- Two readings end with the same fault, or with results that are related. -/
inductive Agree {α β : Type} (R : α → β → Prop) : Except Fault α → Except Fault β → Prop
  | ok {a : α} {b : β} (related : R a b) : Agree R (.ok a) (.ok b)
  | error (f : Fault) : Agree R (.error f) (.error f)

theorem Agree.bind {α β γ δ : Type} {R : α → β → Prop} {S : γ → δ → Prop} {x : Except Fault α}
    {y : Except Fault β} {f : α → Except Fault γ} {g : β → Except Fault δ} (h : Agree R x y)
    (step : ∀ a b, R a b → Agree S (f a) (g b)) : Agree S (x >>= f) (y >>= g) := by
  cases h with
  | ok related => exact step _ _ related
  | error fault => exact .error fault

/-! ### How far reading has come -/

section
variable (q : Parameter)

/-- What was given of a parameter, but perhaps for the text of this one. -/
inductive GivenAlike : String × Given → String × Given → Prop
  | same (k : String) (v : Given) : GivenAlike (k, v) (k, v)
  | text (v v' : String) : GivenAlike (q.key, .text v) (q.key, .text v')

/-- The parameter that waits, but perhaps for the text of this one. -/
inductive PendingAlike : Option (Parameter × Option String) →
    Option (Parameter × Option String) → Prop
  | same (waits : Option (Parameter × Option String)) : PendingAlike waits waits
  | text (v v' : String) : PendingAlike (some (q, some v)) (some (q, some v'))

/-- Two readings have come equally far, and agree but for the text of a parameter. Options have
ended in both of them or in none. -/
structure Progress.Alike (ended : Bool) (s t : Progress) : Prop where
  given : List.Forall₂ (GivenAlike q) s.given t.given
  pending : PendingAlike q s.pending t.pending
  positionals : s.positionals = t.positionals
  left : s.closed = ended
  right : t.closed = ended

end

section
variable {q p p' : Parameter} {g : Grammar} {ended : Bool} {s t : Progress}
  {given given' : List (String × Given)} {text text' : Option String}

/-- Under each key the same was given, or two texts of the parameter that may differ. -/
theorem lookup_alike (h : List.Forall₂ (GivenAlike q) given given') (k : String) :
    given.lookup k = given'.lookup k ∨ k = q.key ∧
      ∃ v v', given.lookup k = some (.text v) ∧ given'.lookup k = some (.text v') := by
  induction h with
  | nil => exact .inl rfl
  | cons first _ ih =>
    cases first with
    | same l v =>
      rw [List.lookup_cons, List.lookup_cons]
      split
      · exact .inl rfl
      · exact ih
    | text v v' =>
      rw [List.lookup_cons, List.lookup_cons]
      split
      case h_1 here => exact .inr ⟨by simpa using here, v, v', rfl, rfl⟩
      case h_2 => exact ih

namespace Progress.Alike

theorem start (q : Parameter) (g : Grammar) : (Progress.start g).Alike q false (.start g) :=
  ⟨.nil, .same none, rfl, rfl, rfl⟩

theorem has (h : s.Alike q ended t) (p : Parameter) : s.has p = t.has p := by
  unfold Progress.has
  rcases lookup_alike h.given p.key with same | ⟨-, v, v', there, there'⟩
  · rw [same]
  · rw [there, there']
    rfl

theorem isWaiting (h : s.Alike q ended t) : s.isWaiting = t.isWaiting := by
  have waits := h.pending
  unfold Progress.isWaiting
  generalize s.pending = x at waits
  generalize t.pending = y at waits
  cases waits <;> rfl

theorem put (h : s.Alike q ended t) {v v' : Given} (alike : GivenAlike q (p.key, v) (p.key, v')) :
    (s.put p v).Alike q ended (t.put p v') := by
  refine ⟨.cons alike ?_, h.pending, h.positionals, h.left, h.right⟩
  refine List.rel_filter (fun a b same => ?_) h.given
  cases same <;> rfl

section
variable (free : q.role = .value .any)
include free

/-- A parameter is settled alike, whatever its text if that is free. -/
theorem store (h : s.Alike q ended t) (waits : PendingAlike q (some (p, text)) (some (p', text'))) :
    Agree (Alike q ended) (s.store p text) (t.store p' text') := by
  cases waits with
  | text v v' =>
    unfold Progress.store
    rw [free, h.has q]
    dsimp only
    split
    · exact .error _
    · exact .ok (h.put (.text v v'))
  | same =>
    unfold Progress.store
    rw [h.has p]
    split
    · exact .error _
    · exact .error _
    · rcases lookup_alike h.given p.key with same | ⟨-, v, v', there, there'⟩
      · rw [same]
        exact .ok (h.put (.same _ _))
      · rw [there, there']
        exact .ok (h.put (.same _ _))
    · split
      · exact .error _
      · exact .ok (h.put (.same _ _))
    · exact .error _
    · split
      · exact .error _
      split
      · exact .ok (h.put (.same _ _))
      split <;> exact .error _

theorem settled (h : s.Alike q ended t) : Agree (Alike q ended) s.settled t.settled := by
  have waits := h.pending
  unfold Progress.settled
  cases left : s.pending with
  | none =>
    rw [left] at waits
    generalize right : t.pending = y at waits
    cases waits
    exact .ok h
  | some x =>
    obtain ⟨p, text⟩ := x
    have rest : Alike q ended { s with pending := none } { t with pending := none } :=
      ⟨h.given, .same none, h.positionals, h.left, h.right⟩
    rw [left] at waits
    generalize right : t.pending = y at waits
    cases waits with
    | same => exact rest.store free (.same _)
    | text v v' => exact rest.store free (.text v v')

theorem option (h : s.Alike q ended t)
    (waits : PendingAlike q (some (p, text)) (some (p', text'))) :
    Agree (Alike q ended) (s.option p text) (t.option p' text') := by
  refine (h.settled free).bind fun a b alike => ?_
  have settles := alike.store free waits
  cases waits with
  | same =>
    split
    · exact .ok ⟨alike.given, .same _, alike.positionals, alike.left, alike.right⟩
    · exact settles
  | text v v' => simpa using settles

theorem longOption (h : s.Alike q ended t) (cs : List Char) :
    Agree (Alike q ended) (s.longOption g cs) (t.longOption g cs) := by
  unfold Progress.longOption
  extract_lets name attached
  split
  · exact .error _
  · split
    · exact .error _
    · exact h.option free (.same _)

theorem shortOptions (h : s.Alike q ended t) (cs : List Char) :
    Agree (Alike q ended) (s.shortOptions g cs) (t.shortOptions g cs) := by
  induction cs generalizing s t with
  | nil => exact .ok h
  | cons c cs ih =>
    unfold Progress.shortOptions
    split
    · exact .error _
    next p found =>
      split
      · exact h.option free (.same _)
      · have first := h.option free (.same (some (p, none)))
        generalize s.option p none = x at first
        generalize t.option p none = y at first
        cases first with
        | ok alike => exact ih alike
        | error f => exact .error f

theorem positional (h : s.Alike q ended t) (w : String) :
    Agree (Alike q ended) (s.positional g w) (t.positional g w) := by
  unfold Progress.positional Progress.misplaced
  rw [← h.positionals, h.left, h.right]
  split
  · exact .error _
  · refine (h.settled free).bind fun a b alike => ?_
    exact .ok ⟨alike.given, .same _, rfl, alike.left, alike.right⟩

theorem plainWord (h : s.Alike q ended t) (w : String) :
    Agree (Alike q ended) (s.plainWord g w) (t.plainWord g w) := by
  have waits := h.pending
  have settles := h.positional (g := g) free w
  unfold Progress.plainWord
  generalize s.pending = x at waits
  generalize t.pending = y at waits
  cases waits with
  | same =>
    split
    · exact .ok ⟨h.given, .same _, h.positionals, h.left, h.right⟩
    · exact settles
  | text v v' => exact settles

/-- The same word takes both readings equally far. -/
theorem word (h : s.Alike q ended t) (w : String) :
    Agree (Alike q (ended || w = "--")) (s.word g w) (t.word g w) := by
  unfold Progress.word
  rw [h.left, h.right]
  cases ended with
  | true => exact h.positional free w
  | false =>
    rw [if_neg Bool.false_ne_true, if_neg Bool.false_ne_true]
    by_cases dashes : w = "--"
    · subst dashes
      exact .ok ⟨h.given, h.pending, h.positionals, rfl, rfl⟩
    · have opened : (false || decide (w = "--")) = false := by simp [dashes]
      rw [opened]
      split
      next two => exact absurd (String.toList_inj.1 two) dashes
      · exact h.longOption free _
      · exact h.shortOptions free _
      · exact h.plainWord free w

variable (e : Environment)

theorem finish (h : s.Alike q ended t) (inner : Bool) :
    Agree (List.Forall₂ (GivenAlike q)) (s.finish e g inner) (t.finish e g inner) := by
  refine (h.settled free).bind fun a b alike => ?_
  have supplied : a.supplied e g = b.supplied e g := by
    simp only [Progress.supplied, alike.has]
  rw [supplied]
  dsimp only
  split
  · exact .error _
  · split
    · exact .ok alike.given
    · exact .error _

end
end Progress.Alike
end

/-! ### The words -/

/-- Words that are the same but for the values of an option, which stand in the next word or behind
a sign of equality. Behind two dashes alone there are no options. -/
inductive Varied (long : String) : Bool → List String → List String → Prop
  | nil (ended : Bool) : Varied long ended [] []
  | word {ended : Bool} {ws ws' : List String} (w : String)
      (rest : Varied long (ended || w = "--") ws ws') : Varied long ended (w :: ws) (w :: ws')
  | apart {v v' : String} {ws ws' : List String} (plain : IsPlain v) (plain' : IsPlain v')
      (rest : Varied long false ws ws') :
      Varied long false (("--" ++ long) :: v :: ws) (("--" ++ long) :: v' :: ws')
  | attached {ws ws' : List String} (v v' : String) (rest : Varied long false ws ws') :
      Varied long false (("--" ++ long ++ "=" ++ v) :: ws) (("--" ++ long ++ "=" ++ v') :: ws')

/-- The command takes this option or none with its name, as do those inside it, and none of them
is called like an option. -/
inductive Grammar.Admits (q : Parameter) (long : String) : Grammar → Prop
  | intro {g : Grammar} (own : ∀ p ∈ g.long? long, p = q)
      (called : ∀ c ∈ g.inner, ∀ n ∈ c.name :: c.aliases, n.toList.head? ≠ some '-')
      (inner : ∀ c ∈ g.inner, c.Admits q long) : g.Admits q long

section
variable {q : Parameter} {long w : String} {g : Grammar} {ended : Bool} {ws ws' : List String}
  {s t : Progress} {e : Environment}

namespace Grammar.Admits

/-- A command without inner commands admits an option if it has none or just that one by its name. -/
theorem of_isEmpty (leaf : g.inner.isEmpty = true) (own : ∀ p ∈ g.long? long, p = q) :
    g.Admits q long := by
  rw [List.isEmpty_iff] at leaf
  exact ⟨own, by simp [leaf], by simp [leaf]⟩

theorem child (admits : g.Admits q long) {c : Grammar} (found : g.child? w = some c) :
    c.Admits q long := by
  obtain ⟨-, -, inner⟩ := admits
  exact inner c (List.mem_of_find?_eq_some found)

theorem own_eq (admits : g.Admits q long) {p : Parameter} (found : g.long? long = some p) :
    p = q := by
  obtain ⟨own, -, -⟩ := admits
  exact own p found

/-- A word with a dash at its start leads to no inner command, and to no help on one. -/
theorem child?_of_dash (admits : g.Admits q long) (dash : w.toList.head? = some '-') :
    g.child? w = none ∧ w ≠ "help" := by
  obtain ⟨-, called, -⟩ := admits
  refine ⟨List.find?_eq_none.2 fun c mem same => ?_, ?_⟩
  · have named : w ∈ c.name :: c.aliases := by
      rw [Bool.or_eq_true, decide_eq_true_iff, List.contains_iff_mem] at same
      exact List.mem_cons.2 (same.imp_left Eq.symm)
    exact called c mem w named dash
  · rintro rfl
    exact absurd dash (by decide)

theorem ne_dashes (admits : g.Admits q long) {c : Grammar} (found : g.child? w = some c) :
    w ≠ "--" := by
  rintro rfl
  rw [(admits.child?_of_dash (by decide)).1] at found
  contradiction

end Grammar.Admits

theorem Varied.isEmpty_eq (varied : Varied long ended ws ws') : ws.isEmpty = ws'.isEmpty := by
  cases varied <;> rfl

theorem Grammar.Admits.helpOn_of_dash (admits : g.Admits q long)
    (dash : w.toList.head? = some '-') (ws : List String) : helpOn g (w :: ws) = .commandUnknown := by
  obtain ⟨no_child, no_help⟩ := admits.child?_of_dash dash
  rw [helpOn, no_child]
  simp [no_help]

theorem Varied.helpOn_eq (varied : Varied long ended ws ws') (admits : g.Admits q long) :
    helpOn g ws = helpOn g ws' := by
  induction varied generalizing g with
  | nil => rfl
  | word w rest ih =>
    rw [helpOn, helpOn, rest.isEmpty_eq]
    split
    next c found => exact ih (admits.child found)
    next => rfl
  | apart => rw [admits.helpOn_of_dash (by simp), admits.helpOn_of_dash (by simp)]
  | attached => rw [admits.helpOn_of_dash (by simp), admits.helpOn_of_dash (by simp)]

/-- A word with a dash at its start belongs to the command itself. -/
theorem readFrom_of_dash (admits : g.Admits q long) (dash : w.toList.head? = some '-') :
    readFrom e g s (w :: ws) = (s.word g w >>= fun s => readFrom e g s ws) := by
  obtain ⟨no_child, no_help⟩ := admits.child?_of_dash dash
  rw [readFrom, no_child]
  split
  · rfl
  · dsimp only
    rw [if_neg (by simp [no_help])]

/-- The option alone in a word, or with its value attached, is read if the command takes it. -/
theorem readFrom_option (admits : g.Admits q long) (takes : q.takesValue = true)
    (named : long ≠ "" ∧ '=' ∉ long.toList) (opened : s.closed = false) (attached : Option String)
    (spelled : w.toList = '-' :: '-' :: (long.toList ++ attached.elim [] ('=' :: ·.toList))) :
    readFrom e g s (w :: ws) =
      if (g.long? long).isSome then s.option q attached >>= fun s => readFrom e g s ws
      else .error (.unknown ("--" ++ long)) := by
  obtain ⟨some_name, unsigned⟩ := named
  obtain ⟨c, cs, letters⟩ : ∃ c cs, long.toList = c :: cs :=
    List.exists_cons_of_ne_nil fun none => some_name (String.toList_eq_nil_iff.1 none)
  have option := longOption_named (s := s) (g := g) unsigned attached
  rw [letters, List.cons_append] at spelled option
  rw [readFrom_of_dash admits (by simp [spelled]), word_of_long opened spelled, option]
  cases found : g.long? long with
  | none => rfl
  | some p =>
    obtain rfl := admits.own_eq found
    rw [Option.elim_some, if_neg (by simp [takes])]
    rfl

/-- A plain word behind an option that waits is its value. -/
theorem readFrom_value {p : Parameter} {v : String} (opened : s.closed = false)
    (waits : s.pending = some (p, none)) (plain : IsPlain v) :
    readFrom e g s (v :: ws) = readFrom e g { s with pending := some (p, some v) } ws := by
  have waiting : s.isWaiting = true := by rw [Progress.isWaiting, waits]
  rw [readFrom, waiting, Bool.or_true, if_pos rfl, word_of_plain opened plain, Progress.plainWord,
    waits]
  rfl

/-- What was given at a level, but perhaps for the text of a parameter. -/
def LevelAlike (q : Parameter) (l l' : Level) : Prop :=
  l.1 = l'.1 ∧ List.Forall₂ (GivenAlike q) l.2 l'.2

section
variable (free : q.role = .value .any)
include free

theorem Progress.Alike.option_waits (h : s.Alike q ended t) :
    Agree (fun a b => a.Alike q ended b ∧ a.pending = some (q, none) ∧ b.pending = some (q, none))
      (s.option q none) (t.option q none) := by
  have takes : (q.takesValue && (none : Option String).isNone) = true := by
    rw [Parameter.takesValue, free]
    rfl
  refine (h.settled free).bind fun a b alike => ?_
  rw [if_pos takes, if_pos takes]
  exact .ok ⟨⟨alike.given, .same _, alike.positionals, alike.left, alike.right⟩, rfl, rfl⟩

/-- Words that differ only in the values of an option are both refused or both read, and what is
read differs at most in the text of that option. -/
theorem Varied.readFrom (varied : Varied long ended ws ws') (named : long ≠ "" ∧ '=' ∉ long.toList)
    (admits : g.Admits q long) (alike : s.Alike q ended t) :
    Agree (List.Forall₂ (LevelAlike q)) (readFrom e g s ws) (readFrom e g t ws') := by
  have takes : q.takesValue = true := by rw [Parameter.takesValue, free]
  induction varied generalizing g s t with
  | nil =>
    refine (alike.finish free e false).bind fun a b given => ?_
    exact .ok (.cons ⟨rfl, given⟩ .nil)
  | @word ended ws ws' w rest ih =>
    have own : Agree (List.Forall₂ (LevelAlike q))
        (s.word g w >>= fun s => Arguments.readFrom e g s ws)
        (t.word g w >>= fun t => Arguments.readFrom e g t ws') :=
      (alike.word free w).bind fun a b onward => ih admits onward
    rw [Arguments.readFrom, Arguments.readFrom, ← alike.isWaiting, alike.left, alike.right,
      rest.helpOn_eq admits]
    split
    · exact own
    next inside =>
      split
      next child found =>
        have opened : ended = false := by
          simp only [Bool.or_eq_true, not_or, Bool.not_eq_true] at inside
          exact inside.1
        -- the inner command is read from its own start, where options have not ended
        rw [opened, decide_eq_false (admits.ne_dashes found), Bool.or_false] at ih
        refine (ih (admits.child found) (.start q child)).bind fun a b inner => ?_
        refine (alike.finish free e true).bind fun a' b' given => ?_
        exact .ok (.cons ⟨rfl, given⟩ inner)
      next =>
        split
        · exact .error _
        · exact own
  | @apart v v' ws ws' plain plain' rest ih =>
    rw [readFrom_option admits takes named alike.left none (by simp),
      readFrom_option admits takes named alike.right none (by simp)]
    split
    · refine (alike.option_waits free).bind fun a b onward => ?_
      obtain ⟨alike, waits, waits'⟩ := onward
      rw [readFrom_value alike.left waits plain, readFrom_value alike.right waits' plain']
      exact ih admits ⟨alike.given, .text v v', alike.positionals, alike.left, alike.right⟩
    · exact .error _
  | attached v v' rest ih =>
    rw [readFrom_option admits takes named alike.left (some v) (by simp),
      readFrom_option admits takes named alike.right (some v') (by simp)]
    split
    · exact (alike.option free (.text v v')).bind fun a b onward => ih admits onward
    · exact .error _

end

/-- Two readings in one environment that differ at most in the text of a parameter. -/
structure Reading.Alike (q : Parameter) (r r' : Reading) : Prop where
  levels : List.Forall₂ (LevelAlike q) r.levels r'.levels
  environment : r.environment = r'.environment

theorem Varied.read (varied : Varied long false ws ws') (free : q.role = .value .any)
    (named : long ≠ "" ∧ '=' ∉ long.toList) (admits : g.Admits q long) :
    Agree (Reading.Alike q) (read e g ws) (read e g ws') :=
  (varied.readFrom free named admits (.start q g)).bind fun _ _ levels => .ok ⟨levels, rfl⟩

namespace Reading.Alike
variable {r r' : Reading} {p : Parameter}

theorem path (h : r.Alike q r') : r.path = r'.path := by
  have names : r.levels.map (·.1) = r'.levels.map (·.1) := by
    have levels := h.levels
    generalize r.levels = ls at levels
    generalize r'.levels = ls' at levels
    induction levels with
    | nil => rfl
    | cons first _ ih => rw [List.map_cons, List.map_cons, first.1, ih]
  rw [Reading.path, Reading.path, names]

/-- The same is given of all other parameters. -/
theorem given? (h : r.Alike q r') (other : p.key ≠ q.key) : r.given? p = r'.given? p := by
  have inside := List.forall₂_reverse_iff.2 h.levels
  unfold Reading.given?
  generalize r.levels.reverse = ls at inside
  generalize r'.levels.reverse = ls' at inside
  induction inside with
  | nil => rfl
  | cons first _ ih =>
    rcases lookup_alike first.2 p.key with same | ⟨own, -⟩
    · rw [List.findSome?_cons, List.findSome?_cons, same, ih]
    · exact absurd own other

theorem text? (h : r.Alike q r') (other : p.key ≠ q.key) : r.text? p = r'.text? p := by
  rw [Reading.text?, Reading.text?, h.given? other, h.environment]

theorem times (h : r.Alike q r') (other : p.key ≠ q.key) : r.times p = r'.times p := by
  rw [Reading.times, Reading.times, h.given? other]

end Reading.Alike
end
end BackupAdmin.Arguments
