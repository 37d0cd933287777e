import BackupAdmin.Proofs.Config.Editing

/-! Histories of edits. Main statement: whatever edits of profiles follow each other, from a place
without a configuration on, the default names a profile that is there, a profile is found without a
name as soon as there is one, and an edit of an unknown profile changes nothing. -/
namespace BackupAdmin

namespace Config
variable {c : Config} {name : String}

/-- There is a profile of this name. -/
def Has (c : Config) (name : String) : Prop := ∃ p, c.profiles.get? name = some p

theorem has_iff : c.Has name ↔ ∃ p, c.profile name = .ok p := by
  unfold Has profile
  cases c.profiles.get? name <;> simp

theorem profile_of_not_has (unknown : ¬ c.Has name) :
    c.profile name = .error (.profileNotFound name) := by
  have none : c.profiles.get? name = none := by
    simpa [Has, Option.eq_none_iff_forall_ne_some] using unknown
  rw [profile, none]

/-- The default, if there is one, names a profile. -/
def Sound (c : Config) : Prop := ∀ name ∈ c.defaultProfile, c.Has name

theorem sound_empty : ({} : Config).Sound := nofun

theorem Has.ne_nil (there : c.Has name) : c.profiles.entries ≠ [] := by
  obtain ⟨p, found⟩ := there
  intro none
  rw [Catalog.get?, none] at found
  contradiction

/-- Without a name there is a profile to use exactly when there is any profile. -/
theorem resolveProfile_none_iff (sound : c.Sound) :
    (∃ name, c.resolveProfile none = .ok name) ↔ c.profiles.entries ≠ [] := by
  obtain ⟨default, profiles⟩ := c
  cases default with
  | some name => exact ⟨fun _ => (sound name rfl).ne_nil, fun _ => ⟨name, rfl⟩⟩
  | none =>
    obtain ⟨entries, sorted⟩ := profiles
    cases entries with
    | nil => simp [resolveProfile]
    | cons e es => exact ⟨fun _ => List.cons_ne_nil e es, fun _ => ⟨e.1, rfl⟩⟩

/-- What is used without a name is there; it is the default, or the first by name. -/
theorem resolveProfile_none_cases (sound : c.Sound) (resolved : c.resolveProfile none = .ok name) :
    c.Has name ∧ (c.defaultProfile = some name ∨
      c.defaultProfile = none ∧ ∀ other, c.Has other → name ≤ other) := by
  obtain ⟨default, profiles⟩ := c
  cases default with
  | some d =>
    obtain rfl := Except.ok.inj resolved
    exact ⟨sound d rfl, .inl rfl⟩
  | none =>
    obtain ⟨entries, sorted⟩ := profiles
    cases entries with
    | nil => contradiction
    | cons e es =>
      obtain rfl : e.1 = name := Except.ok.inj resolved
      refine ⟨⟨e.2, List.lookup_cons_self⟩, .inr ⟨rfl, ?_⟩⟩
      rintro other ⟨p, found⟩
      rcases List.mem_cons.1 ((Catalog.lookup_eq_some_iff sorted).1 found) with rfl | later
      · exact String.le_refl other
      · have before := (List.pairwise_cons.1 sorted).1 _ later
        exact String.not_lt.1 fun after => String.lt_irrefl _ (String.lt_trans before after)

end Config

namespace ProfileCommand
variable {c : Config} {cmd : ProfileCommand} {name : String}

/-- A profile that has to be there is there. -/
def Finds (c : Config) : ProfileCommand → Prop
  | .remove name _ | .makeDefault name => c.Has name
  | .list | .path | .show _ | .set .. => True

theorem sound_edit (finds : cmd.Finds c) (sound : c.Sound) : (cmd.edit c).Sound := by
  cases cmd with
  | set n s =>
    have kept {d : String} (there : c.Has d ∨ d = n) : (c.withSettings n s).Has d := by
      rw [Config.Has, profiles_withSettings, Catalog.get?_insert]
      split
      · exact ⟨_, rfl⟩
      · next ne => exact there.resolve_right ne
    intro d default
    refine kept ?_
    unfold edit Config.withSettings at default
    dsimp only at default
    split at default
    · exact .inr (Option.some.inj default).symm
    · exact .inl (sound d default)
  | remove n confirmed =>
    intro d default
    obtain ⟨default, other⟩ := Option.filter_eq_some_iff.1 default
    obtain ⟨p, found⟩ := sound d default
    exact ⟨p, by rw [edit, Config.removeProfile, Catalog.get?_erase, if_neg (by simpa using other),
      found]⟩
  | makeDefault n =>
    rintro d ⟨⟩
    exact finds
  | _ => exact sound

variable {σ : Type} {m : Machine σ} {file said : String} {ls : List String} {choice : OutputChoice}
  {st st' : σ} {o : Outcome}

theorem saved_cases (ran : saved m (some file) c said ls st = (o, st')) :
    ∃ r, m.disk.save file c st = (r, st') := by
  obtain ⟨r, o', st₁, stored, ends, -⟩ := saved_run m file c said ls st
  obtain ⟨-, rfl⟩ := Prod.mk.inj (ran.symm.trans ends)
  exact ⟨r, stored⟩

/-- A command that edits a profile may ask; then it changes nothing, or it saves the edited
configuration, and the profile that it needs is there. -/
theorem run_cases (edits : cmd.edited? = some name)
    (ran : cmd.run m (some file) c choice st = (o, st')) :
    ∃ st₁, (st₁ = st ∨ ∃ question, st₁ = (m.ask question st).2) ∧
      (st' = st₁ ∨ cmd.Finds c ∧ ∃ r, m.disk.save file (cmd.edit c) st₁ = (r, st')) := by
  cases cmd with
  | set n s => exact ⟨st, .inl rfl, .inr ⟨trivial, saved_cases ran⟩⟩
  | makeDefault n =>
    refine ⟨st, .inl rfl, ?_⟩
    cases found : c.profile n with
    | error e =>
      simp only [run, found] at ran
      exact .inl (Prod.mk.inj ran).2.symm
    | ok p =>
      simp only [run, found] at ran
      exact .inr ⟨Config.has_iff.2 ⟨p, found⟩, saved_cases ran⟩
  | remove n confirmed =>
    cases found : c.profile n with
    | error e =>
      simp only [run, found] at ran
      exact ⟨st, .inl rfl, .inl (Prod.mk.inj ran).2.symm⟩
    | ok p =>
    simp only [run, found] at ran
    have there : c.Has n := Config.has_iff.2 ⟨p, found⟩
    cases confirmed with
    | true => exact ⟨st, .inl rfl, .inr ⟨there, saved_cases ran⟩⟩
    | false =>
      simp only [removal, bind, StateT.bind, Bool.false_eq_true, if_false] at ran
      split at ran
      next answer st₁ asked =>
        refine ⟨st₁, .inr ⟨_, (congrArg Prod.snd asked).symm⟩, ?_⟩
        split at ran
        · exact .inr ⟨there, saved_cases ran⟩
        · exact .inl (Prod.mk.inj ran).2.symm
  | _ => contradiction

end ProfileCommand
namespace Disk
variable {σ : Type} {d : Disk σ} {e : Environment} {path : String} {st st' : σ}

/-- What is loaded depends on nothing but what is read. -/
theorem load_eq (d : Disk σ) (e : Environment) (path : String) (st : σ) :
    d.load e path st = (match (d.read path st).1 with
      | none => .ok {}
      | some (.error f) => .error (.load path f.text)
      | some (.ok s) => Config.ofText e s, (d.read path st).2) := by
  simp only [load, bind, StateT.bind]
  generalize d.read path st = result
  obtain ⟨_ | _ | _, _⟩ := result <;> rfl

theorem load_congr (same : (d.read path st').1 = (d.read path st).1) :
    (d.load e path st').1 = (d.load e path st).1 := by
  rw [load_eq, load_eq, same]

end Disk

section
variable {σ : Type} {m : Machine σ} {e : Environment} {file : String} {st st' : σ}

/-- A configuration that cannot be saved leaves all files as they were. -/
def Machine.Atomic (m : Machine σ) : Prop := ∀ (path path' : String) (c : Config) (st st' : σ)
  (fault : ConfigError), m.disk.save path c st = (.error fault, st') →
    (m.disk.read path' st').1 = (m.disk.read path' st).1

/-- The states that edits of profiles lead to, from one without a configuration in the file. The
text of a configuration that may be saved is loaded as that configuration: no reference in it stands
for something else. -/
inductive Edited (m : Machine σ) (e : Environment) (file : String) : σ → Prop
  | start {st : σ} (nothing : (m.disk.load e file st).1 = .ok {}) : Edited m e file st
  | edit {st st' : σ} {now : Instant} {words : List String} {l : CommandLine}
      {cmd : ProfileCommand} {name : String} {o : Outcome} (before : Edited m e file st)
      (spelled : CommandLine.read e words = .ok l) (command : l.command = .profile cmd)
      (edits : cmd.edited? = some name) (here : l.place e = some file)
      (ran : Program.run m now e words st = some (o, st'))
      (reloads : ∀ c, (m.disk.load e file st).1 = .ok c → cmd.Finds c →
        Config.ofText e (cmd.edit c).text = .ok (cmd.edit c)) : Edited m e file st'

namespace Program
variable {now : Instant} {words : List String} {l : CommandLine} {cmd : ProfileCommand}
  {c : Config} {name : String} {o : Outcome}

/-- A run for a command about profiles is that command's, with the configuration in the file. -/
theorem run_loaded (spelled : CommandLine.read e words = .ok l)
    (command : l.command = .profile cmd) (here : l.place e = some file)
    (loaded : (m.disk.load e file st).1 = .ok c) (now : Instant) :
    run m now e words st = some (cmd.run m (some file) c l.output (m.disk.read file st).2) := by
  have load : CommandLine.load m e (some file) st = (.ok c, (m.disk.read file st).2) := by
    change m.disk.load e file st = _
    rw [Disk.load_eq] at loaded ⊢
    exact Prod.ext loaded rfl
  simp only [run, spelled, bind, StateT.bind, Machine.ending, here, load, Option.bind_some,
    CommandLine.run, command]

/-- An edit of an unknown profile is refused, and nothing is saved. -/
theorem run_unknown (spelled : CommandLine.read e words = .ok l)
    (command : l.command = .profile cmd)
    (needs : cmd = .makeDefault name ∨ ∃ confirmed, cmd = .remove name confirmed)
    (here : l.place e = some file) (loaded : (m.disk.load e file st).1 = .ok c)
    (unknown : ¬ c.Has name) (now : Instant) :
    run m now e words st = some ({ ending := .failed (.ofConfig (.profileNotFound name)) },
      (m.disk.read file st).2) := by
  rw [run_loaded spelled command here loaded]
  rcases needs with rfl | ⟨confirmed, rfl⟩ <;>
    rw [ProfileCommand.run, Config.profile_of_not_has unknown] <;> rfl

/-- One more edit leaves a configuration whose default names a profile. -/
theorem sound_run (regular : m.Regular) (atomic : m.Atomic)
    (spelled : CommandLine.read e words = .ok l) (command : l.command = .profile cmd)
    (edits : cmd.edited? = some name) (here : l.place e = some file)
    (ran : run m now e words st = some (o, st'))
    (loaded : (m.disk.load e file st).1 = .ok c) (sound : c.Sound)
    (reloads : cmd.Finds c → Config.ofText e (cmd.edit c).text = .ok (cmd.edit c)) :
    ∃ d, (m.disk.load e file st').1 = .ok d ∧ d.Sound := by
  rw [run_loaded spelled command here loaded] at ran
  obtain ⟨st₁, asks, ends⟩ := ProfileCommand.run_cases edits (Option.some.inj ran)
  have unread : (m.disk.read file st₁).1 = (m.disk.read file st).1 := by
    rcases asks with rfl | ⟨question, rfl⟩
    · exact regular.reading file file st
    · rw [regular.asking, regular.reading]
  rcases ends with rfl | ⟨finds, r, saved⟩
  · exact ⟨c, (Disk.load_congr unread).trans loaded, sound⟩
  cases r with
  | error fault =>
    have kept := atomic file file _ _ _ fault saved
    exact ⟨c, (Disk.load_congr (kept.trans unread)).trans loaded, sound⟩
  | ok =>
    have there := Disk.read_of_saved regular.writing saved
    refine ⟨cmd.edit c, ?_, ProfileCommand.sound_edit finds sound⟩
    rw [Disk.load_of_read there, reloads finds]

end Program

namespace Edited

theorem sound (regular : m.Regular) (atomic : m.Atomic) (history : Edited m e file st) :
    ∃ c, (m.disk.load e file st).1 = .ok c ∧ c.Sound := by
  induction history with
  | start nothing => exact ⟨{}, nothing, Config.sound_empty⟩
  | edit before spelled command edits here ran reloads ih =>
    obtain ⟨c, loaded, sound⟩ := ih
    exact Program.sound_run regular atomic spelled command edits here ran loaded sound
      (reloads c loaded)

/-- After any edits the default names a profile; a profile is resolved without a name exactly when
there is one, and it is the default or the first by name; and unknown profiles are refused. -/
theorem default_there (regular : m.Regular) (atomic : m.Atomic) (history : Edited m e file st) :
    ∃ c, (m.disk.load e file st).1 = .ok c ∧
      (∀ name ∈ c.defaultProfile, ∃ p, c.profile name = .ok p) ∧
      ((∃ name, c.resolveProfile none = .ok name) ↔ c.profiles.entries ≠ []) ∧
      (∀ name, c.resolveProfile none = .ok name → (∃ p, c.profile name = .ok p) ∧
        (c.defaultProfile = some name ∨
          c.defaultProfile = none ∧ ∀ other ∈ c.profiles.entries, name ≤ other.1)) ∧
      ∀ (now : Instant) (words : List String) (l : CommandLine) (cmd : ProfileCommand)
        (name : String), CommandLine.read e words = .ok l → l.command = .profile cmd →
        l.place e = some file →
        (cmd = .makeDefault name ∨ ∃ confirmed, cmd = .remove name confirmed) →
        c.profiles.get? name = none →
        Program.run m now e words st =
          some ({ ending := .failed (.ofConfig (.profileNotFound name)) },
            (m.disk.read file st).2) := by
  obtain ⟨c, loaded, sound⟩ := history.sound regular atomic
  refine ⟨c, loaded, ?_, ?_, ?_, ?_⟩
  · exact fun name default => Config.has_iff.1 (sound name default)
  · exact Config.resolveProfile_none_iff sound
  · intro name resolved
    obtain ⟨there, default | ⟨none, first⟩⟩ := Config.resolveProfile_none_cases sound resolved
    · exact ⟨Config.has_iff.1 there, .inl default⟩
    · refine ⟨Config.has_iff.1 there, .inr ⟨none, fun other mem => first other.1 ⟨other.2, ?_⟩⟩⟩
      exact (Catalog.lookup_eq_some_iff c.profiles.sorted).2 mem
  · intro now words l cmd name spelled command here needs unknown
    exact Program.run_unknown spelled command needs here loaded
      (by simp [Config.Has, unknown]) now

end Edited

end

/-- A machine with one file that can always be written, no network, and nobody to ask. -/
def slate : Machine (Option String) where
  disk :=
    { read := fun _ file => (file.map .ok, file)
      makeDirs := fun _ file => (.ok (), file)
      write := fun _ text _ => (.ok (), some text) }
  send _ file := (⟨none, 0⟩, file)
  ask _ file := ("", file)

theorem regular_slate : slate.Regular :=
  ⟨fun path text st st' written => by cases congrArg Prod.snd written; rfl, fun _ _ _ => rfl,
    fun _ _ _ => rfl⟩

theorem atomic_slate : slate.Atomic := fun path path' c st st' fault saved => by
  cases congrArg Prod.fst saved

/-- A command line for a command about profiles, with the configuration in that file. -/
def profileLine (command : ProfileCommand) : CommandLine :=
  ⟨none, some "c", .auto, none, 0, .profile command⟩

def profileWords (words : List String) : List String := "--config-file" :: "c" :: "profile" :: words

def setProfile (name : String) : ProfileCommand := .set name ⟨"p", defaultEndpoint, none, none, none⟩

section
variable {c : Config} {cmd : ProfileCommand} {words : List String} {name : String}
  {st : Option String}

/-- One more edit in that file, which then holds the text of the edited configuration. -/
theorem Edited.next (before : Edited slate ⟨[]⟩ "c" st)
    (loaded : (slate.disk.load ⟨[]⟩ "c" st).1 = .ok c)
    (spelled : CommandLine.read ⟨[]⟩ (profileWords words) = .ok (profileLine cmd))
    (edits : cmd.edited? = some name)
    (saves : (Program.run slate default ⟨[]⟩ (profileWords words) st).map (·.2) =
      some (some (cmd.edit c).text))
    (reloads : Config.ofText ⟨[]⟩ (cmd.edit c).text = .ok (cmd.edit c)) :
    Edited slate ⟨[]⟩ "c" (some (cmd.edit c).text) ∧
      (slate.disk.load ⟨[]⟩ "c" (some (cmd.edit c).text)).1 = .ok (cmd.edit c) := by
  obtain ⟨⟨o, st'⟩, ran, rfl⟩ := Option.map_eq_some_iff.1 saves
  refine ⟨.edit before spelled rfl edits rfl ran fun c' loaded' _ => ?_, ?_⟩
  · obtain rfl : c = c' := Except.ok.inj (loaded.symm.trans loaded')
    exact reloads
  · rw [Disk.load_eq]
    exact reloads

end

/-- The first profile is the default; when it is removed and another one is set, that one is; and the
one that was removed is not made the default again. -/
theorem default_there_again :
    ∃ st c, [["set", "a", "--project", "p"], ["remove", "a", "--yes"],
        ["set", "b", "--project", "p"]].foldlM (fun st words =>
          (Program.run slate default ⟨[]⟩ (profileWords words) st).map (·.2)) none = some st ∧
      (slate.disk.load ⟨[]⟩ "c" st).1 = .ok c ∧ c.defaultProfile = some "b" ∧
      (∃ p, c.profile "b" = .ok p) ∧
      (Program.run slate default ⟨[]⟩ (profileWords ["default", "a"]) st).map (·.1.ending) =
        some (.failed (.ofConfig (.profileNotFound "a"))) := by
  let c₁ := (setProfile "a").edit {}
  let c₂ := (ProfileCommand.remove "a" true).edit c₁
  let c₃ := (setProfile "b").edit c₂
  let run words st := (Program.run slate default ⟨[]⟩ (profileWords words) st).map (·.2)
  have saves₁ : run ["set", "a", "--project", "p"] none = some (some c₁.text) := by decide +kernel
  have saves₂ : run ["remove", "a", "--yes"] (some c₁.text) = some (some c₂.text) := by
    decide +kernel
  have saves₃ : run ["set", "b", "--project", "p"] (some c₂.text) = some (some c₃.text) := by
    decide +kernel
  have history : Edited slate ⟨[]⟩ "c" none := .start rfl
  obtain ⟨history, loaded⟩ : Edited slate ⟨[]⟩ "c" (some c₁.text) ∧ _ :=
    history.next rfl (by decide +kernel) rfl saves₁ (by decide +kernel)
  obtain ⟨history, loaded⟩ : Edited slate ⟨[]⟩ "c" (some c₂.text) ∧ _ :=
    history.next loaded (by decide +kernel) rfl saves₂ (by decide +kernel)
  obtain ⟨history, loaded⟩ : Edited slate ⟨[]⟩ "c" (some c₃.text) ∧ _ :=
    history.next loaded (by decide +kernel) rfl saves₃ (by decide +kernel)
  obtain ⟨c, loaded', named, -, -, unknown⟩ := history.default_there regular_slate atomic_slate
  obtain rfl : c₃ = c := Except.ok.inj (loaded.symm.trans loaded')
  have refused := unknown default (profileWords ["default", "a"])
    (profileLine (.makeDefault "a")) _ "a" (by decide +kernel) rfl rfl (.inl rfl)
    (by decide +kernel)
  refine ⟨_, c₃, ?_, loaded, rfl, named "b" rfl, by rw [refused]; rfl⟩
  have runs : [["set", "a", "--project", "p"], ["remove", "a", "--yes"],
      ["set", "b", "--project", "p"]].foldlM (fun st words => run words st) none =
        some (some c₃.text) := by
    rw [List.foldlM_cons, saves₁, Option.bind_eq_bind, Option.bind_some, List.foldlM_cons, saves₂,
      Option.bind_eq_bind, Option.bind_some, List.foldlM_cons, saves₃]
    rfl
  exact runs

end BackupAdmin
