import BackupAdmin.Command.Run
import BackupAdmin.Proofs.Config.Saving

/-! Files whose profiles are edited. Main statement: a command that edits one profile writes the
others as they were loaded, that is, with their references replaced. -/
namespace BackupAdmin

/-- The interval that is set is a number of at most 64 bits. -/
def ProfileSettings.Fits (s : ProfileSettings) : Prop := ∀ n ∈ s.pollInterval, n < UInt64.size

namespace ProfileCommand

def Fits : ProfileCommand → Prop
  | .set _ s => s.Fits
  | _ => True

/-- The profile that a command edits. -/
def edited? : ProfileCommand → Option String
  | .set name _ | .remove name _ | .makeDefault name => some name
  | .list | .path | .show _ => none

/-- The configuration that a command makes of another one. -/
def edit (c : Config) : ProfileCommand → Config
  | .set name s => c.withSettings name s
  | .remove name _ => c.removeProfile name
  | .makeDefault name => { c with defaultProfile := some name }
  | .list | .path | .show _ => c

variable {c : Config} {cmd : ProfileCommand} {name : String}

theorem profiles_withSettings (c : Config) (name : String) (s : ProfileSettings) :
    (c.withSettings name s).profiles = c.profiles.insert name (s.apply (c.profiles.get? name)) := by
  unfold Config.withSettings
  dsimp only
  split <;> rfl

/-- An edited configuration has the other profiles as they were. -/
theorem get?_edit (edits : cmd.edited? = some name) {q : String} (ne : q ≠ name) :
    (cmd.edit c).profiles.get? q = c.profiles.get? q := by
  cases cmd with
  | set n s =>
    obtain rfl := Option.some.inj edits
    rw [edit, profiles_withSettings, Catalog.get?_insert, if_neg ne]
  | remove n confirmed =>
    obtain rfl := Option.some.inj edits
    rw [edit, Config.removeProfile, Catalog.get?_erase, if_neg ne]
  | _ => rfl

theorem fits_apply {s : ProfileSettings} {old : Option Profile} (bounded : s.Fits)
    (fits : ∀ p ∈ old, p.polling.Fits) : (s.apply old).polling.Fits := by
  have before : (old.getD { project := s.project }).polling.Fits := by
    cases old with
    | none => exact Polling.fits_default
    | some p => exact fits p rfl
  have interval : s.pollInterval.getD (old.getD { project := s.project }).polling.pollInterval <
      UInt64.size := by
    cases given : s.pollInterval with
    | none => exact before _ List.mem_cons_self
    | some n => exact bounded n given
  exact List.forall_mem_cons.2 ⟨interval, (List.forall_mem_cons.1 before).2⟩

theorem fits_edit (bounded : cmd.Fits) (fits : c.Fits) : (cmd.edit c).Fits := by
  cases cmd with
  | set n s =>
    have old : ∀ p ∈ c.profiles.get? n, p.polling.Fits := fun p found =>
      fits (n, p) ((Catalog.lookup_eq_some_iff c.profiles.sorted).1 found)
    rw [edit, Config.Fits, profiles_withSettings]
    exact Catalog.forall_insert fits (fits_apply bounded old)
  | remove n confirmed => exact fun e mem => fits e (List.mem_of_mem_filter mem)
  | _ => exact fits

end ProfileCommand

section
variable {σ : Type} {m : Machine σ} {place : Option String} {c : Config} {st st' : σ} {o : Outcome}

namespace ProfileCommand
variable {cmd : ProfileCommand} {name said : String} {ls : List String} {choice : OutputChoice}

/-- A command that saves a configuration ends well exactly when that is saved. -/
theorem saved_run (m : Machine σ) (file : String) (c : Config) (said : String) (ls : List String)
    (st : σ) : ∃ r o st', m.disk.save file c st = (r, st') ∧
      saved m (some file) c said ls st = (o, st') ∧ (o.ending = .done ↔ r = .ok ()) := by
  simp only [saved, bind, StateT.bind]
  obtain ⟨r, st'⟩ := m.disk.save file c st
  cases r with
  | error fault => exact ⟨_, _, st', rfl, rfl, nofun, nofun⟩
  | ok => exact ⟨_, _, st', rfl, rfl, fun _ => rfl, fun _ => rfl⟩

/-- A command that says that it has saved a configuration has saved it. -/
theorem saved_done (ran : saved m place c said ls st = (o, st')) (done : o.ending = .done) :
    ∃ file, place = some file ∧ m.disk.save file c st = (.ok (), st') := by
  cases place with
  | none =>
    obtain ⟨rfl, -⟩ := Prod.mk.inj ran
    contradiction
  | some file =>
    obtain ⟨r, o', st₁, stored, ends, success⟩ := saved_run m file c said ls st
    obtain ⟨rfl, rfl⟩ := Prod.mk.inj (ran.symm.trans ends)
    obtain rfl := success.1 done
    exact ⟨file, rfl, stored⟩

/-- A command for a profile that has to be there, and succeeds, has found it. -/
theorem found_of_done {n : String} {x : StateM σ Outcome}
    (ran : (match c.profile n with
      | .ok _ => x
      | .error e => return { ending := .failed (.ofConfig e) }) st = (o, st'))
    (done : o.ending = .done) : x st = (o, st') := by
  cases found : c.profile n with
  | ok p => rwa [found] at ran
  | error e =>
    rw [found] at ran
    obtain ⟨rfl, -⟩ := Prod.mk.inj ran
    contradiction

theorem removal_done {n : String} {confirmed : Bool}
    (ran : removal m place c n confirmed st = (o, st')) (done : o.ending = .done) :
    (confirmed = false ∧ ∃ question, st' = (m.ask question st).2) ∨
      ∃ file st₁, place = some file ∧ m.disk.save file (c.removeProfile n) st₁ = (.ok (), st') := by
  cases confirmed with
  | true =>
    obtain ⟨file, here, saved⟩ := saved_done ran done
    exact .inr ⟨file, st, here, saved⟩
  | false =>
    simp only [removal, bind, StateT.bind, Bool.false_eq_true, if_false] at ran
    split at ran
    next answer st₁ asked =>
      split at ran
      · obtain ⟨file, here, saved⟩ := saved_done ran done
        exact .inr ⟨file, st₁, here, saved⟩
      · obtain ⟨-, rfl⟩ := Prod.mk.inj ran
        exact .inl ⟨rfl, _, (congrArg Prod.snd asked).symm⟩

/-- A command that edits a profile and succeeds has saved the edited configuration, unless the
person who was asked did not agree. -/
theorem run_edit (edits : cmd.edited? = some name)
    (ran : cmd.run m place c choice st = (o, st')) (done : o.ending = .done) :
    (cmd = .remove name false ∧ ∃ question, st' = (m.ask question st).2) ∨
      ∃ file st₁, place = some file ∧ m.disk.save file (cmd.edit c) st₁ = (.ok (), st') := by
  cases cmd with
  | set n s =>
    obtain ⟨file, here, saved⟩ := saved_done ran done
    exact .inr ⟨file, st, here, saved⟩
  | remove n confirmed =>
    obtain rfl := Option.some.inj edits
    refine (removal_done (found_of_done ran done) done).imp_left ?_
    rintro ⟨rfl, declined⟩
    exact ⟨rfl, declined⟩
  | makeDefault n =>
    obtain ⟨file, here, saved⟩ := saved_done (found_of_done ran done) done
    exact .inr ⟨file, st, here, saved⟩
  | _ => contradiction

end ProfileCommand

namespace Machine

/-- Reading and asking change no files, and what was written is what is read right after. -/
structure Regular (m : Machine σ) : Prop where
  writing : m.disk.Faithful
  reading (path path' : String) (st : σ) :
    (m.disk.read path (m.disk.read path' st).2).1 = (m.disk.read path st).1
  asking (path question : String) (st : σ) :
    (m.disk.read path (m.ask question st).2).1 = (m.disk.read path st).1

end Machine

namespace CommandLine

theorem lt_of_positive? {s : String} {n : Nat} (read : Arguments.positive? s = some n) :
    n < UInt64.size := by
  have both := (Option.filter_eq_some_iff.1 read).2
  exact of_decide_eq_true (Bool.and_eq_true_iff.1 both).2

theorem fits_settingsOf (r : Arguments.Reading) : (settingsOf r).Fits := by
  intro n given
  obtain ⟨s, -, read⟩ := Option.bind_eq_some_iff.1 given
  exact lt_of_positive? read

/-- An interval on the command line is a number of at most 64 bits. -/
theorem fits_of_read {e : Environment} {words : List String} {l : CommandLine}
    {cmd : ProfileCommand} (spelled : read e words = .ok l) (command : l.command = .profile cmd) :
    cmd.Fits := by
  have reading : ∃ r, l = ofReading r := by
    simp only [read, bind, Except.bind] at spelled
    split at spelled
    · contradiction
    · next r _ => exact ⟨r, (Except.ok.inj spelled).symm⟩
  obtain ⟨r, rfl⟩ := reading
  have own : ∃ word, cmd = profileCommandOf r word := by
    simp only [ofReading, commandOf] at command
    split at command
    · next word _ _ => exact ⟨word, (Command.profile.inj command).symm⟩
    all_goals contradiction
  obtain ⟨word, rfl⟩ := own
  unfold profileCommandOf
  dsimp only
  split
  case h_3 => exact fits_settingsOf r
  all_goals trivial

end CommandLine

namespace Program
variable {now : Instant} {e : Environment} {words : List String} {l : CommandLine}
  {cmd : ProfileCommand} {file name t : String}

/-- A run for a command about profiles that succeeds is that command's, with the configuration
that is in the file. -/
theorem run_profile (spelled : CommandLine.read e words = .ok l)
    (command : l.command = .profile cmd) (here : l.place e = some file)
    (there : (m.disk.read file st).1 = some (.ok t))
    (ran : run m now e words st = some (o, st')) (done : o.ending = .done) :
    ∃ c, Config.ofText e t = .ok c ∧
      cmd.run m (some file) c l.output (m.disk.read file st).2 = (o, st') := by
  have loaded : CommandLine.load m e (l.place e) st =
      (Config.ofText e t, (m.disk.read file st).2) := by
    rw [here]
    exact Disk.load_of_read there
  simp only [run, spelled, bind, StateT.bind, Machine.ending, Option.bind_some, loaded] at ran
  cases read : Config.ofText e t with
  | error fault =>
    simp only [read] at ran
    obtain ⟨rfl, -⟩ := Prod.mk.inj (Option.some.inj ran)
    contradiction
  | ok c =>
    refine ⟨c, rfl, ?_⟩
    simp only [read, CommandLine.run, command, here] at ran
    exact Option.some.inj ran

/-- What the file says after a successful command for one profile. Where a removal was declined it
stays as it is. Otherwise it has the other profiles as they were loaded, with their references
replaced; they are as they stood in the file when expansion leaves its text as it is. -/
theorem edit_others (regular : m.Regular) (spelled : CommandLine.read e words = .ok l)
    (command : l.command = .profile cmd) (edits : cmd.edited? = some name)
    (here : l.place e = some file) (there : (m.disk.read file st).1 = some (.ok t))
    (ran : run m now e words st = some (o, st')) (done : o.ending = .done) :
    ∃ c t', Config.ofText e t = .ok c ∧ (m.disk.read file st').1 = some (.ok t') ∧
      ((cmd = .remove name false ∧ t' = t) ∨ ∃ new, Config.literal? t' = some new ∧
        ∀ q ≠ name, new.profiles.get? q = c.profiles.get? q) ∧
      (e.expand t = t → ∃ old new, Config.literal? t = some old ∧ Config.literal? t' = some new ∧
        ∀ q ≠ name, new.profiles.get? q = old.profiles.get? q) := by
  obtain ⟨c, loaded, ran⟩ := run_profile spelled command here there ran done
  have expanded : Config.literal? (e.expand t) = some c := Config.literal?_of_ofText loaded
  rcases ProfileCommand.run_edit edits ran done with
    ⟨removes, question, rfl⟩ | ⟨file', st₁, same, saved⟩
  · have kept : (m.disk.read file (m.ask question (m.disk.read file st).2).2).1 = some (.ok t) := by
      rw [regular.asking, regular.reading, there]
    refine ⟨c, t, loaded, kept, .inl ⟨removes, rfl⟩, fun plain => ?_⟩
    rw [plain] at expanded
    exact ⟨c, c, expanded, expanded, fun q _ => rfl⟩
  · obtain rfl := Option.some.inj same
    have fits := ProfileCommand.fits_edit (CommandLine.fits_of_read spelled command)
      (Config.fits_of_literal? expanded)
    have written := Disk.read_of_saved regular.writing saved
    have spells := Config.literal?_text fits
    have others : ∀ q ≠ name, (cmd.edit c).profiles.get? q = c.profiles.get? q :=
      fun q ne => ProfileCommand.get?_edit edits ne
    refine ⟨c, (cmd.edit c).text, loaded, written, .inr ⟨cmd.edit c, spells, others⟩,
      fun plain => ?_⟩
    rw [plain] at expanded
    exact ⟨c, cmd.edit c, expanded, spells, others⟩

/-- A machine with files in memory, no network, and a person who agrees. -/
def desk : Machine Memory.Files where
  disk := Memory.Files.disk
  send _ files := (⟨none, 0⟩, files)
  ask _ files := ("y\n", files)

theorem regular_desk : desk.Regular :=
  ⟨Memory.Files.faithful_disk, fun _ _ _ => rfl, fun _ _ _ => rfl⟩

/-- Two profiles, one of them with this token. -/
def twoProfiles (token : String) : String :=
  "[profiles.a]\nproject = \"p\"\naccess_token = \"" ++ token ++
    "\"\n\n[profiles.b]\nproject = \"p\"\n"

def deskVars : Environment := ⟨[("T", "x")]⟩
def defaultWords : List String := ["--config-file", "c", "profile", "default", "b"]

/-- The run that makes the other profile the default, where `T` is set and `U` is not. -/
def runDefault (token : String) : Option (Outcome × Memory.Files) :=
  run desk default deskVars defaultWords [(["c"], .file (some (twoProfiles token)))]

/-- A reference to a variable that is not set stays. -/
theorem edit_others_unset : ∃ o st' t' old new, runDefault "${U}" = some (o, st') ∧
    o.ending = .done ∧ (desk.disk.read "c" st').1 = some (.ok t') ∧
    Config.literal? (twoProfiles "${U}") = some old ∧ Config.literal? t' = some new ∧
    new.profiles.get? "a" = old.profiles.get? "a" := by
  have parts : (CommandLine.read deskVars defaultWords).toOption.map
      (fun l => (l.command, l.configFile)) = some (.profile (.makeDefault "b"), some "c") := by
    decide +kernel
  have ends : (runDefault "${U}").map (·.1.ending) = some .done := by decide +kernel
  have there : (desk.disk.read "c" [(["c"], .file (some (twoProfiles "${U}")))]).1 =
      some (.ok (twoProfiles "${U}")) := by decide +kernel
  have plain : deskVars.expand (twoProfiles "${U}") = twoProfiles "${U}" := by decide +kernel
  obtain ⟨⟨o, st'⟩, ran, done⟩ := Option.map_eq_some_iff.1 ends
  cases spelled : CommandLine.read deskVars defaultWords with
  | error f => simp [spelled, Except.toOption] at parts
  | ok l =>
    obtain ⟨command, named⟩ :
        l.command = .profile (.makeDefault "b") ∧ l.configFile = some "c" := by
      simpa [spelled, Except.toOption] using parts
    have here : l.place deskVars = some "c" := by
      rw [CommandLine.place, named]
      rfl
    obtain ⟨c, t', -, written, -, others⟩ :=
      edit_others regular_desk spelled command rfl here there ran done
    obtain ⟨old, new, before, after, same⟩ := others plain
    exact ⟨o, st', t', old, new, ran, done, written, before, after, same "a" (by decide)⟩

/-- The token of the profile `a` in a text as it stands. -/
def tokenIn (t : String) : Option String :=
  ((Config.literal? t).bind (·.profiles.get? "a")).bind (·.accessToken)

/-- The reference of a profile that is not edited is replaced by the value of the variable. -/
theorem edit_others_set :
    tokenIn (twoProfiles "${T}") = some "${T}" ∧
      (runDefault "${T}").bind (fun (o, st) => if o.ending = .done then
        (desk.disk.read "c" st).1.bind fun t => t.toOption.bind tokenIn else none) = some "x" := by
  decide +kernel

end Program

end

end BackupAdmin
