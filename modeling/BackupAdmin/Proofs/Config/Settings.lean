import BackupAdmin.Proofs.Arguments.Spelling
import BackupAdmin.Proofs.Config.History

/-! Profiles that are set anew. Main statement: a profile has what its command line says of it, and
of what that does not say it keeps all but the endpoint. -/
namespace BackupAdmin
open Arguments

namespace Arguments
variable {α : Type} {args : List (Parameter × String)} {p : Parameter}

/-- A value is what an argument for a parameter says; without such an argument it is this one. -/
structure Updates (args : List (Parameter × String)) (p : Parameter) (meaning : String → Option α)
    (kept value : α) : Prop where
  given (v : String) (mem : (p, v) ∈ args) : meaning v = some value
  absent (none : ∀ v, (p, v) ∉ args) : value = kept

/-- What is made of the text of a parameter, where there is one, and of its absence. -/
theorem Updates.map {text : Option String} (updates : Updates args p (some ∘ some) none text)
    {meaning : String → Option α} {kept : α} {f : Option String → α}
    (some : ∀ v, (p, v) ∈ args → meaning v = some (f (some v))) (none : f none = kept) :
    Updates args p meaning kept (f text) := by
  refine ⟨fun v mem => ?_, fun absent => ?_⟩
  · obtain rfl := Option.some.inj (updates.given v mem)
    exact some v mem
  · rw [updates.absent absent, none]

end Arguments

/-- A profile is this one with what the arguments set, its endpoint being the usual one unless they
set it. -/
structure Profile.SetBy (args : List (Parameter × String)) (old new : Profile) : Prop where
  project (v : String) (mem : (CommandLine.projectOption, v) ∈ args) : new.project = v
  endpoint : Updates args CommandLine.endpointOption some defaultEndpoint new.endpoint
  accessToken : Updates args CommandLine.tokenOption (some ∘ some) old.accessToken new.accessToken
  defaultInstance :
    Updates args CommandLine.instanceOption (some ∘ some) old.defaultInstance new.defaultInstance
  pollInterval : Updates args CommandLine.pollIntervalOption positive? old.polling.pollInterval
    new.polling.pollInterval
  polling : new.polling = { old.polling with pollInterval := new.polling.pollInterval }

namespace CommandLine

/-- The command that sets a profile. -/
def setGrammar : Grammar :=
  innerCommand "set" ["add", "create"]
    [projectOption, endpointOption, tokenOption, instanceOption, pollIntervalOption] [nameArgument]

theorem leaf_setGrammar : setGrammar.Leaf := ⟨rfl, by decide +kernel⟩

theorem child_profile : grammar.child? "profile" = some profileGrammar := by rfl

theorem child_set : profileGrammar.child? "set" = some setGrammar := by rfl

/-- What is read of a command line for that command, on which nothing stands in front of it. -/
def setReading (e : Environment) (given : List (String × Given)) : Reading :=
  ⟨[(Program.name, []), ("profile", []), ("set", given)], e⟩

variable {e : Environment} {words : List String} {args : List (Parameter × String)}
  {l : CommandLine} {name : String}

/-- Words behind the command that spell arguments are read as just these. -/
theorem read_set (spells : Spells setGrammar setGrammar.positionals words args)
    (spelled : read e ("profile" :: "set" :: words) = .ok l) :
    ∃ given, Reads args given ∧ l = ofReading (setReading e given) := by
  obtain ⟨r, read, same⟩ := bind_eq_ok spelled
  obtain rfl := Except.ok.inj same
  obtain ⟨levels, outermost, same⟩ := bind_eq_ok read
  obtain rfl := Except.ok.inj same
  obtain ⟨_, rfl, outer⟩ := readFrom_inner child_profile rfl outermost
  obtain ⟨_, rfl, inner⟩ := readFrom_inner child_set rfl outer
  obtain ⟨given, rfl, reads⟩ := spells.reads leaf_setGrammar (behind_start setGrammar) inner
  exact ⟨given, reads, rfl⟩

/-- The text of a parameter is that of its argument. -/
theorem updates_text (spells : Spells setGrammar setGrammar.positionals words args)
    {given : List (String × Given)} (reads : Reads args given) {p : Parameter}
    (own : p ∈ setGrammar.options ++ setGrammar.positionals) (explicit : p.envVar = none) :
    Updates args p (some ∘ some) none ((setReading e given).text? p) := by
  have keyed : ((setGrammar.options ++ setGrammar.positionals).map (·.key)).Nodup := by
    decide +kernel
  refine ⟨fun v mem => ?_, fun absent => ?_⟩
  · simp [Reading.text?, Reading.given?, setReading, reads.lookup_of_mem mem]
  · have nothing := spells.lookup_of_absent reads keyed own absent
    simp [Reading.text?, Reading.given?, setReading, nothing, explicit, List.findSome?_cons]

/-- A profile is set to what the words say of it. -/
theorem command_set (spells : Spells setGrammar setGrammar.positionals words args)
    (named : (nameArgument, name) ∈ args)
    (spelled : read e ("profile" :: "set" :: words) = .ok l) :
    ∃ s, l.command = .profile (.set name s) ∧ ∀ old, Profile.SetBy args old (s.apply (some old)) := by
  obtain ⟨given, reads, rfl⟩ := read_set spells spelled
  have text {p : Parameter} := @updates_text e words args spells given reads p
  have own : (setReading e given).text? nameArgument = some name :=
    (Option.some.inj ((text (by decide +kernel) rfl).given name named)).symm
  refine ⟨settingsOf (setReading e given), ?_, fun old => ⟨fun v mem => ?_, ?_, ?_, ?_, ?_, rfl⟩⟩
  · change Command.profile (.set (((setReading e given).text? nameArgument).getD "") _) = _
    rw [own]
    rfl
  · have project : (setReading e given).text? projectOption = some v :=
      (Option.some.inj ((text (by decide +kernel) rfl).given v mem)).symm
    change ((setReading e given).text? projectOption).getD "" = v
    rw [project]
    rfl
  · exact (text (by decide +kernel) rfl).map (f := (·.getD defaultEndpoint)) (fun _ _ => rfl) rfl
  · exact (text (by decide +kernel) rfl).map (f := (· <|> old.accessToken)) (fun _ _ => rfl) rfl
  · exact (text (by decide +kernel) rfl).map (f := (· <|> old.defaultInstance)) (fun _ _ => rfl) rfl
  · refine (text (by decide +kernel) rfl).map
      (f := fun v => (v.bind positive?).getD old.polling.pollInterval) (fun v mem => ?_) rfl
    obtain ⟨n, number⟩ : ∃ n, positive? v = some n :=
      Option.isSome_iff_exists.1 (reads.allowed _ mem .positive rfl)
    simp [number]

end CommandLine

section
variable {σ : Type} {m : Machine σ} {c : Config} {st st' : σ} {e : Environment}
  {words : List String} {args : List (Parameter × String)} {l : CommandLine}
  {file name t : String} {old : Profile}

/-- Where a profile is there already, no other one becomes the default. -/
theorem Config.default_withSettings (stored : c.profiles.get? name = some old)
    (s : ProfileSettings) : (c.withSettings name s).defaultProfile = c.defaultProfile := by
  have some : c.profiles.isEmpty = false := by
    simpa [Catalog.isEmpty] using Config.Has.ne_nil ⟨old, stored⟩
  rw [withSettings, some]
  rfl

namespace Program

/-- A profile that is set again is saved with what the words say of it. It keeps its token, its
instance and its polling where they say nothing of them, but never its endpoint; other profiles and
the default stay as they were loaded. -/
theorem set_updates (faithful : m.disk.Faithful)
    (spells : Spells CommandLine.setGrammar CommandLine.setGrammar.positionals words args)
    (named : (CommandLine.nameArgument, name) ∈ args)
    (spelled : CommandLine.read e ("profile" :: "set" :: words) = .ok l)
    (here : l.place e = some file) (there : (m.disk.read file st).1 = some (.ok t))
    (loaded : Config.ofText e t = .ok c) (stored : c.profiles.get? name = some old)
    (now : Instant) :
    ∃ edited new, edited.profiles.get? name = some new ∧ Profile.SetBy args old new ∧
      (∀ q ≠ name, edited.profiles.get? q = c.profiles.get? q) ∧
      edited.defaultProfile = c.defaultProfile ∧ (e.expand t = t → Config.literal? t = some c) ∧
      ∃ r o st', m.disk.save file edited (m.disk.read file st).2 = (r, st') ∧
        run m now e ("profile" :: "set" :: words) st = some (o, st') ∧
        (o.ending = .done ↔ r = .ok ()) ∧
        (r = .ok () → ∃ t', (m.disk.read file st').1 = some (.ok t') ∧
          Config.literal? t' = some edited) := by
  obtain ⟨s, command, sets⟩ := CommandLine.command_set spells named spelled
  have literal : Config.literal? (e.expand t) = some c := Config.literal?_of_ofText loaded
  have fits : (ProfileCommand.edit c (.set name s)).Fits :=
    ProfileCommand.fits_edit (CommandLine.fits_of_read spelled command)
      (Config.fits_of_literal? literal)
  have others : ∀ q ≠ name,
      (ProfileCommand.edit c (.set name s)).profiles.get? q = c.profiles.get? q :=
    fun q ne => ProfileCommand.get?_edit rfl ne
  obtain ⟨r, o, st', saved, ran, done⟩ := ProfileCommand.saved_run m file (c.withSettings name s) ""
    (("Profile '" ++ name ++ "' saved successfully.") ::
      if c.profiles.isEmpty then ["Set as default profile."] else []) (m.disk.read file st).2
  refine ⟨c.withSettings name s, s.apply (some old), ?_, sets old, others,
    Config.default_withSettings stored s, fun plain => by rwa [plain] at literal, r, o, st', saved,
    ?_, done, ?_⟩
  · rw [ProfileCommand.profiles_withSettings, Catalog.get?_insert, if_pos rfl, stored]
  · have read : (m.disk.load e file st).1 = .ok c := by rw [Disk.load_of_read there, loaded]
    rw [run_loaded spelled command here read now]
    exact congrArg some ran
  · rintro rfl
    exact ⟨_, Disk.read_of_saved faithful saved, Config.literal?_text fits⟩

/-- A profile with a token, at an endpoint of its own. -/
def localProfile : Profile := { project := "p", endpoint := "http://h:1", accessToken := "t" }

def localConfig : Config :=
  { defaultProfile := "a", profiles := Catalog.empty.insert "a" localProfile }

/-- The words that set nothing but the project of that profile. -/
def projectWords : List String := ["a", "--project=p2", "--config-file", "c"]

def projectArguments : List (Parameter × String) :=
  [(CommandLine.nameArgument, "a"), (CommandLine.projectOption, "p2"),
    (CommandLine.configFileOption, "c")]

theorem spells_projectWords : Spells CommandLine.setGrammar CommandLine.setGrammar.positionals
    projectWords projectArguments := by
  have plain {v : String} (first : v.toList.head? ≠ some '-') : IsPlain v := fun c cs same =>
    first (by rw [same]; rfl)
  have place : Spells CommandLine.setGrammar [] ["--config-file", "c"]
      [(CommandLine.configFileOption, "c")] :=
    @Spells.apart _ _ _ "config-file" _ _ _ rfl rfl (plain (v := "c") (by decide)) (.nil [])
  have project := @Spells.attached _ _ _ "project" "p2" _ _ rfl rfl place
  exact .alone (plain (v := "a") (by decide)) rfl project

def projectLine : CommandLine :=
  ⟨none, some "c", .auto, none, 0, .profile (.set "a" ⟨"p2", defaultEndpoint, none, none, none⟩)⟩

/-- The run that sets it. -/
def runProject : Option (Outcome × Memory.Files) :=
  run desk default ⟨[]⟩ ("profile" :: "set" :: projectWords)
    [(["c"], .file (some localConfig.text))]

/-- The project is new; the token, the polling and the default are kept. -/
theorem set_updates_project : ∃ o st' t' edited new, runProject = some (o, st') ∧
    o.ending = .done ∧ (desk.disk.read "c" st').1 = some (.ok t') ∧
    Config.literal? t' = some edited ∧ edited.defaultProfile = some "a" ∧
    edited.profiles.get? "a" = some new ∧ new.project = "p2" ∧ new.accessToken = some "t" ∧
    new.polling = {} := by
  have spelled : CommandLine.read ⟨[]⟩ ("profile" :: "set" :: projectWords) = .ok projectLine := by
    decide +kernel
  have there : (desk.disk.read "c" [(["c"], .file (some localConfig.text))]).1 =
      some (.ok localConfig.text) := by decide +kernel
  have loaded : Config.ofText ⟨[]⟩ localConfig.text = .ok localConfig := by decide +kernel
  have ends : runProject.map (·.1.ending) = some .done := by decide +kernel
  have named : (CommandLine.nameArgument, "a") ∈ projectArguments := by decide
  have stored : localConfig.profiles.get? "a" = some localProfile := by decide +kernel
  have unnamed {p : Parameter} (others : p ∉ projectArguments.map (·.1)) (v : String) :
      (p, v) ∉ projectArguments := fun mem => others (List.mem_map_of_mem mem)
  obtain ⟨edited, new, found, sets, -, default, -, r, o, st', -, ran, done, written⟩ :=
    set_updates Memory.Files.faithful_disk spells_projectWords named spelled rfl there loaded stored
      default
  have ending : o.ending = .done := by
    have ran : runProject = some (o, st') := ran
    simpa [ran] using ends
  obtain ⟨t', read, spells⟩ := written (done.1 ending)
  have interval := sets.pollInterval.absent (unnamed (by decide))
  exact ⟨o, st', t', edited, new, ran, ending, read, spells, default, found,
    sets.project "p2" (by decide), sets.accessToken.absent (unnamed (by decide)),
    by rw [sets.polling, interval]; rfl⟩

/-- The profile of that name in a text as it stands. -/
def profileIn (t : String) : Option Profile := (Config.literal? t).bind (·.profiles.get? "a")

/-- The endpoint is not kept, though the words say nothing of it. -/
theorem set_loses_endpoint :
    profileIn localConfig.text = some localProfile ∧ localProfile.endpoint = "http://h:1" ∧
      runProject.bind (fun (o, st) => if o.ending = .done then
        (desk.disk.read "c" st).1.bind fun t => t.toOption.bind profileIn else none) =
        some { localProfile with
          project := "p2", endpoint := "https://spanner.googleapis.com" } := by
  decide +kernel

end Program
end
end BackupAdmin
