import BackupAdmin.Command.Replay

/-! Where the settings to connect with come from. Main statement: a configuration named on the
command line decides alone; otherwise three variables may each replace what the profile stores, and
the environment stands alone only where there is no profile. -/
namespace BackupAdmin

namespace Environment

/-- Both environments give these variables the same values. -/
def AgreeOn (vars : List String) (e e' : Environment) : Prop := ∀ v ∈ vars, e.get? v = e'.get? v

/-- The variables that may replace settings of a profile. -/
def connectionVars : List String := [projectVar, endpointVar, tokenVar]

end Environment

namespace Credential
variable {e : Environment} {stored var v : String}

theorem reveal_eq_ok_iff : reveal stored = .ok v ↔ isReference stored = false ∧ stored = v := by
  unfold reveal isReference
  cases keyOf? stored <;> simp

/-- A value can be read if a variable replaces it or it is no reference. -/
theorem resolve_eq_ok_iff : resolve e stored var = .ok v ↔
    (e.get? var = none → isReference stored = false) ∧ (e.get? var).getD stored = v := by
  cases set : e.get? var with
  | none => simp [resolve_of_get?_eq_none set, reveal_eq_ok_iff]
  | some value => simp [resolve_of_get?_eq_some set]

end Credential

namespace Profile
variable {p : Profile} {e : Environment}

/-- What a profile stores that variables may replace, each with its variable. -/
def replaceable (p : Profile) : List (String × String) :=
  (Environment.projectVar, p.project) :: (Environment.endpointVar, p.endpoint) ::
    p.accessToken.toList.map (Environment.tokenVar, ·)

/-- Every reference to a keyring is hidden by the variable of its own setting. -/
def Readable (p : Profile) (e : Environment) : Prop :=
  ∀ s ∈ p.replaceable, e.get? s.1 = none → Credential.isReference s.2 = false

/-- The settings of a profile, with the values of variables that are set in place of its own. -/
def settingsIn (p : Profile) (e : Environment) (name : String) : Connection where
  profile := some name
  project := (e.get? Environment.projectVar).getD p.project
  endpoint := (e.get? Environment.endpointVar).getD p.endpoint
  token := e.get? Environment.tokenVar <|> p.accessToken
  defaultInstance := p.defaultInstance
  polling := p.polling

theorem resolveToken_eq_ok_iff {t : Option String} : p.resolveToken e = .ok t ↔
    (∀ stored ∈ p.accessToken, e.get? Environment.tokenVar = none →
      Credential.isReference stored = false) ∧
    (e.get? Environment.tokenVar <|> p.accessToken) = t := by
  unfold resolveToken
  cases p.accessToken with
  | none => cases e.get? Environment.tokenVar <;> simp
  | some stored =>
    cases set : e.get? Environment.tokenVar with
    | some value => simp [Credential.resolve_of_get?_eq_some set]
    | none =>
      dsimp only
      rw [Credential.resolve_of_get?_eq_none set]
      unfold Credential.reveal Credential.isReference
      cases found : Credential.keyOf? stored <;> simp [found]

end Profile

namespace Connection
variable {c : Config} {asked : Option String} {e e' : Environment} {name : String} {p : Profile}
  {k : Connection}

/-- A profile gives settings exactly when no reference is left in it. -/
theorem ofProfile_eq_ok_iff : ofProfile e name p = .ok k ↔ p.Readable e ∧ k = p.settingsIn e name := by
  have parts : ofProfile e name p = .ok k ↔ ∃ project endpoint token,
      p.resolveProject e = .ok project ∧ p.resolveEndpoint e = .ok endpoint ∧
      p.resolveToken e = .ok token ∧
      k = ⟨some name, project, endpoint, token, p.defaultInstance, p.polling⟩ := by
    unfold ofProfile
    cases p.resolveProject e <;> cases p.resolveEndpoint e <;> cases p.resolveToken e <;>
      simp [bind, Except.bind, pure, Except.pure, eq_comm]
  simp only [parts, Profile.resolveProject, Profile.resolveEndpoint, Credential.resolve_eq_ok_iff,
    Profile.resolveToken_eq_ok_iff, Profile.Readable, Profile.replaceable, Profile.settingsIn,
    List.forall_mem_cons, List.forall_mem_map, Option.mem_toList]
  constructor
  · rintro ⟨_, _, _, ⟨project, rfl⟩, ⟨endpoint, rfl⟩, ⟨token, rfl⟩, rfl⟩
    exact ⟨⟨project, endpoint, token⟩, rfl⟩
  · rintro ⟨⟨project, endpoint, token⟩, rfl⟩
    exact ⟨_, _, _, ⟨project, rfl⟩, ⟨endpoint, rfl⟩, ⟨token, rfl⟩, rfl⟩

/-- There is no profile to use exactly when none is named, by the caller or as the default, and
none exists. -/
theorem resolveProfile_eq_error_iff {fault : ConfigError} : c.resolveProfile asked = .error fault ↔
    fault = .noProfiles Config.creationAdvice ∧ asked = none ∧ c.defaultProfile = none ∧
      c.profiles.entries = [] := by
  unfold Config.resolveProfile
  cases asked <;> cases c.defaultProfile <;> cases c.profiles.entries <;> simp [eq_comm]

theorem resolve_of_named {explicit : Bool} (selected : c.resolveProfile asked = .ok name) :
    resolve c e explicit asked =
      (c.profile name >>= fun p => if explicit then ofStored name p else ofProfile e name p) := by
  rw [resolve, selected]

theorem resolve_of_unnamed {fault : ConfigError} (unnamed : c.resolveProfile asked = .error fault)
    (explicit : Bool) : resolve c e explicit asked =
      match e.get? Environment.projectVar with
      | some project => if explicit then .error fault else .ok (ofEnvironment e project)
      | none => .error fault := by
  obtain ⟨rfl, -⟩ := resolveProfile_eq_error_iff.1 unnamed
  rw [resolve, unnamed]
  cases e.get? Environment.projectVar <;> rfl

/-- The environment has no part in a configuration that is named explicitly. -/
theorem resolve_explicit (c : Config) (asked : Option String) (e e' : Environment) :
    resolve c e true asked = resolve c e' true asked := by
  cases selected : c.resolveProfile asked with
  | ok name =>
    rw [resolve_of_named selected, resolve_of_named selected]
    rfl
  | error fault =>
    rw [resolve_of_unnamed selected, resolve_of_unnamed selected]
    cases e.get? Environment.projectVar <;> cases e'.get? Environment.projectVar <;> rfl

theorem ofProfile_congr (agree : e.AgreeOn Environment.connectionVars e') (name : String)
    (p : Profile) : ofProfile e name p = ofProfile e' name p := by
  have same {var stored : String} (mem : var ∈ Environment.connectionVars) :
      Credential.resolve e stored var = Credential.resolve e' stored var := by
    rw [Credential.resolve, agree var mem, Credential.resolve]
  simp only [ofProfile, Profile.resolveProject, Profile.resolveEndpoint, Profile.resolveToken,
    same (by simp [Environment.connectionVars] : Environment.projectVar ∈ _),
    same (by simp [Environment.connectionVars] : Environment.endpointVar ∈ _),
    same (by simp [Environment.connectionVars] : Environment.tokenVar ∈ _),
    agree Environment.tokenVar (by simp [Environment.connectionVars])]

/-- Only the three variables have a part in any other configuration. -/
theorem resolve_congr (agree : e.AgreeOn Environment.connectionVars e') (c : Config)
    (asked : Option String) : resolve c e false asked = resolve c e' false asked := by
  cases selected : c.resolveProfile asked with
  | ok name =>
    rw [resolve_of_named selected, resolve_of_named selected]
    simp only [ofProfile_congr agree]
  | error fault =>
    rw [resolve_of_unnamed selected, resolve_of_unnamed selected]
    simp only [ofEnvironment, agree Environment.projectVar (by simp [Environment.connectionVars]),
      agree Environment.endpointVar (by simp [Environment.connectionVars]),
      agree Environment.tokenVar (by simp [Environment.connectionVars])]

theorem profile_eq_ok_iff : c.profile name = .ok p ↔ c.profiles.get? name = some p := by
  unfold Config.profile
  cases c.profiles.get? name <;> simp

/-- Where settings come from that were found: a profile, or the environment alone. -/
theorem resolve_eq_ok_iff : resolve c e false asked = .ok k ↔
    (∃ name p, c.resolveProfile asked = .ok name ∧ c.profiles.get? name = some p ∧
      p.Readable e ∧ k = p.settingsIn e name) ∨
    (asked = none ∧ c.defaultProfile = none ∧ c.profiles.entries = [] ∧
      ∃ project, e.get? Environment.projectVar = some project ∧
        k = ⟨none, project, (e.get? Environment.endpointVar).getD defaultEndpoint,
          e.get? Environment.tokenVar, none, {}⟩) := by
  cases selected : c.resolveProfile asked with
  | ok name =>
    have named : ¬(asked = none ∧ c.defaultProfile = none ∧ c.profiles.entries = []) := fun none => by
      have unnamed := resolveProfile_eq_error_iff.2 ⟨rfl, none⟩
      rw [selected] at unnamed
      contradiction
    rw [resolve_of_named selected]
    cases found : c.profile name with
    | ok p =>
      have there := profile_eq_ok_iff.1 found
      simp only [bind, Except.bind, Bool.false_eq_true, if_false, ofProfile_eq_ok_iff]
      grind
    | error fault =>
      have absent : ∀ p, c.profiles.get? name ≠ some p := fun p there => by
        rw [profile_eq_ok_iff.2 there] at found
        contradiction
      simp only [bind, Except.bind]
      grind
  | error fault =>
    obtain ⟨-, none⟩ := resolveProfile_eq_error_iff.1 selected
    rw [resolve_of_unnamed selected]
    cases e.get? Environment.projectVar with
    | none => simp
    | some project => simp [none, ofEnvironment, eq_comm]

/-- A profile that is named but not there is an error. -/
theorem resolve_of_absent {explicit : Bool} (named : (asked <|> c.defaultProfile) = some name)
    (absent : c.profiles.get? name = none) :
    resolve c e explicit asked = .error (.profileNotFound name) := by
  have selected : c.resolveProfile asked = .ok name := by
    unfold Config.resolveProfile
    cases asked with
    | some n => simpa using named
    | none => cases default : c.defaultProfile <;> simp_all
  have missing : c.profile name = .error (.profileNotFound name) := by rw [Config.profile, absent]
  rw [resolve_of_named selected, missing]
  rfl

/-- The settings to connect with, in two environments. With a configuration that was named on the
command line they are the same; otherwise they are the same where three variables agree; and so is
then all that a command does with them, for whatever instance. Settings that are found without a
named configuration are those of the selected profile, each as it is stored unless its variable is
set, which also hides a reference to the keyring; or those of the environment, where no profile is
named, by the caller or as the default, none exists and the environment names a project. A named
profile that does not exist is always an error. -/
theorem resolve_sources (c : Config) (asked : Option String) (e e' : Environment) :
    resolve c e true asked = resolve c e' true asked ∧
    (∀ (σ : Type) (m : Machine σ) (now : Instant) (l : CommandLine) (t : Target)
      (b : BackupCommand), l.command = .backup t b →
      (l.configFile.isSome = true ∨ e.AgreeOn Environment.connectionVars e') →
      l.run m now e c = l.run m now e' c) ∧
    (e.AgreeOn Environment.connectionVars e' →
      resolve c e false asked = resolve c e' false asked) ∧
    (∀ k, resolve c e false asked = .ok k ↔
      (∃ name p, c.resolveProfile asked = .ok name ∧ c.profiles.get? name = some p ∧
        p.Readable e ∧ k = p.settingsIn e name) ∨
      (asked = none ∧ c.defaultProfile = none ∧ c.profiles.entries = [] ∧
        ∃ project, e.get? Environment.projectVar = some project ∧
          k = ⟨none, project, (e.get? Environment.endpointVar).getD defaultEndpoint,
            e.get? Environment.tokenVar, none, {}⟩)) ∧
    ∀ explicit name, (asked <|> c.defaultProfile) = some name → c.profiles.get? name = none →
      resolve c e explicit asked = .error (.profileNotFound name) := by
  refine ⟨resolve_explicit c asked e e', fun σ m now l t b command apart => ?_,
    fun agree => resolve_congr agree c asked, fun k => resolve_eq_ok_iff,
    fun explicit name => resolve_of_absent⟩
  have same : resolve c e l.configFile.isSome l.profile =
      resolve c e' l.configFile.isSome l.profile := by
    cases named : l.configFile.isSome with
    | true => exact resolve_explicit c l.profile e e'
    | false => exact resolve_congr (apart.resolve_left (by simp [named])) c l.profile
  simp only [CommandLine.run, command, same]

/-- A configuration with one profile, in which two references are left. -/
def keyringConfig : Config :=
  { profiles := Catalog.empty.insert "a"
      { project := "p", endpoint := "keyring:e", accessToken := some "keyring:t" } }

def hidingVars : Environment :=
  ⟨[(Environment.endpointVar, "http://h"), (Environment.tokenVar, "x"), ("HOME", "/")]⟩

def otherVars : Environment :=
  ⟨[(Environment.tokenVar, "x"), (Environment.endpointVar, "http://h")]⟩

def listLine : CommandLine :=
  ⟨none, some "c", .auto, none, 0, .backup ⟨some "i", "d", "b"⟩ .list⟩

/-- An environment that names a project and a token, but no endpoint. -/
def lonelyVars : Environment :=
  ⟨[(Environment.tokenVar, "x"), (Environment.projectVar, "q")]⟩

/-- Variables hide both references, and a profile that is not there stays an error. Where there is no
profile at all, the environment stands alone, with the usual endpoint. -/
theorem resolve_sources_hidden :
    hidingVars.AgreeOn Environment.connectionVars otherVars ∧
    resolve keyringConfig hidingVars false none =
      .ok ⟨some "a", "p", "http://h", some "x", none, {}⟩ ∧
    resolve keyringConfig otherVars false none =
      .ok ⟨some "a", "p", "http://h", some "x", none, {}⟩ ∧
    listLine.run Replay.machine default hidingVars keyringConfig =
      listLine.run Replay.machine default otherVars keyringConfig ∧
    resolve keyringConfig hidingVars true (some "b") = .error (.profileNotFound "b") ∧
    resolve {} lonelyVars false none =
      .ok ⟨none, "q", "https://spanner.googleapis.com", some "x", none, {}⟩ := by
  obtain ⟨-, commands, agreeing, found, -⟩ :=
    resolve_sources keyringConfig none hidingVars otherVars
  obtain ⟨-, -, -, -, absent⟩ := resolve_sources keyringConfig (some "b") hidingVars otherVars
  obtain ⟨-, -, -, alone, -⟩ := resolve_sources {} none lonelyVars lonelyVars
  have agree : hidingVars.AgreeOn Environment.connectionVars otherVars := by
    unfold Environment.AgreeOn
    decide +kernel
  have readable : ({ project := "p", endpoint := "keyring:e", accessToken := some "keyring:t" } :
      Profile).Readable hidingVars := by
    unfold Profile.Readable
    decide +kernel
  have settings : resolve keyringConfig hidingVars false none =
      .ok ⟨some "a", "p", "http://h", some "x", none, {}⟩ :=
    (found _).2 (.inl ⟨"a", _, rfl, rfl, readable, rfl⟩)
  exact ⟨agree, settings, (agreeing agree).symm.trans settings,
    commands Replay Replay.machine default listLine _ _ rfl (.inl rfl), absent true "b" rfl rfl,
    (alone _).2 (.inr ⟨rfl, rfl, rfl, "q", rfl, rfl⟩)⟩

end Connection
end BackupAdmin
