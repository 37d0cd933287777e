import BackupAdmin.Command.Replay
import BackupAdmin.Proofs.Arguments.Variation

/-! What is seen of access tokens. Main statement: the commands that show profiles, the log of a
command line and the description of a client tell whether there is a token, and the first whether
it is a reference, but nothing of its text. -/
namespace BackupAdmin
open Arguments

/-! ### Configurations -/

/-- Two profiles differ at most in the text of their tokens: both have one or none, and both of
these are references or none is. -/
structure Profile.SameButToken (p q : Profile) : Prop where
  rest : { p with accessToken := none } = { q with accessToken := none }
  token : p.accessToken.map Credential.isReference = q.accessToken.map Credential.isReference

/-- Two configurations with the same profiles and the same default, but for the texts of tokens. -/
structure Config.SameButTokens (c d : Config) : Prop where
  default : c.defaultProfile = d.defaultProfile
  profiles (name : String) :
    Option.Rel Profile.SameButToken (c.profiles.get? name) (d.profiles.get? name)

/-- A text in place of a token that tells only whether that is a reference. -/
def Credential.mask (token : String) : String :=
  if isReference token then referenceMark else ""

/-- The profile with its token masked. -/
def Profile.masked (p : Profile) : Profile :=
  { p with accessToken := p.accessToken.map Credential.mask }

/-- The configuration with all tokens masked. -/
def Config.masked (c : Config) : Config :=
  { c with profiles := c.profiles.mapValues fun _ => Profile.masked }

theorem Credential.isReference_mask (t : String) : isReference (mask t) = isReference t := by
  have mark : isReference referenceMark = true ∧ isReference "" = false := by decide +kernel
  unfold mask
  split <;> simp [*]

theorem Profile.tokenState_masked (p : Profile) : p.masked.tokenState = p.tokenState := by
  unfold tokenState masked
  cases p.accessToken with
  | none => rfl
  | some t => simp [Credential.isReference_mask]

theorem Profile.SameButToken.masked_eq {p q : Profile} (alike : p.SameButToken q) :
    p.masked = q.masked := by
  obtain ⟨rest, token⟩ := alike
  cases p with
  | mk project endpoint accessToken defaultInstance polling =>
  cases q with
  | mk project' endpoint' accessToken' defaultInstance' polling' =>
  simp only [Profile.mk.injEq, true_and] at rest
  obtain ⟨rfl, rfl, rfl, rfl⟩ := rest
  have mask : Credential.mask = (fun b => if b = true then Credential.referenceMark else "") ∘
      Credential.isReference := rfl
  simp only at token
  rw [Profile.masked, Profile.masked, mask, ← Option.map_map, ← Option.map_map, token]

namespace Config

theorem SameButTokens.masked_eq {c d : Config} (alike : c.SameButTokens d) :
    c.masked = d.masked := by
  have profiles : (c.profiles.mapValues fun _ => Profile.masked) =
      d.profiles.mapValues fun _ => Profile.masked := by
    ext name : 1
    rw [Catalog.get?_mapValues, Catalog.get?_mapValues]
    have there := alike.profiles name
    generalize c.profiles.get? name = x at there
    generalize d.profiles.get? name = y at there
    cases there with
    | none => rfl
    | some same => exact congrArg some same.masked_eq
  rw [masked, masked, profiles, alike.default]

theorem profileValue_masked (c : Config) (name : String) (p : Profile) :
    c.masked.profileValue name p.masked = c.profileValue name p := by
  unfold profileValue
  rw [p.tokenState_masked]
  rfl

theorem entries_masked (c : Config) :
    c.masked.profiles.entries = c.profiles.entries.map fun e => (e.1, e.2.masked) := rfl

theorem listValue_masked (c : Config) (place : Option String) (f : OutputFormat) :
    c.masked.listValue place f = c.listValue place f := by
  unfold listValue
  simp only [entries_masked, List.map_map, List.length_map, Function.comp_def,
    profileValue_masked]

theorem listLines_masked (c : Config) (place : Option String) :
    c.masked.listLines place = c.listLines place := by
  have empty : c.masked.profiles.isEmpty = c.profiles.isEmpty := by
    simp [Catalog.isEmpty, entries_masked]
  have entry (e : String × Profile) :
    c.masked.entryLines e.1 e.2.masked = c.entryLines e.1 e.2 := rfl
  unfold listLines
  rw [empty, entries_masked, List.flatMap_map]
  simp only [entry]

theorem showLines_masked (c : Config) (name : String) (p : Profile) :
    c.masked.showLines name p.masked = c.showLines name p := by
  unfold showLines
  rw [p.tokenState_masked]
  rfl

theorem profile_masked (c : Config) (name : String) :
    c.masked.profile name = (c.profile name).map Profile.masked := by
  unfold profile
  have found : c.masked.profiles.get? name = (c.profiles.get? name).map Profile.masked :=
    Catalog.get?_mapValues ..
  rw [found]
  cases c.profiles.get? name <;> rfl

end Config

/-- The commands that show profiles do the same where the tokens are masked. -/
theorem ProfileCommand.run_masked {σ : Type} (m : Machine σ) (c : Config) (place : Option String)
    (choice : OutputChoice) {name : String} {command : ProfileCommand}
    (shows : command ∈ [.list, .path, .show name]) :
    command.run m place c.masked choice = command.run m place c choice := by
  simp only [List.mem_cons, List.not_mem_nil, or_false] at shows
  obtain rfl | rfl | rfl := shows
  · have value : c.masked.listValue place = c.listValue place := funext (c.listValue_masked place)
    rw [run, run, value, c.listLines_masked]
  · rfl
  · rw [run, run, c.profile_masked]
    cases c.profile name with
    | error e => rfl
    | ok p =>
      dsimp only [Except.map]
      rw [c.profileValue_masked, c.showLines_masked]

/-! ### Command lines -/

namespace CommandLine

/-- Only the command that sets a profile has the option for a token. -/
theorem admits_grammar : grammar.Admits tokenOption "access-token" := by
  have inProfile : ∀ c ∈ profileGrammar.inner,
      c.inner.isEmpty = true ∧ ∀ p ∈ c.long? "access-token", p = tokenOption := by decide +kernel
  have profile : profileGrammar.Admits tokenOption "access-token" :=
    ⟨by decide +kernel, by decide +kernel,
      fun c mem => Grammar.Admits.of_isEmpty (inProfile c mem).1 (inProfile c mem).2⟩
  have others : ∀ c ∈ grammar.inner, c = profileGrammar ∨ c.inner.isEmpty = true := by
    simp [grammar, Grammar.inner, workflowCommand, innerCommand]
  have own : ∀ c ∈ grammar.inner, ∀ p ∈ c.long? "access-token", p = tokenOption := by
    decide +kernel
  refine ⟨by decide +kernel, by decide +kernel, fun c mem => ?_⟩
  rcases others c mem with rfl | leaf
  · exact profile
  · exact Grammar.Admits.of_isEmpty leaf (own c mem)

end CommandLine

/-- The command without a token to store. -/
def Command.withoutToken : Command → Command
  | .profile (.set name s) => .profile (.set name { s with accessToken := none })
  | c => c

theorem Command.describe_withoutToken (c : Command) : c.withoutToken.describe = c.describe := by
  unfold withoutToken
  split
  · exact describe_set_token ..
  · rfl

namespace CommandLine
variable {e : Environment} {words words' : List String} {r r' : Reading}

/-- The command that is read is the same but for the token. -/
theorem withoutToken_commandOf (alike : r.Alike tokenOption r') :
    (commandOf r).withoutToken = (commandOf r').withoutToken := by
  have text {p : Parameter} (other : p.key ≠ tokenOption.key) := alike.text? other
  unfold commandOf
  rw [alike.path]
  split
  · have confirmed := alike.times (p := yesOption) (by decide)
    unfold profileCommandOf settingsOf
    simp (disch := decide) only [text, confirmed]
    split <;> rfl
  · simp (disch := decide) only [text]
  · rfl
  · rfl
  · unfold targetOf backupCommandOf
    simp (disch := decide) only [text]

/-- Command lines that differ only in tokens are refused alike or have the same log. -/
theorem describe_varied (varied : Varied "access-token" false words words') :
    (read e words).map (·.command.describe) = (read e words').map (·.command.describe) := by
  have readings : Agree (Reading.Alike tokenOption) (Arguments.read e grammar words)
      (Arguments.read e grammar words') :=
    varied.read rfl (by decide +kernel) admits_grammar
  unfold read
  generalize Arguments.read e grammar words = x at readings
  generalize Arguments.read e grammar words' = y at readings
  cases readings with
  | error f => rfl
  | @ok r r' alike =>
    have log : (commandOf r).describe = (commandOf r').describe := by
      rw [← Command.describe_withoutToken, withoutToken_commandOf alike,
        Command.describe_withoutToken]
    exact congrArg Except.ok log

end CommandLine

/-- No text of a token is seen. Where configurations differ only in the texts of tokens, the
commands that show profiles end alike, with the same output or the same error. Command lines that
differ only in tokens are refused alike or have the same log, and so have all commands that set a
profile to the same settings but for the token. Clients for one address have the same description. -/
theorem tokens_unseen :
    (∀ {σ : Type} (m : Machine σ) (c d : Config), c.SameButTokens d →
      ∀ (place : Option String) (choice : OutputChoice) (name : String),
      ∀ command ∈ [ProfileCommand.list, .path, .show name],
        command.run m place c choice = command.run m place d choice) ∧
    (∀ (e : Environment) (words words' : List String), Varied "access-token" false words words' →
      (CommandLine.read e words).map (·.command.describe) =
        (CommandLine.read e words').map (·.command.describe)) ∧
    (∀ (name : String) (s : ProfileSettings) (t t' : Option String),
      (Command.profile (.set name { s with accessToken := t })).describe =
        (Command.profile (.set name { s with accessToken := t' })).describe) ∧
    ∀ base t t' : String,
      (Remote.ofText base (some t)).describe = (Remote.ofText base (some t')).describe := by
  refine ⟨fun m c d alike place choice name command shows => ?_,
    fun e words words' varied => CommandLine.describe_varied varied, fun name s t t' => ?_,
    fun base t t' => Remote.describe_token _ t t'⟩
  · rw [← ProfileCommand.run_masked m c place choice shows, alike.masked_eq,
      ProfileCommand.run_masked m d place choice shows]
  · exact (describe_set_token name s t).trans (describe_set_token name s t').symm

/-- A configuration with one profile, which has this token. -/
def oneToken (token : String) : Config :=
  { defaultProfile := "a"
    profiles := Catalog.empty.insert "a" { project := "p", accessToken := token } }

/-- The words that set it. -/
def tokenWords (token : String) : List String :=
  ["profile", "set", "a", "--project", "p", "--access-token=" ++ token]

theorem tokens_unseen_oneToken :
    (oneToken "x").SameButTokens (oneToken "y") ∧
    Varied "access-token" false (tokenWords "x") (tokenWords "y") ∧
    (ProfileCommand.show "a").run Replay.machine none (oneToken "x") .auto =
      (ProfileCommand.show "a").run Replay.machine none (oneToken "y") .auto ∧
    (CommandLine.read ⟨[]⟩ (tokenWords "x")).map (·.command.describe) =
      (CommandLine.read ⟨[]⟩ (tokenWords "y")).map (·.command.describe) ∧
    (CommandLine.read ⟨[]⟩ (tokenWords "x")).map (·.command.describe) =
      .ok "profile set a [credentials redacted]" := by
  have alike : (oneToken "x").SameButTokens (oneToken "y") := by
    refine ⟨rfl, fun name => ?_⟩
    rw [oneToken, oneToken, Catalog.get?_insert, Catalog.get?_insert]
    split
    · exact .some ⟨rfl, by decide +kernel⟩
    · exact .none
  have varied : Varied "access-token" false (tokenWords "x") (tokenWords "y") :=
    .word _ <| .word _ <| .word _ <| .word _ <| .word _ <| .attached "x" "y" <| .nil false
  obtain ⟨shows, logs, -⟩ := tokens_unseen
  exact ⟨alike, varied, shows _ _ _ alike none .auto "a" _ (by simp), logs _ _ _ varied,
    by decide +kernel⟩

end BackupAdmin
