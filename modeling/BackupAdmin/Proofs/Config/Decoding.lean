import BackupAdmin.Config.Basic
import BackupAdmin.Proofs.Json.Records
import BackupAdmin.Proofs.Toml.RoundTrip

/-! Configurations and their text. Main statement: the text of a configuration spells it. -/
namespace BackupAdmin
open Json

theorem asNat64?_ofNat {n : Nat} (small : n < UInt64.size) : asNat64? (.ofNat n) = some n := by
  have bounds : (0 : Int) ≤ n ∧ (n : Int) < UInt64.size :=
    ⟨Int.natCast_nonneg n, Int.ofNat_lt.2 small⟩
  unfold asNat64? Json.ofNat asInt?
  rw [Option.bind_some, if_pos bounds, Int.toNat_natCast]

theorem leaf_optionalMember (k : String) (o : Option String) :
    ∀ m ∈ optionalMember k Json.string o, Toml.Leaf m.2 := by
  cases o with
  | none => simp [optionalMember]
  | some s => simpa [optionalMember] using Toml.Leaf.string s

namespace Polling
variable {p : Polling}

/-- The settings are numbers of at most 64 bits. -/
def Fits (p : Polling) : Prop := ∀ s ∈ p.settings, s.2 < UInt64.size

instance (p : Polling) : Decidable p.Fits :=
  inferInstanceAs (Decidable (∀ s ∈ p.settings, s.2 < UInt64.size))

/-- The settings as members of a table. -/
def members (p : Polling) : List (String × Json) := p.settings.map fun (k, n) => (k, .ofNat n)

theorem names_members (p : Polling) : p.members.map (·.1) = ({} : Polling).settings.map (·.1) := rfl

theorem distinct_members (p : Polling) : (p.members.map (·.1)).Nodup := by
  rw [names_members]
  decide +kernel

theorem orElse_members (fits : p.Fits) {k : String} {n : Nat} (mem : (k, n) ∈ p.settings)
    (default : Nat) : Fields.orElse p.members k default asNat64? = some n := by
  have found : p.members.lookup k = some (.ofNat n) :=
    lookup_of_mem p.distinct_members (List.mem_map_of_mem mem)
  rw [← asNat64?_ofNat (fits (k, n) mem)]
  simp only [Fields.orElse, found]

theorem decode?_members (fits : p.Fits) : decode? (.object p.members) = some p := by
  have fields : fields? (({} : Polling).settings.map (·.1)) (.object p.members) = some p.members :=
    fields?_object p.distinct_members fun m mem => p.names_members ▸ List.mem_map_of_mem mem
  have found (k : String) (n : Nat) (mem : (k, n) ∈ p.settings) := orElse_members fits mem
  have h₁ := found "poll_interval_secs" p.pollInterval (by simp [settings])
  have h₂ := found "backup_timeout_secs" p.backupTimeout (by simp [settings])
  have h₃ := found "restore_timeout_secs" p.restoreTimeout (by simp [settings])
  have h₄ := found "create_database_timeout_secs" p.createDatabaseTimeout (by simp [settings])
  have h₅ := found "cancel_poll_interval_secs" p.cancelPollInterval (by simp [settings])
  have h₆ := found "cancel_timeout_secs" p.cancelTimeout (by simp [settings])
  have h₇ := found "reference_poll_interval_secs" p.referencePollInterval (by simp [settings])
  have h₈ := found "reference_timeout_secs" p.referenceTimeout (by simp [settings])
  unfold decode?
  dsimp only
  simp only [Option.bind_eq_bind]
  -- one step after the other: all of them in one call of simp are too deep for the kernel
  rw [bind_of_eq_some fields, bind_of_eq_some (h₁ _), bind_of_eq_some (h₂ _),
    bind_of_eq_some (h₃ _), bind_of_eq_some (h₄ _), bind_of_eq_some (h₅ _),
    bind_of_eq_some (h₆ _), bind_of_eq_some (h₇ _), bind_of_eq_some (h₈ _)]

theorem lt_of_asNat64? {v : Json} {n : Nat} (read : asNat64? v = some n) : n < UInt64.size := by
  obtain ⟨i, -, bounded⟩ := Option.bind_eq_some_iff.1 read
  split at bounded
  · next bounds =>
    obtain rfl := Option.some.inj bounded
    exact (Int.toNat_lt bounds.1).2 bounds.2
  · contradiction

theorem lt_of_orElse {fs : Fields} {k : String} {d n : Nat} (small : d < UInt64.size)
    (read : fs.orElse k d asNat64? = some n) : n < UInt64.size := by
  unfold Fields.orElse at read
  split at read
  · exact Option.some.inj read ▸ small
  · exact lt_of_asNat64? read

theorem fits_default : ({} : Polling).Fits := by decide +kernel

/-- What is decoded are numbers of at most 64 bits. -/
theorem fits_of_decode? {v : Json} (decoded : decode? v = some p) : p.Fits := by
  have small := fits_default
  unfold decode? at decoded
  simp only [Option.bind_eq_bind, Option.bind_eq_some_iff] at decoded
  obtain ⟨fs, -, n₁, h₁, n₂, h₂, n₃, h₃, n₄, h₄, n₅, h₅, n₆, h₆, n₇, h₇, n₈, h₈, same⟩ := decoded
  obtain rfl := Option.some.inj same
  simp only [Fits, settings, List.forall_mem_cons] at small ⊢
  obtain ⟨s₁, s₂, s₃, s₄, s₅, s₆, s₇, s₈, -⟩ := small
  exact ⟨lt_of_orElse s₁ h₁, lt_of_orElse s₂ h₂, lt_of_orElse s₃ h₃, lt_of_orElse s₄ h₄,
    lt_of_orElse s₅ h₅, lt_of_orElse s₆ h₆, lt_of_orElse s₇ h₇, lt_of_orElse s₈ h₈, by simp⟩

theorem orderly_members (fits : p.Fits) : Toml.Orderly (.object p.members) := by
  have leaves : ∀ m ∈ p.members, Toml.Leaf m.2 := by
    intro m mem
    obtain ⟨s, own, rfl⟩ := List.mem_map.1 mem
    exact .number (fits s own)
  simpa using Toml.Orderly.append (b := []) leaves (by simp) (by simpa using p.distinct_members)

end Polling

namespace Profile
variable {p : Profile}

theorem names_members (p : Profile) : List.Sublist (p.members.map (·.1))
    ["project", "endpoint", "access_token", "default_instance", "polling"] := by
  unfold members
  cases p.accessToken <;> cases p.defaultInstance <;> cases p.polling.isDefault <;>
    exact of_decide_eq_true rfl

theorem distinct_members (p : Profile) : (p.members.map (·.1)).Nodup :=
  p.names_members.nodup (by decide +kernel)

theorem lookup_text (p : Profile) :
    p.members.lookup "project" = some (.string p.project) ∧
      p.members.lookup "endpoint" = some (.string p.endpoint) ∧
      p.members.lookup "access_token" = p.accessToken.map .string ∧
      p.members.lookup "default_instance" = p.defaultInstance.map .string := by
  unfold members
  cases p.accessToken <;> cases p.defaultInstance <;> cases p.polling.isDefault <;>
    exact ⟨rfl, rfl, rfl, rfl⟩

theorem lookup_polling (p : Profile) : p.members.lookup "polling" =
    if p.polling.isDefault then none else some (.object p.polling.members) := by
  unfold members
  cases p.accessToken <;> cases p.defaultInstance <;> cases p.polling.isDefault <;> rfl

theorem decode?_members (fits : p.polling.Fits) : decode? (.object p.members) = some p := by
  have fields := fields?_object p.distinct_members fun m mem =>
    p.names_members.subset (List.mem_map_of_mem mem)
  obtain ⟨project, endpoint, token, place⟩ := p.lookup_text
  have h₁ : Fields.required p.members "project" asString? = some p.project := by
    simp [Fields.required, project, asString?]
  have h₂ : Fields.orElse p.members "endpoint" defaultEndpoint asString? = some p.endpoint := by
    simp [Fields.orElse, endpoint, asString?]
  have h₃ : Fields.orElse p.members "polling" {} Polling.decode? = some p.polling := by
    rw [Fields.orElse, p.lookup_polling]
    cases same : p.polling.isDefault with
    | true => exact congrArg some (of_decide_eq_true same).symm
    | false => exact Polling.decode?_members fits
  unfold decode?
  simp only [Option.bind_eq_bind]
  rw [bind_of_eq_some fields, bind_of_eq_some h₁, bind_of_eq_some h₂,
    bind_of_eq_some (Fields.optional_text token), bind_of_eq_some (Fields.optional_text place),
    bind_of_eq_some h₃]

theorem orderly_members (fits : p.polling.Fits) : Toml.Orderly (.object p.members) := by
  have leaves : ∀ m ∈ (("project", Json.string p.project) :: ("endpoint", .string p.endpoint) ::
      optionalMember "access_token" .string p.accessToken) ++
      optionalMember "default_instance" .string p.defaultInstance, Toml.Leaf m.2 := by
    refine List.forall_mem_append.2 ⟨?_, leaf_optionalMember _ _⟩
    exact List.forall_mem_cons.2 ⟨.string _, List.forall_mem_cons.2
      ⟨.string _, leaf_optionalMember _ _⟩⟩
  refine .append leaves ?_ p.distinct_members
  split
  · simp
  · exact List.forall_mem_singleton.2 ⟨rfl, Polling.orderly_members fits⟩

theorem fits_of_decode? {v : Json} (decoded : decode? v = some p) : p.polling.Fits := by
  unfold decode? at decoded
  simp only [Option.bind_eq_bind, Option.bind_eq_some_iff] at decoded
  obtain ⟨fs, -, project, -, endpoint, -, token, -, place, -, polling, read, same⟩ := decoded
  obtain rfl := Option.some.inj same
  unfold Fields.orElse at read
  split at read
  · exact Option.some.inj read ▸ Polling.fits_default
  · exact Polling.fits_of_decode? read

end Profile

namespace Config
variable {c : Config}

/-- All settings of all profiles are numbers of at most 64 bits. -/
def Fits (c : Config) : Prop := ∀ e ∈ c.profiles.entries, e.2.polling.Fits

instance (c : Config) : Decidable c.Fits :=
  inferInstanceAs (Decidable (∀ e ∈ c.profiles.entries, e.2.polling.Fits))

theorem profiles?_entries (fits : c.Fits) :
    profiles? (.object (c.profiles.entries.map fun (k, p) => (k, .object p.members))) =
      some c.profiles := by
  have decoded {es : List (String × Profile)} (fits : ∀ e ∈ es, e.2.polling.Fits) :
      (es.map fun (k, p) => (k, Json.object p.members)).mapM
        (fun m => (Profile.decode? m.2).map (m.1, ·)) = some es := by
    induction es with
    | nil => rfl
    | cons e es ih =>
      obtain ⟨first, fits⟩ := List.forall_mem_cons.1 fits
      simp [Profile.decode?_members first, ih fits]
  rw [profiles?, decoded fits, Option.map_some, Catalog.ofList_entries]

/-- Decoding undoes encoding. -/
theorem decode?_toJson (fits : c.Fits) : decode? c.toJson = some c := by
  obtain ⟨default, profiles⟩ := c
  have read := profiles?_entries fits
  cases default <;>
    simp [decode?, toJson, optionalMember, fields?, Fields.optional, Fields.orElse, List.lookup_cons,
      asString?, read]

theorem orderly_toJson (fits : c.Fits) : Toml.Orderly c.toJson := by
  have profiles : Toml.Orderly
      (.object (c.profiles.entries.map fun (k, p) => (k, .object p.members))) := by
    have tables : ∀ m ∈ c.profiles.entries.map fun (k, p) => (k, Json.object p.members),
        Toml.isTable m.2 = true ∧ Toml.Orderly m.2 := by
      intro m mem
      obtain ⟨e, own, rfl⟩ := List.mem_map.1 mem
      exact ⟨rfl, Profile.orderly_members (fits e own)⟩
    have distinct : ((c.profiles.entries.map fun (k, p) => (k, Json.object p.members)).map
        (·.1)).Nodup := by
      rw [List.map_map]
      exact c.profiles.distinct_entries
    exact .append (a := []) (by simp) tables distinct
  refine .append (leaf_optionalMember _ _) (List.forall_mem_singleton.2 ⟨rfl, profiles⟩) ?_
  cases c.defaultProfile <;> simp [optionalMember]

/-- The configuration that a text spells as it stands. -/
def literal? (s : String) : Option Config := (Toml.read s).bind decode?

theorem ofText_eq (e : Environment) (s : String) : ofText e s =
    match literal? (e.expand s) with
    | some c => .ok c
    | none => .error .parse := rfl

theorem literal?_of_ofText {e : Environment} {s : String} (read : ofText e s = .ok c) :
    literal? (e.expand s) = some c := by
  rw [ofText_eq] at read
  split at read
  · next spelled => rw [spelled, Except.ok.inj read]
  · contradiction

/-- The text of a configuration spells it. -/
theorem literal?_text (fits : c.Fits) : literal? c.text = some c := by
  rw [literal?, text, toJson, Toml.read_text (orderly_toJson fits)]
  exact decode?_toJson fits

theorem fits_of_profiles? {v : Json} {profiles : Catalog Profile}
    (decoded : profiles? v = some profiles) : ∀ e ∈ profiles.entries, e.2.polling.Fits := by
  have fit {ms : List (String × Json)} {es : List (String × Profile)}
      (read : ms.mapM (fun m => (Profile.decode? m.2).map (m.1, ·)) = some es) :
      ∀ e ∈ es, e.2.polling.Fits := by
    induction ms generalizing es with
    | nil =>
      obtain rfl : [] = es := Option.some.inj read
      simp
    | cons m ms ih =>
      simp only [List.mapM_cons, Option.bind_eq_bind, Option.bind_eq_some_iff,
        Option.map_eq_some_iff] at read
      obtain ⟨e, ⟨p, first, rfl⟩, rest, later, same⟩ := read
      obtain rfl := Option.some.inj same
      exact List.forall_mem_cons.2 ⟨Profile.fits_of_decode? first, ih later⟩
  unfold profiles? at decoded
  split at decoded
  · obtain ⟨es, read, rfl⟩ := Option.map_eq_some_iff.1 decoded
    exact Catalog.forall_ofList (fit read)
  · contradiction

theorem fits_of_decode? {v : Json} (decoded : decode? v = some c) : c.Fits := by
  simp only [decode?, Option.bind_eq_bind, Option.bind_eq_some_iff] at decoded
  obtain ⟨fs, -, default, -, profiles, read, same⟩ := decoded
  obtain rfl := Option.some.inj same
  unfold Fields.orElse at read
  split at read
  · obtain rfl := Option.some.inj read
    simp [Fits, Catalog.empty]
  · exact fits_of_profiles? read

theorem fits_of_literal? {s : String} (spelled : literal? s = some c) : c.Fits := by
  obtain ⟨v, -, decoded⟩ := Option.bind_eq_some_iff.1 spelled
  exact fits_of_decode? decoded

end Config
end BackupAdmin
