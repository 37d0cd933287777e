import BackupAdmin.Config.Disk
import BackupAdmin.Memory.Files
import BackupAdmin.Proofs.Config.Decoding
import BackupAdmin.Proofs.Config.Printing

/-! Saved configurations. Main statement: what was saved is loaded again, up to the references to
variables in it. -/
namespace BackupAdmin

/-- The texts of a profile. -/
def Profile.strings (p : Profile) : List String :=
  p.project :: p.endpoint :: (p.accessToken.toList ++ p.defaultInstance.toList)

namespace Config
open Json

/-- The names and texts in a configuration. -/
def strings (c : Config) : List String :=
  c.defaultProfile.toList ++ c.profiles.entries.flatMap fun e => e.1 :: e.2.strings

theorem strings_optionalMember {k s : String} {o : Option String} (plain : '$' ∉ k.toList)
    (mem : s ∈ Toml.memberStrings (optionalMember k .string o)) :
    '$' ∉ s.toList ∨ s ∈ o.toList := by
  cases o with
  | none => contradiction
  | some t =>
    rcases List.mem_cons.1 mem with rfl | own
    · exact .inl plain
    · exact .inr own

/-- The words of the format have no dollars in them. -/
theorem strings_polling {p : Polling} {s : String} (mem : s ∈ Toml.memberStrings p.members) :
    '$' ∉ s.toList := by
  have names : ∀ k ∈ p.members.map (·.1), '$' ∉ k.toList := by
    rw [p.names_members]
    decide +kernel
  rw [Toml.memberStrings_eq] at mem
  obtain ⟨m, own, mem⟩ := List.mem_flatMap.1 mem
  obtain ⟨t, -, rfl⟩ := List.mem_map.1 own
  obtain rfl : s = t.1 := by simpa [Toml.strings, ofNat] using mem
  exact names _ (List.mem_map_of_mem own)

theorem strings_profile {p : Profile} {s : String} (mem : s ∈ Toml.memberStrings p.members) :
    '$' ∉ s.toList ∨ s ∈ p.strings := by
  rw [Profile.members, Toml.memberStrings_append, Toml.memberStrings_append] at mem
  simp only [Profile.strings, List.mem_cons, List.mem_append]
  rcases List.mem_append.1 mem with mem | polling
  · rcases List.mem_append.1 mem with mem | place
    · simp only [List.cons_append, Toml.memberStrings, Toml.strings, List.nil_append,
        List.mem_cons] at mem
      rcases mem with rfl | rfl | rfl | rfl | token
      · exact .inl (by decide +kernel)
      · exact .inr (.inl rfl)
      · exact .inl (by decide +kernel)
      · exact .inr (.inr (.inl rfl))
      · exact (strings_optionalMember (by decide +kernel) token).imp_right (.inr ∘ .inr ∘ .inl)
    · exact (strings_optionalMember (by decide +kernel) place).imp_right (.inr ∘ .inr ∘ .inr)
  · left
    split at polling
    · contradiction
    · rcases List.mem_cons.1 polling with rfl | polling
      · decide +kernel
      · rw [Toml.memberStrings, List.append_nil] at polling
        exact strings_polling polling

theorem strings_toJson {c : Config} {s : String} (mem : s ∈ Toml.strings c.toJson) :
    '$' ∉ s.toList ∨ s ∈ c.strings := by
  rw [toJson, Toml.strings, Toml.memberStrings_append] at mem
  simp only [strings, List.mem_append]
  rcases List.mem_append.1 mem with default | mem
  · exact (strings_optionalMember (by decide +kernel) default).imp_right .inl
  · rcases List.mem_cons.1 mem with rfl | mem
    · exact .inl (by decide +kernel)
    · rw [Toml.memberStrings, List.append_nil, Toml.strings, Toml.memberStrings_eq] at mem
      obtain ⟨m, own, mem⟩ := List.mem_flatMap.1 mem
      obtain ⟨e, there, rfl⟩ := List.mem_map.1 own
      have inside (own : s ∈ e.1 :: e.2.strings) :
          s ∈ c.profiles.entries.flatMap fun e => e.1 :: e.2.strings :=
        List.mem_flatMap.2 ⟨e, there, own⟩
      rcases List.mem_cons.1 mem with rfl | mem
      · exact .inr (.inr (inside List.mem_cons_self))
      · exact (strings_profile mem).imp_right fun own => .inr (inside (List.mem_cons_of_mem _ own))

/-- Without references that stand for something else, the text of a configuration is loaded as
that configuration. -/
theorem expand_text {e : Environment} {c : Config} (fits : c.Fits)
    (kept : ∀ s ∈ c.strings, e.Keeps s.toList) : e.expand c.text = c.text := by
  have all : ∀ s ∈ Toml.strings c.toJson, e.Keeps s.toList := by
    intro s mem
    rcases strings_toJson mem with plain | own
    · exact Environment.keeps_of_notMem plain
    · exact kept s own
  have printed := Toml.keeps_text (orderly_toJson fits) all
  exact Environment.expand_eq_self printed

theorem ofText_text {e : Environment} {c : Config} (fits : c.Fits)
    (same : e.expand c.text = c.text) : ofText e c.text = .ok c := by
  rw [ofText_eq, same, literal?_text fits]

end Config

/-- What was written at a path is what is read there right after. -/
def Disk.Faithful {σ : Type} (d : Disk σ) : Prop := ∀ (path text : String) (st st' : σ),
  d.write path text st = (.ok (), st') → (d.read path st').1 = some (.ok text)

namespace Memory.Files
variable {fs fs' : Files} {path : List String}

theorem lookup_put_self (fs : Files) (path : List String) (e : Entry) :
    (fs.put path e).lookup path = some e := List.lookup_cons_self

theorem lookup_put_of_ne {p : List String} (ne : p ≠ path) (fs : Files) (e : Entry) :
    (fs.put path e).lookup p = fs.lookup p := by
  have other : (p == path) = false := beq_eq_false_iff_ne.2 ne
  have kept : (fs.filter (·.1 ≠ path)).lookup p = fs.lookup p := by
    induction fs with
    | nil => rfl
    | cons f fs ih =>
      by_cases same : f.1 = path
      · rw [List.filter_cons_of_neg (by simpa using same), ih, List.lookup_cons, same, other]
      · rw [List.filter_cons_of_pos (by simpa using same), List.lookup_cons, List.lookup_cons, ih]
  rw [put, List.lookup_cons, other]
  exact kept

/-- What is put at a path on which no file stands in the way is there. -/
theorem at?_put (free : fs.at? path ≠ .error .notDirectory) (some : path ≠ []) (e : Entry) :
    (fs.put path e).at? path = .ok e := by
  have kept : ∀ p ∈ (List.range path.length).map path.take,
      (fs.put path e).lookup p = fs.lookup p := by
    intro p mem
    obtain ⟨i, lt, rfl⟩ := List.mem_map.1 mem
    refine lookup_put_of_ne (fun same => ?_) fs e
    have length := congrArg List.length same
    have short := List.mem_range.1 lt
    rw [List.length_take] at length
    omega
  unfold at? at free ⊢
  dsimp only at free ⊢
  split at free
  · exact absurd rfl free
  · next way =>
    rw [if_neg, if_neg (by simpa using some), lookup_put_self]
    intro blocked
    obtain ⟨p, mem, file⟩ := List.any_eq_true.1 blocked
    rw [kept p mem] at file
    exact way (List.any_eq_true.2 ⟨p, mem, file⟩)

/-- A file that was written is there. -/
theorem read_of_write {text : String} (written : fs.write path (some text) = .ok fs') :
    fs'.read path = some (.ok text) := by
  have free : fs.at? path ≠ .error .notDirectory := by
    intro blocked
    simp [write, blocked] at written
  have some : path ≠ [] := by
    rintro rfl
    simp [write, at?] at written
  have put : fs' = fs.put path (.file text) := by
    unfold write at written
    split at written
    · cases written
    · cases written
    · split at written
      · exact (Except.ok.inj written).symm
      · cases written
      · cases written
  rw [read, put, at?_put free some]

theorem faithful_disk : disk.Faithful := by
  intro path text fs fs' written
  by_cases empty : path = ""
  · cases empty
    cases congrArg Prod.fst written
  · have wrote : fs.write (parts path) (some text) = .ok fs' := by
      simp only [disk, if_neg empty] at written
      cases result : fs.write (parts path) (some text) with
      | error f =>
        rw [result] at written
        cases congrArg Prod.fst written
      | ok gs =>
        rw [result] at written
        exact congrArg Except.ok (congrArg Prod.snd written)
    simp only [disk, if_neg empty]
    exact read_of_write wrote

end Memory.Files

namespace Disk
variable {σ : Type} {d : Disk σ} {c : Config} {e : Environment} {path : String} {st st' : σ}

/-- A configuration that was saved has been written. -/
theorem save_ok (saved : d.save path c st = (.ok (), st')) :
    ∃ st₁, d.write path c.text st₁ = (.ok (), st') := by
  simp only [save, bind, StateT.bind] at saved
  generalize d.makeDirs (parent path) st = made at saved
  obtain ⟨r, st₁⟩ := made
  cases r with
  | error f => cases saved
  | ok =>
    refine ⟨st₁, ?_⟩
    simp only [StateT.bind] at saved
    generalize d.write path c.text st₁ = written at saved ⊢
    obtain ⟨r, st₂⟩ := written
    cases r with
    | error f => cases saved
    | ok =>
      cases saved
      rfl

theorem load_of_read {text : String} (there : (d.read path st).1 = some (.ok text)) :
    d.load e path st = (Config.ofText e text, (d.read path st).2) := by
  simp only [load, bind, StateT.bind]
  cases read : d.read path st with
  | mk r st₁ =>
    obtain rfl : r = some (.ok text) := by simpa [read] using there
    rfl

/-- What was saved is read as its text. -/
theorem read_of_saved (faithful : d.Faithful) (saved : d.save path c st = (.ok (), st')) :
    (d.read path st').1 = some (.ok c.text) := by
  obtain ⟨st₁, written⟩ := save_ok saved
  exact faithful path c.text st₁ st' written

/-- What was saved is loaded again. Without expansion the file always spells it; expansion leaves
it as it is unless there are references that stand for something else. -/
theorem load_save (faithful : d.Faithful) (fits : c.Fits)
    (saved : d.save path c st = (.ok (), st')) :
    ∃ t, (d.read path st').1 = some (.ok t) ∧ Config.literal? t = some c ∧
      ∀ e : Environment, (e.expand t = t ∨ ∀ s ∈ c.strings, e.Keeps s.toList) →
        (d.load e path st').1 = .ok c := by
  have there := read_of_saved faithful saved
  refine ⟨c.text, there, Config.literal?_text fits, fun e plain => ?_⟩
  rw [load_of_read there]
  exact Config.ofText_text fits (plain.elim id (Config.expand_text fits))

/-- A configuration with one profile, and what saving it gives. -/
def withToken (token : String) : Config :=
  { profiles := Catalog.empty.insert "p" { project := "p", endpoint := "e", accessToken := token } }

def savedToken (token : String) : Except ConfigError Unit × Memory.Files :=
  Memory.Files.disk.save "c" (withToken token) []

theorem keeps_withToken {e : Environment} {token : String} (kept : e.Keeps token.toList) :
    ∀ s ∈ (withToken token).strings, e.Keeps s.toList := by
  have strings : (withToken token).strings = ["p", "p", "e", token] := rfl
  have plain : '$' ∉ "p".toList ∧ '$' ∉ "e".toList := by decide +kernel
  have name := Environment.keeps_of_notMem (e := e) plain.1
  have endpoint := Environment.keeps_of_notMem (e := e) plain.2
  rw [strings]
  exact List.forall_mem_cons.2 ⟨name, List.forall_mem_cons.2 ⟨name, List.forall_mem_cons.2
    ⟨endpoint, List.forall_mem_singleton.2 kept⟩⟩⟩

theorem keeps_unset {e : Environment} (unset : e.get? "U" = none) : e.Keeps "'${U} 5$".toList := by
  have chars : "'${U} 5$".toList = '\'' :: '$' :: '{' :: (['U'] ++ '}' :: [' ', '5', '$']) := by
    decide +kernel
  have name : ∀ c ∈ ['U'], Environment.isNameChar c = true := List.forall_mem_singleton.2 rfl
  have idle := @Environment.Idle.braced e ['U'] [' ', '5', '$'] name unset
  rw [chars]
  refine ⟨by simp, fun _ => idle, ?_⟩
  simp [Environment.Keeps, Environment.Idle.last]

/-- A reference to a variable that is not set, and a dollar at the end. -/
theorem load_save_unset :
    (savedToken "'${U} 5$").1 = .ok () ∧
      (Memory.Files.disk.load ⟨[("T", "x")]⟩ "c" (savedToken "'${U} 5$").2).1 =
        .ok (withToken "'${U} 5$") := by
  have done : (savedToken "'${U} 5$").1 = .ok () := by decide +kernel
  have fits : (withToken "'${U} 5$").Fits := by decide +kernel
  have kept : ∀ s ∈ (withToken "'${U} 5$").strings, Environment.Keeps ⟨[("T", "x")]⟩ s.toList :=
    keeps_withToken (keeps_unset rfl)
  obtain ⟨t, -, -, loads⟩ := load_save Memory.Files.faithful_disk fits (Prod.ext done rfl)
  exact ⟨done, loads _ (.inr kept)⟩

/-- A token that is a reference to a variable that is set. -/
theorem load_save_set :
    (savedToken "${T}").1 = .ok () ∧
      (Memory.Files.disk.load ⟨[("T", "x")]⟩ "c" (savedToken "${T}").2).1 = .ok (withToken "x") ∧
      withToken "x" ≠ withToken "${T}" := by
  decide +kernel

end Disk

end BackupAdmin
