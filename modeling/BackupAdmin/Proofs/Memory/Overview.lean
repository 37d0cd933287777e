import BackupAdmin.Proofs.Memory.Filters
import BackupAdmin.Proofs.Memory.Listings
import BackupAdmin.Workflow.Basic

/-! The overview of an instance's backups. Main statement: on a service in memory it succeeds, and
each of its sections names just the backups that it is for. -/
namespace BackupAdmin

/-- A program that is run for each item of a list, and ends each time with a value that has to do
with what the item stands for. -/
theorem Session.run_mapM {σ α β γ : Type} {f : α → Session σ β} {I : World σ → Prop}
    {Q : α → γ → Prop} {R : β → γ → Prop} {as : List α} {cs : List γ}
    (items : List.Forall₂ Q as cs)
    (step : ∀ a c, Q a c → ∀ w, I w → ∃ b w', (f a).run w = some (.ok b, w') ∧ I w' ∧ R b c)
    {w : World σ} (h : I w) :
    ∃ bs w', (as.mapM f).run w = some (.ok bs, w') ∧ I w' ∧ List.Forall₂ R bs cs := by
  induction items generalizing w with
  | nil => exact ⟨[], w, rfl, h, .nil⟩
  | @cons a c as cs related _ ih =>
    obtain ⟨b, w₁, first, h₁, fits⟩ := step a c related w h
    obtain ⟨bs, w₂, rest, h₂, all⟩ := ih h₁
    refine ⟨b :: bs, w₂, ?_, h₂, .cons fits all⟩
    rw [List.mapM_cons, run_bind_ok first, run_bind_ok rest]
    rfl

namespace Catalog

theorem mem_names_iff {α : Type} {c : Catalog α} {name : String} :
    name ∈ c.entries.map (·.1) ↔ ∃ v, c.get? name = some v := by
  simp only [List.mem_map, get?, lookup_eq_some_iff c.sorted, Prod.exists, exists_and_right,
    exists_eq_right]

theorem get?_foldl_insert {names : List String} {c : Catalog Unit} {name : String} :
    (∃ v, ((names.map (·, ())).foldl (fun c e => c.insert e.1 e.2) c).get? name = some v) ↔
      name ∈ names ∨ ∃ v, c.get? name = some v := by
  induction names generalizing c with
  | nil => simp
  | cons a names ih =>
    rw [List.map_cons, List.foldl_cons, ih, get?_insert, List.mem_cons]
    by_cases same : name = a <;> simp [same]

end Catalog

theorem Workflow.mem_sortedSet {names : List String} {name : String} :
    name ∈ sortedSet names ↔ name ∈ names := by
  rw [sortedSet, Catalog.mem_names_iff, Catalog.ofList, Catalog.get?_foldl_insert]
  simp

theorem Workflow.pairwise_sortedSet (names : List String) :
    (sortedSet names).Pairwise (· < ·) :=
  List.pairwise_map.2 (Catalog.sorted _)

namespace Memory
variable {s : Script} {c : Client Store} {w : World Store} {st : Store} {i : Instance}
  {P : Backup → Prop} {filter : Option String}

/-- The names of an instance's backups with a property, in order and each of them once. -/
def Lists (st : Store) (i : Instance) (P : Backup → Prop) (names : List String) : Prop :=
  names.Pairwise (· < ·) ∧ ∀ name, name ∈ names ↔
    ∃ b, st.backups.get? name = some b ∧ b.name = name ∧ i.owns name = true ∧ P b

/-- A filter that makes sense selects the backups that it admits. -/
theorem lists_selected (filed : Filed st.backups) (means : Means filter P) (i : Instance) :
    ∃ selected, filterM (fun b => admits (backupField b) filter) (ownBackups i st) =
      .ok selected ∧ Lists st i P (selected.map (·.name)) := by
  have selects := selects_filterM (fun b => admits (backupField b) filter) (ownBackups i st)
  cases result : filterM (fun b => admits (backupField b) filter) (ownBackups i st) with
  | error e =>
    rw [result] at selects
    cases selects with
    | failed before after b _ split decided fails =>
      obtain ⟨d, admitted, -⟩ := means b
      cases fails.symm.trans admitted
  | ok selected =>
    rw [result] at selects
    obtain ⟨increasing, mem_iff⟩ := selected_backups filed selects
    refine ⟨selected, rfl, List.pairwise_map.2 increasing, fun name => ?_⟩
    have admitted_iff (b : Backup) : admits (backupField b) filter = .ok true ↔ P b := by
      obtain ⟨d, admitted, holds⟩ := means b
      rw [admitted, ← holds, Except.ok.injEq]
    simp only [List.mem_map, mem_iff, admitted_iff]
    constructor
    · rintro ⟨b, ⟨found, own, holds⟩, rfl⟩
      exact ⟨b, found, rfl, own, holds⟩
    · rintro ⟨b, found, rfl, own, holds⟩
      exact ⟨b, ⟨found, own, holds⟩, rfl⟩

/-- Reading the names of a listing to its end. -/
theorem run_backupNames (served : c.service = service s) (filed : Filed w.service.backups)
    (fits : w.service.Fits) (means : Means filter P) (i : Instance) (size : Option Nat) :
    ∃ names w', (Workflow.backupNames { c.backups i filter with pageSize := size }).run w =
      some (.ok names, w') ∧ w'.service = w.service ∧ Lists w.service i P names := by
  obtain ⟨selected, same, lists⟩ := lists_selected filed means i
  have pages := pages_backups served i filter size w.service
  rw [same] at pages
  have le := (selects_filterM (fun b => admits (backupField b) filter) (ownBackups i w.service))
  rw [same] at le
  obtain ⟨w', requests, read, -, -, stays, -⟩ := pages.collect fun items eq => by
    cases eq
    exact Nat.lt_of_le_of_lt (Nat.le_trans le.length_le (length_ownBackups_le i _)) fits.backups
  refine ⟨_, w', ?_, stays, lists⟩
  have collected : (Workflow.collect { c.backups i filter with pageSize := size }).run w =
      some (.ok selected, w') := read
  rw [Workflow.backupNames, Session.run_bind_ok collected]
  rfl

/-- What the backups of each section of an overview have in common. -/
def sectionProperties (now : Instant) (database backup : String) : List (Backup → Prop) :=
  [fun _ => True,
    fun b => backup.toList <:+: b.name.toList,
    fun b => database.toList <:+: b.database.toList,
    fun b => ∃ t, b.expireTime = some t ∧ t.before (now.plusDays 30) = true,
    fun b => 100 < b.sizeBytes.toInt,
    fun b => ∃ t, b.createTime = some t ∧ t.before (now.minusDays 1) = false ∧ b.state = .ready,
    fun _ => True]

/-- A point in time whose date can be written and read. -/
def InRange (t : Instant) : Prop := Date.minYear ≤ t.date.year ∧ t.date.year ≤ Date.maxYear

theorem sectionsAt_means {now : Instant} {database backup : String}
    (plain_database : ∀ c ∈ database.toList, isIdChar c = true)
    (plain_backup : ∀ c ∈ backup.toList, isIdChar c = true)
    (soon : InRange (now.wholeSeconds.plusDays 30))
    (lately : InRange (now.wholeSeconds.minusDays 1)) :
    List.Forall₂ (fun a P => Means a.2 P) (Workflow.sectionsAt now.wholeSeconds database backup)
      (sectionProperties now.wholeSeconds database backup).dropLast := by
  have soon' := stamp_filterText (now.nanos_plusDays (by decide)) soon.1 soon.2
  have lately' := stamp_filterText (now.nanos_minusDays 1) lately.1 lately.2
  exact .cons means_none (.cons (means_nameContains plain_backup)
    (.cons (means_databaseContains plain_database) (.cons soon'.means_before
      (.cons (means_largerThan (by decide)) (.cons lately'.means_ready_since .nil)))))

/-- The overview of an instance succeeds, and its sections name just the backups with the property
of each, in order: all of them, those whose name or database contains an id, those that expire
within thirty days, those above a size, those that are ready and not older than a day, and all of
them again read page by page. -/
theorem listBackups_sections (served : c.service = service s) (arises : Arises s w.service)
    (fits : w.service.Fits) (i : Instance) {database backup : String}
    (plain_database : ∀ c ∈ database.toList, isIdChar c = true)
    (plain_backup : ∀ c ∈ backup.toList, isIdChar c = true)
    (soon : InRange (w.now.wholeSeconds.plusDays 30))
    (lately : InRange (w.now.wholeSeconds.minusDays 1)) :
    ∃ report w', (Workflow.listBackups c i database backup).run w = some (.ok report, w') ∧
      w'.service = w.service ∧
      List.Forall₂ (fun part P => Lists w.service i P part.backups) report.sections
        (sectionProperties w.now.wholeSeconds database backup) := by
  have filed := arises.filed
  have means := sectionsAt_means plain_database plain_backup soon lately
  obtain ⟨parts, w₁, mapped, stays, all⟩ := Session.run_mapM means
    (I := fun w₁ => w₁.service = w.service)
    (R := fun part P => Lists w.service i P part.backups)
    (f := fun part => do
      return BackupListSection.mk part.1 (← Workflow.backupNames (c.backups i part.2)))
    (fun a P means w₁ here => by
      obtain ⟨names, w₂, read, stays, lists⟩ :=
        run_backupNames served (here ▸ filed) (here ▸ fits) means i none
      refine ⟨⟨a.1, names⟩, w₂, ?_, stays.trans here, here ▸ lists⟩
      exact Session.run_bind_ok read) rfl
  obtain ⟨names, w₂, read, stays', lists⟩ :=
    run_backupNames served (stays ▸ filed) (stays ▸ fits) means_none i (some Workflow.listPageSize)
  have last : Lists w.service i (fun _ => True) (Workflow.sortedSet names) := by
    rw [stays] at lists
    exact ⟨Workflow.pairwise_sortedSet names, fun name =>
      Workflow.mem_sortedSet.trans (lists.2 name)⟩
  refine ⟨⟨parts ++ [⟨"All backups with pagination", Workflow.sortedSet names⟩]⟩, w₂, ?_,
    stays'.trans stays, List.rel_append all (.cons last .nil)⟩
  rw [Workflow.listBackups, Session.run_bind_ok (Session.run_now w), Session.run_bind_ok mapped,
    Session.run_bind_ok read]
  rfl

/-- Among three backups one is named by its id. -/
theorem listBackups_sections_threeBackups :
    let c : Client Store := { service := service firstPoll }
    let i : Instance := ⟨"p", "i"⟩
    let w : World Store := { service := threeBackups i, start := firstPoll.now }
    c.service = service firstPoll ∧ Arises firstPoll w.service ∧ w.service.Fits ∧
      (∀ c ∈ "db1".toList, isIdChar c = true) ∧ (∀ c ∈ "s/b".toList, isIdChar c = true) ∧
      InRange (w.now.wholeSeconds.plusDays 30) ∧ InRange (w.now.wholeSeconds.minusDays 1) ∧
      ∃ report w', (Workflow.listBackups c i "db1" "s/b").run w = some (.ok report, w') ∧
        w'.service = w.service ∧ report.sections.length = 7 ∧
        ∃ part ∈ report.sections, ∀ name, name ∈ part.backups ↔ name = i.backupName "b" := by
  intro c i w
  have served : c.service = service firstPoll := rfl
  have arises : Arises firstPoll w.service := arises_threeBackups i
  have fits : w.service.Fits := ⟨by decide +kernel, by decide +kernel⟩
  have plain : ∀ c ∈ "db1".toList, isIdChar c = true := Text.forall_mem_of_all (by decide)
  have plain' : ∀ c ∈ "s/b".toList, isIdChar c = true := Text.forall_mem_of_all (by decide)
  have soon : InRange (w.now.wholeSeconds.plusDays 30) := ⟨by decide +kernel, by decide +kernel⟩
  have lately : InRange (w.now.wholeSeconds.minusDays 1) := ⟨by decide +kernel, by decide +kernel⟩
  refine ⟨served, arises, fits, plain, plain', soon, lately, ?_⟩
  obtain ⟨report, w', run, stays, parts⟩ :=
    listBackups_sections served arises fits i plain plain' soon lately
  refine ⟨report, w', run, stays, parts.length_eq, ?_⟩
  obtain ⟨sections⟩ := report
  cases parts with
  | cons all rest => cases rest with
    | cons named rest =>
      refine ⟨_, List.mem_cons_of_mem _ List.mem_cons_self, fun name => (named.2 name).trans ?_⟩
      constructor
      · rintro ⟨b, found, rfl, -, inside⟩
        have names : w.service.backups.entries.map (·.1) =
            [i.backupName "a", i.backupName "b", i.backupName "c"] := by decide +kernel
        have listed := Catalog.mem_names_iff.2 ⟨b, found⟩
        rw [names] at listed
        have no_others : ∀ name ∈ [i.backupName "a", i.backupName "c"],
            Text.contains "s/b".toList name.toList = false := by decide +kernel
        have found_it := Text.contains_iff.2 inside
        grind
      · rintro rfl
        exact ⟨{ name := i.backupName "b" }, by decide +kernel, rfl, by decide +kernel,
          Text.contains_iff.1 (by decide +kernel)⟩

end Memory
end BackupAdmin
