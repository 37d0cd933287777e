import BackupAdmin.Proofs.Memory.Locality

/-! Calls on different backups. Main statement: they are answered alike in either order, with the
same store after both, and clients that work on different backups see nothing of each other. -/
namespace BackupAdmin.Memory

section
variable {s : Script} {st : Store} {B C : Set String} {c d : Call} {ch ch' : Change} {name : String}

/-- A call is answered after one on other backups as it is before. -/
theorem Script.Does.after (does : s.Does c B st ch) (does' : s.Does d C st ch')
    (disjoint : Disjoint B C) (one : c.submits = false ∨ d.submits = false) :
    (service s).answer c ((service s).answer d st).state =
      ⟨((service s).answer c st).result, ch.apply (ch'.apply st), 0⟩ := by
  have state : ((service s).answer d st).state = ch'.apply st := does'.state
  rw [state]
  refine does.answers _ (alike_apply disjoint does'.on) fun submits => ?_
  -- the other call begins no operation, so the next one has the same number
  have none : ch'.begun = none := does'.begins (one.resolve_left (by simp [submits]))
  rw [Change.apply_of_begun none]

theorem find?_ne (absent : st.find? name = none) {j : Nat} {t : Task}
    (at_j : st.tasks[j]? = some t) : t.operation.name ≠ name := by
  intro named
  unfold Store.find? at absent
  split at absent
  case h_1 i first =>
    obtain ⟨lt, -⟩ := List.findIdx?_eq_some_iff_getElem.1 first
    rw [List.getElem?_eq_getElem lt] at absent
    contradiction
  case h_2 none =>
    have other := List.findIdx?_eq_none_iff.1 none t (List.mem_of_getElem? at_j)
    simp [named] at other

/-- An operation that makes a backup is found, or was found before, by the same name. -/
theorem effect_of_found (does : s.Does d C st ch)
    (of_backup : ∀ i t, st.find? name = some (i, t) →
      ∃ b encryption, t.effect = .backup b encryption)
    {i : Nat} {u : Task} (found : (s.doing st (.call d)).find? name = some (i, u)) :
    ∃ b encryption, u.effect = .backup b encryption := by
  have advances := s.advances_doing (.call d) st
  cases before : st.find? name with
  | some place =>
    obtain ⟨j, t⟩ := place
    obtain ⟨t', found', continues⟩ := advances.find? before
    obtain ⟨rfl, rfl⟩ := Prod.mk.inj (Option.some.inj (found'.symm.trans found))
    exact continues.effect ▸ of_backup _ t before
  | none =>
    obtain ⟨at_i, named, -⟩ := Store.find?_eq_some_iff.1 found
    have behind : st.tasks.length ≤ i := by
      refine Nat.le_of_not_lt fun lt => ?_
      obtain ⟨t', at_i', continues⟩ := advances.keeps i _ (List.getElem?_eq_getElem lt)
      obtain rfl : t' = u := Option.some.inj (at_i'.symm.trans at_i)
      exact find?_ne before (List.getElem?_eq_getElem lt) (continues.name.symm.trans named)
    have at_end : (ch.replaced st.tasks ++ ch.begun.toList)[i]? = some u :=
      (congrArg (·.tasks[i]?) does.state).symm.trans at_i
    rw [List.getElem?_append_right (by rwa [Change.length_replaced])] at at_end
    exact (does.on.begun u (Option.mem_toList.1 (List.mem_of_getElem? at_end))).2

/-- A call lies on the same backups after another call. -/
theorem Store.Concerns.after (concerned : st.Concerns B c) (does : s.Does d C st ch) :
    (s.doing st (.call d)).Concerns B c := by
  cases c with
  | getOperation name | cancelOperation name =>
    obtain ⟨owned, of_backup⟩ := concerned
    exact ⟨owned, fun i u => effect_of_found does of_backup⟩
  | submit i r => cases r <;> exact concerned
  | _ => exact concerned

/-- Two calls on different backups, at most one of which starts an operation, in either order. -/
theorem answers_commute (reachable : Reachable s st) (disjoint : Disjoint B C)
    (concerned : st.Concerns B c) (concerned' : st.Concerns C d)
    (one : c.submits = false ∨ d.submits = false) :
    ((service s).answer c (s.doing st (.call d))).result = ((service s).answer c st).result ∧
      ((service s).answer d (s.doing st (.call c))).result = ((service s).answer d st).result ∧
      s.doing (s.doing st (.call d)) (.call c) = s.doing (s.doing st (.call c)) (.call d) := by
  obtain ⟨ch, does⟩ := exists_does reachable concerned
  obtain ⟨ch', does'⟩ := exists_does reachable concerned'
  have later := does.after does' disjoint one
  have later' := does'.after does disjoint.symm one.symm
  have one_begun : ch.begun = none ∨ ch'.begun = none := one.imp does.begins does'.begins
  refine ⟨congrArg (·.result) later, congrArg (·.result) later', ?_⟩
  calc s.doing (s.doing st (.call d)) (.call c)
    _ = ch.apply (ch'.apply st) := congrArg (·.state) later
    _ = ch'.apply (ch.apply st) := apply_comm disjoint does.on does'.on one_begun
    _ = s.doing (s.doing st (.call c)) (.call d) := (congrArg (·.state) later').symm

end

/-- A call and what it was answered. -/
def Said : Type := (c : Call) × Except AdminError c.Answer

namespace Script

def reply (s : Script) (c : Call) (st : Store) : Said := ⟨c, ((service s).answer c st).result⟩

/-- What a client hears that makes these calls alone. -/
def answers (s : Script) : List Call → Store → List Said
  | [], _ => []
  | c :: cs, st => s.reply c st :: s.answers cs (s.doing st (.call c))

/-- What two clients hear whose calls come one after the other. -/
def serves (s : Script) : List (Call ⊕ Call) → Store → List (Said ⊕ Said)
  | [], _ => []
  | .inl c :: l, st => .inl (s.reply c st) :: s.serves l (s.doing st (.call c))
  | .inr c :: l, st => .inr (s.reply c st) :: s.serves l (s.doing st (.call c))

end Script

/-- What belongs to the first client. -/
def lefts {α : Type} (l : List (α ⊕ α)) : List α := l.filterMap Sum.getLeft?

/-- What belongs to the second client. -/
def rights {α : Type} (l : List (α ⊕ α)) : List α := l.filterMap Sum.getRight?

/-- The calls of both clients. -/
def deeds (l : List (Call ⊕ Call)) : List Deed := l.map fun e => .call (e.elim id id)

section
variable {s : Script} {st : Store} {B C : Set String} {c d : Call} {cs ds : List Call}

/-- A call changes nothing for calls on other backups, nor do these for it. -/
theorem answers_after (reachable : Reachable s st) (disjoint : Disjoint B C)
    (concerned : ∀ c ∈ cs, st.Concerns B c) (concerned' : st.Concerns C d)
    (one : (∀ c ∈ cs, c.submits = false) ∨ d.submits = false) :
    s.answers cs (s.doing st (.call d)) = s.answers cs st ∧
      s.run (cs.map .call) (s.doing st (.call d)) =
        s.doing (s.run (cs.map .call) st) (.call d) := by
  induction cs generalizing st with
  | nil => exact ⟨rfl, rfl⟩
  | cons c cs ih =>
    obtain ⟨concerned_c, concerned⟩ := List.forall_mem_cons.1 concerned
    have one_c : c.submits = false ∨ d.submits = false :=
      one.imp_left fun h => h c List.mem_cons_self
    have one_cs : (∀ c ∈ cs, c.submits = false) ∨ d.submits = false :=
      one.imp_left fun h c mem => h c (List.mem_cons_of_mem _ mem)
    obtain ⟨ch, does⟩ := exists_does reachable concerned_c
    obtain ⟨same, -, swap⟩ := answers_commute reachable disjoint concerned_c concerned' one_c
    obtain ⟨answers, run⟩ := ih (reachable.call c) (fun c mem => (concerned c mem).after does)
      (concerned'.after does) one_cs
    have same_reply : s.reply c (s.doing st (.call d)) = s.reply c st := congrArg (Sigma.mk c) same
    refine ⟨?_, ?_⟩
    · rw [Script.answers, same_reply, swap]
      exact congrArg _ answers
    · change s.run (cs.map .call) (s.doing (s.doing st (.call d)) (.call c)) = _
      rw [swap]
      exact run

/-- However the calls of two clients on different backups come, each client hears what it hears
alone, and the store is as after the calls of one and then those of the other. -/
theorem serves_eq (reachable : Reachable s st) (disjoint : Disjoint B C) (l : List (Call ⊕ Call))
    (mine : ∀ c ∈ lefts l, st.Concerns B c) (theirs : ∀ d ∈ rights l, st.Concerns C d)
    (one : (∀ c ∈ lefts l, c.submits = false) ∨ ∀ d ∈ rights l, d.submits = false) :
    lefts (s.serves l st) = s.answers (lefts l) st ∧
      rights (s.serves l st) = s.answers (rights l) st ∧
      s.run (deeds l) st = s.run ((lefts l ++ rights l).map .call) st := by
  induction l generalizing st with
  | nil => exact ⟨rfl, rfl, rfl⟩
  | cons e l ih =>
    cases e with
    | inl c =>
      obtain ⟨concerned, mine⟩ := List.forall_mem_cons.1 mine
      have one' : (∀ c ∈ lefts l, c.submits = false) ∨ ∀ d ∈ rights l, d.submits = false :=
        one.imp_left fun h c mem => h c (List.mem_cons_of_mem _ mem)
      have one_c : (∀ d ∈ rights l, d.submits = false) ∨ c.submits = false :=
        one.symm.imp_right fun h => h c List.mem_cons_self
      obtain ⟨ch, does⟩ := exists_does reachable concerned
      obtain ⟨hears, hears', run⟩ := ih (reachable.doing (.call c))
        (fun c mem => (mine c mem).after does) (fun d mem => (theirs d mem).after does) one'
      obtain ⟨alone, -⟩ := answers_after reachable disjoint.symm theirs concerned one_c
      -- the second client hears after this call what it would hear before
      exact ⟨congrArg (s.reply c st :: ·) hears, hears'.trans alone, run⟩
    | inr d =>
      obtain ⟨concerned, theirs⟩ := List.forall_mem_cons.1 theirs
      have one' : (∀ c ∈ lefts l, c.submits = false) ∨ ∀ d ∈ rights l, d.submits = false :=
        one.imp_right fun h d mem => h d (List.mem_cons_of_mem _ mem)
      have one_d : (∀ c ∈ lefts l, c.submits = false) ∨ d.submits = false :=
        one.imp_right fun h => h d List.mem_cons_self
      obtain ⟨ch, does⟩ := exists_does reachable concerned
      obtain ⟨hears, hears', run⟩ := ih (reachable.doing (.call d))
        (fun c mem => (mine c mem).after does) (fun d mem => (theirs d mem).after does) one'
      have mine : ∀ c ∈ lefts l, st.Concerns B c := mine
      obtain ⟨alone, later⟩ := answers_after reachable disjoint mine concerned one_d
      refine ⟨hears.trans alone, congrArg (s.reply d st :: ·) hears', ?_⟩
      -- the call is moved behind all calls of the first client
      calc s.run (deeds l) (s.doing st (.call d))
        _ = s.run ((lefts l ++ rights l).map .call) (s.doing st (.call d)) := run
        _ = s.run ((rights l).map .call) (s.doing (s.run ((lefts l).map .call) st) (.call d)) := by
          rw [List.map_append, s.run_append, later]
        _ = s.run ((lefts l ++ d :: rights l).map .call) st := by
          rw [List.map_append, s.run_append]
          rfl

end

/-- Two calls on different backups, of which at most one starts an operation, are answered alike in
either order and leave the same store. Two clients that work on different backups, of which at most
one starts operations, hear in any order of their calls what they would hear alone, and the store is
the same in the end. -/
theorem backups_independent (s : Script) (B C : Set String) (disjoint : Disjoint B C) (st : Store)
    (reachable : Reachable s st) :
    (∀ c d : Call, st.Concerns B c → st.Concerns C d → (c.submits = false ∨ d.submits = false) →
      ((service s).answer c ((service s).answer d st).state).result =
          ((service s).answer c st).result ∧
        ((service s).answer d ((service s).answer c st).state).result =
          ((service s).answer d st).result ∧
        ((service s).answer c ((service s).answer d st).state).state =
          ((service s).answer d ((service s).answer c st).state).state) ∧
    ∀ l : List (Call ⊕ Call), (∀ c ∈ lefts l, st.Concerns B c) →
      (∀ d ∈ rights l, st.Concerns C d) →
      ((∀ c ∈ lefts l, c.submits = false) ∨ ∀ d ∈ rights l, d.submits = false) →
      lefts (s.serves l st) = s.answers (lefts l) st ∧
        rights (s.serves l st) = s.answers (rights l) st ∧
        s.run (deeds l) st = s.run ((lefts l ++ rights l).map .call) st :=
  ⟨fun _ _ concerned concerned' one =>
    answers_commute reachable disjoint concerned concerned' one,
    fun l mine theirs one => serves_eq reachable disjoint l mine theirs one⟩

/-- A client that makes a backup and polls its operation, and another that reads a backup and
deletes it. -/
theorem backups_independent_twoClients :
    let s : Script := { now := ⟨0, 0⟩ }
    let i : Instance := ⟨"p", "i"⟩
    let st := (({} : Store).insertDatabase s.now (i.databaseName "db1")).insertBackup
      { name := i.backupName "b2", state := .ready }
    let make : Call := .submit i (.createBackup "b1" (i.databaseName "db1") (s.now.plusDays 1) none
      none)
    let poll : Call := .getOperation (i.backupName "b1" ++ "/operations/op-1")
    let read : Call := .getBackup (i.backupName "b2")
    let delete : Call := .deleteBackup (i.backupName "b2")
    Reachable s st ∧ Disjoint {i.backupName "b1"} ({i.backupName "b2"} : Set String) ∧
      ((service s).answer make ((service s).answer read st).state).state =
        ((service s).answer read ((service s).answer make st).state).state ∧
      lefts (s.serves [.inr read, .inl make, .inl poll, .inr delete] st) =
        lefts (s.serves [.inl make, .inr read, .inr delete, .inl poll] st) := by
  intro s i st make poll read delete
  have reachable : Reachable s st := .insertBackup (.insertDatabase .new _) _
  have disjoint : Disjoint {i.backupName "b1"} ({i.backupName "b2"} : Set String) :=
    Set.disjoint_left.2 fun b mem mem' => by
      have same : i.backupName "b1" = i.backupName "b2" := (mem : b = _).symm.trans mem'
      exact absurd same (by decide)
  obtain ⟨pairs, clients⟩ := backups_independent s _ _ disjoint st reachable
  have makes : st.Concerns {i.backupName "b1"} make := rfl
  have reads : st.Concerns {i.backupName "b2"} read := rfl
  have deletes : st.Concerns {i.backupName "b2"} delete := rfl
  have polls : st.Concerns {i.backupName "b1"} poll := by
    refine ⟨fun b works => ?_, fun j t found => ?_⟩
    · exact works.unique ⟨"op-1", rfl, by decide⟩
    · have none : st.find? (i.backupName "b1" ++ "/operations/op-1") = none := rfl
      rw [none] at found
      contradiction
  have mine : ∀ c ∈ [make, poll], st.Concerns {i.backupName "b1"} c := by
    simpa using ⟨makes, polls⟩
  have theirs : ∀ d ∈ [read, delete], st.Concerns {i.backupName "b2"} d := by
    simpa using ⟨reads, deletes⟩
  have quiet : ∀ d ∈ [read, delete], d.submits = false := by decide
  have hears (l : List (Call ⊕ Call)) (left : lefts l = [make, poll])
      (right : rights l = [read, delete]) : lefts (s.serves l st) = s.answers [make, poll] st :=
    left ▸ (clients l (left ▸ mine) (right ▸ theirs) (.inr (right ▸ quiet))).1
  refine ⟨reachable, disjoint, (pairs make read makes reads (.inr rfl)).2.2, ?_⟩
  exact (hears _ rfl rfl).trans (hears _ rfl rfl).symm

end BackupAdmin.Memory
