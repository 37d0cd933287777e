import BackupAdmin.Proofs.Exchange.Protocol
import BackupAdmin.Workflow.Basic

/-! What the workflows that start an operation exchange with the service. Main statement: each
keeps to its protocol, whatever the service answers. -/
namespace BackupAdmin.Workflow
variable {σ α : Type}

section
variable (c : Client σ) (i : Instance) (p : Polling) (w : World σ)

theorem complete_bind_follows (r : Request) (timeout : Duration) {k : Handle → Session σ α}
    {Read : String → List Exchange → Except AdminError α → Prop}
    (reads : ∀ h w', (k h).Follows c.service w' fun log result _ => Read h.target log result) :
    (complete c i r timeout >>= k).Follows c.service w fun log result _ =>
      Creation i r w.now timeout Read log result := by
  have steps : complete c i r timeout >>= k = c.submit i r >>= fun h =>
      (c.await h timeout >>= fun x => Session.ofExcept (x.toExcept h.name timeout)) >>=
        fun _ => k h := by
    simp [complete]
  rw [steps]
  refine (c.submit_follows i r w).bind (fun log e t start => .unstarted start)
    fun log h w' start => ?_
  refine (c.await_follows h timeout w').bind (fun log' e t wait => .unfinished start wait)
    fun log' o w'' wait => ?_
  exact (reads h w'').mono fun log'' result t read => .finished start wait read

/-- A program that goes on without calls after a first one has read once. -/
theorem call_bind_reads (call : Call) {k : call.Answer → Session σ α}
    (ends : ∀ a w', ∃ result, (k a).run w' = some (result, w')) :
    (Session.call c.service call >>= k).Follows c.service w fun log result _ =>
      Reads call log result := by
  refine .call_bind (fun e t => ⟨_, t, rfl, fun e' same => ?_⟩) fun a w' => ?_
  · injection same with same
    rw [same]
  · obtain ⟨result, run⟩ := ends a w'
    exact ⟨[], result, w', run, .nil w', _, _, rfl, fun e same => nomatch same⟩

theorem readyBackup_bind_reads (name : String) (report : Backup → α) :
    (readyBackup c name >>= fun b => pure (report b)).Follows c.service w fun log result _ =>
      Reads (.getBackup name) log result := by
  rw [readyBackup, bind_assoc]
  refine call_bind_reads c w (.getBackup name) fun b w' => ?_
  split
  · exact ⟨_, rfl⟩
  · exact ⟨_, rfl⟩

theorem createBackup_follows (database backup : String) (version : Option Instant)
    (key : Option String) :
    (createBackup c i database backup version key p).Follows c.service w fun log result _ =>
      Creation i (.createBackup backup (i.databaseName database) (w.now.plusDays backupDays) version
        (key.map .ofKey)) w.now (Duration.ofSeconds p.backupTimeout) (Reads <| .getBackup ·)
        log result := by
  refine .now_bind (complete_bind_follows c i w _ _ fun h w' => ?_)
  exact readyBackup_bind_reads c w' h.target _

theorem copyBackup_follows (backup source : String) :
    (copyBackup c i backup source p).Follows c.service w fun log result _ =>
      Creation i (.copyBackup backup source (w.now.plusDays backupDays) none) w.now
        (Duration.ofSeconds p.backupTimeout) (Reads <| .getBackup ·) log result := by
  refine .now_bind (complete_bind_follows c i w _ _ fun h w' => ?_)
  exact readyBackup_bind_reads c w' h.target _

theorem restoreDatabase_follows (database backup : String) (key : Option String) :
    (restoreDatabase c i database backup key p).Follows c.service w fun log result _ =>
      Creation i (.restoreDatabase database (i.backupName backup) (key.map .ofKey)) w.now
        (Duration.ofSeconds p.restoreTimeout) (Reads <| .getDatabase ·) log result := by
  refine complete_bind_follows c i w _ _ fun h w' => ?_
  refine call_bind_reads c w' (.getDatabase h.target) fun d w'' => ?_
  split
  · exact ⟨_, rfl⟩
  · exact ⟨_, rfl⟩

theorem createDatabaseWithRetention_follows (database period : String) :
    (createDatabaseWithRetention c i database period p).Follows c.service w fun log result _ =>
      Creation i (.createDatabase ("CREATE DATABASE `" ++ database ++ "`")
        (retentionStatements database period)) w.now (Duration.ofSeconds p.createDatabaseTimeout)
        ReadsAndDrops log result := by
  refine complete_bind_follows c i w _ _ fun h w' => ?_
  refine .call_bind (fun e t => .unread e t) fun d read => ?_
  exact .call_bind (fun e t => .undropped d e _ t) fun _ end_ => .pure (.dropped d _ _ _)

theorem cancelAndSettle_follows (h : Handle) (interval timeout : Duration) :
    (c.cancelAndSettle h interval timeout).Follows c.service w fun log result _ =>
      Stopped h.name timeout log result := by
  refine (c.cancel_follows h w).bind (fun log e t ask => .refused ask) fun log _ w' ask => ?_
  refine (c.waitUntilDone_follows h interval timeout w').bind
    (fun log' e t wait => .unsettled ask wait) fun log' o w'' wait => ?_
  have settled (outcome : CancelOutcome Operation) :
      Stopped h.name timeout (log ++ (log' ++ [])) (.ok outcome) := by
    rw [List.append_nil]
    exact .settled ask wait
  split
  · split
    · exact .quiet_bind (Session.run_ofStep _ w'') (.emit ..) (.pure (settled _))
    · exact .pure (settled _)
  · exact .pure (settled _)

/-- What looking for a backup comes to by the answer. -/
def existence : Except AdminError Backup → Except AdminError Bool
  | .ok _ => .ok true
  | .error e => if e.isNotFound then .ok false else .error e

theorem run_exists? (name : String) :
    (exists? c name).run w =
      some (existence (c.service.answer (.getBackup name) w.service).result,
        w.after (.getBackup name) (c.service.answer (.getBackup name) w.service)) := by
  rw [exists?, Session.run_ofStep]
  dsimp only
  cases (c.service.answer (.getBackup name) w.service).result with
  | ok b => rfl
  | error e => cases e <;> rfl

theorem looksFor_existence (name : String) (answer : Except AdminError Backup) (t : Duration) :
    LooksFor name [⟨.getBackup name, answer, t⟩] (existence answer) := by
  cases answer with
  | ok b => exact .present b t
  | error e =>
    cases e with
    | notFound text => exact .absent text t
    | _ => exact .unread t rfl

theorem exists?_follows (name : String) :
    (exists? c name).Follows c.service w fun log result _ => LooksFor name log result :=
  ⟨_, _, _, run_exists? c w name, .after c.service w (.getBackup name), looksFor_existence name _ _⟩

theorem cleanUp_follows (name : String) :
    (cleanUp c name).Follows c.service w fun log result _ => CleanUp name log result := by
  refine (exists?_follows c w name).bind (fun log e t look => ?_) fun log found w' look => ?_
  · cases look with
    | unread t other => exact .unread t other
  · cases look with
    | present b t =>
      exact .call_bind (fun e t' => .undeleted b e t t') fun _ w'' => .pure (.deleted b t _)
    | absent text t => exact .pure (.absent text t)

theorem cancelBackup_follows (database backup : String) :
    (cancelBackup c i database backup p).Follows c.service w fun log result _ =>
      Cancellation i (.createBackup backup (i.databaseName database) (w.now.plusDays cancelDays)
        none none) w.now (Duration.ofSeconds p.cancelTimeout) log result := by
  refine .now_bind ((c.submit_follows i _ w).bind (fun log e t start => .unstarted start)
    fun log h w' start => ?_)
  refine (cancelAndSettle_follows c w' h _ _).bind (fun log' e t stop => .unstopped start stop)
    fun log' outcome w'' stop => ?_
  exact (cleanUp_follows c w'' h.target).mono fun log'' result t clean => .stopped start stop clean

/-- A request that is rejected makes no call. Every workflow keeps to its protocol, whatever the
service answers and however long it takes: one that creates something takes nothing back, and one
that cancels says how it went by what it found. -/
theorem workflows_keep_protocol :
    (∀ r e, r.check w.now = .error e → (c.submit i r).run w = some (.error e, w)) ∧
    (∀ database backup version key,
      (createBackup c i database backup version key p).Follows c.service w fun log result _ =>
        Creates i (.createBackup backup (i.databaseName database) (w.now.plusDays backupDays)
          version (key.map .ofKey)) w.now (Duration.ofSeconds p.backupTimeout)
          (Reads <| .getBackup ·) log result) ∧
    (∀ backup source,
      (copyBackup c i backup source p).Follows c.service w fun log result _ =>
        Creates i (.copyBackup backup source (w.now.plusDays backupDays) none) w.now
          (Duration.ofSeconds p.backupTimeout) (Reads <| .getBackup ·) log result) ∧
    (∀ database backup key,
      (restoreDatabase c i database backup key p).Follows c.service w fun log result _ =>
        Creates i (.restoreDatabase database (i.backupName backup) (key.map .ofKey)) w.now
          (Duration.ofSeconds p.restoreTimeout) (Reads <| .getDatabase ·) log result) ∧
    (∀ database period,
      (createDatabaseWithRetention c i database period p).Follows c.service w fun log result _ =>
        Creates i (.createDatabase ("CREATE DATABASE `" ++ database ++ "`")
          (retentionStatements database period)) w.now
          (Duration.ofSeconds p.createDatabaseTimeout) ReadsAndDrops log result) ∧
    ∀ database backup,
      (cancelBackup c i database backup p).Follows c.service w fun log result _ =>
        Cancels i (.createBackup backup (i.databaseName database) (w.now.plusDays cancelDays) none
          none) (i.backupName backup) w.now (Duration.ofSeconds p.cancelTimeout) log result := by
  refine ⟨fun r e check => ?_, fun database backup version key => ?_, fun backup source => ?_,
    fun database backup key => ?_, fun database period => ?_, fun database backup => ?_⟩
  · exact (Session.run_bind_ok (Session.run_now w)).trans
      (Session.run_bind_error (by rw [Session.run_ofExcept, check]))
  · exact (createBackup_follows c i p w database backup version key).mono fun _ _ _ h =>
      h.creates fun _ _ _ reads => reads.takesBack_eq_false rfl
  · exact (copyBackup_follows c i p w backup source).mono fun _ _ _ h =>
      h.creates fun _ _ _ reads => reads.takesBack_eq_false rfl
  · exact (restoreDatabase_follows c i p w database backup key).mono fun _ _ _ h =>
      h.creates fun _ _ _ reads => reads.takesBack_eq_false rfl
  · exact (createDatabaseWithRetention_follows c i p w database period).mono fun _ _ _ h =>
      h.creates fun _ _ _ reads => reads.takesBack_eq_false
  · exact (cancelBackup_follows c i p w database backup).mono fun _ _ _ h => h.cancels rfl

end

end BackupAdmin.Workflow
