import BackupAdmin.Admin.Remote
import BackupAdmin.Proofs.Exchange.Workflow
import BackupAdmin.Proofs.Resource.Naming
import BackupAdmin.Proofs.Web.Address

/-! The requests that the workflows on an existing backup send. Main statement: they reach the
backup just if the parts of its name can stand in a path as they are, and no name is refused. -/
namespace BackupAdmin
open Text
open Web (Url)
open Web.Url (Plain Verbatim verbatim_append)
variable {σ α : Type}

/-! ### Sent requests -/

/-- The transport that keeps the requests it has sent, in their order. -/
def Web.Transport.recorded (send : Web.Transport σ) : Web.Transport (σ × List Web.Request) :=
  fun q s => ((send q s.1).1, (send q s.1).2, s.2 ++ [q])

/-- What was sent for some exchanges is the request of each call that has one. -/
theorem World.Exchanged.sent_eq {r : Remote} {send : Web.Transport σ}
    {w w' : World (σ × List Web.Request)} {log : List Exchange}
    (h : w.Exchanged (r.service send.recorded) log w') :
    w'.service.2 = w.service.2 ++ log.filterMap fun x => (r.request x.call).toOption := by
  induction h with
  | nil w => simp
  | @call w w' log c rest ih =>
    rw [ih, List.filterMap_cons]
    cases request : r.request c with
    | error e => simp [Service.exchange, Remote.service, request, Except.toOption]
    | ok q =>
      simp [Service.exchange, Remote.service, request, Except.toOption, Web.Transport.recorded]
  | sleep d rest ih => exact ih
  | event listening e rest ih => rw [ih, World.emit_service]

/-- The program ends, and what it sends is as `P` says. -/
def Session.Sends (m : Session (σ × List Web.Request) α) (w : World (σ × List Web.Request))
    (P : List Web.Request → Prop) : Prop :=
  ∃ result w' sent, m.run w = some (result, w') ∧ w'.service.2 = w.service.2 ++ sent ∧ P sent

/-! ### Calls on one backup -/

/-- A call on this backup. -/
inductive Call.OnBackup (name : String) : Call → Prop
  | get : OnBackup name (.getBackup name)
  | updateExpireTime (t : Instant) : OnBackup name (.updateExpireTime name t)
  | delete : OnBackup name (.deleteBackup name)

/-- At least one call is made, and all are on this backup. -/
def Concerns (name : String) (log : List Exchange) : Prop :=
  log ≠ [] ∧ ∀ x ∈ log, x.call.OnBackup name

section
variable {name : String} {log log' : List Exchange}

theorem Concerns.singleton {x : Exchange} (on : x.call.OnBackup name) : Concerns name [x] :=
  ⟨List.cons_ne_nil x [], List.forall_mem_singleton.2 on⟩

theorem Concerns.cons {x : Exchange} (on : x.call.OnBackup name)
    (rest : ∀ y ∈ log, y.call.OnBackup name) : Concerns name (x :: log) :=
  ⟨List.cons_ne_nil x log, List.forall_mem_cons.2 ⟨on, rest⟩⟩

theorem Concerns.append (h : Concerns name log) (rest : ∀ x ∈ log', x.call.OnBackup name) :
    Concerns name (log ++ log') :=
  ⟨List.append_ne_nil_of_left_ne_nil h.1 log', List.forall_mem_append.2 ⟨h.2, rest⟩⟩

theorem Workflow.LooksFor.concerns {found : Except AdminError Bool}
    (h : Workflow.LooksFor name log found) : Concerns name log := by
  cases h with
  | present b t => exact .singleton .get
  | absent text t => exact .singleton .get
  | unread t other => exact .singleton .get

end

namespace Workflow
variable (c : Client σ) (i : Instance) (id : String) (p : Polling) (w : World σ)

/-- Whatever comes of a call on a backup, the program has been concerned with that backup. -/
theorem concerns_call {call : Call} {name : String} (on : call.OnBackup name) :
    (Session.call c.service call).Follows c.service w fun log _ _ => Concerns name log := by
  refine (Session.follows_call c.service call w).mono ?_
  rintro log result t rfl
  exact .singleton on

theorem updateBackup_follows :
    (updateBackup c i id).Follows c.service w fun log _ _ => Concerns (i.backupName id) log := by
  refine (concerns_call c w .get).bind (fun log e t read => read) fun log b w' read => ?_
  cases b.expireTime with
  | none => exact .throw (read.append (List.forall_mem_nil _))
  | some old =>
    refine (concerns_call c w' (.updateExpireTime _)).bind (fun log' e t update => ?_)
      fun log' updated w'' update => .pure ?_
    · exact read.append update.2
    · rw [List.append_nil]
      exact read.append update.2

/-- A backup that no database refers to is read once. -/
theorem unreferencedFrom_free {name : String} {timeout interval began : Duration}
    {pos : 0 < interval} (free : (c.service.answer (.getBackup name) w.service).result.toOption.any
      (·.referencingDatabases.isEmpty) = true) :
    unreferencedFrom c name timeout interval began pos w =
      (.ok (), w.after (.getBackup name) (c.service.answer (.getBackup name) w.service)) := by
  rw [unreferencedFrom]
  cases read : (c.service.answer (.getBackup name) w.service).result with
  | error e =>
    rw [read] at free
    contradiction
  | ok b =>
    rw [read] at free
    exact if_pos free

/-- A backup that no database refers to is deleted without a wait. -/
theorem run_deleteBackup_free
    (free : (c.service.answer (.getBackup (i.backupName id)) w.service).result.toOption.any
      (·.referencingDatabases.isEmpty) = true) :
    (deleteBackup c i id p).run w = (do
      Session.call c.service (.deleteBackup (i.backupName id))
      if ← exists? c (i.backupName id) then
        throw (.preconditionFailed ("backup " ++ i.backupName id ++ " still exists after delete"))
      else return ⟨i.backupName id⟩ : Session σ DeleteReport).run
        (w.after (.getBackup (i.backupName id))
          (c.service.answer (.getBackup (i.backupName id)) w.service)) := by
  rw [deleteBackup]
  exact Session.run_bind_ok ((Session.run_ofStep _ w).trans
    (congrArg some (unreferencedFrom_free c w free)))

theorem unreferencedFrom_exchanged (name : String) (timeout interval began : Duration)
    (pos : 0 < interval) :
    ∃ log, w.Exchanged c.service log (unreferencedFrom c name timeout interval began pos w).2 ∧
      Concerns name log := by
  fun_induction unreferencedFrom c name timeout interval began pos w with
  | case1 w r w₁ e failed => exact ⟨_, .after c.service w (.getBackup name), .singleton .get⟩
  | case2 w r w₁ b read free => exact ⟨_, .after c.service w (.getBackup name), .singleton .get⟩
  | case3 w r w₁ b read used late =>
    exact ⟨_, .after c.service w (.getBackup name), .singleton .get⟩
  | case4 w r w₁ b read used early ih =>
    obtain ⟨log, exchanged, -, on⟩ := ih
    exact ⟨_, .call (.getBackup name) (.sleep interval exchanged), .cons .get on⟩

theorem unreferencedFrom_follows (name : String) (timeout interval : Duration)
    (pos : 0 < interval) :
    (Session.ofStep fun w => unreferencedFrom c name timeout interval w.elapsed pos w).Follows
      c.service w fun log _ _ => Concerns name log := by
  obtain ⟨log, exchanged, concerns⟩ :=
    unreferencedFrom_exchanged c w name timeout interval w.elapsed pos
  exact ⟨log, _, _, Session.run_ofStep _ w, exchanged, concerns⟩

theorem deleteBackup_follows :
    (deleteBackup c i id p).Follows c.service w fun log _ _ => Concerns (i.backupName id) log := by
  rw [deleteBackup]
  refine (unreferencedFrom_follows c w _ _ _ _).bind (fun log e t wait => wait)
    fun log _ w' wait => ?_
  refine (concerns_call c w' .delete).bind (fun log' e t delete => wait.append delete.2)
    fun log' _ w'' delete => ?_
  refine (exists?_follows c w'' _).bind (fun log'' e t look => ?_) fun log'' found w₃ look => ?_
  · exact wait.append (List.forall_mem_append.2 ⟨delete.2, look.concerns.2⟩)
  · have concerns : Concerns (i.backupName id) (log ++ (log' ++ (log'' ++ []))) := by
      rw [List.append_nil]
      exact wait.append (List.forall_mem_append.2 ⟨delete.2, look.concerns.2⟩)
    split
    · exact .throw concerns
    · exact .pure concerns

end Workflow

/-! ### Where the requests go -/

/-- A request goes to a resource behind an endpoint: its path is that of the endpoint with the
version and the name of the resource behind it, and only an update has a query. -/
structure Web.Request.Reaches (q : Web.Request) (endpoint : Url) (name : String) : Prop where
  scheme : q.url.scheme = endpoint.scheme
  host : q.url.host = endpoint.host
  port : q.url.port = endpoint.port
  path : q.url.path = endpoint.path ++ ("v1/" ++ name).toList
  query : q.url.query = if q.method = .patch then some "updateMask=expireTime".toList else none

section
variable {r : Remote} {u v : Url} {name : String} {c : Call}

/-- With an address over HTTP nothing but the token can keep a request from being sent. -/
theorem Remote.request_of_url (url : r.url (form c).resource = .ok v)
    (http : v.scheme = "http" ∨ v.scheme = "https") :
    r.request c = if r.token.all isHeaderText then .ok ⟨(form c).method,
      ((form c).pairs.map v.withPairs).getD v, r.token.map authorization, (form c).body⟩
      else .error (.transport none) := by
  have over_http (w : Url) (same : w.scheme = v.scheme) :
      ¬ (decide (w.scheme ≠ "http") && decide (w.scheme ≠ "https")) = true := by
    rw [same]
    rcases http with scheme | scheme <;> rw [scheme] <;> decide
  rw [request, url]
  cases (form c).pairs with
  | none =>
    refine Eq.trans (if_neg (over_http v rfl)) ?_
    cases r.token.all isHeaderText <;> rfl
  | some ps =>
    refine Eq.trans (if_neg (over_http (v.withPairs ps) rfl)) ?_
    cases r.token.all isHeaderText <;> rfl

/-- The address behind an endpoint is read, and a request there reaches the resource just if its
name can stand in a path as it is. -/
theorem exists_url (read : Url.parse (r.base ++ "/") = .ok u)
    (http : u.scheme = "http" ∨ u.scheme = "https") (name : String) :
    ∃ v, r.url name = .ok v ∧ (v.scheme = "http" ∨ v.scheme = "https") ∧
      ∀ q : Web.Request, q.url.scheme = v.scheme → q.url.host = v.host → q.url.port = v.port →
        q.url.path = v.path →
        (v.query = none →
          q.url.query = if q.method = .patch then some "updateMask=expireTime".toList else none) →
        (q.Reaches u name ↔ Plain r.base ∧ Verbatim name.toList) := by
  have common : Url.isCommon u.scheme = true := by rcases http with h | h <;> rw [h] <;> decide
  have version : ("v1/" ++ name).toList = ['v', '1'] ++ '/' :: name.toList := by
    rw [String.toList_append]
    rfl
  have verbatim : Verbatim ("v1/" ++ name).toList ↔ Verbatim name.toList := by
    rw [version, verbatim_append]
    exact and_iff_right (by decide)
  have text : r.base ++ "/v1/" ++ name = r.base ++ "/" ++ ("v1/" ++ name) := by
    have slashes : "/v1/" = "/" ++ "v1/" := by decide
    rw [slashes, String.append_assoc, String.append_assoc, String.append_assoc]
  obtain ⟨v, read_v, scheme, host, port, path, query⟩ := Url.parse_append read common
    (t := "v1/" ++ name) (by rw [version]; exact List.cons_ne_nil _ _)
  rw [verbatim] at path query
  refine ⟨v, ?_, scheme ▸ http, fun q same_scheme same_host same_port same_path same_query => ?_⟩
  · rw [Remote.url, text, read_v]
  · constructor
    · intro reaches
      exact path.1 (same_path ▸ reaches.path)
    · rintro ⟨plain, still⟩
      exact ⟨same_scheme.trans scheme, same_host.trans host, same_port.trans port,
        same_path.trans (path.2 ⟨plain, still⟩), same_query (query plain still)⟩

/-- A call on a backup is sent if the token can be, whatever the name of the backup. -/
theorem exists_request (read : Url.parse (r.base ++ "/") = .ok u)
    (http : u.scheme = "http" ∨ u.scheme = "https") (on : c.OnBackup name) :
    ∃ q, (r.request c =
        if r.token.all Remote.isHeaderText then .ok q else .error (.transport none)) ∧
      (q.Reaches u name ↔ Plain r.base ∧ Verbatim name.toList) := by
  obtain ⟨v, url, http, reaches⟩ := exists_url read http name
  cases on with
  | get => exact ⟨_, Remote.request_of_url url http, reaches _ rfl rfl rfl rfl id⟩
  | delete => exact ⟨_, Remote.request_of_url url http, reaches _ rfl rfl rfl rfl id⟩
  | updateExpireTime t =>
    refine ⟨_, Remote.request_of_url url http, reaches _ rfl rfl rfl rfl fun none => ?_⟩
    have mask : (v.withPairs [("updateMask", "expireTime")]).query =
        some "updateMask=expireTime".toList := by
      have pair : Web.formPair ("updateMask", "expireTime") = "updateMask=expireTime".toList := by
        decide
      rw [Url.withPairs, none, ← pair]
      rfl
    exact mask

/-- A program that is concerned with a backup sends requests, and each reaches the backup just if
its name can stand in a path as it is. -/
theorem Session.Follows.sends {send : Web.Transport σ} {s : Service (σ × List Web.Request)}
    {m : Session (σ × List Web.Request) α} {w : World (σ × List Web.Request)}
    (follows : m.Follows s w fun log _ _ => Concerns name log)
    (served : s = r.service send.recorded) (read : Url.parse (r.base ++ "/") = .ok u)
    (http : u.scheme = "http" ∨ u.scheme = "https") :
    m.Sends w fun sent => (r.token.all Remote.isHeaderText = true → sent ≠ []) ∧
      ∀ q ∈ sent, q.Reaches u name ↔ Plain r.base ∧ Verbatim name.toList := by
  subst served
  obtain ⟨log, result, w', run, exchanged, some_call, on⟩ := follows
  refine ⟨result, w', _, run, exchanged.sent_eq, fun carried nothing => ?_, fun q mem => ?_⟩
  · obtain ⟨x, log, rfl⟩ := List.exists_cons_of_ne_nil some_call
    obtain ⟨q, request, -⟩ := exists_request read http (on x List.mem_cons_self)
    rw [carried, if_pos rfl] at request
    rw [List.filterMap_cons, request] at nothing
    exact List.cons_ne_nil _ _ nothing
  · obtain ⟨x, mem, found⟩ := List.mem_filterMap.1 mem
    obtain ⟨q', request, reaches⟩ := exists_request read http (on x mem)
    rw [request] at found
    split at found
    · obtain rfl := Option.some.inj found
      exact reaches
    · contradiction

end

/-! ### The workflows -/

theorem verbatim_backupName {i : Instance} {id : String} : Verbatim (i.backupName id).toList ↔
    Verbatim i.project.toList ∧ Verbatim i.id.toList ∧ Verbatim id.toList := by
  have parts : (i.backupName id).toList = "projects".toList ++ '/' :: (i.project.toList ++ '/' ::
      ("instances".toList ++ '/' :: (i.id.toList ++ '/' :: ("backups".toList ++ '/' ::
        id.toList)))) := by
    simp [Instance.backupName, Instance.name]
  have words : Verbatim "projects".toList ∧ Verbatim "instances".toList ∧
      Verbatim "backups".toList := by decide +kernel
  simp only [parts, verbatim_append, words, true_and]

/-- An id that may be used can stand in a path as it is. -/
theorem verbatim_of_idFault? {id : String} (usable : idFault? id = none) :
    Verbatim id.toList := by
  have absent {c : Char} (other : isIdPart c = false) := notMem_of_idFault? usable other
  constructor
  · intro c mem
    have kind := chars_of_idFault? usable c mem
    have small : c.toNat < 128 := by
      refine Nat.lt_of_not_le fun large => ?_
      have no_sign : c ≠ '_' ∧ c ≠ '-' := by
        constructor <;> rintro rfl <;> exact absurd large (by decide)
      simp [isSmallOrDigit, isSmall, not_le_of_large large (d := 'z') (by decide),
        not_le_of_large large (d := '9') (by decide), no_sign] at kind
    refine ⟨of_ascii (P := fun c => (isSmallOrDigit c || c == '_' || c == '-') = true →
      Url.isPathChar c = true) (by decide +kernel) small kind, ?_⟩
    rintro rfl
    exact absent (by decide) mem
  · rw [pieces_eq_singleton (absent (by decide))]
    have still := Url.still_of_notMem (absent (c := '.') (by decide)) (absent (by decide))
    exact List.forall_mem_singleton.2 still

namespace Workflow
variable {r : Remote} {u : Url}

/-- At an endpoint over HTTP, read with the slash that follows it in every request, the workflows
that extend and delete a backup end, and no name is refused: whatever the id, there is a request
unless the token cannot be sent. Each request goes to just the backup that is named when the
endpoint has no query or fragment and the parts of the name can stand in a path as they are, as
every id can that may be used for a new backup; otherwise none of them does. -/
theorem requests_reach_backup (read : Url.parse (r.base ++ "/") = .ok u)
    (http : u.scheme = "http" ∨ u.scheme = "https") (send : Web.Transport σ)
    (c : Client (σ × List Web.Request)) (served : c.service = r.service send.recorded)
    (i : Instance) (id : String) (p : Polling) (w : World (σ × List Web.Request)) :
    ((updateBackup c i id).Sends w fun sent =>
      (r.token.all Remote.isHeaderText = true → sent ≠ []) ∧
      ∀ q ∈ sent, q.Reaches u (i.backupName id) ↔ Plain r.base ∧ Verbatim i.project.toList ∧
        Verbatim i.id.toList ∧ Verbatim id.toList) ∧
    ((deleteBackup c i id p).Sends w fun sent =>
      (r.token.all Remote.isHeaderText = true → sent ≠ []) ∧
      ∀ q ∈ sent, q.Reaches u (i.backupName id) ↔ Plain r.base ∧ Verbatim i.project.toList ∧
        Verbatim i.id.toList ∧ Verbatim id.toList) ∧
    (idFault? id = none → Verbatim id.toList) := by
  rw [← verbatim_backupName]
  exact ⟨(updateBackup_follows c i id w).sends served read http,
    (deleteBackup_follows c i id p w).sends served read http, verbatim_of_idFault?⟩

/-- A service that has the backup `b1` until it is asked to delete it. -/
def oneBackup : Web.Transport Bool := fun q present =>
  if present && q.url.path = "/v1/projects/p/instances/i/backups/b1".toList then
    (⟨some ⟨200, "\x7b\"name\": \"projects/p/instances/i/backups/b1\"\x7d"⟩, 0⟩,
      q.method ≠ .delete)
  else (⟨some ⟨404, ""⟩, 0⟩, present)

/-- A client of that service whose requests are kept. -/
def oneBackupClient : Client (Bool × List Web.Request) :=
  { service := Remote.service ⟨"http://h", none⟩ oneBackup.recorded
    pollInterval := Polling.interval 10
    interval_pos := Polling.interval_pos 10 }

theorem requests_reach_backup_b1 :
    Url.parse ("http://h" ++ "/") = .ok ⟨"http", some (.domain "h"), none, [[]], none⟩ ∧
    (deleteBackup oneBackupClient ⟨"p", "i"⟩ "b1" {}).Sends ⟨(true, []), ⟨0, 0⟩, 0, []⟩ fun sent =>
      sent ≠ [] ∧ ∀ q ∈ sent, q.Reaches ⟨"http", some (.domain "h"), none, [[]], none⟩
        "projects/p/instances/i/backups/b1" := by
  have read : Url.parse ("http://h" ++ "/") =
      .ok ⟨"http", some (.domain "h"), none, [[]], none⟩ := by decide +kernel
  obtain ⟨-, ⟨result, w', sent, run, kept, some_sent, reach⟩, -⟩ :=
    requests_reach_backup (r := ⟨"http://h", none⟩) read (.inl rfl) oneBackup oneBackupClient rfl
      ⟨"p", "i"⟩ "b1" {} ⟨(true, []), ⟨0, 0⟩, 0, []⟩
  refine ⟨read, result, w', sent, run, kept, some_sent rfl, fun q mem => (reach q mem).2 ?_⟩
  decide +kernel

/-- An id that may not be used for a new backup is not refused: all requests for it go to another
backup, which is deleted, and the deletion of the one that was named is reported. -/
theorem deleteBackup_deletes_other :
    idFault? "b1?x" = some .pattern ∧
    ((deleteBackup oneBackupClient ⟨"p", "i"⟩ "b1?x" {}).run ⟨(true, []), ⟨0, 0⟩, 0, []⟩).map
      (fun x => (x.1.toOption, x.2.service.1,
        x.2.service.2.map fun q => (q.method, String.ofList q.url.path))) =
      some (some ⟨"projects/p/instances/i/backups/b1?x"⟩, false,
        [(.get, "/v1/projects/p/instances/i/backups/b1"),
          (.delete, "/v1/projects/p/instances/i/backups/b1"),
          (.get, "/v1/projects/p/instances/i/backups/b1")]) := by
  refine ⟨by decide, ?_⟩
  rw [run_deleteBackup_free oneBackupClient _ _ _ _ (by decide +kernel)]
  decide +kernel

end Workflow
end BackupAdmin
