import BackupAdmin.Admin.Service

/-! Programs that call a service, sleep and report events, with a trace of all they do. -/
namespace BackupAdmin

inductive Event where
  | started (operation : String)
  | polling (operation : String) (percent : Option Int32) (elapsed : Duration)
  | cancelRequested (operation : String)
  | completed (operation : String)
  | cancelled (operation : String)
  | failed (operation : String) (error : String)
  | timedOut (operation : String) (waited : Duration)
deriving DecidableEq

/-- An event after which nothing more is said about its operation. -/
def Event.isFinal : Event → Bool
  | .completed _ | .cancelled _ | .failed .. | .timedOut .. => true
  | _ => false

/-- One thing that a program did. -/
inductive Step where
  | call (c : Call)
  | sleep (d : Duration)
  | event (e : Event)
deriving DecidableEq

/-- The service's state, the clock, and the trace with the latest step first. -/
structure World (σ : Type) where
  service : σ
  start : Instant
  elapsed : Duration := 0
  trace : List Step := []

namespace World
variable {σ : Type}

def now (w : World σ) : Instant := w.start.plus w.elapsed

/-- Sleeping moves the clock by exactly the span asked for. -/
def sleep (w : World σ) (d : Duration) : World σ :=
  { w with elapsed := w.elapsed + d, trace := .sleep d :: w.trace }

def slept (w : World σ) : Duration :=
  (w.trace.map fun
    | .sleep d => d
    | _ => 0).foldr (· + ·) 0

/-- An event is reported when there is anyone to report to. -/
def emit (w : World σ) (listening : Bool) (e : Event) : World σ :=
  if listening then { w with trace := .event e :: w.trace } else w

def after {α : Type} (w : World σ) (c : Call) (r : Reply σ α) : World σ :=
  { w with service := r.state, elapsed := w.elapsed + r.took, trace := .call c :: w.trace }

/-- The calls made so far, in their order. -/
def calls (w : World σ) : List Call := w.trace.reverse.filterMap fun
  | .call c => some c
  | _ => none

def sleeps (w : World σ) : List Duration := w.trace.reverse.filterMap fun
  | .sleep d => some d
  | _ => none

def events (w : World σ) : List Event := w.trace.reverse.filterMap fun
  | .event e => some e
  | _ => none

section
variable {α : Type} (w : World σ) (c : Call) (r : Reply σ α) (d : Duration) (b : Bool) (e : Event)

@[simp] theorem after_service : (w.after c r).service = r.state := rfl
@[simp] theorem after_elapsed : (w.after c r).elapsed = w.elapsed + r.took := rfl
@[simp] theorem after_calls : (w.after c r).calls = w.calls ++ [c] := by simp [calls, after]
@[simp] theorem after_sleeps : (w.after c r).sleeps = w.sleeps := by simp [sleeps, after]
@[simp] theorem after_events : (w.after c r).events = w.events := by simp [events, after]

@[simp] theorem sleep_service : (w.sleep d).service = w.service := rfl
@[simp] theorem sleep_elapsed : (w.sleep d).elapsed = w.elapsed + d := rfl
@[simp] theorem sleep_calls : (w.sleep d).calls = w.calls := by simp [calls, sleep]
@[simp] theorem sleep_sleeps : (w.sleep d).sleeps = w.sleeps ++ [d] := by simp [sleeps, sleep]
@[simp] theorem sleep_events : (w.sleep d).events = w.events := by simp [events, sleep]

@[simp] theorem emit_service : (w.emit b e).service = w.service := by cases b <;> rfl
@[simp] theorem emit_elapsed : (w.emit b e).elapsed = w.elapsed := by cases b <;> rfl
@[simp] theorem emit_calls : (w.emit b e).calls = w.calls := by cases b <;> simp [calls, emit]
@[simp] theorem emit_sleeps : (w.emit b e).sleeps = w.sleeps := by cases b <;> simp [sleeps, emit]
@[simp] theorem emit_events : (w.emit b e).events = w.events ++ if b then [e] else [] := by
  cases b <;> simp [events, emit]

end

/-- At most one event came between two worlds. -/
inductive OnlyEvents : World σ → World σ → Prop
  | refl (w : World σ) : OnlyEvents w w
  | emit (w : World σ) (b : Bool) (e : Event) : OnlyEvents w (w.emit b e)

theorem OnlyEvents.service {w w' : World σ} (h : OnlyEvents w w') : w'.service = w.service := by
  cases h <;> simp

theorem OnlyEvents.calls {w w' : World σ} (h : OnlyEvents w w') : w'.calls = w.calls := by
  cases h <;> simp

theorem OnlyEvents.sleeps {w w' : World σ} (h : OnlyEvents w w') : w'.sleeps = w.sleeps := by
  cases h <;> simp

theorem OnlyEvents.elapsed {w w' : World σ} (h : OnlyEvents w w') : w'.elapsed = w.elapsed := by
  cases h <;> simp

end World

/-- A program over a service with states of type `σ`: it ends with a value or an error, or it goes
on for ever. -/
abbrev Session (σ : Type) := ExceptT AdminError (StateT (World σ) Option)

namespace Session
variable {σ α : Type}

/-- A program that ends, in the world and with the result that a function gives. -/
def ofStep (f : World σ → Except AdminError α × World σ) : Session σ α :=
  ExceptT.mk fun w => some (f w)

def call (s : Service σ) (c : Call) : Session σ c.Answer := ofStep fun w =>
  let r := s.answer c w.service
  (r.result, w.after c r)

def now : Session σ Instant := ofStep fun w => (.ok w.now, w)

/-- A result that has nothing to do with the world. -/
def ofExcept (r : Except AdminError α) : Session σ α := ofStep fun w => (r, w)

section
variable {β : Type} {m : Session σ α} {f : α → Session σ β} {w w' : World σ}

@[simp] theorem run_ofStep (g : World σ → Except AdminError α × World σ) (w : World σ) :
    (ofStep g).run w = some (g w) := rfl

@[simp] theorem run_call (s : Service σ) (c : Call) (w : World σ) :
    (call s c).run w = some ((s.answer c w.service).result, w.after c (s.answer c w.service)) := rfl

@[simp] theorem run_now (w : World σ) : (now : Session σ Instant).run w = some (.ok w.now, w) := rfl

@[simp] theorem run_ofExcept (r : Except AdminError α) (w : World σ) :
    (ofExcept r).run w = some (r, w) := rfl

/-- A program that follows a value goes on with it. -/
theorem run_bind_ok {a : α} (h : m.run w = some (.ok a, w')) : (m >>= f).run w = (f a).run w' := by
  change (m.run w).bind _ = _
  rw [h]; rfl

/-- A program that follows an error is not run. -/
theorem run_bind_error {e : AdminError} (h : m.run w = some (.error e, w')) :
    (m >>= f).run w = some (.error e, w') := by
  change (m.run w).bind _ = _
  rw [h]; rfl

/-- A program that ends has met an error in its first part, or ended behind a value of that. -/
theorem cases_of_run_bind {r : Except AdminError β} (h : (m >>= f).run w = some (r, w')) :
    (∃ e, r = .error e ∧ m.run w = some (.error e, w')) ∨
      ∃ a w₁, m.run w = some (.ok a, w₁) ∧ (f a).run w₁ = some (r, w') := by
  cases run : m.run w with
  | none =>
    have stuck : (m >>= f).run w = none := by
      change (m.run w).bind _ = _
      rw [run]; rfl
    rw [stuck] at h
    contradiction
  | some ended =>
    obtain ⟨result, w₁⟩ := ended
    cases result with
    | error e =>
      rw [run_bind_error run] at h
      cases h
      exact .inl ⟨e, rfl, rfl⟩
    | ok a => exact .inr ⟨a, w₁, rfl, (run_bind_ok run).symm.trans h⟩

/-- A program that ends with a value has come there through a value of its first part. -/
theorem exists_of_run_bind {b : β} (h : (m >>= f).run w = some (.ok b, w')) :
    ∃ a w₁, m.run w = some (.ok a, w₁) ∧ (f a).run w₁ = some (.ok b, w') := by
  rcases cases_of_run_bind h with ⟨e, same, -⟩ | through
  · contradiction
  · exact through

end

end Session

/-- A client of a service: how often it polls, and whether anyone listens to its events. -/
structure Client (σ : Type) where
  service : Service σ
  pollInterval : Duration := Duration.ofSeconds 10
  interval_pos : 0 < pollInterval := by decide
  listening : Bool := true

namespace Client
variable {σ : Type}

/-- The client with another poll interval; an interval of zero is ignored. -/
def withPollInterval (c : Client σ) (d : Duration) : Client σ :=
  if h : 0 < d then { c with pollInterval := d, interval_pos := h } else c

/-- The interval to poll at: the one asked for, or the client's own for zero. -/
def pace (c : Client σ) (d : Duration) : Duration := if d = 0 then c.pollInterval else d

theorem pace_pos (c : Client σ) (d : Duration) : 0 < c.pace d := by
  unfold pace; split
  · exact c.interval_pos
  · exact Nat.pos_of_ne_zero ‹_›

def emit (c : Client σ) (e : Event) : Session σ Unit := Session.ofStep fun w =>
  (.ok (), w.emit c.listening e)

end Client
end BackupAdmin
