import BackupAdmin.Admin.Session

/-! What a program exchanges with a service: its calls in their order, each with its answer and the
time on the clock then. -/
namespace BackupAdmin
variable {σ α β : Type}

/-- A call, its answer, and the time on the clock when the answer came. -/
structure Exchange where
  call : Call
  answer : Except AdminError call.Answer
  time : Duration

/-- The exchange of a call in a world. -/
def Service.exchange (s : Service σ) (w : World σ) (c : Call) : Exchange :=
  ⟨c, (s.answer c w.service).result, (w.after c (s.answer c w.service)).elapsed⟩

/-- These exchanges lead from one world to another, with sleeps and events between them. -/
inductive World.Exchanged (s : Service σ) : World σ → List Exchange → World σ → Prop
  | nil (w : World σ) : Exchanged s w [] w
  | call {w w' : World σ} {log : List Exchange} (c : Call)
      (rest : Exchanged s (w.after c (s.answer c w.service)) log w') :
      Exchanged s w (s.exchange w c :: log) w'
  | sleep {w w' : World σ} {log : List Exchange} (d : Duration)
      (rest : Exchanged s (w.sleep d) log w') : Exchanged s w log w'
  | event {w w' : World σ} {log : List Exchange} (listening : Bool) (e : Event)
      (rest : Exchanged s (w.emit listening e) log w') : Exchanged s w log w'

namespace World
variable {s : Service σ} {w w' w'' : World σ} {log log' : List Exchange}

theorem Exchanged.append (h : w.Exchanged s log w') (h' : w'.Exchanged s log' w'') :
    w.Exchanged s (log ++ log') w'' := by
  induction h with
  | nil w => exact h'
  | call c rest ih => exact .call c (ih h')
  | sleep d rest ih => exact .sleep d (ih h')
  | event listening e rest ih => exact .event listening e (ih h')

/-- A service that is not called stays as it is. -/
theorem Exchanged.service_eq (h : w.Exchanged s [] w') : w'.service = w.service := by
  generalize none : ([] : List Exchange) = log at h
  induction h with
  | nil w => rfl
  | call c rest ih => contradiction
  | sleep d rest ih => exact ih none
  | event listening e rest ih => exact (ih none).trans (World.emit_service ..)

theorem Exchanged.after (s : Service σ) (w : World σ) (c : Call) :
    w.Exchanged s [s.exchange w c] (w.after c (s.answer c w.service)) := .call c (.nil _)

/-- What is exchanged is the exchange of its call in some world. -/
theorem Exchanged.exists_of_mem {x : Exchange} (h : w.Exchanged s log w') (mem : x ∈ log) :
    ∃ w₁, s.exchange w₁ x.call = x := by
  induction h with
  | nil w => exact absurd mem List.not_mem_nil
  | @call w w' log c rest ih =>
    rcases List.mem_cons.1 mem with rfl | mem
    · exact ⟨w, rfl⟩
    · exact ih mem
  | sleep d rest ih | event listening e rest ih => exact ih mem

/-- The service is in the end as the last exchange leaves it. -/
theorem Exchanged.exists_last {x : Exchange} (h : w.Exchanged s log w')
    (last : log.getLast? = some x) :
    ∃ w₁, s.exchange w₁ x.call = x ∧ w'.service = (s.answer x.call w₁.service).state := by
  induction h with
  | nil w => contradiction
  | @call w w' log c rest ih =>
    cases log with
    | nil =>
      obtain rfl := Option.some.inj last
      exact ⟨w, rfl, rest.service_eq⟩
    | cons y log => exact ih (List.getLast?_cons_cons.symm.trans last)
  | sleep d rest ih | event listening e rest ih => exact ih last

theorem OnlyEvents.exchanged (h : w.OnlyEvents w') (s : Service σ) : w.Exchanged s [] w' := by
  cases h with
  | refl => exact .nil w
  | emit listening e => exact .event listening e (.nil _)

end World

namespace Session
variable {m m' : Session σ α} {f : α → Session σ β} {s : Service σ} {w : World σ}
  {P Q : List Exchange → Except AdminError α → Duration → Prop}
  {R : List Exchange → Except AdminError β → Duration → Prop}

/-- The program ends, and what it exchanges with the service, its result and the time on the clock
at its end are as `P` says. -/
def Follows (m : Session σ α) (s : Service σ) (w : World σ)
    (P : List Exchange → Except AdminError α → Duration → Prop) : Prop :=
  ∃ log result w', m.run w = some (result, w') ∧ w.Exchanged s log w' ∧ P log result w'.elapsed

theorem Follows.mono (h : m.Follows s w P)
    (imp : ∀ log result t, P log result t → Q log result t) : m.Follows s w Q := by
  obtain ⟨log, result, w', run, exchanged, holds⟩ := h
  exact ⟨log, result, w', run, exchanged, imp log result _ holds⟩

/-- A program that follows another one adds its exchanges to those of the first, unless the first
ends with an error. -/
theorem Follows.bind (h : m.Follows s w P)
    (error : ∀ log e t, P log (.error e) t → R log (.error e) t)
    (ok : ∀ log a w', P log (.ok a) w'.elapsed →
      (f a).Follows s w' fun log' r t => R (log ++ log') r t) :
    (m >>= f).Follows s w R := by
  obtain ⟨log, result, w', run, exchanged, holds⟩ := h
  cases result with
  | error e => exact ⟨log, _, w', run_bind_error run, exchanged, error log e _ holds⟩
  | ok a =>
    obtain ⟨log', r, w'', run', exchanged', holds'⟩ := ok log a w' holds
    exact ⟨log ++ log', r, w'', (run_bind_ok run).trans run', exchanged.append exchanged', holds'⟩

theorem Follows.pure {a : α} (h : P [] (.ok a) w.elapsed) :
    (pure a : Session σ α).Follows s w P := ⟨[], .ok a, w, rfl, .nil w, h⟩

theorem Follows.throw {e : AdminError} (h : P [] (.error e) w.elapsed) :
    (throw e : Session σ α).Follows s w P := ⟨[], .error e, w, rfl, .nil w, h⟩

/-- A program that makes one call exchanges just that. -/
theorem follows_call (s : Service σ) (c : Call) (w : World σ) :
    (call s c).Follows s w fun log result t => log = [⟨c, result, t⟩] :=
  ⟨_, _, _, run_call s c w, .after s w c, rfl⟩

/-- A program that begins with a call. -/
theorem Follows.call_bind {c : Call} {f : c.Answer → Session σ β}
    (error : ∀ e t, R [⟨c, .error e, t⟩] (.error e) t)
    (ok : ∀ a w', (f a).Follows s w' fun log r t => R (⟨c, .ok a, w'.elapsed⟩ :: log) r t) :
    (call s c >>= f).Follows s w R := by
  refine (follows_call s c w).bind ?_ ?_
  · rintro _ e t rfl
    exact error e t
  · rintro _ a w' rfl
    exact ok a w'

/-- A program that begins with nothing but events. -/
theorem Follows.quiet_bind {a : α} {w' : World σ} (run : m.run w = some (.ok a, w'))
    (events : w.OnlyEvents w') (h : (f a).Follows s w' R) : (m >>= f).Follows s w R := by
  obtain ⟨log, result, w'', run', exchanged, holds⟩ := h
  exact ⟨log, result, w'', (run_bind_ok run).trans run', (events.exchanged s).append exchanged,
    holds⟩

theorem Follows.now_bind {f : Instant → Session σ β} (h : (f w.now).Follows s w R) :
    (now >>= f).Follows s w R :=
  .quiet_bind (run_now w) (.refl w) h

theorem follows_ofExcept {r : Except AdminError α} (h : P [] r w.elapsed) :
    (ofExcept r).Follows s w P := ⟨[], r, w, run_ofExcept r w, .nil w, h⟩

/-- Looking at a result exchanges nothing. -/
theorem Follows.ofExcept_bind {r : Except AdminError α}
    (error : ∀ e, r = .error e → R [] (.error e) w.elapsed)
    (ok : ∀ a, r = .ok a → (f a).Follows s w R) : (ofExcept r >>= f).Follows s w R := by
  cases r with
  | error e => exact ⟨[], .error e, w, run_bind_error (run_ofExcept _ w), .nil w, error e rfl⟩
  | ok a => exact .quiet_bind (run_ofExcept _ w) (.refl w) (ok a rfl)

end Session
end BackupAdmin
