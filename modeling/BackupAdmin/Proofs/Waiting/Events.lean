import BackupAdmin.Command.Spinner
import BackupAdmin.Proofs.Exchange.Waiting

/-! What a listener hears of an operation. Main statement: its start is told first, then a wish to
cancel it, then one report per sleep, and at last how the waiting ended. -/
namespace BackupAdmin
variable {σ : Type}

/-- How the result of waiting is told, `waited` being the time since the waiting began. -/
def OperationResult.event {α : Type} (name : String) (waited : Duration) :
    OperationResult α → Event
  | .success _ => .completed name
  | .cancelled => .cancelled name
  | .failed e => .failed name e.text
  | .timedOut => .timedOut name waited

namespace Client
variable {c : Client σ} {name : String} {timeout interval began : Duration}
  {w last : World σ} {rounds : List Round}

/-- The time between the beginning of the waiting and the snapshot of a round. -/
def Round.waited (began : Duration) (r : Round) : Duration := r.time - began

/-- What is told of a round before its sleep. -/
def Round.report (name : String) (began : Duration) (r : Round) : Event :=
  .polling name r.snapshot.percent (r.waited began)

/-- Snapshots come after the rounds began. -/
theorem Rounds.le_time (h : Rounds c name timeout interval began w rounds last) {r : Round}
    (mem : r ∈ rounds) : w.elapsed ≤ r.time := by
  induction h with
  | nil w => simp at mem
  | cons answer unfinished early rest ih =>
    rcases List.mem_cons.1 mem with rfl | mem
    · exact Nat.le_add_right _ _
    · exact (elapsed_le_slept ..).trans (ih mem)

/-- A snapshot after a sleep is later than the one before it. -/
theorem waited_lt {began before sleep later : Nat} (start : began ≤ before) (pos : 0 < sleep)
    (next : before + sleep ≤ later) : before - began < later - began := by
  omega

/-- From report to report more time has passed. -/
theorem Rounds.increasing (h : Rounds c name timeout interval began w rounds last)
    (pos : 0 < interval) (start : began ≤ w.elapsed) :
    (rounds.map (·.waited began)).Pairwise (· < ·) := by
  induction h with
  | nil w => exact .nil
  | @cons w last o rounds answer unfinished early rest ih =>
    rw [List.map_cons, List.pairwise_cons]
    refine ⟨fun t mem => ?_, ih (start.trans (elapsed_le_slept ..))⟩
    obtain ⟨r, there, rfl⟩ := List.mem_map.1 mem
    have later := rest.le_time there
    rw [slept_elapsed] at later
    exact waited_lt (start.trans (Nat.le_add_right _ _)) (cut_pos pos early) later

/-- The world after waiting for a verdict: the last poll, and how it ended is told. -/
theorem Decides.awaitFrom_world (h : c.Decides name timeout began w) (pos : 0 < interval) :
    let waited := (c.polled name w).elapsed - began
    (c.awaitFrom name timeout interval began pos w).2 =
      match (c.awaitFrom name timeout interval began pos w).1 with
      | .ok r => (c.polled name w).emit c.listening (r.event name waited)
      | .error _ => c.polled name w := by
  intro waited
  rw [awaitFrom_step]
  cases answer : (c.poll name w).result with
  | error e => rfl
  | ok o =>
    dsimp only
    cases state : PollState.evaluate o ((c.polled name w).elapsed - began) timeout with
    | pending =>
      obtain ⟨unfinished, early⟩ := PollState.evaluate_eq_pending_iff.1 state
      exact absurd (h o answer unfinished) (Nat.not_le.2 early)
    | done =>
      dsimp only [finish]
      cases o.error <;> rfl
    | cancelled => rfl
    | timedOut => rfl

/-- The world after waiting for the end is that of the last poll. -/
theorem Decides.waitFrom_world (h : c.Decides name timeout began w) (pos : 0 < interval) :
    (c.waitFrom name timeout interval began pos w).2 = c.polled name w := by
  rw [waitFrom_step]
  cases answer : (c.poll name w).result with
  | error e => rfl
  | ok o =>
    dsimp only
    cases done : o.done with
    | true => rfl
    | false => rw [if_neg Bool.false_ne_true, if_pos (h o answer done)]

end Client
end BackupAdmin
