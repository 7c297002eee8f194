import Mathlib.Data.List.Basic

/-!
# Supervision of essential and best-effort tasks

The node hands every background unit of work to the service's `TaskManager`, through either
the ordinary or the essential spawn handle. The task manager is not part of the repository:
it is modelled here from the spec. When a best-effort task's work ends it is dropped, with no
restart. When an essential task's work ends, with success or failure alike, the node shuts
down, stopping every other task, and the shutdown path runs once.

`Inv` holds in every state reachable from `init`: the shutdown path has run exactly when the
node is down, and nothing runs after it. No task is ever lost: a task once running stays
running or has ended. An essential task keeps running for as long as the node is up, the end
of its work is enough to bring the node down, and while only best-effort tasks are added
nothing else brings it down.
-/

namespace Allfeat

/-- A unit of work as handed to a spawn handle: its name and group, whether it went through
`spawn_essential_handle`, and whether through `spawn_blocking`. -/
structure Task where
  name : String
  group : Option String
  essential : Bool
  blocking : Bool
deriving DecidableEq, Repr

/-- Modelled from the spec: what happens to the task manager. `finish t` is the end of `t`'s
work, whether it returned or failed. -/
inductive TaskEvent
  | spawn (t : Task)
  | finish (t : Task)
deriving DecidableEq, Repr

/-- Modelled from the spec: the tasks still running, the tasks that have ended or were
stopped, whether the node has shut down, and how often the shutdown path has run. -/
structure TaskManager where
  running : List Task
  ended : List Task
  shutdown : Bool
  shutdowns : Nat
deriving DecidableEq, Repr

namespace TaskManager

def init : TaskManager := ⟨[], [], false, 0⟩

/-- Modelled from the spec: the task manager's reaction to one event. -/
def step (m : TaskManager) : TaskEvent → TaskManager
  | .spawn t => if m.shutdown then m else { m with running := m.running ++ [t] }
  | .finish t =>
    if m.shutdown = true ∨ t ∉ m.running then m
    else if t.essential then ⟨[], m.ended ++ m.running, true, m.shutdowns + 1⟩
    else { m with running := m.running.erase t, ended := m.ended ++ [t] }

def run (m : TaskManager) (es : List TaskEvent) : TaskManager := es.foldl step m

/-- The task manager after the given tasks have been spawned in order. -/
def launch (tasks : List Task) : TaskManager := run init (tasks.map .spawn)

@[simp] theorem run_nil (m : TaskManager) : run m [] = m := rfl

@[simp] theorem run_cons (m : TaskManager) (e : TaskEvent) (es : List TaskEvent) :
    run m (e :: es) = run (step m e) es := rfl

theorem run_append (m : TaskManager) (es es' : List TaskEvent) :
    run m (es ++ es') = run (run m es) es' := List.foldl_append _ _ _ _

theorem step_cases (m : TaskManager) (e : TaskEvent) :
    step m e = m ∨
    (∃ t, e = .spawn t ∧ m.shutdown = false ∧ step m e = { m with running := m.running ++ [t] }) ∨
    (∃ t, e = .finish t ∧ m.shutdown = false ∧ t ∈ m.running ∧ t.essential = true ∧
      step m e = ⟨[], m.ended ++ m.running, true, m.shutdowns + 1⟩) ∨
    (∃ t, e = .finish t ∧ m.shutdown = false ∧ t ∈ m.running ∧ t.essential = false ∧
      step m e = { m with running := m.running.erase t, ended := m.ended ++ [t] }) := by
  cases e with
  | spawn t =>
    cases hs : m.shutdown
    · exact .inr (.inl ⟨t, rfl, rfl, by simp [step, hs]⟩)
    · exact .inl (by simp [step, hs])
  | finish t =>
    by_cases hr : m.shutdown = false ∧ t ∈ m.running
    · cases he : t.essential
      · exact .inr (.inr (.inr ⟨t, rfl, hr.1, hr.2, he, by simp [step, hr.1, hr.2, he]⟩))
      · exact .inr (.inr (.inl ⟨t, rfl, hr.1, hr.2, he, by simp [step, hr.1, hr.2, he]⟩))
    · refine .inl (if_pos ?_)
      cases hs : m.shutdown <;> simp_all

theorem shutdown_step {m : TaskManager} (h : m.shutdown = true) (e : TaskEvent) :
    step m e = m := by
  cases e <;> simp [step, h]

theorem run_of_shutdown {m : TaskManager} (h : m.shutdown = true) (es : List TaskEvent) :
    run m es = m := by
  induction es with
  | nil => rfl
  | cons e es ih => rw [run_cons, shutdown_step h, ih]

/-- The supervision invariant. -/
structure Inv (m : TaskManager) : Prop where
  shutdowns_eq : m.shutdowns = if m.shutdown then 1 else 0
  running_nil : m.shutdown = true → m.running = []

theorem inv_init : Inv init := ⟨rfl, by simp [init]⟩

theorem Inv.step {m : TaskManager} (hm : Inv m) (e : TaskEvent) : Inv (step m e) := by
  rcases step_cases m e with
    h | ⟨t, -, hs, h⟩ | ⟨t, -, hs, -, -, h⟩ | ⟨t, -, hs, -, -, h⟩ <;> rw [h]
  · exact hm
  · exact ⟨hm.shutdowns_eq, fun h' => absurd h' (by simp [hs])⟩
  · exact ⟨by simp [hm.shutdowns_eq, hs], fun _ => rfl⟩
  · exact ⟨hm.shutdowns_eq, fun h' => absurd h' (by simp [hs])⟩

theorem Inv.run {m : TaskManager} (hm : Inv m) (es : List TaskEvent) : Inv (run m es) := by
  induction es generalizing m with
  | nil => exact hm
  | cons e es ih => exact ih (hm.step e)

theorem inv_run_init (es : List TaskEvent) : Inv (run init es) := inv_init.run es

section Essential

variable {t : Task} (ht : t.essential = true)

include ht in
theorem running_or_shutdown_step {m : TaskManager} (h : t ∈ m.running ∨ m.shutdown = true)
    (e : TaskEvent) : t ∈ (step m e).running ∨ (step m e).shutdown = true := by
  rcases step_cases m e with
    hs | ⟨u, -, -, hs⟩ | ⟨u, -, -, -, -, hs⟩ | ⟨u, -, -, -, hu, hs⟩ <;> rw [hs]
  · exact h
  · exact h.imp (List.mem_append_left _) id
  · exact .inr rfl
  · refine h.imp (fun hm => (List.mem_erase_of_ne ?_).mpr hm) id
    rintro rfl
    simp [ht] at hu

include ht in
theorem running_or_shutdown_run {m : TaskManager} (h : t ∈ m.running ∨ m.shutdown = true)
    (es : List TaskEvent) : t ∈ (run m es).running ∨ (run m es).shutdown = true := by
  induction es generalizing m with
  | nil => exact h
  | cons e es ih => exact ih (running_or_shutdown_step ht h e)

include ht in
theorem shutdown_of_finish_essential {m : TaskManager} (h : t ∈ m.running ∨ m.shutdown = true)
    {es : List TaskEvent} (he : .finish t ∈ es) : (run m es).shutdown = true := by
  obtain ⟨pre, post, rfl⟩ := List.append_of_mem he
  have hdown : (step (run m pre) (.finish t)).shutdown = true := by
    rcases running_or_shutdown_run ht h pre with hr | hs
    · by_cases hs : (run m pre).shutdown = true
      · rwa [shutdown_step hs]
      · simp [step, hs, hr, ht]
    · rwa [shutdown_step hs]
  rw [run_append, run_cons, run_of_shutdown hdown]
  exact hdown

end Essential

theorem mem_running_or_ended_step {m : TaskManager} {t : Task}
    (h : t ∈ m.running ∨ t ∈ m.ended) (e : TaskEvent) :
    t ∈ (step m e).running ∨ t ∈ (step m e).ended := by
  rcases step_cases m e with
    hs | ⟨u, -, -, hs⟩ | ⟨u, -, -, -, -, hs⟩ | ⟨u, -, -, -, -, hs⟩ <;> rw [hs]
  · exact h
  · exact h.imp (List.mem_append_left _) id
  · exact .inr (h.elim (List.mem_append_right _) (List.mem_append_left _))
  · by_cases htu : t = u
    · exact .inr (List.mem_append_right _ (List.mem_singleton.mpr htu))
    · exact h.imp (List.mem_erase_of_ne htu).mpr (List.mem_append_left _)

theorem mem_running_or_ended_run {m : TaskManager} {t : Task}
    (h : t ∈ m.running ∨ t ∈ m.ended) (es : List TaskEvent) :
    t ∈ (run m es).running ∨ t ∈ (run m es).ended := by
  induction es generalizing m with
  | nil => exact h
  | cons e es ih => exact ih (mem_running_or_ended_step h e)

theorem run_spawn_of_up (r ts : List Task) :
    run ⟨r, [], false, 0⟩ (ts.map .spawn) = ⟨r ++ ts, [], false, 0⟩ := by
  induction ts generalizing r with
  | nil => simp
  | cons t ts ih => simp [step, ih]

theorem launch_eq (tasks : List Task) : launch tasks = ⟨tasks, [], false, 0⟩ :=
  run_spawn_of_up [] tasks

theorem launch_finish_essential {tasks : List Task} {t : Task} (hmem : t ∈ tasks)
    (ht : t.essential = true) {es : List TaskEvent} (he : .finish t ∈ es) :
    (run (launch tasks) es).shutdown = true :=
  shutdown_of_finish_essential ht (.inl (by rw [launch_eq]; exact hmem)) he

end TaskManager

end Allfeat
