import FlowGraph.Graph.Execution
import Mathlib.Logic.Function.Iterate

/-!
# The run that is answered

An execution answers the run with which the machine halts: the one that its steps have led
to when for the first time nothing is left on the stack.  So whatever is said of the steps
of the machine until it halts is said of the execution.
-/

namespace FlowGraph

open Execution

/-- The machine with which the execution of a node begins. -/
def Run.launch (r : Run) (start : NodeId) : Machine :=
  ⟨r.record (.executing start), [.enter start]⟩

namespace Execution.Machine

/-- After the given number of steps, and no fewer, nothing is left on the stack. -/
structure Halts (m : Machine) (steps : Nat) (r : Run) : Prop where
  last : step^[steps] m = ⟨r, []⟩
  busy : ∀ earlier < steps, (step^[earlier] m).stack ≠ []

variable {m : Machine} {r : Run} {steps limit : Nat}

/-- With nothing on its stack the machine stays as it is. -/
theorem iterate_step_of_empty (hempty : m.stack = []) (steps : Nat) : step^[steps] m = m := by
  apply Function.iterate_fixed
  rw [step, hempty]

theorem Halts.of_empty (hempty : m.stack = []) : m.Halts 0 m.run where
  last := by rw [Function.iterate_zero_apply, ← hempty]
  busy _ hearlier := absurd hearlier (Nat.not_lt_zero _)

theorem Halts.of_step (hbusy : m.stack ≠ []) (h : m.step.Halts steps r) :
    m.Halts (steps + 1) r where
  last := h.last
  busy earlier hearlier := by
    cases earlier with
    | zero => exact hbusy
    | succ earlier => exact h.busy earlier (Nat.lt_of_succ_lt_succ hearlier)

theorem Halts.tail (h : m.Halts (steps + 1) r) : m.step.Halts steps r where
  last := h.last
  busy earlier hearlier := h.busy (earlier + 1) (Nat.succ_lt_succ hearlier)

theorem Halts.empty (h : m.Halts 0 r) : m = ⟨r, []⟩ := h.last

theorem Halts.stack_ne_nil (h : m.Halts (steps + 1) r) : m.stack ≠ [] :=
  h.busy 0 (Nat.succ_pos steps)

/-- What finds something on the stack comes before the end. -/
theorem Halts.lt_of_busy (h : m.Halts steps r) {during : Nat}
    (hbusy : (step^[during] m).stack ≠ []) : during < steps := by
  by_contra hafter
  obtain ⟨more, rfl⟩ := Nat.exists_eq_add_of_le (Nat.not_lt.1 hafter)
  rw [Nat.add_comm, Function.iterate_add_apply, h.last, iterate_step_of_empty rfl] at hbusy
  exact hbusy rfl

/-! ## Runs with a limit -/

theorem finish?_eq_some (hlast : step^[steps] m = ⟨r, []⟩) (hlimit : steps < limit) :
    m.finish? limit = some r := by
  induction limit generalizing steps m with
  | zero => cases hlimit
  | succ limit ih =>
    rw [finish?]
    split
    next hempty =>
      rw [iterate_step_of_empty (List.isEmpty_iff.1 hempty)] at hlast
      rw [hlast]
    next hbusy =>
      cases steps with
      | zero =>
        rw [Function.iterate_zero_apply] at hlast
        rw [hlast] at hbusy
        exact absurd rfl hbusy
      | succ steps => exact ih hlast (Nat.lt_of_succ_lt_succ hlimit)

/-- The limit is the only thing that can keep a run from being answered. -/
theorem finish?_eq_some_iff : m.finish? limit = some r ↔ ∃ steps < limit, m.Halts steps r := by
  constructor
  · intro hfinish
    induction limit generalizing m with
    | zero => cases hfinish
    | succ limit ih =>
      rw [finish?] at hfinish
      split at hfinish
      next hempty =>
        obtain rfl := Option.some.inj hfinish
        exact ⟨0, Nat.succ_pos limit, .of_empty (List.isEmpty_iff.1 hempty)⟩
      next hbusy =>
        obtain ⟨steps, hlimit, hhalts⟩ := ih hfinish
        have hne : m.stack ≠ [] := fun hempty => hbusy (List.isEmpty_iff.2 hempty)
        exact ⟨steps + 1, Nat.succ_lt_succ hlimit, hhalts.of_step hne⟩
  · rintro ⟨steps, hlimit, hhalts⟩
    exact finish?_eq_some hhalts.last hlimit

end Execution.Machine

/-! ## Executions -/

variable {r out : Run} {start : NodeId}

/-- A live node is executed by halting the machine within the limit on its steps. -/
theorem Run.execute_eq_ok_iff :
    r.execute start = .ok out ↔ r.graph.hasNode start = true ∧
      ∃ steps < stepBound r.graph, (r.launch start).Halts steps out := by
  rw [← Machine.finish?_eq_some_iff, Run.execute, Run.launch]
  split
  next hlive =>
    rw [hlive]
    split <;> simp_all
  next hdead => simp [hdead]

end FlowGraph
