import FlowGraph.Proofs.Dependencies
import FlowGraph.Proofs.Integrity
import Mathlib.Data.Nat.Find

/-!
# The walk back lists sources first

The walk back from a node ends on every graph, also on one whose connections go round in
circles, and before the number of steps that it is given.  The entry at which it lists the
target lies at the bottom of its stack from the first step on, so that the target is listed
last.  Before it stand the live nodes from which data leads to the target through pure nodes,
each once, and without cycles of data connections each of them after its own sources.
-/

namespace FlowGraph

open Relation

namespace Dependency

variable {g : Graph} {target : NodeId} {w w' : Walk}

/-! ## The number of steps -/

theorem Walk.advance_add (more steps : Nat) (w : Walk) :
    w.advance g target (steps + more) = (w.advance g target steps).advance g target more := by
  induction steps generalizing w with
  | zero => rw [Nat.zero_add, Walk.advance]
  | succ steps ih => rw [Nat.succ_add, Walk.advance, ih, Walk.advance]

theorem Walk.advance_of_stack_eq_nil (h : w.stack = []) (steps : Nat) :
    w.advance g target steps = w := by
  have hstill : w.step g target = w := by
    rw [Walk.step, h]
  induction steps with
  | zero => rfl
  | succ steps ih => rw [Walk.advance, hstill, ih]

/-- There is a step at which the stack runs empty, and from then on nothing changes. -/
theorem Walk.exists_advance (hlive : w.Live g target) :
    ∃ steps ≤ w.ahead g target, (w.advance g target steps).stack = [] ∧
      (∀ earlier < steps, (w.advance g target earlier).stack ≠ []) ∧
      ∀ later, steps ≤ later → w.advance g target later = w.advance g target steps := by
  have hends : ∃ steps, (w.advance g target steps).stack = [] :=
    ⟨w.ahead g target, Walk.stack_advance_eq_nil hlive (Nat.le_refl _)⟩
  refine ⟨Nat.find hends, ?_, Nat.find_spec hends, fun _ => Nat.find_min hends, ?_⟩
  · exact Nat.find_min' hends (Walk.stack_advance_eq_nil hlive (Nat.le_refl _))
  · intro later hlater
    obtain ⟨more, rfl⟩ := Nat.exists_eq_add_of_le hlater
    rw [Walk.advance_add, Walk.advance_of_stack_eq_nil (Nat.find_spec hends)]

/-! ## The target comes last -/

/-- The walk has not begun, or its target waits at the bottom of the stack to be listed, or the
target has been listed last. -/
inductive Walk.Grounded (target : NodeId) : Walk → Prop
  | start : Grounded target ⟨[], [], [(target, false)]⟩
  | waits {visited listed : List NodeId} (above : List (NodeId × Bool)) :
      Grounded target ⟨visited, listed, above ++ [(target, true)]⟩
  | done {visited listed : List NodeId} : Grounded target ⟨visited, target :: listed, []⟩

theorem Walk.Grounded.step (h : w.Grounded target) (hstep : Walk.Step g target w w') :
    w'.Grounded target := by
  cases h with
  | start =>
    cases hstep with
    | skip hid => cases hid
    | visit hid => exact .waits _
  | @waits visited listed above =>
    cases above with
    | nil =>
      cases hstep
      exact .done
    | cons top above =>
      rw [List.cons_append] at hstep
      cases hstep with
      | list id => exact .waits above
      | skip hid => exact .waits above
      | visit hid =>
        rw [pushed, ← List.cons_append, ← List.append_assoc]
        exact .waits _
  | done => cases hstep

theorem Walk.Grounded.head?_listed (h : w.Grounded target) (hdone : w.stack = []) :
    w.listed.head? = some target := by
  cases h with
  | start => cases hdone
  | waits above => exact absurd hdone (List.append_ne_nil_of_right_ne_nil above (by simp))
  | done => rfl

end Dependency

namespace Graph

open Dependency

variable {g : Graph} {target id a b : NodeId}

/-- The walk back from a node after some number of steps. -/
def walkBack (g : Graph) (target : NodeId) (steps : Nat) : Walk :=
  Walk.advance g target steps ⟨[], [], [(target, false)]⟩

/-- What a walk back from a node has to list, and in which order. -/
structure PostOrder (g : Graph) (target : NodeId) (order : List NodeId) : Prop where
  distinct : order.Nodup
  last : order.getLast? = some target
  /-- The target, and the live nodes from which needs lead to it. -/
  mem_iff : ∀ id, id ∈ order ↔
    id = target ∨ g.hasNode id = true ∧ TransGen (g.Needs target) id target
  /-- If no data connections go round in a circle, a source stands before the nodes that are
  walked past for it. -/
  sourcesFirst : (∀ a, ¬ TransGen g.Feeds a a) → ∀ a b, g.Feeds a b → b ∈ order →
    b = target ∨ g.isPure b = true → ∃ before after, order = before ++ b :: after ∧ a ∈ before

theorem mem_dependencies_iff_transGen :
    id ∈ g.dependencies target ↔
      id = target ∨ g.hasNode id = true ∧ TransGen (g.Needs target) id target := by
  rw [mem_dependencies_iff, reflTransGen_iff_eq_or_transGen, eq_comm]
  apply or_congr_right
  apply Iff.symm
  apply and_iff_right_of_imp
  intro hpath
  obtain ⟨next, hneeds, -⟩ := TransGen.head'_iff.1 hpath
  exact hneeds.2.hasNode_source

theorem getLast?_dependencies (g : Graph) (target : NodeId) :
    (g.dependencies target).getLast? = some target := by
  have hgrounded : (g.walkBack target (2 + g.nodes.size + g.connections.size)).Grounded target :=
    Walk.advance_induction .start (fun _ _ hstep h => h.step hstep) _
  have hempty : (g.walkBack target (2 + g.nodes.size + g.connections.size)).stack = [] :=
    Walk.stack_advance_eq_nil (Walk.live_start g target) (Walk.ahead_start_le g target)
  exact List.getLast?_reverse.trans (hgrounded.head?_listed hempty)

theorem postOrder_dependencies (g : Graph) (target : NodeId) :
    g.PostOrder target (g.dependencies target) where
  distinct := g.nodup_dependencies target
  last := g.getLast?_dependencies target
  mem_iff _ := mem_dependencies_iff_transGen
  sourcesFirst := by
    intro hacyclic a b hfeeds hlisted hpast
    obtain ⟨before, after, hsplit⟩ := List.append_of_mem hlisted
    refine ⟨before, after, hsplit, mem_before_of_dependencies ?_ hsplit ⟨hpast, hfeeds⟩⟩
    exact fun c hcycle => hacyclic c (hcycle.lift id fun _ _ hneeds => hneeds.2)

/-- On every graph, however its connections go round in circles, the walk back from a node
comes to its end, not later than the steps allow that it is given, and what it has listed then
is the answer.  It lists the node last, before it the live nodes from which needs lead to it,
and each of them once; without circles of data connections, every node that is walked past
comes after all of its sources. -/
theorem dependencies_listed_in_postOrder (g : Graph) (target : NodeId) :
    g.PostOrder target (g.dependencies target) ∧
      ∃ steps ≤ 2 + g.nodes.size + g.connections.size,
        (g.walkBack target steps).stack = [] ∧
          (∀ earlier < steps, (g.walkBack target earlier).stack ≠ []) ∧
          g.dependencies target = (g.walkBack target steps).listed.reverse := by
  refine ⟨g.postOrder_dependencies target, ?_⟩
  obtain ⟨steps, hsteps, hempty, hbusy, hstill⟩ := Walk.exists_advance (Walk.live_start g target)
  have hbound := Nat.le_trans hsteps (Walk.ahead_start_le g target)
  refine ⟨steps, hbound, hempty, hbusy, ?_⟩
  rw [dependencies, hstill _ hbound]
  rfl

/-- The number that goes to the loop through another node stands first. -/
theorem dependencies_listed_in_postOrder_feeding :
    (∀ a, ¬ TransGen feeding.Feeds a a) ∧ feeding.Feeds ⟨0⟩ ⟨1⟩ ∧ feeding.isPure ⟨1⟩ = true ∧
      ∃ before after, feeding.dependencies ⟨2⟩ = before ++ ⟨1⟩ :: after ∧ ⟨0⟩ ∈ before := by
  have hwf : feeding.WellFormed := by decide
  have hacyclic : ∀ a, ¬ TransGen feeding.Feeds a a :=
    fun a hcycle => hwf.acyclic a (hcycle.lift id fun _ _ hfeeds => hfeeds.mem_edges)
  have hfeeds : feeding.Feeds ⟨0⟩ ⟨1⟩ := ⟨⟨⟨⟨0⟩, 0, ⟨1⟩, 0⟩, ⟨0⟩⟩, by decide⟩
  have hpure : feeding.isPure ⟨1⟩ = true := by decide
  have horder := (dependencies_listed_in_postOrder feeding ⟨2⟩).1
  exact ⟨hacyclic, hfeeds, hpure,
    horder.sourcesFirst hacyclic ⟨0⟩ ⟨1⟩ hfeeds (by decide) (.inr hpure)⟩

/-- With a restored connection that leads back, the walk still ends and lists the same nodes,
though the second of them now feeds the first. -/
example : (feeding.restore ⟨⟨⟨1⟩, 0, ⟨0⟩, 0⟩, ⟨9⟩⟩).dependencies ⟨2⟩ = [⟨0⟩, ⟨1⟩, ⟨2⟩] := by
  decide

end Graph

end FlowGraph
