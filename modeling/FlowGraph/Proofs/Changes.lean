import FlowGraph.Proofs.DataOrder
import FlowGraph.Proofs.Memory
import FlowGraph.Proofs.Recast
import Mathlib.Logic.Relation

/-!
# What refreshing and executing are made of

Everything that refreshing and executing do to a graph is done in small changes of five
kinds: a node is invoked, a value is copied along a stored connection that starts at a data
output, an output is set, a node is marked, and the data order becomes known.  A property
that no small change destroys is kept by all of them, and each change says what it does and
at which node, so that a node which is left alone keeps what it has.
-/

namespace FlowGraph

namespace Graph

/-- What is done at a node itself. -/
inductive Deed where
  | invoke (node : NodeId)
  | put (node : NodeId)
  | mark (node : NodeId)

def Deed.node : Deed → NodeId
  | .invoke node => node
  | .put node => node
  | .mark node => node

/-- One small change.  What may be done at nodes themselves is restricted. -/
inductive Change (may : Deed → Prop) : Graph → Graph → Prop
  | invoke (r : Run) {id : NodeId} (hmay : may (.invoke id)) :
    Change may r.graph (r.invoke id).graph
  | copy (r : Run) {c : Connection} (hstored : c ∈ r.graph.connections.rows)
      (hdata : r.graph.carriesData c.toLink = true) : Change may r.graph (r.copy c).graph
  | put (g : Graph) {id : NodeId} (index : Nat) (value : Value) (hmay : may (.put id)) :
      Change may g (g.setOutput id index value)
  | mark (g : Graph) {id : NodeId} (active : Bool) (hmay : may (.mark id)) :
      Change may g (g.setActive id active)
  | know (g : Graph) (known : Option (List NodeId)) : Change may g (g.knowing known)

/-- Any number of small changes, one after the other. -/
def Changes (may : Deed → Prop) : Graph → Graph → Prop :=
  Relation.ReflTransGen (Change may)

variable {may : Deed → Prop} {g g' g'' : Graph} {id : NodeId}

theorem Change.skeleton (h : Change may g g') : g'.skeleton = g.skeleton := by
  cases h with
  | invoke r => exact Run.skeleton_invoke r _
  | copy r => exact Run.skeleton_copy r _
  | put => exact skeleton_setOutput _ _ _ _
  | mark => exact skeleton_setActive _ _ _
  | know => rfl

/-- Outputs and locals of a node at which nothing is done stay. -/
theorem Change.map_memory?_eq {α : Type} (h : Change may g g')
    (hid : ∀ deed, may deed → deed.node ≠ id) (f : Memory → α)
    (hf : ∀ m pin value, f (m.receive pin value) = f m) :
    (g'.memory? id).map f = (g.memory? id).map f := by
  cases h with
  | invoke r hmay =>
    rename_i other
    have hother : other ≠ id := hid (.invoke other) hmay
    rw [Run.memory?_invoke, if_neg hother.symm]
  | copy r =>
    rw [Run.memory?_copy]
    split
    · simp only [Option.map_map, Function.comp_def, hf]
    · rfl
  | put g index value hmay =>
    rename_i other
    have hother : other ≠ id := hid (.put other) hmay
    rw [memory?_setOutput, if_neg hother.symm]
  | mark => rw [memory?_setActive]
  | know => rfl

/-- The mark of a node stays if that node may not be marked. -/
theorem Change.active?_eq_of_not_mark (h : Change may g g') (hmark : ¬ may (.mark id)) :
    g'.active? id = g.active? id := by
  cases h with
  | invoke r => exact Run.active?_invoke r _ id
  | copy r => exact Run.active?_copy r _ id
  | put g index value => exact active?_setOutput g _ id index value
  | mark g active hmay =>
    apply active?_setActive_of_ne
    rintro rfl
    exact hmark hmay
  | know => rfl

namespace Changes

theorem refl (g : Graph) : Changes may g g := Relation.ReflTransGen.refl

theorem single (h : Change may g g') : Changes may g g' := Relation.ReflTransGen.single h

theorem trans (h : Changes may g g') (h' : Changes may g' g'') : Changes may g g'' :=
  Relation.ReflTransGen.trans h h'

theorem skeleton (h : Changes may g g') : g'.skeleton = g.skeleton := by
  induction h with
  | refl => rfl
  | tail _ hstep ih => exact hstep.skeleton.trans ih

/-- What no small change destroys is kept. -/
theorem invariant {P : Graph → Prop} (h : Changes may g g')
    (hstep : ∀ g₁ g₂, g₁.skeleton = g.skeleton → Change may g₁ g₂ → P g₁ → P g₂) (hg : P g) :
    P g' := by
  induction h with
  | refl => exact hg
  | tail hbefore hlast ih => exact hstep _ _ (skeleton hbefore) hlast ih

/-- What no small change alters is the same in the end. -/
theorem eq_of_change {α : Type} {f : Graph → α} (h : Changes may g g')
    (hstep : ∀ {g₁ g₂}, Change may g₁ g₂ → f g₂ = f g₁) : f g' = f g :=
  h.invariant (P := fun g₁ => f g₁ = f g) (fun _ _ _ hchange heq => (hstep hchange).trans heq) rfl

theorem outputs_eq (h : Changes may g g') (hid : ∀ deed, may deed → deed.node ≠ id) :
    (g'.memory? id).map Memory.outputs = (g.memory? id).map Memory.outputs :=
  h.eq_of_change fun hchange => hchange.map_memory?_eq hid _ Memory.outputs_receive

theorem locals_eq (h : Changes may g g') (hid : ∀ deed, may deed → deed.node ≠ id) :
    (g'.memory? id).map Memory.locals = (g.memory? id).map Memory.locals :=
  h.eq_of_change fun hchange => hchange.map_memory?_eq hid _ Memory.locals_receive

theorem active?_eq_of_not_mark (h : Changes may g g') (hmark : ¬ may (.mark id)) :
    g'.active? id = g.active? id :=
  h.eq_of_change fun hchange => hchange.active?_eq_of_not_mark hmark

theorem active?_eq (h : Changes may g g') (hid : ∀ deed, may deed → deed.node ≠ id) :
    g'.active? id = g.active? id :=
  h.active?_eq_of_not_mark fun hmay => hid _ hmay rfl

end Changes

/-- Small changes leave the same nodes pure, and the same nodes feed others. -/
theorem may_of_skeleton
    (hmay : ∀ id, g.isPure id = true → g.feedsData id = true → may (.invoke id))
    (h : g'.skeleton = g.skeleton) (id : NodeId) (hpure : g'.isPure id = true)
    (hfeeds : g'.feedsData id = true) : may (.invoke id) := by
  rw [isPure_of_skeleton h] at hpure
  rw [feedsData_of_skeleton h] at hfeeds
  exact hmay id hpure hfeeds

end Graph

variable {may : Graph.Deed → Prop}

/-! ## Refreshing -/

namespace Run

variable {r : Run}

/-- A fold makes small changes if each of its steps does. -/
theorem changes_foldl {α : Type} {f : Run → α → Run} {as : List α}
    (hstep : ∀ r' : Run, r'.graph.skeleton = r.graph.skeleton → ∀ a ∈ as,
      Graph.Changes may r'.graph (f r' a).graph) :
    Graph.Changes may r.graph (as.foldl f r).graph := by
  induction as generalizing r with
  | nil => exact Graph.Changes.refl r.graph
  | cons a as ih =>
    have hfirst := hstep r rfl a List.mem_cons_self
    apply hfirst.trans
    apply ih
    intro r' hr' b hb
    exact hstep r' (hr'.trans hfirst.skeleton) b (List.mem_cons_of_mem a hb)

theorem changes_invokeIfPure (r : Run) {id : NodeId}
    (hpure : r.graph.isPure id = true → may (.invoke id)) :
    Graph.Changes may r.graph (r.invokeIfPure id).graph := by
  rw [invokeIfPure]
  split
  next h => exact Graph.Changes.single (.invoke r (hpure h))
  next => exact Graph.Changes.refl r.graph

theorem changes_copyAll {connections : List Connection}
    (hstored : ∀ c ∈ connections, c ∈ r.graph.connections.rows)
    (hdata : ∀ c ∈ connections, r.graph.carriesData c.toLink = true) :
    Graph.Changes may r.graph (r.copyAll connections).graph := by
  apply changes_foldl
  intro r' hr' c hc
  apply Graph.Changes.single
  apply Graph.Change.copy
  · rw [Graph.connections_eq_of_skeleton hr']
    exact hstored c hc
  · rw [Graph.carriesData_of_skeleton hr']
    exact hdata c hc

theorem changes_copyAll_dataInputs (r : Run) (id : NodeId) :
    Graph.Changes may r.graph (r.copyAll (r.graph.dataInputs id)).graph := by
  apply changes_copyAll
  · intro c hc
    exact (Graph.mem_dataInputs_iff.1 hc).1
  · intro c hc
    exact (Graph.mem_dataInputs_iff.1 hc).2.2

theorem changes_refreshDependency (r : Run) {target id : NodeId}
    (hpure : id ≠ target → r.graph.isPure id = true → may (.invoke id)) :
    Graph.Changes may r.graph (r.refreshDependency target id).graph := by
  have hcopies : Graph.Changes may r.graph (r.copyAll (r.graph.dataInputs id)).graph :=
    changes_copyAll_dataInputs r id
  rw [refreshDependency]
  split
  next => exact hcopies
  next hne =>
    apply hcopies.trans
    apply changes_invokeIfPure
    rw [Graph.isPure_of_skeleton hcopies.skeleton]
    exact hpure hne

/-- Of what a node depends on, the pure nodes are invoked. -/
theorem changes_refreshInputs (r : Run) {target : NodeId}
    (hpure : ∀ id ∈ r.graph.dependencies target, id ≠ target → r.graph.isPure id = true →
      may (.invoke id)) :
    Graph.Changes may r.graph (r.refreshInputs target).graph := by
  apply changes_foldl
  intro r' hr' id hid
  apply changes_refreshDependency
  rw [Graph.isPure_of_skeleton hr']
  exact hpure id hid

variable (hmay : ∀ id, r.graph.isPure id = true → r.graph.feedsData id = true → may (.invoke id))

include hmay

theorem changes_refreshNode (pureOnly : Bool) (id : NodeId) :
    Graph.Changes may r.graph (r.refreshNode pureOnly id).graph := by
  have hcopies : Graph.Changes may r.graph (r.copyAll ((r.graph.dataInputs id).filter fun c =>
      !pureOnly || r.graph.isPure c.source)).graph := by
    apply changes_copyAll
    · intro c hc
      exact (Graph.mem_dataInputs_iff.1 (List.mem_filter.1 hc).1).1
    · intro c hc
      exact (Graph.mem_dataInputs_iff.1 (List.mem_filter.1 hc).1).2.2
  rw [refreshNode]
  split
  next hfeeds =>
    apply hcopies.trans
    apply changes_invokeIfPure
    intro hpure
    exact Graph.may_of_skeleton hmay hcopies.skeleton id hpure hfeeds
  next => exact hcopies

theorem changes_refreshConnection (id : ConnectionId) :
    Graph.Changes may r.graph (r.refreshConnection id).graph := by
  rw [refreshConnection]
  split
  next => exact Graph.Changes.refl r.graph
  next c hc =>
    split
    next hdata =>
      have hfeeds : r.graph.Feeds c.source c.target := ⟨c, Table.mem_of_find? hc, hdata, rfl, rfl⟩
      have hinvoked := changes_invokeIfPure r fun hpure => hmay c.source hpure hfeeds.feedsData
      apply hinvoked.trans
      apply Graph.Changes.single
      apply Graph.Change.copy
      · rw [Graph.connections_eq_of_skeleton hinvoked.skeleton]
        exact Table.mem_of_find? hc
      · rw [Graph.carriesData_of_skeleton hinvoked.skeleton]
        exact hdata
    next => exact Graph.Changes.refl r.graph

end Run

theorem Graph.changes_knowOrder (g : Graph) : Changes may g g.knowOrder.graph := by
  rw [knowOrder]
  split
  · exact Graph.Changes.refl g
  · exact Graph.Changes.single (.know g _)

theorem Graph.changes_sweep {g : Graph}
    (hmay : ∀ id, g.isPure id = true → g.feedsData id = true → may (.invoke id))
    (pureOnly : Bool) : Graph.Changes may g (g.sweep pureOnly).graph := by
  apply (changes_knowOrder g).trans
  apply Run.changes_foldl
  intro r' hr' id _
  have hskeleton : r'.graph.skeleton = g.skeleton := hr'.trans (skeleton_knowOrder g)
  exact Run.changes_refreshNode (may_of_skeleton hmay hskeleton) pureOnly id

/-! ## Executing -/

namespace Execution

/-- The node at which something is still to be done. -/
def Pending.node : Pending → NodeId
  | .enter node => node
  | .leave node => node
  | .pass node _ _ => node

variable {r : Run} {m : Machine} {id : NodeId}

/-- What may be done at a step: anything at the node on top, and the invoking of the pure
nodes that it depends on. -/
structure Permits (may : Graph.Deed → Prop) (g : Graph) (id : NodeId) : Prop where
  own : ∀ deed : Graph.Deed, deed.node = id → may deed
  pulled : ∀ other ∈ g.dependencies id, other ≠ id → g.isPure other = true → may (.invoke other)

theorem changes_prepare (h : Permits may r.graph id) :
    Graph.Changes may r.graph (prepare r id).graph := by
  rw [prepare]
  split
  · exact Run.changes_refreshInputs r h.pulled
  · exact Graph.Changes.refl r.graph

theorem changes_enter (h : Permits may r.graph id) (stack : List Pending) :
    Graph.Changes may r.graph (enter r id stack).run.graph := by
  have hprepared : Graph.Changes may r.graph (prepare r id).graph := changes_prepare h
  rw [enter]
  dsimp only
  split
  · let marked : Run := { prepare r id with graph := (prepare r id).graph.setActive id true }
    have hinvoked : Graph.Changes may (prepare r id).graph (marked.invoke id).graph :=
      (Graph.Changes.single (.mark _ true (h.own (.mark id) rfl))).trans
        (Graph.Changes.single (.invoke marked (h.own (.invoke id) rfl)))
    split
    · exact hprepared.trans hinvoked
    · rw [graph_continuation]
      exact hprepared.trans hinvoked
  · exact hprepared

theorem changes_pass (hput : may (.put id)) (next limit : Int32) (stack : List Pending) :
    Graph.Changes may r.graph (pass r id next limit stack).run.graph := by
  rw [pass]
  split
  · split
    · exact Graph.Changes.single (.put r.graph _ _ hput)
    · exact Graph.Changes.refl r.graph
  · exact Graph.Changes.refl r.graph

/-- One step makes small changes at the node on top of the stack and at pure nodes. -/
theorem changes_step (htop : ∀ p ∈ m.stack.head?, Permits may m.run.graph p.node) :
    Graph.Changes may m.run.graph m.step.run.graph := by
  obtain ⟨r, stack⟩ := m
  cases stack with
  | nil => exact Graph.Changes.refl r.graph
  | cons top stack =>
    have hpermits : Permits may r.graph top.node := htop top rfl
    cases top with
    | enter id => exact changes_enter hpermits stack
    | leave id => exact Graph.Changes.single (.mark r.graph false (hpermits.own (.mark id) rfl))
    | pass id next limit => exact changes_pass (hpermits.own (.put id) rfl) next limit stack

/-- Whatever is on top, a step makes small changes. -/
theorem changes_step_any (m : Machine) :
    Graph.Changes (fun _ => True) m.run.graph m.step.run.graph :=
  changes_step fun _ _ => ⟨fun _ _ => trivial, fun _ _ _ _ => trivial⟩

theorem changes_finish? {steps : Nat} (h : m.finish? steps = some r) :
    Graph.Changes (fun _ => True) m.run.graph r.graph := by
  induction steps generalizing m with
  | zero => cases h
  | succ steps ih =>
    rw [Machine.finish?] at h
    split at h
    · cases h
      exact Graph.Changes.refl m.run.graph
    · exact (changes_step_any m).trans (ih h)

end Execution

open Execution

theorem Run.changes_execute {r r' : Run} {start : NodeId} (h : r.execute start = .ok r') :
    Graph.Changes (fun _ => True) r.graph r'.graph := by
  rw [execute] at h
  split at h
  · split at h
    next run hfinish =>
      cases h
      exact changes_finish? hfinish
    · cases h
  · cases h

namespace Graph

theorem changes_execute (g : Graph) (start : NodeId) :
    Changes (fun _ => True) g (g.execute start).graph := by
  rw [execute]
  split
  next run hrun => exact Run.changes_execute hrun
  next => exact Changes.refl g

theorem changes_fire (g : Graph) (title : String) :
    Changes (fun _ => True) g (g.fire title).graph :=
  fire_induction title (Changes.refl g) (changes_sweep (fun _ _ _ => trivial) false)
    fun _ _ _ hr hrun => hr.trans (Run.changes_execute hrun)

theorem changes_perform (g : Graph) (command : Command) :
    Changes (fun _ => True) g (g.perform command).graph := by
  have hany : ∀ id, g.isPure id = true → g.feedsData id = true → True := fun _ _ _ => trivial
  cases command with
  | refreshPure => exact changes_sweep hany true
  | refreshAll => exact changes_sweep hany false
  | refreshConnection id => exact Run.changes_refreshConnection (r := { graph := g }) hany id
  | refreshInputs node =>
    rw [perform]
    split
    · exact Run.changes_refreshInputs { graph := g } fun _ _ _ _ => trivial
    · exact Changes.refl g
  | execute node => exact changes_execute g node

end Graph

end FlowGraph
