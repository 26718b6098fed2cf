import FlowGraph.Proofs.Admission
import FlowGraph.Proofs.Cleanup

/-!
# Inputs whose connections are gone

A call takes connections out of a graph, or it keeps all that are stored, unless it stores
a connection under an id that is in use.  When connections are taken out, the data inputs
that lose their last one go back to their defaults.  When a connection is restored in the
place of another, nothing is done at the nodes: the input that the old connection entered
keeps what has come along it.
-/

namespace FlowGraph

/-- A call that stores a connection under an id that is in use. -/
def Operation.Replaces (g : Graph) : Operation → Prop
  | .connect id _ => (g.connection? id).isSome = true
  | .restore c => (g.connection? c.id).isSome = true
  | _ => False

namespace Graph

variable {g g' : Graph} {id : NodeId} {c d : Connection} {n n' : Node} {index : Nat} {pin : Pin}
  {operation : Operation}

/-! ## What becomes of the stored connections -/

/-- A connection that is restored takes the place of none but the one with its id. -/
theorem mem_restore_of_ne (hd : d ∈ g.connections.rows) (hne : d.id ≠ c.id) :
    d ∈ (g.restore c).connections.rows := by
  have hfind : (g.connections.put c).find? d.id = some d := by
    rw [Table.find?_put, if_neg hne]
    exact Table.find?_key_iff.2 hd
  exact Table.mem_of_find? hfind

theorem mem_restore_of_unused (hunused : g.connection? c.id = none) (hd : d ∈ g.connections.rows) :
    d ∈ (g.restore c).connections.rows :=
  mem_restore_of_ne hd (Table.find?_eq_none_iff.1 hunused d hd)

/-- Without a replacement, connections are taken out or all of them are kept. -/
theorem leaves_or_keeps (hreplaces : ¬ operation.Replaces g) :
    (∃ taken gone, g.Leaves taken gone (operation.apply g)) ∨
      ∀ c ∈ g.connections.rows, c ∈ (operation.apply g).connections.rows := by
  have hkept : (operation.apply g).skeleton = g.skeleton →
      ∀ c ∈ g.connections.rows, c ∈ (operation.apply g).connections.rows := by
    intro hskeleton c hc
    rw [connections_eq_of_skeleton hskeleton]
    exact hc
  have hsame : (operation.apply g).connections = g.connections →
      ∀ c ∈ g.connections.rows, c ∈ (operation.apply g).connections.rows := by
    intro hconnections c hc
    rw [hconnections]
    exact hc
  have hadded : ∀ spec, (g.addNode spec).graph.connections = g.connections := by
    intro spec
    rw [addNode]
    dsimp only
    split <;> rfl
  cases operation with
  | addNode spec => exact .inr (hsame (hadded spec))
  | spawn catalog key =>
    apply Or.inr
    apply hsame
    rw [Operation.apply, Catalog.spawn]
    split
    · rfl
    · exact hadded _
  | connect connection l =>
    apply Or.inr
    have hunused : g.connection? connection = none := Option.not_isSome_iff_eq_none.1 hreplaces
    cases hcheck : g.check l with
    | error refusal =>
      apply hsame
      rw [Operation.apply, (connect_of_refused connection hcheck).1]
    | ok =>
      intro c hc
      rw [Operation.apply, connections_eq_of_skeleton (connect_of_admitted connection hcheck).1]
      exact mem_restore_of_unused (c := ⟨l, connection⟩) hunused hc
  | restore c =>
    have hunused : g.connection? c.id = none := Option.not_isSome_iff_eq_none.1 hreplaces
    exact .inr fun _ => mem_restore_of_unused hunused
  | disconnect connection => exact .inl ⟨_, _, leaves_disconnect g connection⟩
  | disconnectNode node => exact .inl ⟨_, _, leaves_disconnectWhere g _⟩
  | disconnectPin node pin side => exact .inl ⟨_, _, leaves_disconnectWhere g _⟩
  | removeNode node =>
    cases hlive : g.hasNode node with
    | true => exact .inl ⟨_, _, leaves_removeNode hlive⟩
    | false =>
      apply Or.inr
      apply hsame
      rw [Operation.apply, removeNode, if_neg (ne_true_of_eq_false hlive)]
  | cleanup => exact .inl ⟨_, _, leaves_cleanup g⟩
  | validate => exact .inr (hsame rfl)
  | knowOrder => exact .inr (hkept (skeleton_knowOrder g))
  | refreshPure => exact .inr (hkept (skeleton_sweep g true))
  | refreshAll => exact .inr (hkept (skeleton_sweep g false))
  | refreshConnection connection => exact .inr (hkept (Run.skeleton_refreshConnection _ connection))
  | refreshInputs node => exact .inr (hkept (Run.skeleton_refreshInputs _ node))
  | perform command => exact .inr (hkept (skeleton_perform g command))
  | execute start => exact .inr (hkept (skeleton_execute g start))
  | fire title => exact .inr (hkept (skeleton_fire g title))
  | fireStart => exact .inr (hkept (skeleton_fire g _))
  | fireTick => exact .inr (hkept (skeleton_fire g _))
  | rename name => exact .inr (hsame rfl)
  | setSettings settings => exact .inr (hsame rfl)
  | setTitle node title => exact .inr (hsame rfl)
  | setCategory node category => exact .inr (hsame rfl)
  | setInput node slot value => exact .inr (hsame rfl)
  | setOutput node slot value => exact .inr (hsame rfl)
  | invoke node => exact .inr (hkept (Run.skeleton_invoke _ node))

/-! ## What becomes of the inputs -/

/-- An input that has lost its last connection has lost one that is not stored any more. -/
theorem Vacated.exists_gone (h : g.Vacated g' n index pin) :
    ∃ c ∈ g.connections.rows, c.target = n.id ∧ c.targetPin = index ∧
      c ∉ g'.connections.rows := by
  obtain ⟨c, hc, htarget, hpin⟩ := h.before
  refine ⟨c, hc, htarget, hpin, ?_⟩
  intro hstays
  exact h.after ⟨c, hstays, htarget, hpin⟩

/-- At every step of every run, an input of a node that stays goes back to its default when its
last connection goes.  A connection that is restored in the place of another one is the
exception: if the old one was the last at its input, the node stays as it is. -/
theorem vacated_input_restored (hn : g.node? id = some n)
    (hn' : (operation.apply g).node? id = some n')
    (hvacated : g.Vacated (operation.apply g) n index pin) :
    (¬ operation.Replaces g → n'.memory.inputs.get? index = pin.default) ∧
      ∀ c, operation = .restore c →
        (∃ old, g.connection? c.id = some old ∧ old.target = id ∧ old.targetPin = index) ∧
          n' = n := by
  obtain ⟨old, hold, htarget, hpin, hgone⟩ := hvacated.exists_gone
  constructor
  · intro hreplaces
    rcases leaves_or_keeps hreplaces with ⟨taken, gone, hleaves⟩ | hkeeps
    · obtain ⟨before, hbefore, hrelieved⟩ := hleaves.exists_node? hn'
      cases hn.symm.trans hbefore
      exact hrelieved.restored index pin hvacated
    · exact absurd (hkeeps old hold) hgone
  · rintro c rfl
    have hreplaced : old.id = c.id := by
      by_contra hne
      exact hgone (mem_restore_of_ne hold hne)
    constructor
    · refine ⟨old, ?_, htarget.trans (Table.key_of_find? hn), hpin⟩
      rw [← hreplaced]
      exact Table.find?_key_iff.2 hold
    · exact Option.some.inj (hn'.symm.trans hn)

/-- A graph to look at: a number goes to the first of two displays. -/
def redirecting : Graph :=
  [.addNode { title := "Number", outputs := [.data "Value" (.int 1)] },
    .addNode { title := "Left", inputs := [.data "Shown" (.int 0)] },
    .addNode { title := "Right", inputs := [.data "Shown" (.int 0)] },
    .connect ⟨0⟩ ⟨⟨0⟩, 0, ⟨1⟩, 0⟩].foldl Operation.apply {}

/-- Whatever takes away the connection to the first display vacates an input there. -/
theorem vacated_redirecting (operation : Operation)
    (hgone : ¬ (operation.apply redirecting).Entered ⟨1⟩ 0) :
    ∃ n pin, redirecting.node? ⟨1⟩ = some n ∧ n.memory.inputs.get? 0 = some (.int 1) ∧
      redirecting.Vacated (operation.apply redirecting) n 0 pin ∧ pin.default = some (.int 0) :=
  ⟨_, _, rfl, rfl, ⟨rfl, rfl, by decide, hgone⟩, rfl⟩

/-- When the connection is removed, the display goes back to its default. -/
theorem vacated_input_restored_redirecting :
    ∃ n n' pin, redirecting.node? ⟨1⟩ = some n ∧
      ((Operation.disconnect ⟨0⟩).apply redirecting).node? ⟨1⟩ = some n' ∧
      redirecting.Vacated ((Operation.disconnect ⟨0⟩).apply redirecting) n 0 pin ∧
      n.memory.inputs.get? 0 = some (.int 1) ∧ n'.memory.inputs.get? 0 = some (.int 0) := by
  obtain ⟨n, pin, hn, hheld, hvacated, hdefault⟩ :=
    vacated_redirecting (.disconnect ⟨0⟩) (by decide)
  obtain ⟨n', hn'⟩ : ∃ n', ((Operation.disconnect ⟨0⟩).apply redirecting).node? ⟨1⟩ = some n' :=
    ⟨_, rfl⟩
  have hrestored := (vacated_input_restored hn hn' hvacated).1 id
  exact ⟨n, n', pin, hn, hn', hvacated, hheld, hrestored.trans hdefault⟩

/-- When a connection to the second display is restored in its place, the first one keeps
showing the number. -/
theorem vacated_input_stale_redirecting :
    ∃ n n' pin, redirecting.node? ⟨1⟩ = some n ∧
      ((Operation.restore ⟨⟨⟨0⟩, 0, ⟨2⟩, 0⟩, ⟨0⟩⟩).apply redirecting).node? ⟨1⟩ = some n' ∧
      redirecting.Vacated ((Operation.restore ⟨⟨⟨0⟩, 0, ⟨2⟩, 0⟩, ⟨0⟩⟩).apply redirecting) n 0 pin ∧
      pin.default = some (.int 0) ∧ n'.memory.inputs.get? 0 = some (.int 1) := by
  obtain ⟨n, pin, hn, hheld, hvacated, hdefault⟩ :=
    vacated_redirecting (.restore ⟨⟨⟨0⟩, 0, ⟨2⟩, 0⟩, ⟨0⟩⟩) (by decide)
  exact ⟨n, n, pin, hn, hn, hvacated, hdefault, hheld⟩

end Graph

end FlowGraph
