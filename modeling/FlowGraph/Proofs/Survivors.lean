import FlowGraph.Proofs.Cleanup
import FlowGraph.Proofs.KnownOrder
import FlowGraph.Proofs.Settling
import Mathlib.Logic.Function.Iterate

/-!
# What survives a cleanup

Connections that are stored unchecked over a settled graph, and reported, are taken out by a
cleanup, and the connections from before remain.  What the others have brought remains as
well, since a cleanup refreshes nothing and puts an input back only if no connection enters
it any more.  So an input is safe as long as nothing has come into it along a connection that
is taken out, and a cycle of such connections has not kept it from being refreshed.
-/

namespace FlowGraph

namespace Graph

/-- Connections stored unchecked, one after the other. -/
def restoreAll (g : Graph) (connections : List Connection) : Graph := connections.foldl restore g

/-- Several refreshes of all values. -/
def refreshTimes (g : Graph) (times : Nat) : Graph := (fun g => g.refreshAll.graph)^[times] g

/-- Connections with unused ids, all of which are reported once they are stored. -/
structure Overlay (g : Graph) (extra : List Connection) : Prop where
  unused : (g.connections.keys ++ extra.map Connection.id).Nodup
  reported : ∀ c ∈ extra, c.id ∈ (g.restoreAll extra).reported

/-- The graph after connections have been laid over it and all values have been refreshed. -/
def overlaid (g : Graph) (extra : List Connection) (times : Nat) : Graph :=
  (g.restoreAll extra).refreshTimes times

/-- What a cleanup leaves of it. -/
def cleared (g : Graph) (extra : List Connection) (times : Nat) : Graph :=
  (g.overlaid extra times).cleanup.graph

/-- How a settled graph comes through connections that have been laid over it, some refreshes
of all values and a cleanup. -/
structure Survives (settled : Graph) (extra : List Connection) (times : Nat) : Prop where
  connections : (settled.cleared extra times).connections.rows = settled.connections.rows
  /-- At the end of a data connection is the value of its source, unless a refresh has brought
  another value along a connection since taken out, or has not come to the node. -/
  intact : ∀ c ∈ (settled.cleared extra times).connections.rows,
    (settled.cleared extra times).carriesData c.toLink = true →
    (times = 0 ∨ c.target ∈ (settled.restoreAll extra).dataOrder ∧
      ∀ d ∈ extra, (settled.restoreAll extra).carriesData d.toLink = true →
        d.toLink.Meets c.toLink → (settled.cleared extra times).sourceValue? d.toLink = none) →
    ∀ value, (settled.cleared extra times).sourceValue? c.toLink = some value →
      (settled.cleared extra times).targetValue? c.toLink = some value
  /-- A node to which no refresh has come holds what it held before. -/
  stalled : ∀ c ∈ (settled.cleared extra times).connections.rows,
    times = 0 ∨ c.target ∉ (settled.restoreAll extra).dataOrder →
      (settled.cleared extra times).targetValue? c.toLink = settled.targetValue? c.toLink
  /-- At any other there is what has come last, also along a connection since taken out. -/
  overlaid : ∀ c ∈ (settled.cleared extra times).connections.rows,
    (settled.cleared extra times).carriesData c.toLink = true →
    0 < times → c.target ∈ (settled.restoreAll extra).dataOrder →
    ((settled.cleared extra times).sourceValue? c.toLink).isSome = true →
      (settled.cleared extra times).targetValue? c.toLink =
        Memory.arriving? (settled.cleared extra times).sourceValue?
          ((settled.restoreAll extra).dataInputs c.target) c.targetPin

variable {g g' : Graph} {extra : List Connection} {c d : Connection} {id : NodeId} {l : Link}
  {times : Nat}

/-! ## Storing connections -/

@[simp]
theorem nodes_restoreAll (g : Graph) (extra : List Connection) :
    (g.restoreAll extra).nodes = g.nodes := by
  induction extra generalizing g with
  | nil => rfl
  | cons c extra ih => exact ih (g.restore c)

theorem rows_restoreAll (hunused : (g.connections.keys ++ extra.map Connection.id).Nodup) :
    (g.restoreAll extra).connections.rows = g.connections.rows ++ extra := by
  induction extra generalizing g with
  | nil => exact (List.append_nil _).symm
  | cons c extra ih =>
    have hnew : g.connection? c.id = none := by
      apply Table.find?_eq_none_iff.2
      intro d hd heq
      exact (List.nodup_append.1 hunused).2.2 d.id (List.mem_map_of_mem hd) c.id
        List.mem_cons_self heq
    have hrows : (g.restore c).connections.rows = g.connections.rows ++ [c] :=
      rows_restore_of_unused hnew
    have hrest : ((g.restore c).connections.keys ++ extra.map Connection.id).Nodup := by
      rw [Table.keys, hrows, List.map_append, List.append_assoc]
      exact hunused
    calc (g.restoreAll (c :: extra)).connections.rows
        = (g.restore c).connections.rows ++ extra := ih hrest
      _ = g.connections.rows ++ c :: extra := by
          rw [hrows, List.append_assoc, List.singleton_append]

theorem OrderCurrent.restoreAll (h : g.OrderCurrent) (extra : List Connection) :
    (g.restoreAll extra).OrderCurrent := by
  induction extra generalizing g with
  | nil => exact h
  | cons c extra ih => exact ih (.of_none rfl)

theorem sound_congr_nodes (hnodes : g'.nodes = g.nodes) {connections : List Connection}
    (h : g.Sound connections) : g'.Sound connections := by
  apply h.transfer
  intro c _ hfits
  simpa only [Fits, sourcePin?, targetPin?, node?, hnodes] using hfits

/-- What is laid over a well-formed graph is just what is reported. -/
theorem WellFormed.unreported_restoreAll (hwf : g.WellFormed) (hextra : g.Overlay extra) :
    (g.restoreAll extra).unreported = g.connections.rows := by
  have hrows := rows_restoreAll hextra.unused
  have hold : (g.restoreAll extra).Sound g.connections.rows :=
    sound_congr_nodes (nodes_restoreAll g extra) hwf
  have hnone : extra.filter (g.restoreAll extra).isUnreported = [] := by
    apply List.filter_eq_nil_iff.2
    intro c hc
    simpa [isUnreported] using hextra.reported c hc
  rw [unreported, hrows, List.filter_append, hnone, List.append_nil,
    ← keptOf_eq_filter_isUnreported hrows]
  exact keptOf_eq_self (violationsOf_eq_nil_iff.2 hold)

theorem PureKeepInputs.restoreAll (h : g.PureKeepInputs) (extra : List Connection) :
    (g.restoreAll extra).PureKeepInputs := by
  rw [PureKeepInputs, nodes_restoreAll]
  exact h

/-! ## Refreshing several times -/

theorem refreshTimes_succ (g : Graph) (times : Nat) :
    g.refreshTimes (times + 1) = (g.refreshTimes times).refreshAll.graph :=
  Function.iterate_succ_apply' _ times g

theorem skeleton_refreshTimes (g : Graph) (times : Nat) :
    (g.refreshTimes times).skeleton = g.skeleton := by
  induction times with
  | zero => rfl
  | succ times ih => rw [refreshTimes_succ, refreshAll, skeleton_sweep, ih]

theorem OrderCurrent.refreshTimes (h : g.OrderCurrent) (times : Nat) :
    (g.refreshTimes times).OrderCurrent := by
  induction times with
  | zero => exact h
  | succ times ih =>
    rw [refreshTimes_succ]
    exact ih.sweep false

/-- No refresh comes to a node that the data order leaves out. -/
theorem memory?_refreshTimes_of_notMem (hcurrent : g.OrderCurrent) (hid : id ∉ g.dataOrder)
    (times : Nat) : (g.refreshTimes times).memory? id = g.memory? id := by
  induction times with
  | zero => rfl
  | succ times ih =>
    have horder := dataOrder_of_skeleton (skeleton_refreshTimes g times)
    rw [refreshTimes_succ, refreshAll,
      memory?_sweep_of_notMem (hcurrent.refreshTimes times) (horder ▸ hid), ih]

/-- At every other node an input holds what has come last. -/
theorem targetValue?_refreshTimes_succ (hcurrent : g.OrderCurrent) (hkeeps : g.PureKeepInputs)
    (hl : l.target ∈ g.dataOrder) (times : Nat) :
    (g.refreshTimes (times + 1)).targetValue? l =
      (Memory.arriving? (g.refreshTimes (times + 1)).delivery? (g.dataInputs l.target)
        l.targetPin).or ((g.refreshTimes times).targetValue? l) := by
  have hskeleton := skeleton_refreshTimes g times
  have hmem : l.target ∈ (g.refreshTimes times).dataOrder := by
    rw [dataOrder_of_skeleton hskeleton]
    exact hl
  have hlive : (g.refreshTimes times).hasNode l.target = true :=
    hasNode_of_mem_nodeIds (mem_nodeIds_of_mem_dataOrder hmem)
  obtain ⟨m, hm⟩ := Option.isSome_iff_exists.1 ((isSome_memory? _ _).trans hlive)
  rw [targetValue?, refreshTimes_succ, refreshAll,
    memory?_sweep_of_mem (hcurrent.refreshTimes times) hmem, hm, Option.map_some, Option.bind_some,
    (hkeeps.of_skeleton hskeleton).inputs_next (skeleton_sweep _ false), Memory.get?_receiveAll,
    inputs_sweepPlan_false, dataInputs_of_skeleton hskeleton, targetValue?, hm, Option.bind_some]

/-! ## Cleaning up -/

theorem reported_of_skeleton (h : g'.skeleton = g.skeleton) : g'.reported = g.reported := by
  have hsame : ∀ g : Graph, ∀ kept c, g.skeleton.violation? kept c = g.violation? kept c := by
    intro g kept c
    simp only [violation?, node?_skeleton]
    cases g.node? c.source <;> cases g.node? c.target <;> rfl
  have hamong : ∀ (g : Graph) (accepted rest : List Connection),
      g.skeleton.violationsAmong accepted rest = g.violationsAmong accepted rest := by
    intro g accepted rest
    induction rest generalizing accepted with
    | nil => rfl
    | cons c rest ih => simp only [violationsAmong, hsame, ih]
  have hskeleton : ∀ g : Graph, g.skeleton.reported = g.reported := by
    intro g
    rw [reported, violations, hamong, connections_skeleton, reported, violations]
  rw [← hskeleton, h, hskeleton]

theorem unreported_of_skeleton (h : g'.skeleton = g.skeleton) :
    g'.unreported = g.unreported := by
  rw [unreported, connections_eq_of_skeleton h, unreported]
  apply List.filter_congr
  intro c _
  rw [isUnreported, reported_of_skeleton h, isUnreported]

/-! ## What is left -/

theorem carriesData_restoreAll (g : Graph) (extra : List Connection) (l : Link) :
    (g.restoreAll extra).carriesData l = g.carriesData l := by
  simp only [carriesData, sourcePin?, node?, nodes_restoreAll]

theorem targetPin?_restoreAll (g : Graph) (extra : List Connection) (l : Link) :
    (g.restoreAll extra).targetPin? l = g.targetPin? l := by
  simp only [targetPin?, node?, nodes_restoreAll]

theorem memory?_restoreAll (g : Graph) (extra : List Connection) (id : NodeId) :
    (g.restoreAll extra).memory? id = g.memory? id := by
  simp only [memory?, node?, nodes_restoreAll]

theorem skeleton_overlaid (g : Graph) (extra : List Connection) (times : Nat) :
    (g.overlaid extra times).skeleton = (g.restoreAll extra).skeleton :=
  skeleton_refreshTimes (g.restoreAll extra) times

theorem carriesData_cleared (g : Graph) (extra : List Connection) (times : Nat) (l : Link) :
    (g.cleared extra times).carriesData l = g.carriesData l := by
  calc (g.cleared extra times).carriesData l
      = (g.overlaid extra times).carriesData l :=
        carriesData_of_skeleton (skeleton_cleanup (g.overlaid extra times)) l
    _ = (g.restoreAll extra).carriesData l :=
        carriesData_of_skeleton (skeleton_overlaid g extra times) l
    _ = g.carriesData l := carriesData_restoreAll g extra l

theorem sourceValue?_cleared (g : Graph) (extra : List Connection) (times : Nat) (l : Link) :
    (g.cleared extra times).sourceValue? l = (g.overlaid extra times).sourceValue? l :=
  sourceValue?_cleanup (g.overlaid extra times) l

/-- The connections that a cleanup leaves are those from before. -/
theorem WellFormed.unreported_overlaid (hwf : g.WellFormed) (hextra : g.Overlay extra)
    (times : Nat) : (g.overlaid extra times).unreported = g.connections.rows :=
  (unreported_of_skeleton (skeleton_overlaid g extra times)).trans
    (hwf.unreported_restoreAll hextra)

theorem WellFormed.rows_cleared (hwf : g.WellFormed) (hextra : g.Overlay extra) (times : Nat) :
    (g.cleared extra times).connections.rows = g.connections.rows := by
  rw [cleared, rows_cleanup, hwf.unreported_overlaid hextra]

/-- Where a connection stays, the cleanup changes nothing. -/
theorem WellFormed.targetValue?_cleared (hwf : g.WellFormed) (hextra : g.Overlay extra)
    (hc : c ∈ g.connections.rows) (times : Nat) :
    (g.cleared extra times).targetValue? c.toLink =
      (g.overlaid extra times).targetValue? c.toLink := by
  apply targetValue?_cleanup
  rw [hwf.unreported_overlaid hextra]
  exact hc

theorem WellFormed.stalled_cleared (hwf : g.WellFormed) (hcurrent : g.OrderCurrent)
    (hextra : g.Overlay extra) (hc : c ∈ g.connections.rows)
    (hstalled : times = 0 ∨ c.target ∉ (g.restoreAll extra).dataOrder) :
    (g.cleared extra times).targetValue? c.toLink = g.targetValue? c.toLink := by
  have hmemory : (g.overlaid extra times).memory? c.target =
      (g.restoreAll extra).memory? c.target := by
    rcases hstalled with rfl | hnotMem
    · rfl
    · exact memory?_refreshTimes_of_notMem (hcurrent.restoreAll extra) hnotMem times
  rw [hwf.targetValue?_cleared hextra hc, targetValue?, hmemory, memory?_restoreAll, targetValue?]

/-- To an input that exists a connection brings what its source holds. -/
theorem WellFormed.delivery?_overlaid (hwf : g.WellFormed) (hc : c ∈ g.connections.rows)
    (hmeets : d.toLink.Meets c.toLink) (times : Nat) :
    (g.overlaid extra times).delivery? d.toLink =
      (g.cleared extra times).sourceValue? d.toLink := by
  obtain ⟨_, -, pin, hpin, -⟩ := hwf.fits c hc
  have htarget : (g.overlaid extra times).targetPin? d.toLink = some pin := by
    rw [targetPin?_of_skeleton (skeleton_overlaid g extra times), targetPin?_restoreAll,
      targetPin?, hmeets.1, hmeets.2]
    exact hpin
  rw [delivery?, htarget, Option.isSome_some, if_pos rfl, sourceValue?_cleared]

theorem mem_dataInputs_restoreAll (hextra : g.Overlay extra) (hc : c ∈ g.connections.rows)
    (hdata : g.carriesData c.toLink = true) : c ∈ (g.restoreAll extra).dataInputs c.target := by
  apply mem_dataInputs_iff.2
  rw [rows_restoreAll hextra.unused, carriesData_restoreAll]
  exact ⟨List.mem_append_left extra hc, rfl, hdata⟩

theorem WellFormed.overlaid_cleared (hwf : g.WellFormed) (hcurrent : g.OrderCurrent)
    (hkeeps : g.PureKeepInputs) (hextra : g.Overlay extra) (hc : c ∈ g.connections.rows)
    (hdata : g.carriesData c.toLink = true) (hmem : c.target ∈ (g.restoreAll extra).dataOrder)
    {value : Value} (hvalue : (g.cleared extra (times + 1)).sourceValue? c.toLink = some value) :
    (g.cleared extra (times + 1)).targetValue? c.toLink =
      Memory.arriving? (g.cleared extra (times + 1)).sourceValue?
        ((g.restoreAll extra).dataInputs c.target) c.targetPin := by
  have hinput := mem_dataInputs_restoreAll hextra hc hdata
  have hdelivery : Memory.arriving? (g.overlaid extra (times + 1)).delivery?
      ((g.restoreAll extra).dataInputs c.target) c.targetPin =
        Memory.arriving? (g.cleared extra (times + 1)).sourceValue?
          ((g.restoreAll extra).dataInputs c.target) c.targetPin := by
    apply Memory.arriving?_congr
    intro d hd hpin
    exact hwf.delivery?_overlaid hc ⟨(mem_dataInputs_iff.1 hd).2.1, hpin⟩ (times + 1)
  obtain ⟨_, -, -, other, -, harriving⟩ := Memory.exists_arriving hinput hvalue
  have hlast := targetValue?_refreshTimes_succ (hcurrent.restoreAll extra)
    (hkeeps.restoreAll extra) (l := c.toLink) hmem times
  rw [← overlaid, hdelivery, harriving, Option.some_or] at hlast
  rw [hwf.targetValue?_cleared hextra hc, hlast, harriving]

/-- Laid over a settled graph, connections that are reported leave it intact as far as nothing
has come along them. -/
theorem WellFormed.survives {settled : Graph} (hwf : settled.WellFormed)
    (hcurrent : settled.OrderCurrent) (hkeeps : settled.PureKeepInputs)
    (hextra : settled.Overlay extra)
    (hsettled : ∀ c ∈ settled.connections.rows, settled.carriesData c.toLink = true →
      ∀ value, settled.sourceValue? c.toLink = some value →
        settled.targetValue? c.toLink = some value) (times : Nat) :
    settled.Survives extra times where
  connections := hwf.rows_cleared hextra times
  intact := by
    intro c hc hdata hsafe value hvalue
    rw [hwf.rows_cleared hextra] at hc
    rw [carriesData_cleared] at hdata
    cases times with
    | zero =>
      have hbefore : (settled.overlaid extra 0).sourceValue? c.toLink =
          settled.sourceValue? c.toLink := by
        rw [Graph.overlaid, refreshTimes, Function.iterate_zero_apply, sourceValue?,
          memory?_restoreAll, sourceValue?]
      rw [hwf.stalled_cleared hcurrent hextra hc (.inl rfl)]
      apply hsettled c hc hdata
      rw [← hbefore, ← sourceValue?_cleared, hvalue]
    | succ times =>
      obtain ⟨hmem, hnone⟩ := hsafe.resolve_left (Nat.succ_ne_zero times)
      rw [hwf.overlaid_cleared hcurrent hkeeps hextra hc hdata hmem hvalue]
      apply Memory.arriving?_eq_some (mem_dataInputs_restoreAll hextra hc hdata) hvalue
      intro d hd hpin other hother
      obtain ⟨hstored, htarget, hbrings⟩ := mem_dataInputs_iff.1 hd
      rw [rows_restoreAll hextra.unused, List.mem_append] at hstored
      cases hstored with
      | inl hold =>
        rw [hwf.eq_of_meets hold hc ⟨htarget, hpin⟩, hvalue] at hother
        exact (Option.some.inj hother).symm
      | inr hnew =>
        rw [hnone d hnew hbrings ⟨htarget, hpin⟩] at hother
        cases hother
  stalled := by
    intro c hc hstalled
    rw [hwf.rows_cleared hextra] at hc
    exact hwf.stalled_cleared hcurrent hextra hc hstalled
  overlaid := by
    intro c hc hdata htimes hmem hsome
    rw [hwf.rows_cleared hextra] at hc
    rw [carriesData_cleared] at hdata
    obtain ⟨value, hvalue⟩ := Option.isSome_iff_exists.1 hsome
    cases times with
    | zero => cases htimes
    | succ times => exact hwf.overlaid_cleared hcurrent hkeeps hextra hc hdata hmem hvalue

/-- After a refresh of all values of a well-formed graph, connections are stored that are all
reported, all values are refreshed any number of times, and a cleanup is made.  Then the
connections are those from before, and each input is left with the value of its source,
unless something else has come in meanwhile or a cycle has kept the refreshes away; what it is
left with then is told as well.  That the known order is current is no restriction on graphs
that arise from operations. -/
theorem survives_cleanup (hwf : g.WellFormed) (hcurrent : g.OrderCurrent)
    (hkeeps : g.PureKeepInputs) (hextra : g.refreshAll.graph.Overlay extra) (times : Nat) :
    g.refreshAll.graph.Survives extra times := by
  have hskeleton : g.refreshAll.graph.skeleton = g.skeleton := skeleton_sweep g false
  apply (hwf.of_skeleton hskeleton).survives (hcurrent.sweep false) (hkeeps.of_skeleton hskeleton)
    hextra
  intro c hc hdata value hvalue
  apply hwf.settled_sweep hcurrent hkeeps _ hvalue
  rw [connections_eq_of_skeleton hskeleton] at hc
  rw [carriesData_of_skeleton hskeleton] at hdata
  exact mem_refreshed_iff.2 ⟨hc, hdata, nofun⟩

/-- A graph to look at: a number goes to a display, and another number is not connected. -/
def displaying : Graph :=
  [.addNode { title := "Number", outputs := [.data "Value" (.int 1)] },
    .addNode { title := "Other", outputs := [.data "Value" (.int 2)] },
    .addNode { title := "Display", inputs := [.data "Shown" (.int 0)] },
    .connect ⟨0⟩ ⟨⟨0⟩, 0, ⟨2⟩, 0⟩].foldl Operation.apply {}

theorem pureKeepInputs_displaying : displaying.PureKeepInputs :=
  List.forall_iff_forall_mem.1 ⟨fun _ _ => rfl, fun _ _ => rfl, fun _ _ => rfl⟩

/-- What has come along a connection that is taken out stays where another one remains. -/
theorem stale_after_cleanup_displaying :
    displaying.WellFormed ∧ displaying.OrderCurrent ∧ displaying.PureKeepInputs ∧
      displaying.refreshAll.graph.Overlay [⟨⟨⟨1⟩, 0, ⟨2⟩, 0⟩, ⟨1⟩⟩] ∧
      let final := displaying.refreshAll.graph.cleared [⟨⟨⟨1⟩, 0, ⟨2⟩, 0⟩, ⟨1⟩⟩] 1
      ⟨⟨⟨0⟩, 0, ⟨2⟩, 0⟩, ⟨0⟩⟩ ∈ final.connections.rows ∧
        final.carriesData ⟨⟨0⟩, 0, ⟨2⟩, 0⟩ = true ∧
        final.sourceValue? ⟨⟨0⟩, 0, ⟨2⟩, 0⟩ = some (.int 1) ∧
        final.targetValue? ⟨⟨0⟩, 0, ⟨2⟩, 0⟩ = some (.int 2) :=
  ⟨by decide, .of_none rfl, pureKeepInputs_displaying, ⟨by decide, by decide⟩, by decide⟩

/-- A graph to look at: a number goes to two displays and to a sum.  Another number is not
connected, and a source has no value yet. -/
def spreading : Graph :=
  [.addNode { title := "Number", outputs := [.data "Value" (.int 1)] },
    .addNode { title := "Other", outputs := [.data "Value" (.int 2)] },
    .addNode { title := "Silent", outputs := [{ name := "Value", cls := .data }] },
    .addNode { title := "Left", inputs := [.data "Shown" (.int 0)] },
    .addNode { title := "Right", inputs := [.data "Shown" (.int 0)] },
    .addNode
      { title := "Sum"
        inputs := [.data "A" (.int 0), .data "B" (.int 0)]
        outputs := [.data "Out" (.int 0)] },
    .connect ⟨0⟩ ⟨⟨0⟩, 0, ⟨3⟩, 0⟩,
    .connect ⟨1⟩ ⟨⟨0⟩, 0, ⟨4⟩, 0⟩,
    .connect ⟨2⟩ ⟨⟨0⟩, 0, ⟨5⟩, 0⟩].foldl Operation.apply {}

/-- What is laid over it: a connection from the silent source to the left display, connections
from the other number to the right display and to the sum, and one from the sum to itself. -/
def intrusion : List Connection :=
  [⟨⟨⟨2⟩, 0, ⟨3⟩, 0⟩, ⟨3⟩⟩, ⟨⟨⟨1⟩, 0, ⟨4⟩, 0⟩, ⟨4⟩⟩,
    ⟨⟨⟨1⟩, 0, ⟨5⟩, 0⟩, ⟨5⟩⟩, ⟨⟨⟨5⟩, 0, ⟨5⟩, 1⟩, ⟨6⟩⟩]

theorem pureKeepInputs_spreading : spreading.PureKeepInputs :=
  List.forall_iff_forall_mem.1
    ⟨fun _ _ => rfl, fun _ _ => rfl, fun _ _ => rfl, fun _ _ => rfl, fun _ _ => rfl, fun _ _ => rfl⟩

/-- The left display is intact, since nothing has come along the connection laid over.  The
right one is left with the other number.  The sum is left with what it held, since the cycle
has kept the refreshes away. -/
theorem survives_cleanup_spreading :
    spreading.WellFormed ∧ spreading.OrderCurrent ∧ spreading.PureKeepInputs ∧
      spreading.refreshAll.graph.Overlay intrusion ∧
      let final := spreading.refreshAll.graph.cleared intrusion 2
      final.connections.rows = spreading.connections.rows ∧
        final.targetValue? ⟨⟨0⟩, 0, ⟨3⟩, 0⟩ = some (.int 1) ∧
        final.targetValue? ⟨⟨0⟩, 0, ⟨4⟩, 0⟩ = some (.int 2) ∧
        final.targetValue? ⟨⟨0⟩, 0, ⟨5⟩, 0⟩ = some (.int 1) := by
  have hwf : spreading.WellFormed := by decide
  have hcurrent : spreading.OrderCurrent := .of_none rfl
  have hextra : spreading.refreshAll.graph.Overlay intrusion := ⟨by decide, by decide⟩
  have hsurvives := survives_cleanup hwf hcurrent pureKeepInputs_spreading hextra 2
  refine ⟨hwf, hcurrent, pureKeepInputs_spreading, hextra, hsurvives.connections, ?_, ?_, ?_⟩
  · have hsilent : ∀ d ∈ intrusion, d.target = ⟨3⟩ →
        (spreading.refreshAll.graph.cleared intrusion 2).sourceValue? d.toLink = none := by decide
    apply hsurvives.intact ⟨⟨⟨0⟩, 0, ⟨3⟩, 0⟩, ⟨0⟩⟩ (by decide) (by decide) _ _ (by decide)
    exact .inr ⟨by decide, fun d hd _ hmeets => hsilent d hd hmeets.1⟩
  · have hlast := hsurvives.overlaid ⟨⟨⟨0⟩, 0, ⟨4⟩, 0⟩, ⟨1⟩⟩ (by decide) (by decide) (by decide)
      (by decide) (by decide)
    exact hlast.trans (by decide)
  · have hkept := hsurvives.stalled ⟨⟨⟨0⟩, 0, ⟨5⟩, 0⟩, ⟨2⟩⟩ (by decide) (.inr (by decide))
    exact hkept.trans (by decide)

end Graph

end FlowGraph
