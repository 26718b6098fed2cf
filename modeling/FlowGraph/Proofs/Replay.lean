import FlowGraph.Proofs.Admission
import FlowGraph.Proofs.Integrity
import FlowGraph.Proofs.Removal

/-!
# Admission and audit agree

Two lists of rules decide about connections: the rules of admission, which see all stored
connections, and the audit, which sees only those that it has kept.  When all connections
of a graph are offered anew to its nodes, admission keeps what the audit keeps.
-/

namespace FlowGraph

/-- The connection under another id. -/
def Connection.rename (fresh : ConnectionId → ConnectionId) (c : Connection) : Connection :=
  { c with id := fresh c.id }

namespace Graph

variable {g blank : Graph} {connections passed : List Connection} {l : Link} {id : ConnectionId}
  {fresh : ConnectionId → ConnectionId}

/-- Offer one connection more to a graph, and note it if it is let in. -/
def offer (state : Graph × List Connection) (c : Connection) : Graph × List Connection :=
  let offered := state.1.connect c.id c.toLink
  match offered.result with
  | .ok _ => (offered.graph, state.2 ++ [c])
  | .error _ => (offered.graph, state.2)

/-- Offer connections in order.  The answer is the last graph and the connections that
were let in. -/
def offerAll (g : Graph) (connections : List Connection) : Graph × List Connection :=
  connections.foldl offer (g, [])

/-! ## Ids do not matter -/

theorem links_map_rename (connections : List Connection) :
    Connection.links (connections.map (.rename fresh)) = Connection.links connections := by
  rw [Connection.links, List.map_map]
  rfl

theorem accepts_map_rename_iff :
    g.Accepts (connections.map (.rename fresh)) l ↔ g.Accepts connections l := by
  constructor
  · intro h
    apply h.of_links
    rw [links_map_rename]
    exact List.Subset.refl _
  · intro h
    apply h.of_links
    rw [links_map_rename]
    exact List.Subset.refl _

theorem keptOf_map_rename (g : Graph) (passed : List Connection) :
    g.keptOf (passed.map (.rename fresh)) = (g.keptOf passed).map (.rename fresh) := by
  induction passed using List.reverseRecOn with
  | nil => rfl
  | append_singleton passed c ih =>
    have hiff : g.Accepts (g.keptOf (passed.map (.rename fresh))) (c.rename fresh).toLink ↔
        g.Accepts (g.keptOf passed) c.toLink := by
      rw [ih]
      exact accepts_map_rename_iff
    rw [List.map_append, List.map_singleton]
    cases audit_concat g passed c with
    | inl h =>
      obtain ⟨haccepts, hkept, -⟩ := h
      rw [(audit_concat_of_accepts (hiff.2 haccepts)).1, hkept, ih, List.map_append,
        List.map_singleton]
    | inr h =>
      obtain ⟨v, hbreaks, hkept, -⟩ := h
      rw [hkept, ← ih]
      cases audit_concat g (passed.map (.rename fresh)) (c.rename fresh) with
      | inl h' => exact absurd (hiff.1 h'.1) hbreaks.not_accepts
      | inr h' =>
        obtain ⟨_, -, hkept', -⟩ := h'
        exact hkept'

/-! ## Offering all connections anew -/

theorem fits_iff_of_nodes (hnodes : blank.skeleton.nodes = g.skeleton.nodes) (l : Link) :
    blank.Fits l ↔ g.Fits l := by
  rw [← fits_skeleton blank, ← fits_skeleton g]
  simp only [Fits, sourcePin?, targetPin?, node?, hnodes]

/-- Offered to a graph without connections, the connections that are let in are those that
the audit keeps. -/
theorem offerAll_spec (hfits : ∀ l, blank.Fits l ↔ g.Fits l) (hempty : blank.connections = ∅)
    (hdistinct : (passed.map Connection.id).Nodup) :
    (∀ l, (blank.offerAll passed).1.Fits l ↔ g.Fits l) ∧
      (blank.offerAll passed).1.connections.rows = g.keptOf passed ∧
      (blank.offerAll passed).2 = g.keptOf passed := by
  induction passed using List.reverseRecOn with
  | nil => exact ⟨hfits, congrArg Table.rows hempty, rfl⟩
  | append_singleton passed c ih =>
    rw [List.map_append] at hdistinct
    obtain ⟨hpassed, -, hnew⟩ := List.nodup_append.1 hdistinct
    obtain ⟨hfits', hrows, haccepted⟩ := ih hpassed
    have hstep : blank.offerAll (passed ++ [c]) = offer (blank.offerAll passed) c := by
      rw [offerAll, List.foldl_append]
      rfl
    have hunused : (blank.offerAll passed).1.connection? c.id = none := by
      apply Table.find?_eq_none_iff.2
      rw [hrows]
      intro d hd
      have hmem : d ∈ passed := (keptOf_sublist g passed).subset hd
      exact hnew d.id (List.mem_map_of_mem hmem) c.id (List.mem_singleton_self _)
    have hiff : (blank.offerAll passed).1.check c.toLink = .ok () ↔
        g.Accepts (g.keptOf passed) c.toLink := by
      rw [check_eq_ok_iff, hrows]
      constructor
      · intro h
        exact h.transfer (hfits' _).1
      · intro h
        exact h.transfer (hfits' _).2
    rw [hstep, offer]
    cases hcheck : (blank.offerAll passed).1.check c.toLink with
    | ok =>
      obtain ⟨hskeleton, hresult⟩ := connect_of_admitted c.id hcheck
      have hkept := (audit_concat_of_accepts (hiff.1 hcheck)).1
      simp only [hresult]
      refine ⟨?_, ?_, ?_⟩
      · intro l
        rw [fits_iff_of_skeleton hskeleton, fits_restore_iff, hfits']
      · rw [connections_eq_of_skeleton hskeleton, rows_restore_of_unused hunused, hrows, hkept]
      · rw [haccepted, hkept]
    | error refusal =>
      obtain ⟨hgraph, hresult⟩ := connect_of_refused c.id hcheck
      have hkept : g.keptOf (passed ++ [c]) = g.keptOf passed := by
        cases audit_concat g passed c with
        | inl h =>
          rw [hiff.2 h.1] at hcheck
          cases hcheck
        | inr h =>
          obtain ⟨_, -, hkept, -⟩ := h
          exact hkept
      simp only [hresult, hgraph, hkept]
      exact ⟨hfits', hrows, haccepted⟩

/-! ## One connection more -/

theorem violations_restore_of_unused (hunused : g.connection? id = none) (l : Link) :
    (g.restore { toLink := l, id := id }).violations =
      g.violationsOf (g.connections.rows ++ [{ toLink := l, id := id }]) := by
  have hnodes : ∀ other, (g.restore { toLink := l, id := id }).node? other = g.node? other :=
    fun _ => rfl
  rw [violations, violationsAmong_congr hnodes, rows_restore_of_unused hunused, violationsOf]

/-- A link that is let in brings no violation, stored unchecked or not. -/
theorem violations_restore_of_check (hunused : g.connection? id = none)
    (hcheck : g.check l = .ok ()) :
    (g.restore { toLink := l, id := id }).violations = g.violations := by
  have haccepts : g.Accepts (g.keptOf g.connections.rows) l :=
    (check_eq_ok_iff.1 hcheck).subset (keptOf_sublist g _).subset
  rw [violations_restore_of_unused hunused]
  exact (audit_concat_of_accepts haccepts).2

/-- In a well-formed graph the links that are let in are those that bring no violation. -/
theorem WellFormed.check_iff (hwf : g.WellFormed) (hunused : g.connection? id = none) (l : Link) :
    g.check l = .ok () ↔ (g.restore { toLink := l, id := id }).violations = [] := by
  calc
    g.check l = .ok () ↔ g.Accepts g.connections.rows l := check_eq_ok_iff
    _ ↔ g.Sound g.connections.rows ∧ g.Accepts g.connections.rows l := (and_iff_right hwf).symm
    _ ↔ g.Sound (g.connections.rows ++ [{ toLink := l, id := id }]) :=
      (sound_concat_iff (c := { toLink := l, id := id })).symm
    _ ↔ g.violationsOf (g.connections.rows ++ [{ toLink := l, id := id }]) = [] :=
      violationsOf_eq_nil_iff.symm
    _ ↔ (g.restore { toLink := l, id := id }).violations = [] := by
      rw [violations_restore_of_unused hunused]

theorem rows_cleanup (g : Graph) : g.cleanup.graph.connections.rows = g.unreported := by
  rw [connections_eq_of_skeleton (skeleton_cleanup g)]
  apply List.filter_congr
  intro c _
  exact decide_not.symm

/-- Admission and audit decide the same.  Offered anew to the nodes without connections,
under any new ids, exactly the unreported connections are let in, in their order, and they
are those that a cleanup leaves.  A link that may be added changes no report, and in a
well-formed graph it is exactly such links that leave the report empty. -/
theorem admission_agrees_with_audit (g : Graph) :
    (∀ blank : Graph, blank.skeleton.nodes = g.skeleton.nodes → blank.connections = ∅ →
      ∀ fresh : ConnectionId → ConnectionId, (g.connections.keys.map fresh).Nodup →
        let offered := blank.offerAll (g.connections.rows.map (.rename fresh))
        offered.2 = g.unreported.map (.rename fresh) ∧
          offered.1.connections.rows = g.unreported.map (.rename fresh)) ∧
      g.cleanup.graph.connections.rows = g.unreported ∧
      (∀ l id, g.connection? id = none → g.check l = .ok () →
        (g.restore { toLink := l, id := id }).violations = g.violations) ∧
      (g.WellFormed → ∀ l id, g.connection? id = none →
        (g.check l = .ok () ↔ (g.restore { toLink := l, id := id }).violations = [])) := by
  refine ⟨?_, rows_cleanup g, ?_, ?_⟩
  · intro blank hnodes hempty fresh hfresh
    have hdistinct : ((g.connections.rows.map (.rename fresh)).map Connection.id).Nodup := by
      have hids : (g.connections.rows.map (.rename fresh)).map Connection.id =
          g.connections.keys.map fresh := by
        rw [Table.keys, List.map_map, List.map_map]
        rfl
      rw [hids]
      exact hfresh
    have hspec := offerAll_spec (fits_iff_of_nodes hnodes) hempty hdistinct
    rw [keptOf_map_rename, ← unreported_eq_keptOf] at hspec
    exact ⟨hspec.2.2, hspec.2.1⟩
  · intro l id hunused hcheck
    exact violations_restore_of_check hunused hcheck
  · intro hwf l id hunused
    exact hwf.check_iff hunused l

theorem admission_agrees_with_audit_tangled :
    ({ tangled with connections := ∅ }.offerAll tangled.connections.rows).2 = tangled.unreported ∧
      tangled.unreported.map Connection.id = [⟨0⟩, ⟨1⟩, ⟨5⟩] ∧
      counting.check ⟨⟨1⟩, 2, ⟨2⟩, 1⟩ = .ok () ∧
      (counting.restore ⟨⟨⟨1⟩, 2, ⟨2⟩, 1⟩, ⟨5⟩⟩).violations = [] := by
  have hrename : Connection.rename id = id := rfl
  have hcheck : counting.check ⟨⟨1⟩, 2, ⟨2⟩, 1⟩ = .ok () := rfl
  obtain ⟨hoffered, -⟩ := admission_agrees_with_audit tangled
  have hkept := hoffered { tangled with connections := ∅ } rfl rfl id (by decide)
  simp only [hrename, List.map_id] at hkept
  refine ⟨hkept.1, by decide, hcheck, ?_⟩
  obtain ⟨-, -, -, hrules⟩ := admission_agrees_with_audit counting
  exact (hrules (by decide) _ ⟨5⟩ (by decide)).1 hcheck

end Graph

end FlowGraph
