import FlowGraph.Graph.Refresh
import FlowGraph.Proofs.DataOrder
import Mathlib.Data.List.Pairwise

/-!
# What a node depends on

The walk back from a node keeps on its stack the nodes to visit and, below what they wait
for, the nodes to list.  Every entry taken from the stack is paid for by a node or a
connection that the walk has not come to before, so the stack runs empty, and then all
that the node depends on has been listed once.  Without cycles of data connections,
everything above a node to be listed is something that it depends on; so what it needs is
listed by the time it is listed itself.
-/

namespace FlowGraph

/-- Node `b` is walked past, and `a` feeds it. -/
def Graph.Needs (g : Graph) (target a b : NodeId) : Prop :=
  (b = target ∨ g.isPure b = true) ∧ g.Feeds a b

namespace Dependency

variable {g : Graph} {target id a b : NodeId} {w w' : Walk} {visited listed : List NodeId}
  {stack : List (NodeId × Bool)} {steps : Nat}

/-! ## Steps -/

/-- What is put on the stack above a node to be listed. -/
def unmet (g : Graph) (target : NodeId) (visited : List NodeId) (id : NodeId) : List NodeId :=
  if id = target || g.isPure id then freshSources g visited id else []

theorem mem_freshSources_iff :
    a ∈ freshSources g visited b ↔ g.Feeds a b ∧ a ∉ visited := by
  rw [freshSources, List.mem_filter, List.mem_map, ← Graph.feeds_iff, Bool.and_eq_true,
    decide_eq_true_eq]
  exact and_congr_right fun hfeeds => and_iff_left hfeeds.hasNode_source

theorem mem_unmet_iff : a ∈ unmet g target visited b ↔ g.Needs target a b ∧ a ∉ visited := by
  rw [unmet, Graph.Needs, and_assoc, ← mem_freshSources_iff]
  by_cases hpast : b = target ∨ g.isPure b = true
  · rw [if_pos (by simpa using hpast)]
    exact (and_iff_right hpast).symm
  · rw [if_neg (by simpa using hpast)]
    exact iff_of_false List.not_mem_nil fun h => hpast h.1

/-- The stack after a visit. -/
def pushed (g : Graph) (target : NodeId) (visited : List NodeId) (id : NodeId)
    (stack : List (NodeId × Bool)) : List (NodeId × Bool) :=
  ((unmet g target visited id).reverse.map fun source => (source, false)) ++ (id, true) :: stack

theorem mem_pushed_visit_iff :
    (a, false) ∈ pushed g target visited id stack ↔
      g.Needs target a id ∧ a ∉ visited ∨ (a, false) ∈ stack := by
  rw [← mem_unmet_iff]
  simp [pushed]

theorem mem_pushed_list_iff :
    (a, true) ∈ pushed g target visited id stack ↔ a = id ∨ (a, true) ∈ stack := by
  simp [pushed]

/-- What one step does: list the node on top, pass over one that has been visited, or
visit one and put what it needs above it. -/
inductive Walk.Step (g : Graph) (target : NodeId) : Walk → Walk → Prop
  | list {visited listed : List NodeId} {stack : List (NodeId × Bool)} (id : NodeId) :
      Step g target ⟨visited, listed, (id, true) :: stack⟩ ⟨visited, id :: listed, stack⟩
  | skip {visited listed : List NodeId} {stack : List (NodeId × Bool)} {id : NodeId}
      (hid : id ∈ visited) :
      Step g target ⟨visited, listed, (id, false) :: stack⟩ ⟨visited, listed, stack⟩
  | visit {visited listed : List NodeId} {stack : List (NodeId × Bool)} {id : NodeId}
      (hid : id ∉ visited) :
      Step g target ⟨visited, listed, (id, false) :: stack⟩
        ⟨id :: visited, listed, pushed g target (id :: visited) id stack⟩

theorem Walk.step_of_ne_nil (h : w.stack ≠ []) : Walk.Step g target w (w.step g target) := by
  obtain ⟨visited, listed, _ | ⟨⟨id, _ | _⟩, stack⟩⟩ := w
  · exact absurd rfl h
  · rw [Walk.step]
    dsimp only
    split
    next hid => exact .skip hid
    next hid => exact .visit hid
  · exact .list id

/-- What each step preserves, any number of steps preserves. -/
theorem Walk.advance_induction {P : Walk → Prop} (hw : P w)
    (hstep : ∀ w w', Walk.Step g target w w' → P w → P w') (steps : Nat) :
    P (w.advance g target steps) := by
  induction steps generalizing w with
  | zero => exact hw
  | succ steps ih =>
    apply ih
    by_cases hstack : w.stack = []
    · have hdone : w.step g target = w := by
        rw [Walk.step, hstack]
      rw [hdone]
      exact hw
    · exact hstep w _ (Walk.step_of_ne_nil hstack) hw

/-! ## The walk ends -/

/-- The entries on the stack, and the nodes and connections not yet come to. -/
def Walk.ahead (g : Graph) (target : NodeId) (w : Walk) : Nat :=
  w.stack.length + (target :: g.nodeIds).countP (· ∉ w.visited) +
    g.connections.rows.countP fun c => c.target ∉ w.visited

/-- The stack holds the target and live nodes only. -/
def Walk.Live (g : Graph) (target : NodeId) (w : Walk) : Prop :=
  ∀ e ∈ w.stack, e.1 ∈ target :: g.nodeIds

theorem Walk.Live.step (h : w.Live g target) (hstep : Walk.Step g target w w') :
    w'.Live g target := by
  cases hstep with
  | list id => exact fun e he => h e (List.mem_cons_of_mem _ he)
  | skip => exact fun e he => h e (List.mem_cons_of_mem _ he)
  | @visit visited listed stack id hid =>
    rintro ⟨a, _ | _⟩ he
    · rcases mem_pushed_visit_iff.1 he with ⟨hneeds, -⟩ | hold
      · exact List.mem_cons_of_mem _ (Graph.mem_nodeIds_of_hasNode hneeds.2.hasNode_source)
      · exact h (a, false) (List.mem_cons_of_mem _ hold)
    · rcases mem_pushed_list_iff.1 he with rfl | hold
      · exact h (a, false) List.mem_cons_self
      · exact h (a, true) (List.mem_cons_of_mem _ hold)

theorem length_unmet_le (g : Graph) (target : NodeId) (visited : List NodeId) (id : NodeId) :
    (unmet g target visited id).length ≤ g.connections.rows.countP fun c => c.target == id := by
  have hfresh : (freshSources g visited id).length ≤ (g.dataInputs id).length := by
    rw [freshSources, ← List.length_map fun c : Connection => c.source]
    exact List.length_filter_le _ _
  have hinputs : (g.dataInputs id).length ≤
      g.connections.rows.countP fun c => c.target == id := by
    rw [Graph.dataInputs, ← List.countP_eq_length_filter]
    apply List.countP_mono_left
    intro c _ hc
    exact (Bool.and_eq_true_iff.1 hc).1
  rw [unmet]
  split
  · exact Nat.le_trans hfresh hinputs
  · exact Nat.zero_le _

theorem Walk.ahead_step_lt (hlive : w.Live g target) (hstep : Walk.Step g target w w') :
    w'.ahead g target < w.ahead g target := by
  cases hstep with
  | list id =>
    simp only [Walk.ahead, List.length_cons]
    omega
  | skip =>
    simp only [Walk.ahead, List.length_cons]
    omega
  | @visit visited listed stack id hid =>
    have hnodes := countP_notMem_cons (f := fun a => a) hid (target :: g.nodeIds)
    have hrows := countP_notMem_cons (f := fun c : Connection => c.target) hid g.connections.rows
    have hone : 0 < (target :: g.nodeIds).countP fun a => a == id :=
      List.countP_pos_iff.2 ⟨id, hlive (id, false) List.mem_cons_self, beq_self_eq_true id⟩
    have hunmet := length_unmet_le g target (id :: visited) id
    simp only [Walk.ahead, pushed, List.length_append, List.length_map, List.length_reverse,
      List.length_cons]
    omega

theorem Walk.stack_advance_eq_nil (hlive : w.Live g target) (hsteps : w.ahead g target ≤ steps) :
    (w.advance g target steps).stack = [] := by
  induction steps generalizing w with
  | zero =>
    have hlength : w.stack.length = 0 := by
      rw [Walk.ahead] at hsteps
      omega
    exact List.length_eq_zero_iff.1 hlength
  | succ steps ih =>
    by_cases hstack : w.stack = []
    · apply Walk.advance_induction (P := fun w => w.stack = []) hstack
      intro w w' hstep hnil
      cases hstep <;> cases hnil
    · have hstep : Walk.Step g target w (w.step g target) := Walk.step_of_ne_nil hstack
      apply ih (hlive.step hstep)
      have hlt := Walk.ahead_step_lt hlive hstep
      omega

theorem Walk.live_start (g : Graph) (target : NodeId) :
    Walk.Live g target ⟨[], [], [(target, false)]⟩ := by
  intro e he
  rw [List.mem_singleton.1 he]
  exact List.mem_cons_self

theorem Walk.ahead_start_le (g : Graph) (target : NodeId) :
    Walk.ahead g target ⟨[], [], [(target, false)]⟩ ≤ 2 + g.nodes.size + g.connections.size := by
  have hnodes := List.countP_le_length (p := fun a => decide (a ∉ ([] : List NodeId)))
    (l := target :: g.nodeIds)
  have hrows := List.countP_le_length
    (p := fun c : Connection => decide (c.target ∉ ([] : List NodeId)))
    (l := g.connections.rows)
  rw [List.length_cons, Graph.length_nodeIds] at hnodes
  change 1 + (target :: g.nodeIds).countP (fun a => decide (a ∉ ([] : List NodeId))) +
    g.connections.rows.countP (fun c => decide (c.target ∉ ([] : List NodeId))) ≤
      2 + g.nodes.size + g.connections.rows.length
  omega

/-! ## What is listed -/

/-- The visited nodes that wait on the stack to be listed. -/
def Walk.waiting (w : Walk) : List NodeId := (w.stack.filter Prod.snd).map Prod.fst

theorem Walk.mem_waiting_iff : id ∈ w.waiting ↔ (id, true) ∈ w.stack := by
  simp [Walk.waiting]

/-- A node has been visited or is to be visited. -/
def Walk.Met (w : Walk) (id : NodeId) : Prop := id ∈ w.visited ∨ (id, false) ∈ w.stack

theorem Walk.Met.step (h : w.Met a) (hstep : Walk.Step g target w w') : w'.Met a := by
  cases hstep with
  | list id => exact h.imp_right fun hmem => by simpa using hmem
  | skip hid =>
    refine h.elim .inl fun hmem => ?_
    rcases List.mem_cons.1 hmem with heq | hmem
    · cases heq
      exact .inl hid
    · exact .inr hmem
  | visit =>
    refine h.elim (fun hmem => .inl (List.mem_cons_of_mem _ hmem)) fun hmem => ?_
    rcases List.mem_cons.1 hmem with heq | hmem
    · cases heq
      exact .inl List.mem_cons_self
    · exact .inr (mem_pushed_visit_iff.2 (.inr hmem))

/-- The walk lists each visited node once, and visits what the target depends on and
nothing else. -/
structure Walk.Sound (g : Graph) (target : NodeId) (w : Walk) : Prop where
  distinct : (w.listed ++ w.waiting).Nodup
  visited_iff : ∀ id, id ∈ w.visited ↔ id ∈ w.listed ++ w.waiting
  begun : w.Met target
  explored : ∀ a b, b ∈ w.visited → g.Needs target a b → w.Met a
  grounded : ∀ id, w.Met id → Relation.ReflTransGen (g.Needs target) id target

theorem Walk.sound_start (g : Graph) (target : NodeId) :
    Walk.Sound g target ⟨[], [], [(target, false)]⟩ where
  distinct := .nil
  visited_iff id := Iff.rfl
  begun := .inr List.mem_cons_self
  explored a b hb := by cases hb
  grounded id hmet := by
    rcases hmet with hvisited | hstack
    · cases hvisited
    · cases List.mem_singleton.1 hstack
      exact .refl

theorem Walk.Sound.listed_or_waiting (h : w.Sound g target) (hid : id ∈ w.visited) :
    id ∈ w.listed ∨ (id, true) ∈ w.stack := by
  rw [← Walk.mem_waiting_iff, ← List.mem_append]
  exact (h.visited_iff id).1 hid

theorem Walk.waiting_pushed :
    Walk.waiting ⟨id :: visited, listed, pushed g target (id :: visited) id stack⟩ =
      id :: Walk.waiting ⟨visited, listed, (id, false) :: stack⟩ := by
  simp [Walk.waiting, pushed, List.filter_map, Function.comp_def]

/-- A visit keeps the walk sound. -/
theorem Walk.Sound.visit (h : Walk.Sound g target ⟨visited, listed, (id, false) :: stack⟩)
    (hid : id ∉ visited) :
    Walk.Sound g target ⟨id :: visited, listed, pushed g target (id :: visited) id stack⟩ := by
  have hstep : Walk.Step g target ⟨visited, listed, (id, false) :: stack⟩
      ⟨id :: visited, listed, pushed g target (id :: visited) id stack⟩ := .visit hid
  have hmove : (listed ++ id :: Walk.waiting ⟨visited, listed, (id, false) :: stack⟩).Perm
      (id :: (listed ++ Walk.waiting ⟨visited, listed, (id, false) :: stack⟩)) :=
    List.perm_middle
  refine ⟨?_, ?_, h.begun.step hstep, ?_, ?_⟩
  · rw [Walk.waiting_pushed]
    exact hmove.nodup_iff.2
      (List.nodup_cons.2 ⟨fun hmem => hid ((h.visited_iff id).2 hmem), h.distinct⟩)
  · intro other
    rw [Walk.waiting_pushed, hmove.mem_iff, List.mem_cons, List.mem_cons]
    exact or_congr_right (h.visited_iff other)
  · intro a b hb hneeds
    rcases List.mem_cons.1 hb with rfl | hb
    · by_cases ha : a ∈ b :: visited
      · exact .inl ha
      · exact .inr (mem_pushed_visit_iff.2 (.inl ⟨hneeds, ha⟩))
    · exact (h.explored a b hb hneeds).step hstep
  · have hground : Relation.ReflTransGen (g.Needs target) id target :=
      h.grounded id (.inr List.mem_cons_self)
    rintro other (hvisited | hstack)
    · rcases List.mem_cons.1 hvisited with rfl | hvisited
      · exact hground
      · exact h.grounded other (.inl hvisited)
    · rcases mem_pushed_visit_iff.1 hstack with ⟨hneeds, -⟩ | hold
      · exact .head hneeds hground
      · exact h.grounded other (.inr (List.mem_cons_of_mem _ hold))

theorem Walk.Sound.step (h : w.Sound g target) (hstep : Walk.Step g target w w') :
    w'.Sound g target := by
  have hmet : ∀ a, w.Met a → w'.Met a := fun _ hmet => hmet.step hstep
  have hbegun : w'.Met target := hmet target h.begun
  cases hstep with
  | @list visited listed stack id =>
    have hmove : (listed ++ id :: Walk.waiting ⟨visited, listed, stack⟩).Perm
        (id :: listed ++ Walk.waiting ⟨visited, listed, stack⟩) :=
      List.perm_middle
    refine ⟨hmove.nodup_iff.1 h.distinct, ?_, hbegun, ?_, ?_⟩
    · exact fun other => (h.visited_iff other).trans hmove.mem_iff
    · exact fun a b hb hneeds => hmet a (h.explored a b hb hneeds)
    · intro other hmet
      exact h.grounded other (hmet.imp_right (List.mem_cons_of_mem _))
  | skip hid =>
    refine ⟨h.distinct, h.visited_iff, hbegun, ?_, ?_⟩
    · exact fun a b hb hneeds => hmet a (h.explored a b hb hneeds)
    · intro other hmet
      exact h.grounded other (hmet.imp_right (List.mem_cons_of_mem _))
  | visit hid => exact h.visit hid

/-! ## The order without cycles -/

/-- Each node to be listed finds what it needs among the nodes seen so far, which are those
listed and those above it on the stack. -/
def Covered (needs : NodeId → NodeId → Prop) : List NodeId → List (NodeId × Bool) → Prop
  | _, [] => True
  | seen, (b, waits) :: below =>
    (waits = true → ∀ a, needs a b → a ∈ seen) ∧ Covered needs (b :: seen) below

variable {needs : NodeId → NodeId → Prop} {seen : List NodeId}

theorem Covered.mono {more : List NodeId} (h : Covered needs seen stack) (hsub : seen ⊆ more) :
    Covered needs more stack := by
  induction stack generalizing seen more with
  | nil => trivial
  | cons entry below ih =>
    exact ⟨fun hwaits a hneeds => hsub (h.1 hwaits a hneeds),
      ih h.2 (List.cons_subset_cons _ hsub)⟩

theorem Covered.push {fresh : List NodeId} (h : Covered needs (fresh ++ seen) stack) :
    Covered needs seen ((fresh.map fun source => (source, false)) ++ stack) := by
  induction fresh generalizing seen with
  | nil => exact h
  | cons source fresh ih =>
    refine ⟨nofun, ih (h.mono ?_)⟩
    intro a
    simp only [List.mem_append, List.mem_cons]
    tauto

/-- Everything above a node to be listed is something that it depends on. -/
def Above (needs : NodeId → NodeId → Prop) (stack : List (NodeId × Bool)) : Prop :=
  stack.Pairwise fun upper lower => lower.2 = true → Relation.TransGen needs upper.1 lower.1

/-- What waits to be listed itself is not needed by what stands above it. -/
theorem Covered.drop (hacyclic : ∀ a, ¬ Relation.TransGen needs a a) (habove : Above needs stack)
    (hid : (id, true) ∈ stack) (h : Covered needs (id :: seen) stack) :
    Covered needs seen stack := by
  induction stack generalizing seen with
  | nil => cases hid
  | cons entry below ih =>
    obtain ⟨b, waits⟩ := entry
    obtain ⟨hhead, hbelow⟩ := List.pairwise_cons.1 habove
    obtain ⟨hneeds, hrest⟩ := h
    -- the dropped node is not needed here, as it depends on the node that stands here
    have hneeds' : ¬ needs id b → waits = true → ∀ a, needs a b → a ∈ seen := by
      intro hfree hwaits a ha
      refine (List.mem_cons.1 (hneeds hwaits a ha)).resolve_left ?_
      rintro rfl
      exact hfree ha
    rcases List.mem_cons.1 hid with heq | hlower
    · cases heq
      exact ⟨hneeds' fun hloop => hacyclic id (.single hloop), hrest.mono (by simp)⟩
    · refine ⟨hneeds' fun hback => hacyclic id (.head hback (hhead _ hlower rfl)), ?_⟩
      exact ih hbelow hlower (hrest.mono fun a ha => by simp at ha ⊢; tauto)

/-- Nothing is listed before what it needs. -/
structure Walk.Ordered (g : Graph) (target : NodeId) (w : Walk) : Prop where
  above : Above (g.Needs target) w.stack
  covered : Covered (g.Needs target) w.listed w.stack
  inOrder : InOrder (g.Needs target) w.listed

theorem Walk.ordered_start (g : Graph) (target : NodeId) :
    Walk.Ordered g target ⟨[], [], [(target, false)]⟩ where
  above := List.pairwise_singleton _ _
  covered := ⟨nofun, trivial⟩
  inOrder := trivial

/-- A visit keeps the walk in order. -/
theorem Walk.Ordered.visit (hacyclic : ∀ a, ¬ Relation.TransGen (g.Needs target) a a)
    (hsound : Walk.Sound g target ⟨visited, listed, (id, false) :: stack⟩)
    (h : Walk.Ordered g target ⟨visited, listed, (id, false) :: stack⟩) :
    Walk.Ordered g target ⟨id :: visited, listed, pushed g target (id :: visited) id stack⟩ := by
  obtain ⟨hhead, hbelow⟩ := List.pairwise_cons.1 h.above
  have hneeds : ∀ source ∈ (unmet g target (id :: visited) id).reverse, g.Needs target source id :=
    fun source hsource => (mem_unmet_iff.1 (List.mem_reverse.1 hsource)).1
  refine ⟨?_, ?_, h.inOrder⟩
  · apply List.pairwise_append.2
    refine ⟨?_, List.pairwise_cons.2 ⟨hhead, hbelow⟩, ?_⟩
    · apply List.pairwise_map.2
      exact List.pairwise_of_forall_mem_list fun _ _ _ _ hwaits => by cases hwaits
    · intro upper hupper lower hlower hwaits
      obtain ⟨source, hsource, rfl⟩ := List.mem_map.1 hupper
      rcases List.mem_cons.1 hlower with rfl | hlower
      · exact .single (hneeds source hsource)
      · exact .head (hneeds source hsource) (hhead lower hlower hwaits)
  · apply Covered.push
    refine ⟨?_, h.covered.2.mono (List.cons_subset_cons _ (List.subset_append_right _ _))⟩
    intro _ a ha
    by_cases hvisited : a ∈ id :: visited
    · apply List.mem_append_right
      rcases List.mem_cons.1 hvisited with rfl | hvisited
      · exact absurd (.single ha) (hacyclic a)
      · refine (hsound.listed_or_waiting hvisited).resolve_right fun hwaiting => ?_
        have hlower : (a, true) ∈ stack := by simpa using hwaiting
        exact hacyclic a (.head ha (hhead _ hlower rfl))
    · exact List.mem_append_left _ (List.mem_reverse.2 (mem_unmet_iff.2 ⟨ha, hvisited⟩))

theorem Walk.Ordered.step (hacyclic : ∀ a, ¬ Relation.TransGen (g.Needs target) a a)
    (hsound : w.Sound g target) (h : w.Ordered g target) (hstep : Walk.Step g target w w') :
    w'.Ordered g target := by
  cases hstep with
  | list id =>
    obtain ⟨-, hbelow⟩ := List.pairwise_cons.1 h.above
    exact ⟨hbelow, h.covered.2, h.covered.1 rfl, h.inOrder⟩
  | @skip visited listed stack id hid =>
    obtain ⟨-, hbelow⟩ := List.pairwise_cons.1 h.above
    refine ⟨hbelow, ?_, h.inOrder⟩
    rcases hsound.listed_or_waiting hid with hlisted | hwaiting
    · exact h.covered.2.mono (List.cons_subset.2 ⟨hlisted, List.Subset.refl _⟩)
    · have hlower : (id, true) ∈ stack := by simpa using hwaiting
      exact h.covered.2.drop hacyclic hbelow hlower
  | visit => exact h.visit hacyclic hsound

end Dependency

namespace Graph

variable {g : Graph} {target id a b : NodeId}

open Dependency

/-- The final state of the walk. -/
theorem exists_walk_dependencies (g : Graph) (target : NodeId) :
    ∃ w : Walk, g.dependencies target = w.listed.reverse ∧ w.stack = [] ∧ w.Sound g target ∧
      ((∀ a, ¬ Relation.TransGen (g.Needs target) a a) → w.Ordered g target) := by
  refine ⟨_, rfl, ?_, ?_, ?_⟩
  · exact Walk.stack_advance_eq_nil (Walk.live_start g target) (Walk.ahead_start_le g target)
  · exact Walk.advance_induction (Walk.sound_start g target) (fun _ _ hstep h => h.step hstep) _
  · intro hacyclic
    apply And.right (a := Walk.Sound g target _)
    apply Walk.advance_induction (P := fun w => w.Sound g target ∧ w.Ordered g target)
    · exact ⟨Walk.sound_start g target, Walk.ordered_start g target⟩
    · exact fun w w' hstep h => ⟨h.1.step hstep, h.2.step hacyclic h.1 hstep⟩

theorem nodup_dependencies (g : Graph) (target : NodeId) : (g.dependencies target).Nodup := by
  obtain ⟨w, hlisted, hstack, hsound, -⟩ := exists_walk_dependencies g target
  rw [hlisted]
  exact (List.reverse_perm _).nodup_iff.2 hsound.distinct.of_append_left

/-- The nodes listed are those from which needs lead to the target. -/
theorem mem_dependencies_iff :
    id ∈ g.dependencies target ↔ Relation.ReflTransGen (g.Needs target) id target := by
  obtain ⟨w, hlisted, hstack, hsound, -⟩ := exists_walk_dependencies g target
  have hmet : ∀ a, w.Met a ↔ a ∈ w.visited := by
    intro a
    rw [Walk.Met, hstack]
    exact or_iff_left List.not_mem_nil
  have hvisited : ∀ a, a ∈ w.visited ↔ a ∈ w.listed := by
    intro a
    rw [hsound.visited_iff, Walk.waiting, hstack]
    exact iff_of_eq (congrArg _ (List.append_nil _))
  rw [hlisted, List.mem_reverse, ← hvisited, ← hmet]
  constructor
  · exact hsound.grounded id
  · intro hpath
    induction hpath using Relation.ReflTransGen.head_induction_on with
    | refl => exact hsound.begun
    | head hneeds _ ih => exact hsound.explored _ _ ((hmet _).1 ih) hneeds

theorem WellFormed.needs_acyclic (hwf : g.WellFormed) (target a : NodeId) :
    ¬ Relation.TransGen (g.Needs target) a a := by
  intro hcycle
  exact hwf.acyclic a (hcycle.lift id fun _ _ hneeds => hneeds.2.mem_edges)

/-- Without cycles, what a node needs is listed before it. -/
theorem mem_before_of_dependencies (hacyclic : ∀ a, ¬ Relation.TransGen (g.Needs target) a a)
    {before after : List NodeId} (hsplit : g.dependencies target = before ++ b :: after)
    (hneeds : g.Needs target a b) : a ∈ before := by
  obtain ⟨w, hlisted, -, -, hordered⟩ := exists_walk_dependencies g target
  rw [hlisted] at hsplit
  exact (hordered hacyclic).inOrder.mem_before hsplit hneeds

end Graph

end FlowGraph
