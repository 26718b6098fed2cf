import FlowGraph.Proofs.Reachability
import Mathlib.Data.List.Induction

/-!
# The search for a path

Whatever connections an adjacency was built from, and in however many portions, the search
on it comes to its end and finds the goal exactly if there is a path.  A node is marked as
visited only when it is taken from the stack, so it may stand there several times; but every
entry is paid for by an edge of its own, and the edges of a node are used up when it is
visited.  At each turn, what has been met is connected to the start, and every edge from a
visited node leads to a node that has been met.
-/

namespace FlowGraph

open Relation

/-- A visit settles what belongs to the visited node. -/
theorem countP_notMem_cons {α : Type} {f : α → NodeId} {id : NodeId} {visited : List NodeId}
    (hid : id ∉ visited) (l : List α) :
    (l.countP fun x => f x ∉ id :: visited) + (l.countP fun x => f x == id) =
      l.countP fun x => f x ∉ visited := by
  induction l with
  | nil => rfl
  | cons x l ih =>
    by_cases hx : f x = id
    · simp [hx, hid] at ih ⊢
      omega
    · by_cases hv : f x ∈ visited <;> simp [hx, hv] at ih ⊢ <;> omega

namespace Adjacency

variable {adjacency : Adjacency} {a b : NodeId}

/-! ## Building -/

theorem successors_empty (node : NodeId) : (∅ : Adjacency).successors node = [] := rfl

/-- Each node has a list of its own: a new target goes to the end of the list of its source,
and the other lists stay as they are. -/
theorem successors_insert (adjacency : Adjacency) (c : Connection) (node : NodeId) :
    (adjacency.insert c).successors node =
      if c.source = node then adjacency.successors node ++ [c.target]
      else adjacency.successors node := by
  by_cases hsource : c.source = node <;>
    simp [successors, Reach.successors, insert, Link.edge, hsource]

theorem mem_successors : b ∈ adjacency.successors a ↔ (a, b) ∈ adjacency.edges := by
  rw [successors, List.mem_reverse, Reach.mem_successors]

theorem length_successors (adjacency : Adjacency) (node : NodeId) :
    (adjacency.successors node).length = adjacency.edges.countP fun e => e.1 == node := by
  rw [successors, List.length_reverse, Reach.successors, List.length_map,
    List.countP_eq_length_filter]

/-- It makes no difference in which portions connections are added. -/
theorem foldl_insert_ofConnections (before after : List Connection) :
    after.foldl insert (ofConnections before) = ofConnections (before ++ after) :=
  List.foldl_append.symm

theorem ofConnections_concat (connections : List Connection) (c : Connection) :
    ofConnections (connections ++ [c]) = (ofConnections connections).insert c :=
  (foldl_insert_ofConnections connections [c]).symm

/-- The list of a node holds the targets of its connections, in the order of the connections. -/
theorem successors_ofConnections (connections : List Connection) (node : NodeId) :
    (ofConnections connections).successors node =
      (connections.filter fun c => c.source == node).map fun c => c.target := by
  induction connections using List.reverseRecOn with
  | nil => exact successors_empty node
  | append_singleton connections c ih =>
    rw [ofConnections_concat, successors_insert, ih]
    by_cases hsource : c.source = node <;> simp [hsource]

theorem mem_edges_ofConnections {connections : List Connection} :
    (a, b) ∈ (ofConnections connections).edges ↔
      ∃ c ∈ connections, c.source = a ∧ c.target = b := by
  rw [← mem_successors, successors_ofConnections]
  simp [and_assoc]

theorem length_edges_ofConnections (connections : List Connection) :
    (ofConnections connections).edges.length = connections.length := by
  induction connections using List.reverseRecOn with
  | nil => rfl
  | append_singleton connections c ih =>
    rw [ofConnections_concat, insert, List.length_cons, ih, List.length_append,
      List.length_singleton]

end Adjacency

namespace Search

variable {adjacency : Adjacency} {start goal a b : NodeId} {s s' : Search}
  {visited stack : List NodeId} {answer : Bool}

/-! ## Turns -/

/-- The stack after a visit. -/
def pushed (adjacency : Adjacency) (visited : List NodeId) (current : NodeId)
    (stack : List NodeId) : List NodeId :=
  ((adjacency.successors current).filter fun next => next ∉ visited).reverse ++ stack

theorem mem_pushed_iff :
    b ∈ pushed adjacency visited a stack ↔
      (a, b) ∈ adjacency.edges ∧ b ∉ visited ∨ b ∈ stack := by
  simp [pushed, Adjacency.mem_successors]

/-- What one turn does that does not find the goal: pass over a node that has been visited,
or visit one and put those after it on the stack. -/
inductive Step (adjacency : Adjacency) (goal : NodeId) : Search → Search → Prop
  | skip {visited stack : List NodeId} {current : NodeId} (hgoal : current ≠ goal)
      (hcurrent : current ∈ visited) :
      Step adjacency goal ⟨visited, current :: stack⟩ ⟨visited, stack⟩
  | visit {visited stack : List NodeId} {current : NodeId} (hgoal : current ≠ goal)
      (hcurrent : current ∉ visited) :
      Step adjacency goal ⟨visited, current :: stack⟩
        ⟨current :: visited, pushed adjacency (current :: visited) current stack⟩

theorem step_of_answer?_eq_none (h : s.answer? goal = none) :
    Step adjacency goal s (s.step adjacency) := by
  obtain ⟨visited, _ | ⟨current, stack⟩⟩ := s
  · cases h
  · have hgoal : current ≠ goal := by simpa [answer?] using h
    rw [step]
    dsimp only
    split
    next hcurrent => exact .skip hgoal hcurrent
    next hcurrent => exact .visit hgoal hcurrent

/-! ## What the search has met -/

/-- A node has been visited or is still to be looked at. -/
def Met (s : Search) (node : NodeId) : Prop := node ∈ s.visited ∨ node ∈ s.stack

theorem Met.step (h : s.Met a) (hstep : Step adjacency goal s s') : s'.Met a := by
  cases hstep with
  | skip hgoal hcurrent =>
    rcases h with hvisited | hstack
    · exact .inl hvisited
    · rcases List.mem_cons.1 hstack with rfl | hstack
      · exact .inl hcurrent
      · exact .inr hstack
  | visit hgoal hcurrent =>
    rcases h with hvisited | hstack
    · exact .inl (List.mem_cons_of_mem _ hvisited)
    · rcases List.mem_cons.1 hstack with rfl | hstack
      · exact .inl List.mem_cons_self
      · exact .inr (mem_pushed_iff.2 (.inr hstack))

/-- The search has met the start and what the edges from visited nodes lead to, nothing that
is not connected to the start, and it has not visited the goal. -/
structure Sound (adjacency : Adjacency) (start goal : NodeId) (s : Search) : Prop where
  begun : s.Met start
  explored : ∀ a b, a ∈ s.visited → (a, b) ∈ adjacency.edges → s.Met b
  grounded : ∀ a, s.Met a → Reach.Path adjacency.edges start a
  missed : goal ∉ s.visited

theorem sound_start (adjacency : Adjacency) (start goal : NodeId) :
    Sound adjacency start goal (.start start) where
  begun := .inr List.mem_cons_self
  explored a b ha := by cases ha
  grounded a hmet := by
    rcases hmet with hvisited | hstack
    · cases hvisited
    · rw [List.mem_singleton.1 hstack]
      exact .refl
  missed := List.not_mem_nil

theorem Sound.step (h : s.Sound adjacency start goal) (hstep : Step adjacency goal s s') :
    s'.Sound adjacency start goal := by
  have hmet : ∀ a, s.Met a → s'.Met a := fun _ hmet => hmet.step hstep
  have hbegun : s'.Met start := hmet start h.begun
  cases hstep with
  | skip hgoal hcurrent =>
    refine ⟨hbegun, ?_, ?_, h.missed⟩
    · exact fun a b ha hedge => hmet b (h.explored a b ha hedge)
    · intro a hmet
      exact h.grounded a (hmet.imp_right (List.mem_cons_of_mem _))
  | @visit visited stack current hgoal hcurrent =>
    have hground : Reach.Path adjacency.edges start current :=
      h.grounded current (.inr List.mem_cons_self)
    refine ⟨hbegun, ?_, ?_, ?_⟩
    · intro a b ha hedge
      rcases List.mem_cons.1 ha with rfl | ha
      · by_cases hb : b ∈ a :: visited
        · exact .inl hb
        · exact .inr (mem_pushed_iff.2 (.inl ⟨hedge, hb⟩))
      · exact hmet b (h.explored a b ha hedge)
    · rintro a (hvisited | hstack)
      · rcases List.mem_cons.1 hvisited with rfl | hvisited
        · exact hground
        · exact h.grounded a (.inl hvisited)
      · rcases mem_pushed_iff.1 hstack with ⟨hedge, -⟩ | hstack
        · exact hground.tail hedge
        · exact h.grounded a (.inr (List.mem_cons_of_mem _ hstack))
    · exact List.not_mem_cons_of_ne_of_not_mem hgoal.symm h.missed

/-- With nothing left on the stack, all to which a path leads has been visited. -/
theorem Sound.mem_visited (h : s.Sound adjacency start goal) (hstack : s.stack = [])
    (hpath : Reach.Path adjacency.edges start b) : b ∈ s.visited := by
  have hvisited : ∀ a, s.Met a → a ∈ s.visited := by
    intro a hmet
    simpa [Met, hstack] using hmet
  induction hpath with
  | refl => exact hvisited start h.begun
  | tail _ hedge ih => exact hvisited _ (h.explored _ _ ih hedge)

theorem Sound.answer_iff (h : s.Sound adjacency start goal)
    (hanswer : s.answer? goal = some answer) :
    answer = true ↔ Reach.Path adjacency.edges start goal := by
  obtain ⟨visited, _ | ⟨current, stack⟩⟩ := s
  · obtain rfl : false = answer := Option.some.inj hanswer
    refine iff_of_false Bool.false_ne_true fun hpath => ?_
    exact h.missed (h.mem_visited rfl hpath)
  · have hfound : current = goal ∧ true = answer := by simpa [answer?] using hanswer
    obtain ⟨rfl, rfl⟩ := hfound
    exact iff_of_true rfl (h.grounded current (.inr List.mem_cons_self))

/-! ## The search ends -/

/-- The entries of the stack, and the edges that start at nodes not yet visited. -/
def ahead (adjacency : Adjacency) (s : Search) : Nat :=
  s.stack.length + adjacency.edges.countP fun e => e.1 ∉ s.visited

theorem ahead_start (adjacency : Adjacency) (node : NodeId) :
    (Search.start node).ahead adjacency = 1 + adjacency.edges.length := by
  simp [ahead, start]

/-- A visit puts no more on the stack than the edges that it uses up. -/
theorem ahead_step_lt (hstep : Step adjacency goal s s') :
    s'.ahead adjacency < s.ahead adjacency := by
  cases hstep with
  | skip =>
    simp only [ahead, List.length_cons]
    omega
  | @visit visited stack current hgoal hcurrent =>
    have hedges := countP_notMem_cons (f := Prod.fst) hcurrent adjacency.edges
    have hfresh := List.length_filter_le (fun next => decide (next ∉ current :: visited))
      (adjacency.successors current)
    rw [Adjacency.length_successors] at hfresh
    simp only [ahead, pushed, List.length_append, List.length_reverse, List.length_cons]
    omega

/-- There is a turn at which the search has its answer, which is right; stopped before that
turn it has none. -/
theorem Sound.exists_finish? (h : s.Sound adjacency start goal) :
    ∃ turns ≤ s.ahead adjacency + 1, ∃ answer,
      (answer = true ↔ Reach.Path adjacency.edges start goal) ∧
        ∀ limit, s.finish? adjacency goal limit = if limit < turns then none else some answer := by
  -- on what is ahead: a turn without an answer leaves less of it and keeps the search sound
  induction hahead : s.ahead adjacency using Nat.strongRecOn generalizing s with
  | ind ahead ih =>
    cases hanswer : s.answer? goal with
    | some answer =>
      refine ⟨1, by omega, answer, h.answer_iff hanswer, ?_⟩
      rintro (_ | limit)
      · rfl
      · simp [finish?, hanswer]
    | none =>
      have hstep : Step adjacency goal s (s.step adjacency) := step_of_answer?_eq_none hanswer
      have hlt : (s.step adjacency).ahead adjacency < ahead := hahead ▸ ahead_step_lt hstep
      obtain ⟨turns, hturns, answer, hiff, hfinish⟩ := ih _ hlt (h.step hstep) rfl
      refine ⟨turns + 1, by omega, answer, hiff, ?_⟩
      rintro (_ | limit)
      · simp [finish?]
      · simp [finish?, hanswer, hfinish]

end Search

namespace Adjacency

variable {adjacency : Adjacency} {start goal : NodeId} {connections : List Connection}

/-- The turns that the search is given are enough for it. -/
theorem pathExists_spec (adjacency : Adjacency) (start goal : NodeId) :
    (adjacency.pathExists start goal = true ↔ Reach.Path adjacency.edges start goal) ∧
      ∃ turns ≤ adjacency.edges.length + 2, ∀ limit,
        (Search.start start).finish? adjacency goal limit =
          if limit < turns then none else some (adjacency.pathExists start goal) := by
  obtain ⟨turns, hturns, answer, hiff, hfinish⟩ :=
    (Search.sound_start adjacency start goal).exists_finish?
  rw [Search.ahead_start] at hturns
  have hanswer : adjacency.pathExists start goal = answer := by
    rw [pathExists, hfinish, if_neg (by omega), Option.getD_some]
  rw [hanswer]
  exact ⟨hiff, turns, by omega, hfinish⟩

theorem pathExists_iff :
    adjacency.pathExists start goal = true ↔ Reach.Path adjacency.edges start goal :=
  (adjacency.pathExists_spec start goal).1

/-- The empty path counts, and any other follows one connection after the other. -/
theorem pathExists_iff_eq_or_transGen :
    (ofConnections connections).pathExists start goal = true ↔ start = goal ∨
      TransGen (fun a b => ∃ c ∈ connections, c.source = a ∧ c.target = b) start goal := by
  rw [pathExists_iff, Reach.Path, reflTransGen_iff_eq_or_transGen, eq_comm]
  simp only [mem_edges_ofConnections]

theorem pathExists_ofConnections_iff :
    (ofConnections connections).pathExists start goal = true ↔
      Reach.Path (Connection.edges connections) start goal := by
  rw [pathExists_iff]
  apply Reach.path_congr
  rintro ⟨a, b⟩
  rw [mem_edges_ofConnections]
  simp [Connection.edges, Link.edge]

/-- Connections given at once and connections added later, one at a time, make up the same
adjacency.  Whatever they are, and wherever the search starts, there is a turn at which it is at
its end, not later than two turns after as many as there are connections: stopped before
that turn it has no answer, and from then on its answer is the one given.  It is that the
goal is found exactly if it is the start or connections lead to it from there. -/
theorem pathExists_exact (before after : List Connection) (start goal : NodeId) :
    after.foldl insert (ofConnections before) = ofConnections (before ++ after) ∧
      (∃ turns ≤ (before ++ after).length + 2, ∀ limit,
        (Search.start start).finish? (ofConnections (before ++ after)) goal limit =
          if limit < turns then none
          else some ((ofConnections (before ++ after)).pathExists start goal)) ∧
      ((ofConnections (before ++ after)).pathExists start goal = true ↔ start = goal ∨
        TransGen (fun a b => ∃ c ∈ before ++ after, c.source = a ∧ c.target = b) start goal) := by
  obtain ⟨-, hends⟩ := (ofConnections (before ++ after)).pathExists_spec start goal
  rw [length_edges_ofConnections] at hends
  exact ⟨foldl_insert_ofConnections before after, hends, pathExists_iff_eq_or_transGen⟩

/-- A node that leads to itself, one that leads back, and ids that no connection has. -/
example :
    let adjacency := ofConnections [⟨⟨⟨0⟩, 0, ⟨0⟩, 0⟩, ⟨0⟩⟩, ⟨⟨⟨0⟩, 0, ⟨1⟩, 0⟩, ⟨1⟩⟩,
      ⟨⟨⟨1⟩, 0, ⟨0⟩, 0⟩, ⟨2⟩⟩, ⟨⟨⟨1⟩, 1, ⟨2⟩, 0⟩, ⟨3⟩⟩]
    adjacency.pathExists ⟨0⟩ ⟨2⟩ = true ∧ adjacency.pathExists ⟨2⟩ ⟨0⟩ = false ∧
      adjacency.pathExists ⟨7⟩ ⟨7⟩ = true ∧ adjacency.pathExists ⟨7⟩ ⟨0⟩ = false := by
  decide

end Adjacency

namespace Reach

instance (edges : List (NodeId × NodeId)) (a b : NodeId) : Decidable (Path edges a b) :=
  decidable_of_iff ((Adjacency.mk edges).pathExists a b = true) Adjacency.pathExists_iff

end Reach

end FlowGraph
