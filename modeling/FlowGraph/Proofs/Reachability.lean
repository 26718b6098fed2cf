import FlowGraph.Graph.Reach
import Mathlib.Data.List.Basic
import Mathlib.Logic.Relation

/-!
# Paths and cycles

The law by which cycles are kept out: an edge joins a set of edges without cycles and
leaves it without cycles exactly if no path leads from the target of the edge to its
source.  Where there are no cycles, the depth of a node bounds all paths from it.
-/

namespace FlowGraph.Reach

open Relation

variable {edges : List (NodeId × NodeId)}

/-- A path of edges; the empty path counts. -/
def Path (edges : List (NodeId × NodeId)) : NodeId → NodeId → Prop :=
  ReflTransGen fun a b => (a, b) ∈ edges

/-- No path of one or more edges leads from a node to itself. -/
def Acyclic (edges : List (NodeId × NodeId)) : Prop :=
  ∀ node, ¬ TransGen (fun a b => (a, b) ∈ edges) node node

theorem Path.mono {edges' : List (NodeId × NodeId)} (hsubset : edges ⊆ edges')
    {a b : NodeId} (h : Path edges a b) : Path edges' a b :=
  h.lift id fun _ _ hedge => hsubset hedge

/-- The order of the edges does not matter to paths. -/
theorem path_congr {edges' : List (NodeId × NodeId)} (h : ∀ e, e ∈ edges ↔ e ∈ edges')
    {a b : NodeId} : Path edges a b ↔ Path edges' a b :=
  ⟨.mono fun e => (h e).1, .mono fun e => (h e).2⟩

theorem Acyclic.mono {edges' : List (NodeId × NodeId)} (hsubset : edges ⊆ edges')
    (h : Acyclic edges') : Acyclic edges :=
  fun node hcycle => h node (hcycle.lift id fun _ _ hedge => hsubset hedge)

@[simp]
theorem mem_successors {a b : NodeId} : b ∈ successors edges a ↔ (a, b) ∈ edges := by
  simp [successors]

/-! ## Cycles -/

/-- A path that may use one more edge either does without it or goes to the source of
the edge first and on from its target at the end. -/
theorem transGen_cons {e : NodeId × NodeId} {a b : NodeId}
    (h : TransGen (fun a b => (a, b) ∈ e :: edges) a b) :
    TransGen (fun a b => (a, b) ∈ edges) a b ∨ Path edges a e.1 ∧ Path edges e.2 b := by
  induction h with
  | single hedge =>
    rcases List.mem_cons.1 hedge with rfl | hedge
    · exact .inr ⟨ReflTransGen.refl, ReflTransGen.refl⟩
    · exact .inl (TransGen.single hedge)
  | tail _ hedge ih =>
    rcases List.mem_cons.1 hedge with rfl | hedge
    · rcases ih with hwithout | ⟨hbefore, -⟩
      · exact .inr ⟨hwithout.to_reflTransGen, ReflTransGen.refl⟩
      · exact .inr ⟨hbefore, ReflTransGen.refl⟩
    · rcases ih with hwithout | ⟨hbefore, hafter⟩
      · exact .inl (hwithout.tail hedge)
      · exact .inr ⟨hbefore, hafter.tail hedge⟩

/-- One more edge closes no cycle exactly if no path leads back from its target to its
source. -/
theorem acyclic_cons_iff {e : NodeId × NodeId} :
    Acyclic (e :: edges) ↔ Acyclic edges ∧ ¬ Path edges e.2 e.1 := by
  constructor
  · intro h
    constructor
    · exact h.mono (List.subset_cons_self e edges)
    · intro hback
      have hback' : Path (e :: edges) e.2 e.1 := hback.mono (List.subset_cons_self e edges)
      exact h e.1 (TransGen.head' List.mem_cons_self hback')
  · rintro ⟨hacyclic, hback⟩ node hcycle
    cases transGen_cons hcycle with
    | inl hwithout => exact hacyclic node hwithout
    | inr haround => exact hback (haround.2.trans haround.1)

/-- The order of the edges does not matter to cycles. -/
theorem acyclic_concat_iff {e : NodeId × NodeId} :
    Acyclic (edges ++ [e]) ↔ Acyclic edges ∧ ¬ Path edges e.2 e.1 := by
  have hperm : (edges ++ [e]).Perm (e :: edges) := List.perm_append_singleton e edges
  rw [← acyclic_cons_iff]
  exact ⟨.mono hperm.symm.subset, .mono hperm.subset⟩

theorem acyclic_nil : Acyclic [] := by
  intro node hcycle
  obtain ⟨_, hedge, _⟩ := TransGen.head'_iff.1 hcycle
  cases hedge

/-! ## Depth -/

/-- No path from a node goes through more than the given number of nodes. -/
def Within (edges : List (NodeId × NodeId)) : Nat → NodeId → Prop
  | 0, _ => False
  | depth + 1, a => ∀ b, (a, b) ∈ edges → Within edges depth b

/-- Without cycles no path goes through more nodes than can be reached at all. -/
theorem Acyclic.within (hacyclic : Acyclic edges) {nodes : List NodeId} {a : NodeId}
    (hnodes : ∀ b, Path edges a b → b ∈ nodes) : Within edges nodes.length a := by
  induction hlength : nodes.length generalizing nodes a with
  | zero =>
    have ha : a ∈ nodes := hnodes a ReflTransGen.refl
    rw [List.length_eq_zero_iff.1 hlength] at ha
    cases ha
  | succ depth ih =>
    intro b hedge
    have ha : a ∈ nodes := hnodes a ReflTransGen.refl
    -- `a` itself is not reached again from its successors
    have hrest : ∀ c, Path edges b c → c ∈ nodes.erase a := by
      intro c hpath
      have hne : c ≠ a := by
        rintro rfl
        exact hacyclic c (TransGen.head' hedge hpath)
      exact (List.mem_erase_of_ne hne).2 (hnodes c (ReflTransGen.head hedge hpath))
    exact ih hrest (by rw [List.length_erase_of_mem ha, hlength, Nat.add_sub_cancel])

end FlowGraph.Reach
