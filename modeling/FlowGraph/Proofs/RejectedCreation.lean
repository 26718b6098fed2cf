import FlowGraph.Proofs.RenumberedCall
import Mathlib.Logic.Equiv.Defs

/-!
# Creations that are rejected

A declaration that is not valid is rejected, and its node id is used up all the same.  Nothing
else is left of the call.  So a run without its rejected creations is the same run with other
ids for the nodes: those that are created after a rejected creation close up.
-/

namespace FlowGraph

/-- An answer that says that a declaration was not valid. -/
def Answer.isInvalid : Answer → Bool
  | created (.error _) => true
  | spawned (.error (.invalid _)) => true
  | _ => false

/-- A creation that is rejected because its declaration is not valid. -/
def Operation.isRejected (g : Graph) (operation : Operation) : Bool :=
  (operation.respond g).result.isInvalid

/-- A number of ids, one after the other. -/
def NodeId.consecutive (next count : Nat) : List NodeId := (List.range' next count).map NodeId.mk

namespace Graph

/-- What is left of a run without the creations that are rejected. -/
def accepted (g : Graph) (operations : List Operation) : List (Operation × Outcome Answer) :=
  g.kept (fun g operation => !operation.isRejected g) operations

variable {g : Graph} {operation : Operation} {operations : List Operation} {spec : NodeSpec}
  {ρ : Equiv.Perm NodeId} {next : Nat}

/-! ## One call -/

/-- A creation either uses up an id and does nothing else, or creates a node with that id. -/
theorem addNode_cases (g : Graph) (spec : NodeSpec) :
    (∃ error, g.addNode spec =
      { graph := { g with nextId := g.nextId + 1 }, result := .error error }) ∨
      (g.addNode spec).result = .ok ⟨g.nextId⟩ := by
  rw [addNode]
  dsimp only
  cases Node.ofSpec ⟨g.nextId⟩ spec with
  | error error => exact .inl ⟨error, rfl⟩
  | ok node => exact .inr rfl

theorem spawn_of_get? {catalog : Catalog} {key : String} {t : Template}
    (h : catalog.get? key = some t) :
    catalog.spawn g key =
      (g.addNode t.toSpec).answer ((g.addNode t.toSpec).result.mapError .invalid) := by
  rw [Catalog.spawn, h]

/-- Nothing is left of a rejected creation but the id that it has used up.  Any other call that
takes up an id creates a node with it. -/
theorem rejected_or_created (g : Graph) (operation : Operation) :
    (operation.isRejected g = true ∧ operation.apply g = { g with nextId := g.nextId + 1 } ∧
      (operation.respond g).journal = [] ∧ operation.created? g = none) ∨
    (operation.isRejected g = false ∧
      operation.created? g = if operation.creates then some ⟨g.nextId⟩ else none) := by
  cases operation with
  | addNode spec =>
    rw [Operation.isRejected, Operation.apply, Operation.respond, Operation.created?]
    rcases g.addNode_cases spec with ⟨error, herror⟩ | hcreated
    · rw [herror]
      exact .inl ⟨rfl, rfl, rfl, rfl⟩
    · rw [Outcome.map, Run.answer, hcreated]
      exact .inr ⟨rfl, rfl⟩
  | spawn catalog key =>
    rw [Operation.isRejected, Operation.apply, Operation.respond, Operation.created?,
      Operation.creates]
    cases htemplate : catalog.get? key with
    | none =>
      rw [Catalog.spawn, htemplate]
      exact .inr ⟨rfl, rfl⟩
    | some t =>
      rw [spawn_of_get? htemplate]
      rcases g.addNode_cases t.toSpec with ⟨error, herror⟩ | hcreated
      · rw [herror]
        exact .inl ⟨rfl, rfl, rfl, rfl⟩
      · rw [hcreated]
        exact .inr ⟨rfl, rfl⟩
  | _ => exact .inr ⟨rfl, rfl⟩

/-! ## Whole runs -/

/-- The new ids of the nodes that are created by the first call and by those after it. -/
theorem renumber_createdBy_cons
    (hcreated : operation.created? g = if operation.creates then some ⟨g.nextId⟩ else none)
    (hids : (g.createdBy (operation :: operations)).map ρ =
      NodeId.consecutive next (g.createdBy (operation :: operations)).length) :
    (operation.creates = true → ρ ⟨g.nextId⟩ = ⟨next⟩) ∧
      ((operation.apply g).createdBy operations).map ρ =
        NodeId.consecutive (next + operation.creates.toNat)
          ((operation.apply g).createdBy operations).length ∧
      next + operation.creates.toNat + ((operation.apply g).createdBy operations).length =
        next + (g.createdBy (operation :: operations)).length := by
  rw [createdBy, hcreated] at hids ⊢
  cases hcreates : operation.creates with
  | false =>
    rw [hcreates] at hids
    exact ⟨nofun, hids, rfl⟩
  | true =>
    rw [hcreates] at hids
    obtain ⟨hfirst, hrest⟩ := List.cons.inj hids
    exact ⟨fun _ => hfirst, hrest, Nat.add_right_comm _ _ _⟩

/-- A run without the rejected creations, in which every node that is created has the id that
corresponds to its old one. -/
theorem after_accepted (hids : (g.createdBy operations).map ρ =
      NodeId.consecutive next (g.createdBy operations).length) :
    let calls := (g.accepted operations).map fun call => call.1.renumber ρ
    ((g.renumber ρ next).outcomes calls).map (fun o => (o.result, o.journal)) =
        (g.accepted operations).map
          (fun call => (call.2.result.renumber ρ, call.2.journal.map (.renumber ρ))) ∧
      (g.renumber ρ next).after calls =
        (g.after operations).renumber ρ (next + (g.createdBy operations).length) := by
  induction operations generalizing g next with
  | nil => exact ⟨rfl, rfl⟩
  | cons operation operations ih =>
    intro calls
    have hafter : g.after (operation :: operations) = (operation.apply g).after operations := rfl
    rcases rejected_or_created g operation with
      ⟨hrejected, happly, -, hnone⟩ | ⟨hrejected, hcreated⟩
    · have hsame : (operation.apply g).renumber ρ next = g.renumber ρ next := by
        rw [happly]
        rfl
      have hlater : g.createdBy (operation :: operations) =
          (operation.apply g).createdBy operations := by
        rw [createdBy, hnone]
        rfl
      have haccepted : g.accepted (operation :: operations) =
          (operation.apply g).accepted operations :=
        kept_cons_of_false (by rw [hrejected]; rfl) operations
      rw [hlater] at hids
      have hrest := ih hids
      rw [hsame] at hrest
      dsimp only [calls]
      rw [hlater, haccepted, hafter]
      exact hrest
    · have haccepted : g.accepted (operation :: operations) =
          (operation, operation.respond g) :: (operation.apply g).accepted operations :=
        kept_cons_of_true (by rw [hrejected]; rfl) operations
      obtain ⟨hnext, hlater, hlength⟩ := renumber_createdBy_cons hcreated hids
      have hrespond := operation.respond_renumber ρ next g hnext
      have happly : (operation.renumber ρ).apply (g.renumber ρ next) =
          (operation.apply g).renumber ρ (next + operation.creates.toNat) := by
        rw [← Operation.graph_respond, hrespond, ← Operation.graph_respond]
        rfl
      obtain ⟨houtcomes, hgraph⟩ := ih hlater
      dsimp only [calls]
      rw [haccepted, hafter, ← hlength]
      constructor
      · rw [List.map_cons, outcomes, hrespond, happly, List.map_cons, List.map_cons, houtcomes]
        rfl
      · rw [List.map_cons, after, List.foldl_cons, ← after, happly, hgraph]

/-! ## Closing up -/

/-- Increasing ids can be made to follow one another, and the ids before them stay as they
are. -/
theorem exists_renumbering {ids : List NodeId} (hnew : ∀ id ∈ ids, next ≤ id.number)
    (hincreasing : ids.Pairwise fun a b => a.number < b.number) :
    ∃ ρ : Equiv.Perm NodeId, (∀ id, id.number < next → ρ id = id) ∧
      ids.map ρ = NodeId.consecutive next ids.length := by
  induction ids generalizing next with
  | nil => exact ⟨.refl _, fun _ _ => rfl, rfl⟩
  | cons id ids ih =>
    obtain ⟨hlater, hincreasing'⟩ := List.pairwise_cons.1 hincreasing
    have hfirst := hnew id List.mem_cons_self
    obtain ⟨ρ, hold, hmap⟩ :=
      ih (fun later h => Nat.lt_of_le_of_lt hfirst (hlater later h)) hincreasing'
    -- the first id changes places with the next one, and the others follow as they do alone
    refine ⟨(Equiv.swap id ⟨next⟩).trans ρ, ?_, ?_⟩
    · intro other hother
      have hid : other ≠ id := by
        rintro rfl
        exact absurd hfirst hother.not_ge
      have hnext : other ≠ ⟨next⟩ := by
        rintro rfl
        exact absurd hother (Nat.lt_irrefl next)
      rw [Equiv.trans_apply, Equiv.swap_apply_of_ne_of_ne hid hnext]
      exact hold other (Nat.lt_succ_of_lt hother)
    · have hplaced : (Equiv.swap id ⟨next⟩).trans ρ id = ⟨next⟩ := by
        rw [Equiv.trans_apply, Equiv.swap_apply_left]
        exact hold ⟨next⟩ (Nat.lt_succ_self next)
      have hothers : ids.map ((Equiv.swap id ⟨next⟩).trans ρ) = ids.map ρ := by
        apply List.map_congr_left
        intro later hmem
        have hlt := hlater later hmem
        have hid : later ≠ id := by
          rintro rfl
          exact absurd hlt (Nat.lt_irrefl _)
        have hnext : later ≠ ⟨next⟩ := by
          rintro rfl
          exact absurd hlt hfirst.not_gt
        rw [Equiv.trans_apply, Equiv.swap_apply_of_ne_of_ne hid hnext]
      rw [List.map_cons, hplaced, hothers, hmap]
      rfl

/-- As long as no node is created after a rejected creation, a run is the same without them,
except that it has used up fewer ids. -/
theorem after_accepted_of_consecutive (hids : g.createdBy operations =
      NodeId.consecutive g.nextId (g.createdBy operations).length) :
    let calls := (g.accepted operations).map Prod.fst
    (g.outcomes calls).map (fun o => (o.result, o.journal)) =
        (g.accepted operations).map (fun call => (call.2.result, call.2.journal)) ∧
      g.after calls =
        { g.after operations with nextId := g.nextId + (g.createdBy operations).length } := by
  have hrefl : (g.createdBy operations).map (Equiv.refl NodeId) =
      NodeId.consecutive g.nextId (g.createdBy operations).length :=
    (List.map_id _).trans hids
  have hrun := after_accepted hrefl
  simpa using hrun

/-- A rejected creation uses up a node id, and this is all that is left of it.  So as long as no
node is created after it, a run is the same without it.  In any case, a run without its rejected
creations differs only in the ids of the nodes that are created after one of them: these ids then
follow one another, and those that were handed out before the run stay as they are.  With the new
ids in place of the old ones in the calls, and in the graph at the beginning if it refers to
nodes that do not exist yet, every call has the same answer and the same journal, and the graph
at the end is the same. -/
theorem rejected_creations_only_use_up_ids (g : Graph) (operations : List Operation) :
    let accepted := g.accepted operations
    let created := g.createdBy operations
    let next := g.nextId + created.length
    (created = NodeId.consecutive g.nextId created.length →
      let calls := accepted.map Prod.fst
      (g.outcomes calls).map (fun o => (o.result, o.journal)) =
          accepted.map (fun call => (call.2.result, call.2.journal)) ∧
        g.after calls = { g.after operations with nextId := next }) ∧
    ∃ ρ : Equiv.Perm NodeId,
      (∀ id, id.number < g.nextId → ρ id = id) ∧
      created.map ρ = NodeId.consecutive g.nextId created.length ∧
      let start := g.renumber ρ g.nextId
      let calls := accepted.map fun call => call.1.renumber ρ
      (start.outcomes calls).map (fun o => (o.result, o.journal)) =
          accepted.map (fun call => (call.2.result.renumber ρ, call.2.journal.map (.renumber ρ))) ∧
        start.after calls = (g.after operations).renumber ρ next := by
  intro accepted created next
  obtain ⟨ρ, hold, hmap⟩ := exists_renumbering
    (fun _ h => nextId_le_of_mem_createdBy h) (g.pairwise_createdBy operations)
  exact ⟨after_accepted_of_consecutive, ρ, hold, hmap, after_accepted hmap⟩

/-- A branch without pins is rejected.  If it comes last, nothing else is different without
it. -/
theorem rejected_creations_only_use_up_ids_choosing :
    let create : Operation := .addNode { title := "A" }
    let choose : Operation := .addNode { title := "Choose", flow := .branch 0 0 1 }
    let run := [create, choose]
    (({} : Graph).accepted run).length = 1 ∧
      ({} : Graph).after ((({} : Graph).accepted run).map Prod.fst) =
        { ({} : Graph).after run with nextId := 1 } :=
  ⟨by decide, ((rejected_creations_only_use_up_ids {} _).1 (by decide)).2⟩

/-- But if it comes first, the next node gets the second id. -/
theorem rejected_creation_uses_up_id :
    let create : Operation := .addNode { title := "A" }
    let choose : Operation := .addNode { title := "Choose", flow := .branch 0 0 1 }
    choose.isRejected {} = true ∧ ({} : Graph).createdBy [choose, create] = [⟨1⟩] ∧
      ({} : Graph).createdBy [create] = [⟨0⟩] := by
  decide

end Graph

end FlowGraph
