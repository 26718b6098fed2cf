import FlowGraph.Node.Basic
import FlowGraph.Store.Lemmas

/-!
# The values that a node begins with

The values of one side of a declaration stand under the indices of their pins, in increasing
order, so that each data pin reads the value declared for it and no other index reads any.
-/

namespace FlowGraph

namespace Node

/-- A declaration puts a value under an index exactly if the pin there is a data pin with this
value. -/
theorem get?_initialValues {specs : List PinSpec} {index : Nat} {value : Value} :
    (initialValues specs).get? index = some value ↔
      ∃ declared, specs[index]? = some declared ∧
        declared.cls = .data ∧ declared.value = some value := by
  rw [initialValues, Store.get?_eq_some_iff, Store.entries_ofList]
  · simp only [List.mem_filterMap, List.mem_mapIdx]
    constructor
    · rintro ⟨_, ⟨place, hplace, rfl⟩, hentry⟩
      dsimp only at hentry
      split at hentry
      next first hcls hvalue =>
        cases hentry
        exact ⟨specs[index], List.getElem?_eq_getElem hplace, hcls, hvalue⟩
      next => cases hentry
    · rintro ⟨declared, hdeclared, hcls, hvalue⟩
      obtain ⟨hplace, rfl⟩ := List.getElem?_eq_some_iff.1 hdeclared
      refine ⟨_, ⟨index, hplace, rfl⟩, ?_⟩
      simp only [hcls, hvalue]
  · rw [List.pairwise_filterMap, List.pairwise_iff_getElem]
    intro i j hi hj hlt a ha b hb
    simp only [List.getElem_mapIdx] at ha hb
    split at ha <;> cases ha
    split at hb <;> cases hb
    exact Nat.compare_eq_lt.2 hlt

end Node

end FlowGraph
