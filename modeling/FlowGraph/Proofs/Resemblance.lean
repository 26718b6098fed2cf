import FlowGraph.Proofs.Changes
import FlowGraph.Proofs.LazyPull
import FlowGraph.Proofs.Wiring

/-!
# Values that can be had again

A pure node without a state of its own computes what it offers from its inputs.  Nothing is
lost if such a value is forgotten, nor if an input that is connected to it, or to any output
that holds a value, is: a refresh brings them back.  Graphs that differ in nothing else
resemble each other.  Refreshing a graph leads to one that resembles it, and if the inputs of
one node are refreshed in two graphs that resemble each other, the node then holds the same
inputs in both.
-/

namespace FlowGraph

namespace Graph

/-- Whatever a node remembers, an invocation leaves in an output a value that is computed
from the inputs alone. -/
def Renews (g : Graph) (id : NodeId) (pin : Nat) : Prop :=
  ∃ value : Store Nat → Value, ∀ m, (g.react id m).outputs.get? pin = some (value m.inputs)

/-- A node without a state of its own: an invocation renews some of the outputs and changes
nothing else. -/
structure Stateless (g : Graph) (id : NodeId) : Prop where
  inputs_eq : ∀ m, (g.react id m).inputs = m.inputs
  locals_eq : ∀ m, (g.react id m).locals = m.locals
  outputs_eq : ∀ pin, g.Renews id pin ∨
    ∀ m, (g.react id m).outputs.get? pin = m.outputs.get? pin

def PureStateless (g : Graph) : Prop := ∀ id, g.isPure id = true → g.Stateless id

/-- No behavior takes a value out of an output.  What the host hands to a behavior can set
outputs but not empty them. -/
def KeepsOutputs (g : Graph) : Prop :=
  ∀ id m pin, (m.outputs.get? pin).isSome = true →
    ((g.react id m).outputs.get? pin).isSome = true

/-- An output that is renewed whenever its value is asked for. -/
def Renewable (g : Graph) (id : NodeId) (pin : Nat) : Prop :=
  g.isPure id = true ∧ g.Renews id pin

/-- An input slot into which a refresh of the inputs of the node brings a value. -/
def Provided (g : Graph) (id : NodeId) (pin : Nat) : Prop :=
  ∃ c ∈ g.dataInputs id, c.targetPin = pin ∧
    (g.Renewable c.source c.sourcePin ∨ (g.outputValue? c.source c.sourcePin).isSome = true)

/-- The graphs differ only in values that can be had again. -/
structure Resembles (g g' : Graph) : Prop where
  wiring : g.SameWiring g'
  locals : ∀ id, (g.memory? id).map Memory.locals = (g'.memory? id).map Memory.locals
  outputs : ∀ id pin, ¬ g.Renewable id pin → g.outputValue? id pin = g'.outputValue? id pin
  inputs : ∀ id pin, ¬ g.Provided id pin → g.inputValue? id pin = g'.inputValue? id pin

variable {g g' g'' : Graph} {id target : NodeId} {pin : Nat} {c : Connection}

/-! ## What the wiring decides -/

theorem Renewable.of_wiring (hw : g.SameWiring g') (h : g.Renewable id pin) :
    g'.Renewable id pin := by
  obtain ⟨hpure, value, hvalue⟩ := h
  refine ⟨(hw.isPure_eq id).symm.trans hpure, value, ?_⟩
  intro m
  rw [← hw.react_eq]
  exact hvalue m

theorem PureStateless.of_wiring (hw : g.SameWiring g') (h : g.PureStateless) :
    g'.PureStateless := by
  intro id hpure
  rw [← hw.isPure_eq] at hpure
  have hreact : g.react id = g'.react id := funext (hw.react_eq id)
  obtain ⟨hinputs, hlocals, houtputs⟩ := h id hpure
  constructor
  all_goals simp only [Renews, ← hreact]
  exacts [hinputs, hlocals, houtputs]

theorem KeepsOutputs.of_wiring (hw : g.SameWiring g') (h : g.KeepsOutputs) : g'.KeepsOutputs := by
  intro id m pin hsome
  rw [← hw.react_eq]
  exact h id m pin hsome

/-- If outputs are filled and not emptied, no less is provided. -/
theorem Provided.mono (hw : g.SameWiring g')
    (houtputs : ∀ id pin, ¬ g.Renewable id pin → (g.outputValue? id pin).isSome = true →
      (g'.outputValue? id pin).isSome = true) (h : g.Provided id pin) : g'.Provided id pin := by
  obtain ⟨c, hc, hpin, hvalue⟩ := h
  refine ⟨c, (hw.dataInputs_eq id) ▸ hc, hpin, ?_⟩
  by_cases hrenewable : g.Renewable c.source c.sourcePin
  · exact .inl (hrenewable.of_wiring hw)
  · exact .inr (houtputs _ _ hrenewable (hvalue.resolve_left hrenewable))

/-! ## Resemblance is an equivalence -/

namespace Resembles

theorem of_memory (hw : g.SameWiring g') (h : ∀ id, g.memory? id = g'.memory? id) :
    g.Resembles g' where
  wiring := hw
  locals id := by rw [h id]
  outputs id pin _ := by rw [outputValue?, h id, outputValue?]
  inputs id pin _ := by rw [inputValue?, h id, inputValue?]

theorem refl (g : Graph) : g.Resembles g := of_memory (.refl g) fun _ => rfl

theorem provided (h : g.Resembles g') (hprovided : g.Provided id pin) : g'.Provided id pin := by
  apply hprovided.mono h.wiring
  intro id pin hrenewable hsome
  rw [← h.outputs id pin hrenewable]
  exact hsome

theorem symm (h : g.Resembles g') : g'.Resembles g := by
  have houtputs : ∀ id pin, ¬ g'.Renewable id pin →
      g'.outputValue? id pin = g.outputValue? id pin := by
    intro id pin hrenewable
    exact (h.outputs id pin fun hback => hrenewable (hback.of_wiring h.wiring)).symm
  refine ⟨h.wiring.symm, fun id => (h.locals id).symm, houtputs, ?_⟩
  intro id pin hprovided
  exact (h.inputs id pin fun hback => hprovided (h.provided hback)).symm

theorem trans (h : g.Resembles g') (h' : g'.Resembles g'') : g.Resembles g'' where
  wiring := h.wiring.trans h'.wiring
  locals id := (h.locals id).trans (h'.locals id)
  outputs id pin hrenewable :=
    (h.outputs id pin hrenewable).trans
      (h'.outputs id pin fun hback => hrenewable (hback.of_wiring h.wiring.symm))
  inputs id pin hprovided :=
    (h.inputs id pin hprovided).trans
      (h'.inputs id pin fun hback => hprovided (h.symm.provided hback))

end Resembles

/-! ## Refreshing -/

/-- In a refresh, pure nodes are invoked and nothing else is done at nodes. -/
def Refreshes (g : Graph) (deed : Deed) : Prop := ∃ id, deed = .invoke id ∧ g.isPure id = true

theorem Resembles.of_invoke {r : Run} (hstateless : r.graph.PureStateless)
    (hpure : r.graph.isPure id = true) : r.graph.Resembles (r.invoke id).graph := by
  obtain ⟨hinputs, hlocals, houtputs⟩ := hstateless id hpure
  refine ⟨.of_skeleton (Run.skeleton_invoke r id).symm, ?_, ?_, ?_⟩
  · intro other
    rw [Run.memory?_invoke]
    split
    · simp only [Option.map_map, Function.comp_def, hlocals]
    · rfl
  · intro other pin hrenewable
    rw [outputValue?, outputValue?, Run.memory?_invoke]
    split
    next hother =>
      have hnever : ¬ r.graph.Renews id pin := fun hrenews => hrenewable (hother ▸ ⟨hpure, hrenews⟩)
      simp only [Option.bind_map, Function.comp_def, (houtputs pin).resolve_left hnever]
    next => rfl
  · intro other pin _
    rw [inputValue?, inputValue?, Run.memory?_invoke]
    split
    · simp only [Option.bind_map, Function.comp_def, hinputs]
    · rfl

/-- Into a slot that is not provided, no data connection brings a value. -/
theorem delivery?_eq_none (hc : c ∈ g.dataInputs id) (hfree : ¬ g.Provided id c.targetPin) :
    g.delivery? c.toLink = none := by
  rw [delivery?]
  split
  · by_contra hsome
    exact hfree ⟨c, hc, rfl, .inr (Option.isSome_iff_ne_none.2 hsome)⟩
  · rfl

theorem Resembles.of_copy {r : Run} (hc : c ∈ r.graph.dataInputs c.target) :
    r.graph.Resembles (r.copy c).graph := by
  refine ⟨.of_skeleton (Run.skeleton_copy r c).symm, ?_, ?_, ?_⟩
  · intro id
    rw [Run.memory?_copy]
    split
    · simp only [Option.map_map, Function.comp_def, Memory.locals_receive]
    · rfl
  · exact fun id pin _ => outputValue?_congr (Run.outputs_copy r c id).symm pin
  · intro id pin hfree
    rw [inputValue?, inputValue?, Run.memory?_copy]
    split
    next hid =>
      subst hid
      rw [Option.bind_map]
      congr 1
      funext m
      rw [Function.comp_apply, Memory.get?_receive]
      split
      next hpin =>
        subst hpin
        rw [delivery?_eq_none hc hfree]
        rfl
      next => rfl
    next => rfl

theorem Change.resembles (hstateless : g.PureStateless) (h : Change g.Refreshes g g') :
    g.Resembles g' := by
  cases h with
  | invoke r hmay =>
    obtain ⟨_, hdeed, hpure⟩ := hmay
    cases hdeed
    exact .of_invoke hstateless hpure
  | copy r hstored hdata => exact .of_copy (mem_dataInputs_iff.2 ⟨hstored, rfl, hdata⟩)
  | put g index value hmay =>
    obtain ⟨_, hdeed, -⟩ := hmay
    cases hdeed
  | mark g active hmay =>
    obtain ⟨_, hdeed, -⟩ := hmay
    cases hdeed
  | know => exact .of_memory (.of_skeleton rfl) fun _ => rfl

/-- Refreshing leads to a graph that resembles the one before. -/
theorem Changes.resembles (hstateless : g.PureStateless) (h : Changes g.Refreshes g g') :
    g.Resembles g' := by
  apply h.invariant (P := fun g' => g.Resembles g') _ (.refl g)
  intro g₁ g₂ hskeleton hchange hsofar
  have hrefreshes : g₁.Refreshes = g.Refreshes := by
    funext deed
    simp only [Refreshes, isPure_of_skeleton hskeleton]
  rw [← hrefreshes] at hchange
  exact hsofar.trans (hchange.resembles (hstateless.of_wiring hsofar.wiring))

/-! ## What a node finds when its inputs have been refreshed -/

theorem Contributes.of_wiring (hw : g.SameWiring g') (h : g.Contributes id target) :
    g'.Contributes id target := by
  refine Relation.TransGen.mono ?_ id target h
  intro a b hab
  rw [← hw.isPure_eq, ← hw.feeds_iff]
  exact hab

/-- A renewed output holds what is computed from the inputs that the node is left with. -/
theorem WellFormed.outputValue?_refreshInputs (hwf : g.WellFormed) (hstateless : g.PureStateless)
    (hid : g.Contributes id target) {value : Store Nat → Value}
    (hvalue : ∀ m, (g.react id m).outputs.get? pin = some (value m.inputs)) :
    (g.refreshInputs target).graph.outputValue? id pin =
      (((g.refreshInputs target).graph.memory? id).map Memory.inputs).map value := by
  have hinvoked : (g.pullPlan target).invokes id = true := by
    simp [pullPlan, hwf.ne_of_contributes hid, hid.isPure]
  rw [outputValue?, hwf.memory?_refreshInputs hid.mem_dependencies (.inr hid.isPure)]
  cases g.memory? id with
  | none => rfl
  | some m =>
    have hkept := (hstateless id hid.isPure).inputs_eq
    simp only [Option.map_some, Option.bind_some, Plan.next, if_pos hinvoked,
      ← (sameWiring_refreshInputs g target).react_eq, hvalue, hkept]

namespace Resembles

theorem refreshInputs (h : g.Resembles g') (hstateless : g.PureStateless) (target : NodeId) :
    (g.refreshInputs target).graph.Resembles (g'.refreshInputs target).graph := by
  have hrefreshed : ∀ {g : Graph}, g.PureStateless →
      g.Resembles (g.refreshInputs target).graph := by
    intro g hstateless
    apply Changes.resembles hstateless
    exact Run.changes_refreshInputs { graph := g } fun id _ _ hpure => ⟨id, rfl, hpure⟩
  exact (hrefreshed hstateless).symm.trans (h.trans (hrefreshed (hstateless.of_wiring h.wiring)))

/-- What is provided comes from an output that is the same in both graphs: it is not renewed,
or it has been renewed from the same inputs. -/
theorem exists_sourceValue?_refreshInputs (h : g.Resembles g') (hwf : g.WellFormed)
    (hstateless : g.PureStateless)
    (hchain : g.isPure c.source = true → g.Contributes c.source target)
    (hinputs : g.isPure c.source = true →
      ((g.refreshInputs target).graph.memory? c.source).map Memory.inputs =
        ((g'.refreshInputs target).graph.memory? c.source).map Memory.inputs)
    (hprovides : g.Renewable c.source c.sourcePin ∨
      ((g.refreshInputs target).graph.outputValue? c.source c.sourcePin).isSome = true) :
    ∃ value, (g.refreshInputs target).graph.sourceValue? c.toLink = some value ∧
      (g'.refreshInputs target).graph.sourceValue? c.toLink = some value := by
  have hleft := sameWiring_refreshInputs g target
  by_cases hrenewable : g.Renewable c.source c.sourcePin
  · obtain ⟨hpure, value, hcomputes⟩ := hrenewable
    have hcomputes' : ∀ m, (g'.react c.source m).outputs.get? c.sourcePin =
        some (value m.inputs) := by
      intro m
      rw [← h.wiring.react_eq]
      exact hcomputes m
    have hlive : ((g.refreshInputs target).graph.memory? c.source).isSome = true := by
      rw [isSome_memory?, ← hleft.hasNode_eq]
      exact hasNode_of_isPure hpure
    obtain ⟨m, hm⟩ := Option.isSome_iff_exists.1 hlive
    have hleaves := hwf.outputValue?_refreshInputs hstateless (hchain hpure) hcomputes
    have hleaves' := (h.wiring.wellFormed hwf).outputValue?_refreshInputs
      (hstateless.of_wiring h.wiring) ((hchain hpure).of_wiring h.wiring) hcomputes'
    rw [← hinputs hpure, hm] at hleaves'
    rw [hm] at hleaves
    exact ⟨value m.inputs, hleaves, hleaves'⟩
  · obtain ⟨value, hfound⟩ := Option.isSome_iff_exists.1 (hprovides.resolve_left hrenewable)
    have hsame := (h.refreshInputs hstateless target).outputs c.source c.sourcePin
      fun hback => hrenewable (hback.of_wiring hleft.symm)
    exact ⟨value, hfound, hsame.symm.trans hfound⟩

/-- The node and what contributes to it hold the same inputs in both graphs, by induction
along the data connections. -/
theorem inputValue?_refreshInputs (h : g.Resembles g') (hwf : g.WellFormed)
    (hstateless : g.PureStateless) (hid : id = target ∨ g.Contributes id target) (pin : Nat) :
    (g.refreshInputs target).graph.inputValue? id pin =
      (g'.refreshInputs target).graph.inputValue? id pin := by
  have hrefreshed := h.refreshInputs hstateless target
  have hleft := sameWiring_refreshInputs g target
  induction id using hwf.feeds_wellFounded.induction generalizing pin with
  | _ id ih =>
    by_cases hprovided : (g.refreshInputs target).graph.Provided id pin
    · obtain ⟨c, hc, rfl, hprovides⟩ := hprovided
      rw [← hleft.dataInputs_eq] at hc
      have hfeeds : g.Feeds c.source id := feeds_iff.2 ⟨c, hc, rfl⟩
      have hchain : g.isPure c.source = true → g.Contributes c.source target := by
        intro hpure
        rcases hid with rfl | hid
        · exact .single ⟨hpure, hfeeds⟩
        · exact .head ⟨hpure, hfeeds⟩ hid
      obtain ⟨value, hfound, hfound'⟩ := h.exists_sourceValue?_refreshInputs hwf hstateless hchain
        (fun hpure => map_memory?_ext (hrefreshed.wiring.hasNode_eq c.source) Memory.inputs
          (ih c.source hfeeds (.inr (hchain hpure))))
        (hprovides.imp_left fun hrenewable => hrenewable.of_wiring hleft.symm)
      obtain ⟨hmem, hpast⟩ := walked_of_contributes hid
      have hkeeps : id ≠ target → ∀ m, (g.react id m).inputs = m.inputs :=
        fun hne => (hstateless id (hpast.resolve_left hne)).inputs_eq
      have hheld := hwf.targetValue?_refreshInputs hc hmem hpast hkeeps hfound
      rw [h.wiring.dataInputs_eq] at hc
      rw [h.wiring.dependencies_eq] at hmem
      rw [h.wiring.isPure_eq] at hpast
      simp only [h.wiring.react_eq] at hkeeps
      have hheld' := (h.wiring.wellFormed hwf).targetValue?_refreshInputs hc hmem hpast hkeeps
        hfound'
      obtain ⟨-, rfl, -⟩ := mem_dataInputs_iff.1 hc
      exact hheld.trans hheld'.symm
    · exact hrefreshed.inputs id pin hprovided

/-! ## The same done in both graphs -/

/-- Something has been done at one node of each graph, and what cannot be had again is the
same there. -/
theorem of_changed (h : g.Resembles g') (id : NodeId) {g₁ g₁' : Graph} (hw : g.SameWiring g₁)
    (hw' : g'.SameWiring g₁') (hothers : ∀ other, other ≠ id → g₁.memory? other = g.memory? other)
    (hothers' : ∀ other, other ≠ id → g₁'.memory? other = g'.memory? other)
    (hkept : ∀ pin, (g.outputValue? id pin).isSome = true →
      (g₁.outputValue? id pin).isSome = true)
    (hlocals : (g₁.memory? id).map Memory.locals = (g₁'.memory? id).map Memory.locals)
    (houtputs : ∀ pin, ¬ g.Renewable id pin → g₁.outputValue? id pin = g₁'.outputValue? id pin)
    (hinputs : ∀ pin, ¬ g.Provided id pin → g₁.inputValue? id pin = g₁'.inputValue? id pin) :
    g₁.Resembles g₁' := by
  have hprovided : ∀ {id pin}, ¬ g₁.Provided id pin → ¬ g.Provided id pin := by
    intro other pin hfree hback
    apply hfree
    apply hback.mono hw
    intro source pin _ hsome
    by_cases hsource : source = id
    · subst hsource
      exact hkept pin hsome
    · rw [outputValue?, hothers source hsource]
      exact hsome
  refine ⟨hw.symm.trans (h.wiring.trans hw'), ?_, ?_, ?_⟩
  · intro other
    by_cases hother : other = id
    · rw [hother]
      exact hlocals
    · rw [hothers other hother, hothers' other hother]
      exact h.locals other
  · intro other pin hrenewable
    have hbefore : ¬ g.Renewable other pin := fun hback => hrenewable (hback.of_wiring hw)
    by_cases hother : other = id
    · subst hother
      exact houtputs pin hbefore
    · rw [outputValue?, hothers other hother, outputValue?, hothers' other hother]
      exact h.outputs other pin hbefore
  · intro other pin hfree
    by_cases hother : other = id
    · subst hother
      exact hinputs pin (hprovided hfree)
    · rw [inputValue?, hothers other hother, inputValue?, hothers' other hother]
      exact h.inputs other pin (hprovided hfree)

theorem setOutput (h : g.Resembles g') (id : NodeId) (index : Nat) (value : Value) :
    (g.setOutput id index value).Resembles (g'.setOutput id index value) := by
  have hlive : (g.memory? id).map (fun _ => value) = (g'.memory? id).map fun _ => value := by
    have hsame := h.wiring.hasNode_eq id
    rw [← isSome_memory?, ← isSome_memory?] at hsame
    revert hsame
    cases g.memory? id <;> cases g'.memory? id <;> simp
  apply h.of_changed id (.of_skeleton (skeleton_setOutput g id index value).symm)
    (.of_skeleton (skeleton_setOutput g' id index value).symm)
  · intro other hother
    rw [memory?_setOutput, if_neg hother]
  · intro other hother
    rw [memory?_setOutput, if_neg hother]
  · intro pin hsome
    rw [outputValue?_setOutput]
    split
    · cases hm : g.memory? id with
      | none =>
        rw [outputValue?, hm] at hsome
        cases hsome
      | some m => rfl
    · exact hsome
  · rw [memory?_setOutput, memory?_setOutput, if_pos rfl, if_pos rfl, Option.map_map,
      Option.map_map]
    exact h.locals id
  · intro pin hrenewable
    rw [outputValue?_setOutput, outputValue?_setOutput, hlive, h.outputs id pin hrenewable]
  · intro pin hfree
    rw [inputValue?, memory?_setOutput, if_pos rfl, Option.bind_map, inputValue?,
      memory?_setOutput, if_pos rfl, Option.bind_map]
    exact h.inputs id pin hfree

theorem setActive (h : g.Resembles g') (id : NodeId) (active : Bool) :
    (g.setActive id active).Resembles (g'.setActive id active) := by
  have hmarked : ∀ g : Graph, g.Resembles (g.setActive id active) := by
    intro g
    apply of_memory (.of_skeleton (skeleton_setActive g id active).symm)
    exact fun other => (memory?_setActive g id other active).symm
  exact (hmarked g).symm.trans (h.trans (hmarked g'))

/-- A node that is not pure offers the same in both graphs. -/
theorem outputs_eq (h : g.Resembles g') (himpure : g.isPure id = false) :
    (g.memory? id).map Memory.outputs = (g'.memory? id).map Memory.outputs := by
  apply map_memory?_ext (h.wiring.hasNode_eq id)
  intro pin
  apply h.outputs id pin
  rintro ⟨hpure, -⟩
  rw [himpure] at hpure
  cases hpure

/-- All that it remembers is the same if its inputs are. -/
theorem memory?_eq (h : g.Resembles g') (himpure : g.isPure id = false)
    (hinputs : (g.memory? id).map Memory.inputs = (g'.memory? id).map Memory.inputs) :
    g.memory? id = g'.memory? id :=
  memory?_ext hinputs (h.outputs_eq himpure) (h.locals id)

/-- A node is invoked in both graphs while it holds the same inputs. -/
theorem invoke {r r' : Run} (h : r.graph.Resembles r'.graph) (hstateless : r.graph.PureStateless)
    (hkeeps : r.graph.KeepsOutputs)
    (hinputs : (r.graph.memory? id).map Memory.inputs = (r'.graph.memory? id).map Memory.inputs) :
    (r.invoke id).graph.Resembles (r'.invoke id).graph ∧
      ((r.invoke id).graph.memory? id).map Memory.inputs =
        ((r'.invoke id).graph.memory? id).map Memory.inputs := by
  have hstateless' := hstateless.of_wiring h.wiring
  cases hpure : r.graph.isPure id with
  | true =>
    have hpure' : r'.graph.isPure id = true := (h.wiring.isPure_eq id).symm.trans hpure
    constructor
    · exact (of_invoke hstateless hpure).symm.trans (h.trans (of_invoke hstateless' hpure'))
    · rw [Run.memory?_invoke, Run.memory?_invoke, if_pos rfl, if_pos rfl, Option.map_map,
        Option.map_map, Function.comp_def, Function.comp_def]
      simp only [(hstateless id hpure).inputs_eq, (hstateless' id hpure').inputs_eq]
      exact hinputs
  | false =>
    have hmemory := h.memory?_eq hpure hinputs
    have hafter : (r.invoke id).graph.memory? id = (r'.invoke id).graph.memory? id := by
      rw [Run.memory?_invoke, Run.memory?_invoke, if_pos rfl, if_pos rfl, hmemory,
        funext (h.wiring.react_eq id)]
    refine ⟨?_, by rw [hafter]⟩
    apply h.of_changed id (.of_skeleton (Run.skeleton_invoke r id).symm)
      (.of_skeleton (Run.skeleton_invoke r' id).symm)
    · intro other hother
      rw [Run.memory?_invoke, if_neg hother]
    · intro other hother
      rw [Run.memory?_invoke, if_neg hother]
    · intro pin hsome
      rw [outputValue?, Run.memory?_invoke, if_pos rfl]
      rw [outputValue?] at hsome
      cases hm : r.graph.memory? id with
      | none =>
        rw [hm] at hsome
        cases hsome
      | some m =>
        rw [hm] at hsome
        exact hkeeps id m pin hsome
    · rw [hafter]
    · intro pin _
      rw [outputValue?, hafter, outputValue?]
    · intro pin _
      rw [inputValue?, hafter, inputValue?]

end Resembles

end Graph

end FlowGraph
