import FlowGraph.Graph.Integrity
import FlowGraph.Proofs.PathSearch
import FlowGraph.Proofs.WellFormed
import Mathlib.Data.List.Induction
import Mathlib.Data.List.Nodup

/-!
# The audit reports what breaks the rules

The audit goes through connections in order and keeps those that may join the ones kept
before.  Whatever it has gone through, the kept connections are sound, and each reported
one breaks a rule against the connections kept before it, the rule and the place being
those that the report names.
-/

namespace FlowGraph

namespace Graph

variable {g : Graph} {kept passed : List Connection} {c : Connection} {v : Violation}

/-- How a connection breaks the rules when it joins connections that keep them: the first
rule that is broken, and where. -/
inductive Breaks (g : Graph) (kept : List Connection) (c : Connection) : Violation → Prop
  | noSource (hsource : g.hasNode c.source = false) :
      Breaks g kept c (.noNode c.id c.source)
  | noTarget (hsource : g.hasNode c.source = true) (htarget : g.hasNode c.target = false) :
      Breaks g kept c (.noNode c.id c.target)
  | noOutput (hsource : g.hasNode c.source = true) (htarget : g.hasNode c.target = true)
      (hpin : g.sourcePin? c.toLink = none) :
      Breaks g kept c (.noOutput c.id c.source c.sourcePin)
  | noInput {sourcePin : Pin} (hsource : g.sourcePin? c.toLink = some sourcePin)
      (htarget : g.hasNode c.target = true) (hpin : g.targetPin? c.toLink = none) :
      Breaks g kept c (.noInput c.id c.target c.targetPin)
  | classMismatch {sourcePin targetPin : Pin}
      (hsource : g.sourcePin? c.toLink = some sourcePin)
      (htarget : g.targetPin? c.toLink = some targetPin)
      (hclass : sourcePin.cls ≠ targetPin.cls) :
      Breaks g kept c (.classMismatch c.id)
  | occupied {other : Connection} (hfits : g.Fits c.toLink) (hother : other ∈ kept)
      (hmeets : other.toLink.Meets c.toLink) :
      Breaks g kept c (.occupied c.id c.target c.targetPin)
  | closesCycle (hfits : g.Fits c.toLink)
      (hfree : ∀ other ∈ kept, ¬ other.toLink.Meets c.toLink)
      (hback : Reach.Path (Connection.edges kept) c.target c.source) :
      Breaks g kept c (.closesCycle c.id)

namespace Breaks

theorem connection_eq (h : g.Breaks kept c v) : v.connection = c.id := by
  cases h <;> rfl

theorem not_accepts (h : g.Breaks kept c v) : ¬ g.Accepts kept c.toLink := by
  intro haccepts
  obtain ⟨sourcePin, hsource, targetPin, htarget, hclass⟩ := haccepts.fits
  cases h with
  | noSource hmissing =>
    rw [hasNode_of_sourcePin? hsource] at hmissing
    cases hmissing
  | noTarget _ hmissing =>
    rw [hasNode_of_targetPin? htarget] at hmissing
    cases hmissing
  | noOutput _ _ hmissing =>
    rw [hmissing] at hsource
    cases hsource
  | noInput _ _ hmissing =>
    rw [hmissing] at htarget
    cases htarget
  | classMismatch hsource' htarget' hclass' =>
    rw [Option.mem_def, hsource'] at hsource
    rw [Option.mem_def, htarget'] at htarget
    cases hsource
    cases htarget
    exact hclass' hclass
  | occupied _ hother hmeets => exact haccepts.free _ hother hmeets
  | closesCycle _ _ hback => exact haccepts.noWayBack hback

/-- The order of the kept connections does not matter. -/
theorem perm {kept' : List Connection} (h : g.Breaks kept c v) (hperm : kept.Perm kept') :
    g.Breaks kept' c v := by
  cases h with
  | noSource hsource => exact .noSource hsource
  | noTarget hsource htarget => exact .noTarget hsource htarget
  | noOutput hsource htarget hpin => exact .noOutput hsource htarget hpin
  | noInput hsource htarget hpin => exact .noInput hsource htarget hpin
  | classMismatch hsource htarget hclass => exact .classMismatch hsource htarget hclass
  | occupied hfits hother hmeets => exact .occupied hfits (hperm.mem_iff.1 hother) hmeets
  | closesCycle hfits hfree hback =>
    apply Breaks.closesCycle hfits
    · intro other hother
      exact hfree other (hperm.mem_iff.2 hother)
    · exact hback.mono (Connection.edges_subset hperm.subset)

end Breaks

/-! ## One connection -/

theorem any_enters_eq_true_iff :
    (kept.any fun a => a.enters c.target c.targetPin) = true ↔
      ∃ other ∈ kept, other.toLink.Meets c.toLink := by
  simp

/-- A connection of a node to itself needs no path back. -/
theorem loops_or_pathExists_iff :
    (decide (c.source = c.target) ||
        (Adjacency.ofConnections kept.reverse).pathExists c.target c.source) = true ↔
      Reach.Path (Connection.edges kept) c.target c.source := by
  have hreverse : Reach.Path (Connection.edges kept.reverse) c.target c.source ↔
      Reach.Path (Connection.edges kept) c.target c.source := by
    rw [Connection.edges, List.map_reverse]
    exact Reach.path_congr fun _ => List.mem_reverse
  rw [Bool.or_eq_true, decide_eq_true_iff, Adjacency.pathExists_ofConnections_iff, hreverse]
  constructor
  · rintro (hloop | hpath)
    · rw [hloop]
      exact Relation.ReflTransGen.refl
    · exact hpath
  · exact .inr

theorem violation?_of_missing_pin
    (h : g.sourcePin? c.toLink = none ∨ g.targetPin? c.toLink = none) :
    ∃ v, g.violation? kept c = some v ∧ g.Breaks kept c v := by
  cases hsource : g.node? c.source with
  | none =>
    refine ⟨.noNode c.id c.source, ?_, .noSource (by rw [hasNode, hsource]; rfl)⟩
    rw [violation?, hsource]
  | some source =>
    have hlive : g.hasNode c.source = true := by rw [hasNode, hsource]; rfl
    have houtput : g.sourcePin? c.toLink = source.output? c.sourcePin := by
      rw [sourcePin?, hsource, Option.bind_some]
    cases htarget : g.node? c.target with
    | none =>
      refine ⟨.noNode c.id c.target, ?_, .noTarget hlive (by rw [hasNode, htarget]; rfl)⟩
      rw [violation?, hsource, htarget]
    | some target =>
      have hlive' : g.hasNode c.target = true := by rw [hasNode, htarget]; rfl
      have hinput : g.targetPin? c.toLink = target.input? c.targetPin := by
        rw [targetPin?, htarget, Option.bind_some]
      rw [houtput, hinput] at h
      simp only [violation?, hsource, htarget]
      cases hsourcePin : source.output? c.sourcePin with
      | none => exact ⟨_, rfl, .noOutput hlive hlive' (houtput.trans hsourcePin)⟩
      | some sourcePin =>
        have htargetPin : target.input? c.targetPin = none := by simpa [hsourcePin] using h
        rw [htargetPin]
        exact ⟨_, rfl, .noInput (houtput.trans hsourcePin) hlive' (hinput.trans htargetPin)⟩

theorem violation?_of_pins {sourcePin targetPin : Pin}
    (hsource : g.sourcePin? c.toLink = some sourcePin)
    (htarget : g.targetPin? c.toLink = some targetPin) :
    g.violation? kept c =
      if sourcePin.cls ≠ targetPin.cls then some (.classMismatch c.id)
      else if kept.any fun a => a.enters c.target c.targetPin then
        some (.occupied c.id c.target c.targetPin)
      else if c.source = c.target
          || (Adjacency.ofConnections kept.reverse).pathExists c.target c.source then
        some (.closesCycle c.id)
      else none := by
  obtain ⟨source, hsource, hsourcePin⟩ := Option.bind_eq_some_iff.1 hsource
  obtain ⟨target, htarget, htargetPin⟩ := Option.bind_eq_some_iff.1 htarget
  simp only [violation?, hsource, htarget, hsourcePin, htargetPin]

/-- What the audit says of one connection: it may join the kept ones, or it breaks the
rule that is reported. -/
theorem violation?_spec (g : Graph) (kept : List Connection) (c : Connection) :
    (g.violation? kept c = none ∧ g.Accepts kept c.toLink) ∨
      ∃ v, g.violation? kept c = some v ∧ g.Breaks kept c v := by
  cases hsource : g.sourcePin? c.toLink with
  | none => exact .inr (violation?_of_missing_pin (.inl hsource))
  | some sourcePin =>
    cases htarget : g.targetPin? c.toLink with
    | none => exact .inr (violation?_of_missing_pin (.inr htarget))
    | some targetPin =>
      rw [violation?_of_pins hsource htarget]
      split
      next hclass => exact .inr ⟨_, rfl, .classMismatch hsource htarget hclass⟩
      next hclass =>
        have hfits : g.Fits c.toLink :=
          ⟨sourcePin, hsource, targetPin, htarget, not_not.1 hclass⟩
        split
        next hany =>
          obtain ⟨other, hother, hmeets⟩ := any_enters_eq_true_iff.1 hany
          exact .inr ⟨_, rfl, .occupied hfits hother hmeets⟩
        next hany =>
          have hfree : ∀ other ∈ kept, ¬ other.toLink.Meets c.toLink := by
            intro other hother hmeets
            exact hany (any_enters_eq_true_iff.2 ⟨other, hother, hmeets⟩)
          split
          next hback =>
            exact .inr ⟨_, rfl, .closesCycle hfits hfree (loops_or_pathExists_iff.1 hback)⟩
          next hback =>
            exact .inl ⟨rfl, hfits, hfree, fun hpath => hback (loops_or_pathExists_iff.2 hpath)⟩

/-! ## A run over connections -/

/-- The connections that the audit accepts, in order. -/
def keptAmong (g : Graph) : List Connection → List Connection → List Connection
  | _, [] => []
  | accepted, c :: rest =>
    match g.violation? accepted c with
    | some _ => keptAmong g accepted rest
    | none => c :: keptAmong g (c :: accepted) rest

theorem keptAmong_append (g : Graph) (accepted passed rest : List Connection) :
    g.keptAmong accepted (passed ++ rest) = g.keptAmong accepted passed ++
      g.keptAmong ((g.keptAmong accepted passed).reverse ++ accepted) rest := by
  induction passed generalizing accepted with
  | nil => rfl
  | cons c passed ih =>
    cases hviolation : g.violation? accepted c with
    | some v =>
      simp only [List.cons_append, keptAmong, hviolation]
      exact ih accepted
    | none =>
      simp only [List.cons_append, keptAmong, hviolation]
      rw [ih, List.reverse_cons, List.append_assoc, List.singleton_append]

/-- The audit of given connections looks at the nodes only. -/
theorem violationsAmong_congr {g' : Graph} (hnodes : ∀ id, g'.node? id = g.node? id)
    (accepted rest : List Connection) :
    g'.violationsAmong accepted rest = g.violationsAmong accepted rest := by
  induction rest generalizing accepted with
  | nil => rfl
  | cons c rest ih =>
    have hsame : g'.violation? accepted c = g.violation? accepted c := by
      simp only [violation?, hnodes]
    simp only [violationsAmong, hsame, ih]

theorem violationsAmong_append (g : Graph) (accepted passed rest : List Connection) :
    g.violationsAmong accepted (passed ++ rest) = g.violationsAmong accepted passed ++
      g.violationsAmong ((g.keptAmong accepted passed).reverse ++ accepted) rest := by
  induction passed generalizing accepted with
  | nil => rfl
  | cons c passed ih =>
    cases hviolation : g.violation? accepted c with
    | some v =>
      simp only [List.cons_append, keptAmong, violationsAmong, hviolation]
      rw [ih]
    | none =>
      simp only [List.cons_append, keptAmong, violationsAmong, hviolation]
      rw [ih, List.reverse_cons, List.append_assoc, List.singleton_append]

/-- The connections that the audit keeps of a list. -/
def keptOf (g : Graph) (passed : List Connection) : List Connection := g.keptAmong [] passed

/-- The violations that the audit reports in a list. -/
def violationsOf (g : Graph) (passed : List Connection) : List Violation :=
  g.violationsAmong [] passed

/-- All that can happen to one more connection. -/
theorem audit_concat (g : Graph) (passed : List Connection) (c : Connection) :
    (g.Accepts (g.keptOf passed) c.toLink ∧
        g.keptOf (passed ++ [c]) = g.keptOf passed ++ [c] ∧
        g.violationsOf (passed ++ [c]) = g.violationsOf passed) ∨
      ∃ v, g.Breaks (g.keptOf passed) c v ∧
        g.keptOf (passed ++ [c]) = g.keptOf passed ∧
        g.violationsOf (passed ++ [c]) = g.violationsOf passed ++ [v] := by
  have hperm : (g.keptOf passed).reverse.Perm (g.keptOf passed) := List.reverse_perm _
  simp only [keptOf, violationsOf, keptAmong_append, violationsAmong_append, List.append_nil,
    keptAmong, violationsAmong] at hperm ⊢
  cases violation?_spec g (g.keptAmong [] passed).reverse c with
  | inl h =>
    obtain ⟨hnone, haccepts⟩ := h
    rw [hnone]
    exact .inl ⟨(accepts_congr hperm.subset hperm.symm.subset).1 haccepts, rfl, List.append_nil _⟩
  | inr h =>
    obtain ⟨v, hsome, hbreaks⟩ := h
    rw [hsome]
    exact .inr ⟨v, hbreaks.perm hperm, List.append_nil _, rfl⟩

/-- A connection that may join the kept ones is kept. -/
theorem audit_concat_of_accepts (haccepts : g.Accepts (g.keptOf passed) c.toLink) :
    g.keptOf (passed ++ [c]) = g.keptOf passed ++ [c] ∧
      g.violationsOf (passed ++ [c]) = g.violationsOf passed := by
  cases audit_concat g passed c with
  | inl h => exact h.2
  | inr h =>
    obtain ⟨v, hbreaks, -⟩ := h
    exact absurd haccepts hbreaks.not_accepts

theorem sound_keptOf (g : Graph) (passed : List Connection) : g.Sound (g.keptOf passed) := by
  induction passed using List.reverseRecOn with
  | nil => exact sound_nil
  | append_singleton passed c ih =>
    cases audit_concat g passed c with
    | inl h =>
      obtain ⟨haccepts, hkept, -⟩ := h
      rw [hkept]
      exact sound_concat_iff.2 ⟨ih, haccepts⟩
    | inr h =>
      obtain ⟨v, -, hkept, -⟩ := h
      rw [hkept]
      exact ih

theorem keptOf_sublist (g : Graph) (passed : List Connection) :
    (g.keptOf passed).Sublist passed := by
  induction passed using List.reverseRecOn with
  | nil => exact .slnil
  | append_singleton passed c ih =>
    cases audit_concat g passed c with
    | inl h =>
      obtain ⟨-, hkept, -⟩ := h
      rw [hkept]
      exact ih.append_right [c]
    | inr h =>
      obtain ⟨v, -, hkept, -⟩ := h
      rw [hkept]
      exact ih.trans (List.sublist_append_left passed [c])

/-- Violations are reported in the order of the connections, at most one for each. -/
theorem violationsAmong_sublist (g : Graph) (accepted rest : List Connection) :
    ((g.violationsAmong accepted rest).map Violation.connection).Sublist
      (rest.map Connection.id) := by
  induction rest generalizing accepted with
  | nil => exact .slnil
  | cons c rest ih =>
    rw [List.map_cons, violationsAmong]
    cases violation?_spec g accepted c with
    | inl h =>
      rw [h.1]
      exact (ih (c :: accepted)).cons c.id
    | inr h =>
      obtain ⟨v, hsome, hbreaks⟩ := h
      rw [hsome, List.map_cons, hbreaks.connection_eq]
      exact (ih accepted).cons_cons c.id

theorem keptOf_eq_self (h : g.violationsOf passed = []) : g.keptOf passed = passed := by
  induction passed using List.reverseRecOn with
  | nil => rfl
  | append_singleton passed c ih =>
    cases audit_concat g passed c with
    | inl hnext =>
      obtain ⟨-, hkept, hviolations⟩ := hnext
      rw [hkept, ih (hviolations.symm.trans h)]
    | inr hnext =>
      obtain ⟨v, -, -, hviolations⟩ := hnext
      rw [hviolations] at h
      exact absurd h (List.concat_ne_nil _ _)

/-- Nothing is reported exactly if all connections together are sound. -/
theorem violationsOf_eq_nil_iff : g.violationsOf passed = [] ↔ g.Sound passed := by
  constructor
  · intro h
    rw [← keptOf_eq_self h]
    exact sound_keptOf g passed
  · intro hsound
    induction passed using List.reverseRecOn with
    | nil => rfl
    | append_singleton passed c ih =>
      obtain ⟨hpassed, haccepts⟩ := sound_concat_iff.1 hsound
      have hnone := ih hpassed
      rw [← keptOf_eq_self hnone] at haccepts
      rw [(audit_concat_of_accepts haccepts).2, hnone]

/-- Every violation belongs to a connection that breaks the rules in just this way against
the connections kept before it. -/
theorem exists_breaks_of_mem (hv : v ∈ g.violationsOf passed) :
    ∃ before c after, passed = before ++ c :: after ∧ g.Breaks (g.keptOf before) c v := by
  induction passed using List.reverseRecOn with
  | nil => cases hv
  | append_singleton passed c ih =>
    have hearlier : v ∈ g.violationsOf passed → ∃ before d after,
        passed ++ [c] = before ++ d :: after ∧ g.Breaks (g.keptOf before) d v := by
      intro hv
      obtain ⟨before, d, after, rfl, hbreaks⟩ := ih hv
      exact ⟨before, d, after ++ [c], by simp, hbreaks⟩
    cases audit_concat g passed c with
    | inl h =>
      obtain ⟨-, -, hviolations⟩ := h
      rw [hviolations] at hv
      exact hearlier hv
    | inr h =>
      obtain ⟨w, hbreaks, -, hviolations⟩ := h
      rw [hviolations, List.mem_append, List.mem_singleton] at hv
      cases hv with
      | inl hv => exact hearlier hv
      | inr hv => exact ⟨passed, c, [], rfl, hv ▸ hbreaks⟩

/-- What is kept is what is not reported. -/
theorem keptOf_eq_filter (hdistinct : (passed.map Connection.id).Nodup) :
    g.keptOf passed =
      passed.filter fun c => c.id ∉ (g.violationsOf passed).map Violation.connection := by
  induction passed using List.reverseRecOn with
  | nil => rfl
  | append_singleton passed c ih =>
    rw [List.map_append] at hdistinct
    obtain ⟨hpassed, -, hnew⟩ := List.nodup_append.1 hdistinct
    have hne : ∀ d ∈ passed, d.id ≠ c.id :=
      fun d hd => hnew d.id (List.mem_map_of_mem hd) c.id (List.mem_singleton_self _)
    have hunreported : c.id ∉ (g.violationsOf passed).map Violation.connection := by
      intro hmem
      obtain ⟨d, hd, heq⟩ := List.mem_map.1 ((violationsAmong_sublist g [] passed).subset hmem)
      exact hne d hd heq
    cases audit_concat g passed c with
    | inl h =>
      obtain ⟨-, hkept, hviolations⟩ := h
      rw [hkept, hviolations, List.filter_append, ← ih hpassed, List.filter_singleton,
        decide_eq_true hunreported]
      rfl
    | inr h =>
      obtain ⟨v, hbreaks, hkept, hviolations⟩ := h
      have hreported : ¬ c.id ∉ (g.violationsOf passed ++ [v]).map Violation.connection := by
        rw [List.map_append, List.mem_append, List.map_singleton, hbreaks.connection_eq]
        simp
      rw [hkept, hviolations, List.filter_append, List.filter_singleton,
        decide_eq_false hreported, ih hpassed, cond_false, List.append_nil]
      apply List.filter_congr
      intro d hd
      rw [List.map_append, List.map_singleton, hbreaks.connection_eq]
      simp [hne d hd]

end Graph

end FlowGraph
