import FlowGraph.Graph.Admission
import FlowGraph.Proofs.Operation
import FlowGraph.Proofs.PathSearch
import FlowGraph.Proofs.WellFormed

/-!
# The rules of admission, one by one

Each rule is a condition on the graph and the link that says nothing of what the other rules
ask for.  A link is let in exactly if it keeps all rules.  Otherwise it is refused for the
first rule that it breaks, and the refusal names the node, the pin or the classes at fault.
-/

namespace FlowGraph

/-- The rules for a new link. -/
inductive Rule where
  | liveSource
  | liveTarget
  | outputPin
  | inputPin
  | sameClass
  | noLoop
  | freeInput
  | noWayBack
  deriving DecidableEq, Repr

/-- The order in which the rules are checked. -/
def Rule.inOrder : List Rule :=
  [.liveSource, .liveTarget, .outputPin, .inputPin, .sameClass, .noLoop, .freeInput, .noWayBack]

theorem Rule.mem_inOrder (rule : Rule) : rule ∈ inOrder := by
  cases rule <;> decide

/-- Pins of opposite sides may be joined if they are of the same class. -/
theorem Node.joins_iff {source target : Node} {sourcePin targetPin : Pin} {i j : Nat}
    (hsource : source.output? i = some sourcePin) (htarget : target.input? j = some targetPin) :
    sourcePin.joins targetPin = true ↔ sourcePin.cls = targetPin.cls := by
  have houtput := source.output_side sourcePin (List.mem_of_getElem? hsource)
  have hinput := target.input_side targetPin (List.mem_of_getElem? htarget)
  rw [Pin.joins, houtput, hinput, PinClass.joins]
  exact beq_iff_eq

namespace Graph

/-- A link keeps a rule.  The rule about classes says nothing of pins that do not exist. -/
def Keeps (g : Graph) (l : Link) : Rule → Prop
  | .liveSource => g.hasNode l.source = true
  | .liveTarget => g.hasNode l.target = true
  | .outputPin => (g.sourcePin? l).isSome = true
  | .inputPin => (g.targetPin? l).isSome = true
  | .sameClass => ∀ a ∈ g.sourcePin? l, ∀ b ∈ g.targetPin? l, a.cls = b.cls
  | .noLoop => l.source ≠ l.target
  | .freeInput => ∀ c ∈ g.connections.rows, ¬ c.toLink.Meets l
  | .noWayBack => ¬ Reach.Path (Connection.edges g.connections.rows) l.target l.source

/-- The refusal that a broken rule gives rise to. -/
inductive Blames (g : Graph) (l : Link) : Rule → Refusal → Prop
  | liveSource : Blames g l .liveSource (.noNode l.source)
  | liveTarget : Blames g l .liveTarget (.noNode l.target)
  | outputPin : Blames g l .outputPin (.noOutput l.source l.sourcePin)
  | inputPin : Blames g l .inputPin (.noInput l.target l.targetPin)
  | sameClass {a b : Pin} (ha : a ∈ g.sourcePin? l) (hb : b ∈ g.targetPin? l) :
      Blames g l .sameClass (.classMismatch a.cls b.cls)
  | noLoop : Blames g l .noLoop .selfLoop
  | freeInput : Blames g l .freeInput (.occupied l.target l.targetPin)
  | noWayBack : Blames g l .noWayBack (.closesCycle l.source l.target)

variable {g : Graph} {l : Link} {rule : Rule} {refusal refusal' : Refusal}

theorem isConnected_eq_true_iff :
    g.isConnected l.target l.targetPin .input = true ↔
      ∃ c ∈ g.connections.rows, c.toLink.Meets l := by
  rw [isConnected, List.any_eq_true]
  simp only [Link.touches, Link.enters_iff]

theorem keeps_freeInput_iff :
    g.Keeps l .freeInput ↔ g.isConnected l.target l.targetPin .input = false := by
  rw [← Bool.not_eq_true, isConnected_eq_true_iff]
  simp [Keeps]

theorem keeps_noWayBack_iff :
    g.Keeps l .noWayBack ↔ g.closesCycle l.source l.target = false := by
  rw [← Bool.not_eq_true, closesCycle, Adjacency.pathExists_ofConnections_iff]
  rfl

instance (g : Graph) (l : Link) : (rule : Rule) → Decidable (g.Keeps l rule)
  | .liveSource => inferInstanceAs (Decidable (_ = true))
  | .liveTarget => inferInstanceAs (Decidable (_ = true))
  | .outputPin => inferInstanceAs (Decidable (_ = true))
  | .inputPin => inferInstanceAs (Decidable (_ = true))
  | .sameClass =>
    match ha : g.sourcePin? l, hb : g.targetPin? l with
    | some a, some b =>
      decidable_of_iff (a.cls = b.cls) (by simp [Keeps, ha, hb])
    | none, _ => .isTrue (by simp [Keeps, ha])
    | some _, none => .isTrue (by simp [Keeps, hb])
  | .noLoop => inferInstanceAs (Decidable (¬ _ = _))
  | .freeInput => decidable_of_iff _ keeps_freeInput_iff.symm
  | .noWayBack => decidable_of_iff _ keeps_noWayBack_iff.symm

/-- The first rule that a link breaks. -/
def firstBroken? (g : Graph) (l : Link) : Option Rule :=
  Rule.inOrder.find? fun rule => ¬ g.Keeps l rule

theorem firstBroken?_eq_none_iff : g.firstBroken? l = none ↔ ∀ rule, g.Keeps l rule := by
  simp [firstBroken?, Rule.mem_inOrder]

/-- A broken rule says what to blame. -/
theorem Blames.unique (h : g.Blames l rule refusal) (h' : g.Blames l rule refusal') :
    refusal = refusal' := by
  cases h with
  | sameClass ha hb =>
    cases h' with
    | sameClass ha' hb' =>
      cases Option.mem_unique ha ha'
      cases Option.mem_unique hb hb'
      rfl
  | _ => cases h'; rfl

/-! ## What the check finds -/

/-- The outcome of checking some rules in their order. -/
inductive Judged (g : Graph) (l : Link) : List Rule → Except Refusal Unit → Prop
  | admitted : Judged g l [] (.ok ())
  | kept {rule : Rule} {rules : List Rule} {outcome : Except Refusal Unit}
      (hkeeps : g.Keeps l rule) (hrest : Judged g l rules outcome) :
      Judged g l (rule :: rules) outcome
  | broken {rule : Rule} {rules : List Rule} {refusal : Refusal} (hbreaks : ¬ g.Keeps l rule)
      (hblames : g.Blames l rule refusal) : Judged g l (rule :: rules) (.error refusal)

variable {rules : List Rule} {outcome : Except Refusal Unit}

namespace Judged

/-- A link that is let in has kept all the rules. -/
theorem forall_keeps (h : g.Judged l rules outcome) (hok : outcome = .ok ()) :
    ∀ rule ∈ rules, g.Keeps l rule := by
  induction h with
  | admitted => exact List.forall_mem_nil _
  | kept hkeeps _ ih => exact List.forall_mem_cons.2 ⟨hkeeps, ih hok⟩
  | broken => cases hok

/-- A link that is refused is refused for the first of the rules that it breaks. -/
theorem exists_first (h : g.Judged l rules outcome) (herror : outcome = .error refusal) :
    ∃ rule, rules.find? (fun rule => ¬ g.Keeps l rule) = some rule ∧
      g.Blames l rule refusal := by
  induction h with
  | admitted => cases herror
  | kept hkeeps _ ih =>
    obtain ⟨rule, hfirst, hblames⟩ := ih herror
    exact ⟨rule, by simpa [hkeeps] using hfirst, hblames⟩
  | broken hbreaks hblames =>
    cases herror
    exact ⟨_, by simp [hbreaks], hblames⟩

end Judged

/-- The rules that are left when both pins exist. -/
theorem check_of_pins {sourcePin targetPin : Pin} (hsource : g.sourcePin? l = some sourcePin)
    (htarget : g.targetPin? l = some targetPin) :
    g.check l =
      if sourcePin.cls ≠ targetPin.cls then .error (.classMismatch sourcePin.cls targetPin.cls)
      else if l.source = l.target then .error .selfLoop
      else if g.isConnected l.target l.targetPin .input then
        .error (.occupied l.target l.targetPin)
      else if g.closesCycle l.source l.target then .error (.closesCycle l.source l.target)
      else .ok () := by
  obtain ⟨source, hsource, hsourcePin⟩ := Option.bind_eq_some_iff.1 hsource
  obtain ⟨target, htarget, htargetPin⟩ := Option.bind_eq_some_iff.1 htarget
  have hjoins : (!sourcePin.joins targetPin) = true ↔ sourcePin.cls ≠ targetPin.cls := by
    rw [Bool.not_eq_true', ← Bool.not_eq_true, Node.joins_iff hsourcePin htargetPin]
  simp only [check, hsource, htarget, hsourcePin, htargetPin, hjoins]
  split
  · rfl
  · split
    · rfl
    · split <;> rfl

theorem judged_check_of_pins {sourcePin targetPin : Pin}
    (hsource : g.sourcePin? l = some sourcePin) (htarget : g.targetPin? l = some targetPin) :
    g.Judged l [.sameClass, .noLoop, .freeInput, .noWayBack] (g.check l) := by
  have hsame : g.Keeps l .sameClass ↔ sourcePin.cls = targetPin.cls := by
    simp [Keeps, hsource, htarget]
  rw [check_of_pins hsource htarget]
  split
  next hclass => exact .broken (mt hsame.1 hclass) (.sameClass hsource htarget)
  next hclass =>
    apply Judged.kept (hsame.2 (not_not.1 hclass))
    split
    next hloop => exact .broken (fun hkeeps => hkeeps hloop) .noLoop
    next hloop =>
      have hdistinct : g.Keeps l .noLoop := hloop
      apply Judged.kept hdistinct
      split
      next hoccupied =>
        exact .broken (by rw [keeps_freeInput_iff, hoccupied]; exact nofun) .freeInput
      next hfree =>
        apply Judged.kept (keeps_freeInput_iff.2 (Bool.eq_false_iff.2 hfree))
        split
        next hcycle =>
          exact .broken (by rw [keeps_noWayBack_iff, hcycle]; exact nofun) .noWayBack
        next hopen =>
          exact .kept (keeps_noWayBack_iff.2 (Bool.eq_false_iff.2 hopen)) .admitted

/-- The check goes through all rules in their order. -/
theorem judged_check (g : Graph) (l : Link) : g.Judged l Rule.inOrder (g.check l) := by
  cases hsource : g.node? l.source with
  | none =>
    have hcheck : g.check l = .error (.noNode l.source) := by
      simp only [check, hsource]
      rfl
    rw [hcheck]
    exact .broken (by simp [Keeps, hasNode, hsource]) .liveSource
  | some source =>
    apply Judged.kept (by simp [Keeps, hasNode, hsource])
    cases htarget : g.node? l.target with
    | none =>
      have hcheck : g.check l = .error (.noNode l.target) := by
        simp only [check, hsource, htarget]
        rfl
      rw [hcheck]
      exact .broken (by simp [Keeps, hasNode, htarget]) .liveTarget
    | some target =>
      apply Judged.kept (by simp [Keeps, hasNode, htarget])
      cases hsourcePin : source.output? l.sourcePin with
      | none =>
        have hcheck : g.check l = .error (.noOutput l.source l.sourcePin) := by
          simp only [check, hsource, htarget, hsourcePin]
          rfl
        rw [hcheck]
        exact .broken (by simp [Keeps, sourcePin?, hsource, hsourcePin]) .outputPin
      | some sourcePin =>
        have houtput : g.sourcePin? l = some sourcePin := by
          rw [sourcePin?, hsource, Option.bind_some, hsourcePin]
        apply Judged.kept (by simp [Keeps, houtput])
        cases htargetPin : target.input? l.targetPin with
        | none =>
          have hcheck : g.check l = .error (.noInput l.target l.targetPin) := by
            simp only [check, hsource, htarget, hsourcePin, htargetPin]
            rfl
          rw [hcheck]
          exact .broken (by simp [Keeps, targetPin?, htarget, htargetPin]) .inputPin
        | some targetPin =>
          have hinput : g.targetPin? l = some targetPin := by
            rw [targetPin?, htarget, Option.bind_some, htargetPin]
          exact .kept (by simp [Keeps, hinput]) (judged_check_of_pins houtput hinput)

/-- A link is let in exactly if it keeps every rule. -/
theorem check_eq_ok_iff_keeps : g.check l = .ok () ↔ ∀ rule, g.Keeps l rule := by
  constructor
  · intro hok rule
    exact (judged_check g l).forall_keeps hok rule rule.mem_inOrder
  · intro hkeeps
    cases hcheck : g.check l with
    | ok => rfl
    | error refusal =>
      obtain ⟨rule, hfirst, -⟩ := (judged_check g l).exists_first hcheck
      cases (firstBroken?_eq_none_iff.2 hkeeps).symm.trans hfirst

/-- A link is refused exactly if it breaks a rule, and for the first that it breaks. -/
theorem check_eq_error_iff :
    g.check l = .error refusal ↔
      ∃ rule, g.firstBroken? l = some rule ∧ g.Blames l rule refusal := by
  constructor
  · exact (judged_check g l).exists_first
  · rintro ⟨rule, hfirst, hblames⟩
    cases hcheck : g.check l with
    | ok =>
      cases (firstBroken?_eq_none_iff.2 (check_eq_ok_iff_keeps.1 hcheck)).symm.trans hfirst
    | error refusal' =>
      obtain ⟨rule', hfirst', hblames'⟩ := (judged_check g l).exists_first hcheck
      cases hfirst.symm.trans hfirst'
      rw [hblames.unique hblames']

/-- In every graph, well formed or not, a link is let in exactly if it keeps every rule, and
otherwise it is refused for the first rule that it breaks, with the names that belong to it.
Paths lead along all stored connections, of whatever class and through missing nodes too. -/
theorem check_exact (g : Graph) (l : Link) :
    (g.check l = .ok () ↔ ∀ rule, g.Keeps l rule) ∧
      ∀ refusal, g.check l = .error refusal ↔
        ∃ rule, g.firstBroken? l = some rule ∧ g.Blames l rule refusal :=
  ⟨check_eq_ok_iff_keeps, fun _ => check_eq_error_iff⟩

/-- A way back through a node that is missing is a way back. -/
example :
    ([.addNode { title := "A", inputs := [.exec], outputs := [.exec] },
      .addNode { title := "B", inputs := [.exec], outputs := [.exec] },
      .restore ⟨⟨⟨0⟩, 0, ⟨9⟩, 0⟩, ⟨0⟩⟩,
      .restore ⟨⟨⟨9⟩, 0, ⟨1⟩, 0⟩, ⟨1⟩⟩].foldl Operation.apply {}).firstBroken? ⟨⟨1⟩, 0, ⟨0⟩, 0⟩ =
        some .noWayBack := by
  decide

end Graph

end FlowGraph
