import FlowGraph.Document.Decode
import FlowGraph.Document.Encode
import FlowGraph.Proofs.Forms
import FlowGraph.Proofs.Shortest
import FlowGraph.Store.Lemmas

/-!
# Snapshots from their documents

The document of a snapshot leads back to it.  Its text is read in the form of snapshots for
the tree that was written, whatever the numbers in it are.  The tree leads to the snapshot if
its natural numbers have at most 64 bits and none of its floating-point numbers is a NaN,
of which the text keeps no more than the sign.
-/

namespace FlowGraph

open Document

/-! ## The numbers in a snapshot -/

namespace Value

/-- The floating-point numbers in a value. -/
def numbers : Value → List Binary32
  | .float x => [x]
  | .vec2 v => v.components
  | .vec3 v => v.components
  | .mat3 m => m.components
  | .mat4 m => m.components
  | _ => []

end Value

def Pin.numbers (p : Pin) : List Binary32 := p.default.toList.flatMap Value.numbers

def Store.numbers (s : Store Nat) : List Binary32 := s.entries.flatMap fun e => e.2.numbers

namespace NodeSnapshot

/-- The floating-point numbers in the defaults and the values of a node. -/
def numbers (n : NodeSnapshot) : List Binary32 :=
  (n.inputs ++ n.outputs).flatMap Pin.numbers ++ n.inputValues.numbers ++ n.outputValues.numbers

/-- The number of a node and the pin indices in it. -/
def naturals (n : NodeSnapshot) : List Nat :=
  n.id.number :: (n.inputs ++ n.outputs).map Pin.index ++ n.flow.requirements.map (·.index)
    ++ (n.inputValues.entries ++ n.outputValues.entries).map Prod.fst

end NodeSnapshot

/-- The node numbers and pin indices at the ends of a connection. -/
def Connection.naturals (c : Connection) : List Nat :=
  [c.source.number, c.sourcePin, c.target.number, c.targetPin]

namespace Snapshot

/-- All floating-point numbers in a snapshot. -/
def numbers (s : Snapshot) : List Binary32 := s.nodes.flatMap NodeSnapshot.numbers

/-- All node numbers and pin indices in a snapshot. -/
def naturals (s : Snapshot) : List Nat :=
  s.nodes.flatMap NodeSnapshot.naturals ++ s.connections.flatMap Connection.naturals

end Snapshot

/-! ## From text to trees -/

namespace Document

variable {c : Char} {token : List Char}

/-- What holds of the ten digits holds of every character that is one. -/
theorem forall_isDecimalDigit {p : Char → Prop}
    (hcodes : ∀ code < 58, 48 ≤ code → p (Char.ofNat code)) (h : isDecimalDigit c = true) :
    p c := by
  rw [isDecimalDigit, Bool.and_eq_true, decide_eq_true_eq, decide_eq_true_eq] at h
  rw [← Char.ofNat_toNat c]
  exact hcodes c.toNat (Nat.lt_succ_of_le h.2) h.1

/-- Digits with points and signs are read as a number. -/
theorem reads_token (hne : token ≠ [])
    (h : ∀ c ∈ token, isDecimalDigit c = true ∨ c = '.' ∨ c = '-') :
    Form.number.Reads (.number token) 0 := by
  have hchar : ∀ c ∈ token, opensContent c = true ∧ isRawPart c = true := by
    intro c hc
    rcases h c hc with hdigit | rfl | rfl
    · exact forall_isDecimalDigit (p := fun c => opensContent c = true ∧ isRawPart c = true)
        (by decide) hdigit
    · decide
    · decide
  obtain ⟨c, rest, rfl⟩ := List.exists_cons_of_ne_nil hne
  exact Form.reads_number ⟨c, rest, rfl, (hchar c List.mem_cons_self).1⟩ fun d hd => (hchar d hd).2

theorem reads_natural (n : Nat) : Form.number.Reads (natural n) 0 :=
  reads_token Nat.toDigits_ne_nil fun _ hc => .inl (isDecimalDigit_of_mem_toDigits hc)

theorem reads_integer (i : Int) : Form.number.Reads (integer i) 0 := by
  have hdigits : ∀ c ∈ Nat.toDigits 10 i.natAbs, isDecimalDigit c = true ∨ c = '.' ∨ c = '-' :=
    fun _ hc => .inl (isDecimalDigit_of_mem_toDigits hc)
  rw [integer]
  split
  · exact reads_token (List.cons_ne_nil _ _)
      (List.forall_mem_cons.2 ⟨.inr (.inr rfl), hdigits⟩)
  · exact reads_token Nat.toDigits_ne_nil hdigits

theorem reads_decimal (x : Binary32) : Form.number.Reads (decimal x) 0 := by
  by_cases hfinite : x.magnitude < Binary32.infinity
  · obtain ⟨whole, fraction, hpointed, hwritten, -⟩ := exists_pointed_write hfinite
    have hbody : ∀ c ∈ whole ++ '.' :: fraction, isDecimalDigit c = true ∨ c = '.' ∨ c = '-' := by
      obtain ⟨hwhole, hfraction⟩ := List.forall_mem_append.1 hpointed.digits
      exact List.forall_mem_append.2 ⟨fun c hc => .inl (hwhole c hc),
        List.forall_mem_cons.2 ⟨.inr (.inl rfl), fun c hc => .inl (hfraction c hc)⟩⟩
    rw [decimal, hwritten]
    split
    · exact reads_token (List.cons_ne_nil _ _) (List.forall_mem_cons.2 ⟨.inr (.inr rfl), hbody⟩)
    · exact reads_token (List.append_ne_nil_of_left_ne_nil hpointed.nonempty _) hbody
  · -- What is not finite is written as one of four words.
    have hword : x.write .document ∈
        [['-', 'i', 'n', 'f'], ['i', 'n', 'f'], ['-', 'N', 'a', 'N'], ['N', 'a', 'N']] := by
      rw [Binary32.write]
      by_cases hnan : x.isNaN = true
      · rw [if_pos hnan]
        cases x.isNegative <;> decide
      · have hle : x.magnitude ≤ Binary32.infinity := by
          simpa only [Binary32.isNaN, decide_eq_true_eq, Nat.not_lt] using hnan
        have hinfinite : x.isInfinite = true :=
          beq_iff_eq.2 (Nat.le_antisymm hle (Nat.not_lt.1 hfinite))
        rw [if_neg hnan, hinfinite]
        cases x.isNegative with
        | true => exact .head _
        | false => exact .tail _ (.head _)
    rw [decimal]
    generalize x.write .document = word at hword
    simp only [List.mem_cons, List.not_mem_nil, or_false] at hword
    rcases hword with rfl | rfl | rfl | rfl <;>
      exact Form.reads_number ⟨_, _, rfl, by decide⟩ (List.all_eq_true.1 (by decide))

theorem reads_decimals (name : String) (numbers : List Binary32) :
    (Form.numbers name numbers.length).Reads (decimals numbers) 2 := by
  have hitems : ∀ item ∈ numbers.map decimal, Form.number.Reads item 0 :=
    List.forall_mem_map.2 fun x _ => reads_decimal x
  have h := Form.reads_numbers name hitems
  rwa [List.length_map] at h

end Document

theorem Handle.reads_toTree (h : Handle) : Handle.form.Reads h.toTree 1 :=
  Form.reads_wrapped "Handle" (reads_natural _)

theorem NodeId.reads_toTree (id : NodeId) : NodeId.form.Reads id.toTree 1 :=
  Form.reads_wrapped "NodeId" (reads_natural _)

theorem ConnectionId.reads_toTree (id : ConnectionId) : ConnectionId.form.Reads id.toTree 1 :=
  Form.reads_wrapped "ConnectionId" (Form.reads_text _)

theorem Value.reads_toTree (v : Value) : Value.form.Reads v.toTree 4 := by
  cases v with
  | text s => exact (Form.reads_holding (by decide) rfl (Form.reads_text s)).mono (by decide)
  | int i => exact (Form.reads_holding (by decide) rfl (reads_integer i.toInt)).mono (by decide)
  | float x => exact (Form.reads_holding (by decide) rfl (reads_decimal x)).mono (by decide)
  | bool b => exact (Form.reads_holding (by decide) rfl (Form.reads_truth b)).mono (by decide)
  | vec2 v => exact Form.reads_holding (by decide) rfl (reads_decimals "Vec2" v.components)
  | vec3 v => exact Form.reads_holding (by decide) rfl (reads_decimals "Vec3" v.components)
  | mat3 m => exact Form.reads_holding (by decide) rfl (reads_decimals "Mat3" m.components)
  | mat4 m => exact Form.reads_holding (by decide) rfl (reads_decimals "Mat4" m.components)
  | handle h => exact (Form.reads_holding (by decide) rfl h.reads_toTree).mono (by decide)

theorem PinDirection.reads_word (direction : PinDirection) :
    PinDirection.form.Reads (.word direction.name) 2 := by
  cases direction <;> exact Form.reads_word (by decide) rfl

theorem PinClass.reads_word (cls : PinClass) : PinClass.form.Reads (.word cls.name) 2 := by
  cases cls <;> exact Form.reads_word (by decide) rfl

theorem Pin.reads_toTree (p : Pin) : Pin.form.Reads p.toTree 7 := by
  have hdefault : (Form.optional Value.form).Reads
      (Document.optional (p.default.map Value.toTree)) 5 := by
    cases p.default with
    | none => exact Form.reads_absent
    | some v => exact Form.reads_present v.reads_toTree
  apply Form.reads_record "Pin"
  refine ⟨rfl, by decide, by decide, ?_⟩
  simp only [List.forall_mem_cons]
  exact ⟨⟨_, rfl, (reads_natural p.index).mono (by decide)⟩,
    ⟨_, rfl, (Form.reads_text p.name).mono (by decide)⟩,
    ⟨_, rfl, p.direction.reads_word.mono (by decide)⟩,
    ⟨_, rfl, p.cls.reads_word.mono (by decide)⟩, ⟨_, rfl, hdefault⟩, nofun⟩

theorem Flow.reads_toTree (f : Flow) : Flow.form.Reads f.toTree 3 := by
  cases f with
  | sequence => exact (Form.reads_word (by decide) rfl).mono (by decide)
  | branch condition onTrue onFalse =>
    apply Form.reads_variant (by decide) rfl
    refine ⟨rfl, by decide, by decide, ?_⟩
    simp only [List.forall_mem_cons]
    exact ⟨⟨_, rfl, reads_natural condition⟩, ⟨_, rfl, reads_natural onTrue⟩,
      ⟨_, rfl, reads_natural onFalse⟩, nofun⟩
  | loop first limit index body completed =>
    apply Form.reads_variant (by decide) rfl
    refine ⟨rfl, by decide, by decide, ?_⟩
    simp only [List.forall_mem_cons]
    exact ⟨⟨_, rfl, reads_natural first⟩, ⟨_, rfl, reads_natural limit⟩,
      ⟨_, rfl, reads_natural index⟩, ⟨_, rfl, reads_natural body⟩,
      ⟨_, rfl, reads_natural completed⟩, nofun⟩

theorem Store.reads_toTree (s : Store Nat) : Store.form.Reads s.toTree 6 := by
  apply Form.reads_table
  exact List.forall_mem_map.2 fun e _ => ⟨(reads_natural e.1).mono (by decide), e.2.reads_toTree⟩

theorem Connection.reads_toTree (c : Connection) : Connection.form.Reads c.toTree 3 := by
  apply Form.reads_record "Connection"
  refine ⟨rfl, by decide, by decide, ?_⟩
  simp only [List.forall_mem_cons]
  exact ⟨⟨_, rfl, c.id.reads_toTree⟩, ⟨_, rfl, c.source.reads_toTree⟩,
    ⟨_, rfl, (reads_natural c.sourcePin).mono (by decide)⟩, ⟨_, rfl, c.target.reads_toTree⟩,
    ⟨_, rfl, (reads_natural c.targetPin).mono (by decide)⟩, nofun⟩

theorem NodeSnapshot.reads_toTree (n : NodeSnapshot) : NodeSnapshot.form.Reads n.toTree 11 := by
  have hpins : ∀ pins : List Pin, (Form.list Pin.form).Reads (.list (pins.map Pin.toTree)) 9 :=
    fun pins => Form.reads_list (List.forall_mem_map.2 fun p _ => p.reads_toTree)
  apply Form.reads_record "NodeSnapshot"
  refine ⟨rfl, by decide, by decide, ?_⟩
  simp only [List.forall_mem_cons]
  exact ⟨⟨_, rfl, n.id.reads_toTree.mono (by decide)⟩,
    ⟨_, rfl, (Form.reads_text n.title).mono (by decide)⟩,
    ⟨_, rfl, (Form.reads_text n.category).mono (by decide)⟩, ⟨_, rfl, hpins n.inputs⟩,
    ⟨_, rfl, hpins n.outputs⟩, ⟨_, rfl, n.flow.reads_toTree.mono (by decide)⟩,
    ⟨_, rfl, (Form.reads_truth n.active).mono (by decide)⟩,
    ⟨_, rfl, n.inputValues.reads_toTree.mono (by decide)⟩,
    ⟨_, rfl, n.outputValues.reads_toTree.mono (by decide)⟩, nofun⟩

theorem Snapshot.reads_toTree (s : Snapshot) : Snapshot.form.Reads s.toTree 15 := by
  have hnodes : (Form.list NodeSnapshot.form).Reads (.list (s.nodes.map NodeSnapshot.toTree)) 13 :=
    Form.reads_list (List.forall_mem_map.2 fun n _ => n.reads_toTree)
  have hconnections : (Form.list Connection.form).Reads
      (.list (s.connections.map Connection.toTree)) 5 :=
    Form.reads_list (List.forall_mem_map.2 fun c _ => c.reads_toTree)
  apply Form.reads_record "GraphSnapshot"
  refine ⟨rfl, by decide, by decide, ?_⟩
  simp only [List.forall_mem_cons]
  exact ⟨⟨_, rfl, (Form.reads_text s.name).mono (by decide)⟩, ⟨_, rfl, hnodes⟩,
    ⟨_, rfl, hconnections.mono (by decide)⟩, nofun⟩

/-- A document that begins with a parenthesis has no attributes and nothing to skip. -/
theorem Document.read?_of_reads {form : Form} {fields : List (String × Tree)} {levels : Nat}
    (h : form.Reads (.record none fields) levels) (hlevels : levels ≤ depthLimit) :
    Document.read? form ((Tree.record none fields).write 0) = some (.record none fields) := by
  have hread := (h 0 depthLimit hlevels).reads [] stops_nil
  rw [List.append_nil, Tree.write_record] at hread
  rw [Tree.write_record, Document.read?]
  simp only [writeName, Option.map_none, Option.getD_none, List.nil_append] at hread ⊢
  rw [List.cons_append, skipBlank_paren, ← List.cons_append, Option.bind_eq_bind, Option.bind_some]
  have hattributes : readAttributes
      (('(' :: writeBlock 0 (fields.map (Tree.writeField 1)) ++ [')']).length + 1) {}
      ('(' :: writeBlock 0 (fields.map (Tree.writeField 1)) ++ [')']) =
      some ({}, '(' :: writeBlock 0 (fields.map (Tree.writeField 1)) ++ [')']) := rfl
  rw [hattributes, Option.bind_eq_bind, Option.bind_some]
  simp only [hread]
  rfl

/-! ## From trees to snapshots -/

namespace Document

variable {α : Type} {read : Tree → Option α} {write : α → Tree}

theorem mapM_map_of_forall {β : Type} {read : β → Option α} {write : α → β} {as : List α}
    (h : ∀ a ∈ as, read (write a) = some a) : (as.map write).mapM read = some as := by
  induction as with
  | nil => rfl
  | cons a as ih =>
    obtain ⟨ha, has⟩ := List.forall_mem_cons.1 h
    rw [List.map_cons, List.mapM_cons, ha, ih has]
    rfl

theorem Tree.need?_eq_some {name : Option String} {fields : List (String × Tree)} {key : String}
    {t : Tree} {a : α} (hlookup : fields.lookup key = some t) (h : read t = some a) :
    (Tree.record name fields).need? key read = some a := by
  rw [need?, hlookup, Option.bind_some, h]

theorem listOf?_map {as : List α} (h : ∀ a ∈ as, read (write a) = some a) :
    (Tree.list (as.map write)).listOf? read = some as :=
  mapM_map_of_forall h

theorem optional?_map {a : Option α} (h : ∀ x ∈ a, read (write x) = some x) :
    (optional (a.map write)).optional? read = some a := by
  cases a with
  | none => rfl
  | some x => exact congrArg (Option.map some) (h x rfl)

theorem numbers?_decimals {numbers : List Binary32} (h : ∀ x ∈ numbers, x.isNaN = false) :
    (decimals numbers).numbers? = some numbers :=
  mapM_map_of_forall fun x hx => binary32?_decimal (h x hx)

end Document

theorem Handle.ofTree?_toTree (h : Handle) : Handle.ofTree? h.toTree = some h := by
  rw [ofTree?, toTree, Tree.wrapped?, natural?_natural h.number.toNat_lt, Option.map_some,
    UInt64.ofNat_toNat]

theorem NodeId.ofTree?_toTree {id : NodeId} (h : id.number < 2 ^ 64) :
    NodeId.ofTree? id.toTree = some id := by
  rw [ofTree?, toTree, Tree.wrapped?, natural?_natural h, Option.map_some]

theorem ConnectionId.ofTree?_toTree (id : ConnectionId) :
    ConnectionId.ofTree? id.toTree = some id := by
  rw [ofTree?, toTree, Tree.wrapped?, Tree.text?, Option.bind_some, read?_text]

theorem Value.ofTree?_toTree {v : Value} (h : ∀ x ∈ v.numbers, x.isNaN = false) :
    Value.ofTree? v.toTree = some v := by
  cases v with
  | text s => rfl
  | int i => exact congrArg (Option.map Value.int) (int32?_integer i)
  | float x => exact congrArg (Option.map Value.float) (binary32?_decimal (h x (.head _)))
  | bool b => rfl
  | vec2 v =>
    exact congrArg (fun numbers => (numbers.bind Vec2.ofComponents?).map Value.vec2)
      (numbers?_decimals h)
  | vec3 v =>
    exact congrArg (fun numbers => (numbers.bind Vec3.ofComponents?).map Value.vec3)
      (numbers?_decimals h)
  | mat3 m =>
    exact congrArg (fun numbers => (numbers.bind Mat3.ofComponents?).map Value.mat3)
      (numbers?_decimals h)
  | mat4 m =>
    exact congrArg (fun numbers => (numbers.bind Mat4.ofComponents?).map Value.mat4)
      (numbers?_decimals h)
  | handle handle => exact congrArg (Option.map Value.handle) handle.ofTree?_toTree

theorem PinDirection.ofTree?_word (direction : PinDirection) :
    PinDirection.ofTree? (.word direction.name) = some direction := by
  cases direction <;> rfl

theorem PinClass.ofTree?_word (cls : PinClass) : PinClass.ofTree? (.word cls.name) = some cls := by
  cases cls <;> rfl

theorem Pin.ofTree?_toTree {p : Pin} (hindex : p.index < 2 ^ 64)
    (hnumbers : ∀ x ∈ p.numbers, x.isNaN = false) : Pin.ofTree? p.toTree = some p := by
  have hindex : p.toTree.need? "index" Tree.natural? = some p.index := natural?_natural hindex
  have hname : p.toTree.need? "name" Tree.text? = some p.name := rfl
  have hdirection : p.toTree.need? "direction" PinDirection.ofTree? = some p.direction :=
    p.direction.ofTree?_word
  have hclass : p.toTree.need? "class" PinClass.ofTree? = some p.cls := p.cls.ofTree?_word
  have hdefault : p.toTree.needD? "default_value" none (Tree.optional? Value.ofTree?) =
      some p.default := by
    apply optional?_map
    intro v hv
    exact Value.ofTree?_toTree fun x hx =>
      hnumbers x (List.mem_flatMap.2 ⟨v, Option.mem_toList.2 hv, hx⟩)
  rw [ofTree?, hindex, hname, hdirection, hclass, hdefault]
  rfl

theorem Flow.ofTree?_toTree {f : Flow} (h : ∀ r ∈ f.requirements, r.index < 2 ^ 64) :
    Flow.ofTree? f.toTree = some f := by
  cases f with
  | sequence => rfl
  | branch condition onTrue onFalse =>
    simp only [requirements, List.forall_mem_cons] at h
    obtain ⟨hcondition, htrue, hfalse, -⟩ := h
    let t := (branch condition onTrue onFalse).toTree
    have hcondition : t.need? "condition" Tree.natural? = some condition :=
      natural?_natural hcondition
    have htrue : t.need? "on_true" Tree.natural? = some onTrue := natural?_natural htrue
    have hfalse : t.need? "on_false" Tree.natural? = some onFalse := natural?_natural hfalse
    have hbranch : ofTree? t = (do
        return branch (← t.need? "condition" Tree.natural?) (← t.need? "on_true" Tree.natural?)
          (← t.need? "on_false" Tree.natural?)) := rfl
    exact hbranch.trans (by rw [hcondition, htrue, hfalse]; rfl)
  | loop first limit index body completed =>
    simp only [requirements, List.forall_mem_cons] at h
    obtain ⟨hfirst, hlimit, hindex, hbody, hcompleted, -⟩ := h
    let t := (loop first limit index body completed).toTree
    have hfirst : t.need? "start" Tree.natural? = some first := natural?_natural hfirst
    have hlimit : t.need? "end" Tree.natural? = some limit := natural?_natural hlimit
    have hindex : t.need? "index" Tree.natural? = some index := natural?_natural hindex
    have hbody : t.need? "body" Tree.natural? = some body := natural?_natural hbody
    have hcompleted : t.need? "completed" Tree.natural? = some completed :=
      natural?_natural hcompleted
    have hloop : ofTree? t = (do
        return loop (← t.need? "start" Tree.natural?) (← t.need? "end" Tree.natural?)
          (← t.need? "index" Tree.natural?) (← t.need? "body" Tree.natural?)
          (← t.need? "completed" Tree.natural?)) := rfl
    exact hloop.trans (by rw [hfirst, hlimit, hindex, hbody, hcompleted]; rfl)

theorem Store.ofTree?_toTree {s : Store Nat} (hkeys : ∀ e ∈ s.entries, e.1 < 2 ^ 64)
    (hnumbers : ∀ x ∈ s.numbers, x.isNaN = false) : Store.ofTree? s.toTree = some s := by
  let read : Tree × Tree → Option (Nat × Value) := fun e => do
    return (← e.1.natural?, ← Value.ofTree? e.2)
  have hentry : ∀ e ∈ s.entries, read (natural e.1, e.2.toTree) = some e := by
    intro e he
    have hkey : (natural e.1).natural? = some e.1 := natural?_natural (hkeys e he)
    have hvalue : Value.ofTree? e.2.toTree = some e.2 := Value.ofTree?_toTree fun x hx =>
      hnumbers x (List.mem_flatMap.2 ⟨e, he, hx⟩)
    dsimp only [read]
    rw [hkey, hvalue]
    rfl
  have hentries : (s.entries.map fun e => (natural e.1, e.2.toTree)).mapM read = some s.entries :=
    mapM_map_of_forall hentry
  calc Store.ofTree? s.toTree
    _ = ((s.entries.map fun e => (natural e.1, e.2.toTree)).mapM read).map Store.ofList := by
      rw [Option.map_eq_bind]
      rfl
    _ = some s := by rw [hentries, Option.map_some, ofList_entries]

theorem Connection.ofTree?_toTree {c : Connection} (h : ∀ n ∈ c.naturals, n < 2 ^ 64) :
    Connection.ofTree? c.toTree = some c := by
  simp only [naturals, List.forall_mem_cons] at h
  obtain ⟨hsource, hsourcePin, htarget, htargetPin, -⟩ := h
  have hid : c.toTree.need? "id" ConnectionId.ofTree? = some c.id :=
    Tree.need?_eq_some rfl c.id.ofTree?_toTree
  have hsource : c.toTree.need? "from_node" NodeId.ofTree? = some c.source :=
    Tree.need?_eq_some rfl (NodeId.ofTree?_toTree hsource)
  have hsourcePin : c.toTree.need? "from_pin" Tree.natural? = some c.sourcePin :=
    Tree.need?_eq_some rfl (natural?_natural hsourcePin)
  have htarget : c.toTree.need? "to_node" NodeId.ofTree? = some c.target :=
    Tree.need?_eq_some rfl (NodeId.ofTree?_toTree htarget)
  have htargetPin : c.toTree.need? "to_pin" Tree.natural? = some c.targetPin :=
    Tree.need?_eq_some rfl (natural?_natural htargetPin)
  rw [ofTree?, hid, hsource, hsourcePin, htarget, htargetPin]
  rfl

theorem NodeSnapshot.ofTree?_toTree {n : NodeSnapshot} (hnaturals : ∀ i ∈ n.naturals, i < 2 ^ 64)
    (hnumbers : ∀ x ∈ n.numbers, x.isNaN = false) : NodeSnapshot.ofTree? n.toTree = some n := by
  simp only [naturals, numbers, List.forall_mem_append, List.forall_mem_cons, List.forall_mem_map,
    List.forall_mem_flatMap, List.map_append] at hnaturals hnumbers
  obtain ⟨⟨⟨hid, hinputs, houtputs⟩, hflow⟩, hinputKeys, houtputKeys⟩ := hnaturals
  obtain ⟨⟨⟨hinputDefaults, houtputDefaults⟩, hinputNumbers⟩, houtputNumbers⟩ := hnumbers
  have hid : n.toTree.need? "id" NodeId.ofTree? = some n.id :=
    Tree.need?_eq_some rfl (NodeId.ofTree?_toTree hid)
  have htitle : n.toTree.need? "title" Tree.text? = some n.title := Tree.need?_eq_some rfl rfl
  have hcategory : n.toTree.need? "category" Tree.text? = some n.category :=
    Tree.need?_eq_some rfl rfl
  have hinputs : n.toTree.need? "inputs" (Tree.listOf? Pin.ofTree?) = some n.inputs :=
    Tree.need?_eq_some rfl
      (listOf?_map fun p hp => Pin.ofTree?_toTree (hinputs p hp) (hinputDefaults p hp))
  have houtputs : n.toTree.need? "outputs" (Tree.listOf? Pin.ofTree?) = some n.outputs :=
    Tree.need?_eq_some rfl
      (listOf?_map fun p hp => Pin.ofTree?_toTree (houtputs p hp) (houtputDefaults p hp))
  have hflow : n.toTree.need? "flow" Flow.ofTree? = some n.flow :=
    Tree.need?_eq_some rfl (Flow.ofTree?_toTree hflow)
  have hactive : n.toTree.need? "active" Tree.truth? = some n.active := Tree.need?_eq_some rfl rfl
  have hinputValues : n.toTree.need? "input_values" Store.ofTree? = some n.inputValues :=
    Tree.need?_eq_some rfl (Store.ofTree?_toTree hinputKeys hinputNumbers)
  have houtputValues : n.toTree.need? "output_values" Store.ofTree? = some n.outputValues :=
    Tree.need?_eq_some rfl (Store.ofTree?_toTree houtputKeys houtputNumbers)
  rw [ofTree?, hid, htitle, hcategory, hinputs, houtputs, hflow, hactive, hinputValues,
    houtputValues]
  rfl

theorem Snapshot.ofTree?_toTree {s : Snapshot} (hnaturals : ∀ i ∈ s.naturals, i < 2 ^ 64)
    (hnumbers : ∀ x ∈ s.numbers, x.isNaN = false) : Snapshot.ofTree? s.toTree = some s := by
  simp only [naturals, numbers, List.forall_mem_append, List.forall_mem_flatMap]
    at hnaturals hnumbers
  obtain ⟨hnodes, hconnections⟩ := hnaturals
  have hname : s.toTree.need? "name" Tree.text? = some s.name := Tree.need?_eq_some rfl rfl
  have hnodes : s.toTree.need? "nodes" (Tree.listOf? NodeSnapshot.ofTree?) = some s.nodes :=
    Tree.need?_eq_some rfl
      (listOf?_map fun n hn => NodeSnapshot.ofTree?_toTree (hnodes n hn) (hnumbers n hn))
  have hconnections : s.toTree.need? "connections" (Tree.listOf? Connection.ofTree?) =
      some s.connections :=
    Tree.need?_eq_some rfl
      (listOf?_map fun c hc => Connection.ofTree?_toTree (hconnections c hc))
  rw [ofTree?, hname, hnodes, hconnections]
  rfl

theorem Snapshot.read?_document (s : Snapshot) :
    Document.read? Snapshot.form s.toTree.render.toList = some s.toTree := by
  rw [Tree.render, String.toList_ofList]
  exact Document.read?_of_reads s.reads_toTree (by decide)

/-- The document of a snapshot leads back to the snapshot, its floating-point numbers bit for
bit, so that what is read has the same document again.  Texts, 32-bit integers and handles may
be any; natural numbers must have at most 64 bits, and no floating-point number may be a NaN.
Nothing else is asked: the snapshot may be that of a graph in any state, or of none. -/
theorem Snapshot.document_reads_back (s : Snapshot) (hnaturals : ∀ n ∈ s.naturals, n < 2 ^ 64)
    (hnumbers : ∀ x ∈ s.numbers, x.isNaN = false) :
    Snapshot.read? s.toTree.render = some s ∧
      (Snapshot.read? s.toTree.render).map (fun t => t.toTree.render) = some s.toTree.render := by
  have hread : Snapshot.read? s.toTree.render = some s := by
    rw [read?, s.read?_document, Option.bind_some, Snapshot.ofTree?_toTree hnaturals hnumbers]
  exact ⟨hread, by rw [hread, Option.map_some]⟩

/-- A snapshot of one node, with quotes, a backslash and control characters in its texts, the
greatest index and handle, an infinity and a negative zero among its numbers, and one connection
twice. -/
def Snapshot.unusual : Snapshot where
  name := "the \"first\" \\ graph\n"
  nodes := [
    { id := ⟨1⟩
      title := "Tab\tand bell\x07"
      category := ""
      inputs := [⟨0, "wide", .input, .data, some (.vec2 ⟨⟨0x7f800000⟩, ⟨0x80000000⟩⟩)⟩]
      outputs := []
      flow := .branch 0 1 18446744073709551615
      active := false
      inputValues := .ofList [(3, .text "\\"), (1, .int (-2147483648))]
      outputValues := .ofList [(0, .handle ⟨18446744073709551615⟩)] }]
  connections := List.replicate 2 ⟨⟨⟨1⟩, 0, ⟨1⟩, 0⟩, ⟨7⟩⟩

theorem Snapshot.document_reads_back_unusual :
    (∀ n ∈ unusual.naturals, n < 2 ^ 64) ∧ (∀ x ∈ unusual.numbers, x.isNaN = false) ∧
      Snapshot.read? unusual.toTree.render = some unusual :=
  ⟨by decide, by decide, (unusual.document_reads_back (by decide) (by decide)).1⟩

end FlowGraph
