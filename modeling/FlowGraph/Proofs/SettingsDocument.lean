import FlowGraph.Document.Encode
import FlowGraph.Document.SettingsFile
import FlowGraph.Proofs.Records
import Mathlib.Data.List.Nodup

/-!
# Settings from their documents

The document of settings leads back to them.  A document may also hold some of their parts only,
in any order and any layout; then the other parts have their defaults.  But no part may stand in
it twice.
-/

namespace FlowGraph

open Document

/-- A part of settings that has a field in documents. -/
inductive SettingsPart where
  | startTitle
  | tickTitle
  | refreshesFirst
  | refreshesOnEntry
  deriving DecidableEq

namespace SettingsPart

def name : SettingsPart → String
  | startTitle => "start_event"
  | tickTitle => "tick_event"
  | refreshesFirst => "refresh_before_execute"
  | refreshesOnEntry => "pull_dependencies"

def form : SettingsPart → Form
  | startTitle => .text
  | tickTitle => .text
  | refreshesFirst => .truth
  | refreshesOnEntry => .truth

def content (s : Settings) : SettingsPart → Tree
  | startTitle => .text s.startTitle
  | tickTitle => .text s.tickTitle
  | refreshesFirst => .truth s.refreshesFirst
  | refreshesOnEntry => .truth s.refreshesOnEntry

def all : List SettingsPart := [startTitle, tickTitle, refreshesFirst, refreshesOnEntry]

theorem mem_all (part : SettingsPart) : part ∈ all := by
  cases part <;> decide

theorem name_injective : Function.Injective name := by
  intro part other h
  revert h
  cases part <;> cases other <;> decide

theorem isPlainName_name (part : SettingsPart) : isPlainName part.name.toList = true := by
  cases part <;> decide

end SettingsPart

namespace Settings

/-- Settings of which some parts are chosen and the others have their defaults. -/
def only (s : Settings) (chosen : List SettingsPart) : Settings :=
  let base : Settings := {}
  { startTitle := if .startTitle ∈ chosen then s.startTitle else base.startTitle
    tickTitle := if .tickTitle ∈ chosen then s.tickTitle else base.tickTitle
    refreshesFirst := if .refreshesFirst ∈ chosen then s.refreshesFirst else base.refreshesFirst
    refreshesOnEntry :=
      if .refreshesOnEntry ∈ chosen then s.refreshesOnEntry else base.refreshesOnEntry }

/-- A document in any layout that holds chosen parts of settings in the given order. -/
def Writes (s : Settings) (chosen : List SettingsPart) (text : String) : Prop :=
  ∃ write : SettingsPart → List Char,
    (∀ part ∈ chosen, LaidField part.name ((part.content s).write 0) (write part)) ∧
      LaidRecord "EngineConfig" (chosen.map write) text.toList

/-- The forms of the fields of settings. -/
def fieldForms : List (String × Form) := SettingsPart.all.map fun part => (part.name, part.form)

variable {s : Settings} {chosen : List SettingsPart} {part : SettingsPart} {text : String}

theorem form_eq_record : Settings.form = .record "EngineConfig" fieldForms := rfl

theorem lookup_fieldForms (part : SettingsPart) : fieldForms.lookup part.name = some part.form := by
  cases part <;> rfl

/-! ## Reading parts -/

theorem reads_content (s : Settings) (part : SettingsPart) :
    part.form.Reads (part.content s) 0 := by
  cases part with
  | startTitle => exact Form.reads_text s.startTitle
  | tickTitle => exact Form.reads_text s.tickTitle
  | refreshesFirst => exact Form.reads_truth s.refreshesFirst
  | refreshesOnEntry => exact Form.reads_truth s.refreshesOnEntry

theorem reads_laidField {line : List Char}
    (h : LaidField part.name ((part.content s).write 0) line) (room : Nat) :
    Reader.Reads (readKeyed readName (Form.fieldContent fieldForms (.plain room))) line
      (part.name, some (part.content s)) := by
  obtain ⟨hkey, hbefore, hafter⟩ := h
  apply (hkey.reads part.isPlainName_name).readKeyed_laid _ hbefore hafter
  rw [Form.fieldContent, lookup_fieldForms]
  exact (reads_content s part 0 room (Nat.zero_le room)).map some

theorem skips_fieldForms : ∀ field ∈ fieldForms, field.2.Skips := by
  refine List.forall_mem_map.2 fun part _ => ?_
  cases part with
  | startTitle => exact Form.skips_text
  | tickTitle => exact Form.skips_text
  | refreshesFirst => exact Form.skips_truth
  | refreshesOnEntry => exact Form.skips_truth

/-! ## From trees to settings -/

/-- The fields of the chosen parts. -/
def fields (s : Settings) (chosen : List SettingsPart) : List (String × Tree) :=
  chosen.map fun part => (part.name, part.content s)

theorem lookup_fields (s : Settings) (chosen : List SettingsPart) (part : SettingsPart) :
    (s.fields chosen).lookup part.name =
      if part ∈ chosen then some (part.content s) else none := by
  induction chosen with
  | nil => rfl
  | cons first chosen ih =>
    rw [fields, List.map_cons, List.lookup_cons, ← fields, ih]
    by_cases hfirst : part = first
    · subst hfirst
      simp
    · have hname : (part.name == first.name) = false :=
        beq_eq_false_iff_ne.2 fun h => hfirst (SettingsPart.name_injective h)
      simp [hname, hfirst]

/-- What is read of a part: its content if it is chosen, and its default if it is not. -/
theorem needD?_fields (s : Settings) (chosen : List SettingsPart) (part : SettingsPart) {α : Type}
    {read : Tree → Option α} {a : α} (hread : read (part.content s) = some a) (default : α) :
    (Tree.record none (s.fields chosen)).needD? part.name default read =
      some (if part ∈ chosen then a else default) := by
  rw [Tree.needD?, lookup_fields]
  split_ifs
  · exact hread
  · rfl

theorem ofTree?_fields (s : Settings) (chosen : List SettingsPart) :
    Settings.ofTree? (.record none (s.fields chosen)) = some (s.only chosen) := by
  let base : Settings := {}
  have hstart : (Tree.record none (s.fields chosen)).needD? "start_event"
      base.startTitle Tree.text? =
        some (if .startTitle ∈ chosen then s.startTitle else base.startTitle) :=
    s.needD?_fields chosen .startTitle (rfl : Tree.text? _ = some s.startTitle) _
  have htick : (Tree.record none (s.fields chosen)).needD? "tick_event"
      base.tickTitle Tree.text? =
        some (if .tickTitle ∈ chosen then s.tickTitle else base.tickTitle) :=
    s.needD?_fields chosen .tickTitle (rfl : Tree.text? _ = some s.tickTitle) _
  have hfirst : (Tree.record none (s.fields chosen)).needD? "refresh_before_execute"
      base.refreshesFirst Tree.truth? =
        some (if .refreshesFirst ∈ chosen then s.refreshesFirst else base.refreshesFirst) :=
    s.needD?_fields chosen .refreshesFirst (rfl : Tree.truth? _ = some s.refreshesFirst) _
  have hentry : (Tree.record none (s.fields chosen)).needD? "pull_dependencies"
      base.refreshesOnEntry Tree.truth? =
        some (if .refreshesOnEntry ∈ chosen then s.refreshesOnEntry else base.refreshesOnEntry) :=
    s.needD?_fields chosen .refreshesOnEntry (rfl : Tree.truth? _ = some s.refreshesOnEntry) _
  rw [Settings.ofTree?, hstart, htick, hfirst, hentry]
  rfl

theorem only_all (s : Settings) : s.only SettingsPart.all = s := rfl

/-! ## Whole documents -/

/-- The parts that a document holds have their values, and the others their defaults. -/
theorem parse_of_writes (hdistinct : chosen.Nodup) (h : s.Writes chosen text) :
    Settings.parse text = .ok (s.only chosen) := by
  obtain ⟨write, hfields, hrecord⟩ := h
  have hitems : ∀ part ∈ chosen, Reader.Reads
      (readKeyed readName (Form.fieldContent fieldForms (.plain (depthLimit - 2))))
      (write part) (part.name, some (part.content s)) :=
    fun part hpart => reads_laidField (hfields part hpart) _
  have hread : Document.read? Settings.form text.toList = some (.record none (s.fields chosen)) :=
    hrecord.read? (by decide) hitems (List.Nodup.map SettingsPart.name_injective hdistinct)
  rw [Settings.parse, Settings.read?, hread, Option.bind_some, ofTree?_fields]

/-- The document of settings holds all parts, one a line. -/
theorem writes_toTree (s : Settings) : s.Writes SettingsPart.all s.toTree.render := by
  let write (part : SettingsPart) : List Char := Tree.writeField 1 (part.name, part.content s)
  refine ⟨write, fun part _ => ?_, ?_⟩
  · have hblank : Blanks [' '] := .space rfl .nil
    have hfield : LaidField part.name ((part.content s).write 0)
        (part.name.toList ++ [] ++ ':' :: ([' '] ++ (part.content s).write 0)) :=
      .intro (.inl rfl) .nil hblank
    have hdepth : (part.content s).write 1 = (part.content s).write 0 := by
      cases part <;> rfl
    have hwrite : write part = part.name.toList ++ [':', ' '] ++ (part.content s).write 1 := rfl
    rw [List.append_nil] at hfield
    rw [hwrite, hdepth, List.append_assoc]
    exact hfield
  · have hrecord : LaidRecord "EngineConfig" (SettingsPart.all.map write)
        ([] ++ ([] ++ '(' :: (writeBlock 0 (SettingsPart.all.map write) ++ ')' :: []))) :=
      .intro .nil .bare (laid_writeBlock 0 _) .nil
    have hwritten : s.toTree.write 0 =
        '(' :: (writeBlock 0 (SettingsPart.all.map write) ++ [')']) :=
      Tree.write_record 0 none (s.fields SettingsPart.all)
    rw [Tree.render, String.toList_ofList, hwritten]
    exact hrecord

/-- The document of settings leads back to them, whatever characters their titles have.  So does
any document that holds some of their parts only, in any order and any layout, but for the parts
that it leaves out, which have their defaults.  A document in which one of the known field names
stands twice is refused, whatever its fields hold. -/
theorem parts_read_back (s : Settings) :
    Settings.parse s.toTree.render = .ok s ∧
      (∀ chosen text, chosen.Nodup → s.Writes chosen text →
        Settings.parse text = .ok (s.only chosen)) ∧
      ∀ text names (part : SettingsPart),
        fieldNames? "EngineConfig" text.toList = some names → 2 ≤ names.count part.name →
          Settings.parse text = .error .malformed := by
  refine ⟨?_, fun _ _ => parse_of_writes, ?_⟩
  · rw [parse_of_writes (by decide) s.writes_toTree, only_all]
  · intro text names part hnames hrepeated
    have hknown : part.name ∈ fieldForms.map Prod.fst := by
      cases part <;> decide
    have hread := read?_of_repeated skips_fieldForms hnames hknown hrepeated
    rw [Settings.parse, Settings.read?, form_eq_record, hread, Option.bind_none]

/-- Settings to look at, with a quote and a control character in their titles. -/
def ringing : Settings where
  startTitle := "a\"b"
  tickTitle := "\x07"
  refreshesFirst := false
  refreshesOnEntry := false

/-- Two of their parts, in a layout of its own. -/
def rearranged : String :=
  "EngineConfig(r#pull_dependencies: false /**/,start_event:\"a\\\"b\"\n)"

theorem writes_rearranged : ringing.Writes [.refreshesOnEntry, .startTitle] rearranged := by
  let write (part : SettingsPart) : List Char :=
    if part = .refreshesOnEntry then
      'r' :: '#' :: "pull_dependencies".toList ++ [] ++ ':' :: ([' '] ++ "false".toList)
    else "start_event".toList ++ [] ++ ':' :: ([] ++ Text.quoteChars .document "a\"b".toList)
  have hblank : Blanks [' '] := .space rfl .nil
  have hcomment : Blanks [' ', '/', '*', '*', '/'] := .space rfl (.block .close .nil)
  have hnewline : Blanks ['\n'] := .space rfl .nil
  refine ⟨write, ?_, ?_⟩
  · refine List.forall_mem_cons.2 ⟨?_, List.forall_mem_singleton.2 ?_⟩
    · exact .intro (.inr rfl) .nil hblank
    · exact .intro (.inl rfl) .nil .nil
  · have hinside : Laid [write .refreshesOnEntry, write .startTitle]
        ([] ++ write .refreshesOnEntry ++ [' ', '/', '*', '*', '/'] ++
          ',' :: ([] ++ write .startTitle ++ ['\n'])) :=
      .cons .nil hcomment (.last .nil hnewline)
    exact .intro .nil (.named (.inl rfl) .nil) hinside .nil

/-- A part that stands twice is refused, even if only what it holds the first time is right and
another field is not known. -/
theorem parts_read_back_ringing :
    Settings.parse ringing.toTree.render = .ok ringing ∧
      Settings.parse rearranged = .ok { startTitle := "a\"b", refreshesOnEntry := false } ∧
      Settings.parse "(tick_event:\"\",other:[1,(2)],tick_event:3)" = .error .malformed := by
  have hnames : fieldNames? "EngineConfig" "(tick_event:\"\",other:[1,(2)],tick_event:3)".toList =
      some ["tick_event", "other", "tick_event"] := by
    decide +kernel
  obtain ⟨hall, hchosen, hrepeated⟩ := ringing.parts_read_back
  exact ⟨hall, hchosen _ _ (by decide) writes_rearranged,
    hrepeated _ _ .tickTitle hnames (by decide)⟩

end Settings

end FlowGraph
