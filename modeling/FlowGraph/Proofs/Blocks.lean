import FlowGraph.Document.Write
import FlowGraph.Proofs.Layout

/-!
# Blocks

What stands between two brackets is written with each part on a line of its own, or all parts
on one line with a comma and a blank between each and the next.  Both are read back part by
part.
-/

namespace FlowGraph.Document

variable {α κ : Type} {closing : Char} {item : Reader α} {parts : List (List Char × α)}

/-- The lines between two brackets.  Without lines there is nothing between them. -/
def writeBlock (depth : Nat) (lines : List (List Char)) : List Char :=
  if lines.isEmpty then []
  else '\n' :: lines.flatMap (fun line => indent (depth + 1) ++ line ++ [',', '\n']) ++ indent depth

/-! ## Lines -/

theorem blanks_indent (depth : Nat) : Blanks (indent depth) := by
  rw [indent]
  induction 4 * depth with
  | zero => exact .nil
  | succ count ih => exact .space rfl ih

/-- Lines are a layout, and blanks before the first belong to it. -/
theorem laid_lines (depth : Nat) (lines : List (List Char)) {blank : List Char}
    (hblank : Blanks blank) :
    Laid lines (blank ++ (lines.flatMap (fun line => indent (depth + 1) ++ line ++ [',', '\n']) ++
      indent depth)) := by
  induction lines generalizing blank with
  | nil => exact .none (hblank.append (blanks_indent depth))
  | cons line lines ih =>
    have hrest := ih (.space rfl .nil : Blanks ['\n'])
    have hlaid : Laid (line :: lines) (blank ++ indent (depth + 1) ++ line ++ [] ++ ',' :: _) :=
      .cons (hblank.append (blanks_indent (depth + 1))) .nil hrest
    simp only [List.append_assoc, List.cons_append, List.nil_append] at hlaid
    simp only [List.flatMap_cons, List.append_assoc, List.cons_append, List.nil_append]
    exact hlaid

theorem laid_writeBlock (depth : Nat) (lines : List (List Char)) :
    Laid lines (writeBlock depth lines) := by
  rw [writeBlock]
  split
  next hnone =>
    rw [List.isEmpty_iff.1 hnone]
    exact .none .nil
  next => exact laid_lines depth lines (.space rfl .nil)

/-- A key is read with the content behind its colon. -/
theorem Reader.Reads.readKeyed {key : Reader κ} {content : κ → Reader α} {k : κ} {a : α}
    {keyText contentText : List Char} (hkey : key.Reads keyText k)
    (hcontent : (content k).Reads contentText a) :
    (Document.readKeyed key content).Reads (keyText ++ [':', ' '] ++ contentText) (k, a) := by
  have hread := hkey.readKeyed_laid hcontent .nil (.space rfl .nil : Blanks [' '])
  rw [List.append_nil] at hread
  rw [List.append_assoc]
  exact hread

/-! ## Sequences -/

/-- Items with a comma and a blank between each and the next. -/
def writeSequence : List (List Char) → List Char
  | [] => []
  | [item] => item
  | item :: rest => item ++ [',', ' '] ++ writeSequence rest

theorem writeSequence_cons {lines : List (List Char)} (hne : lines ≠ []) (line : List Char) :
    writeSequence (line :: lines) = line ++ [',', ' '] ++ writeSequence lines := by
  rw [writeSequence]
  exact hne

theorem begins_writeSequence {lines : List (List Char)} (hne : lines ≠ [])
    (hbegins : ∀ line ∈ lines, Begins line) : Begins (writeSequence lines) := by
  cases lines with
  | nil => exact absurd rfl hne
  | cons line lines =>
    have hline := hbegins line List.mem_cons_self
    cases lines with
    | nil => exact hline
    | cons next lines =>
      rw [writeSequence_cons (List.cons_ne_nil next lines), List.append_assoc]
      exact hline.append _

/-- A sequence of items is read up to its closing bracket. -/
theorem readExactly_writeSequence (hclosing : isClosing closing = true)
    (hparts : ∀ part ∈ parts, item.Reads part.1 part.2)
    (rest : List Char) :
    readExactly item parts.length (writeSequence (parts.map Prod.fst) ++ closing :: rest) =
      some (parts.map Prod.snd, closing :: rest) := by
  induction parts with
  | nil => rfl
  | cons part parts ih =>
    obtain ⟨hpart, hrest⟩ := List.forall_mem_cons.1 hparts
    cases parts with
    | nil =>
      have hskip := skipBlank_of_begins (hpart.begins.append (closing :: rest))
      have hcomma : skipComma (closing :: rest) = some (false, closing :: rest) :=
        Blanks.nil.skipComma_closing hclosing rest
      rw [List.map_singleton, writeSequence, List.length_singleton, readExactly, hskip]
      simp only [Option.bind_eq_bind, Option.bind_some,
        hpart.reads _ (stops_closing hclosing rest), hcomma, readExactly]
      rfl
    | cons next parts =>
      generalize hmore : next :: parts = more at ih hrest
      have hne : more.map Prod.fst ≠ [] := by
        rw [← hmore]
        exact List.cons_ne_nil _ _
      have hsequence : writeSequence ((part :: more).map Prod.fst) ++ closing :: rest =
          part.1 ++ (',' :: ' ' :: (writeSequence (more.map Prod.fst) ++ closing :: rest)) := by
        rw [List.map_cons, writeSequence_cons hne]
        simp only [List.append_assoc, List.cons_append, List.nil_append]
      have hskip := skipBlank_of_begins
        ((begins_writeSequence hne (begins_of_reads hrest)).append (closing :: rest))
      have hcomma : skipComma (',' :: ' ' :: (writeSequence (more.map Prod.fst) ++
          closing :: rest)) = some (true, writeSequence (more.map Prod.fst) ++ closing :: rest) :=
        Blanks.nil.skipComma_append hskip
      rw [hsequence, List.length_cons, readExactly, skipBlank_of_begins (hpart.begins.append _)]
      simp only [Option.bind_eq_bind, Option.bind_some, hpart.reads _ (stops_comma _),
        hcomma, Bool.true_or, if_true, ih hrest]
      rfl

end FlowGraph.Document
