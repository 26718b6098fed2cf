import FlowGraph.Document.Name
import FlowGraph.Document.Reader

/-!
# Layouts

Between the parts of a document there may be blanks and comments, and behind the last part
before a closing bracket there may be a comma.  A reader that reads each part, whatever stops
it, reads all of them in any such layout: it passes over what stands between them, and the
closing bracket is no part.
-/

namespace FlowGraph.Document

variable {α κ : Type} {c closing : Char} {text rest written blank : List Char}
  {lines : List (List Char)}

/-- Whether content may begin with a character: it is not passed over, and it closes
nothing. -/
def opensContent (c : Char) : Bool :=
  !isBlank c && c != '/' && c != ')' && c != ']' && c != '}'

/-- A text that begins with content. -/
def Begins (text : List Char) : Prop := ∃ c rest, text = c :: rest ∧ opensContent c = true

/-- A text with which no name and no number goes on. -/
def Stops (text : List Char) : Prop := ∀ c ∈ text.head?, isRawPart c = false

/-- A reader reads a written text for what it stands for, whatever stops it. -/
structure Reader.Reads (reader : Reader α) (written : List Char) (a : α) : Prop where
  begins : Begins written
  reads : ∀ rest, Stops rest → reader (written ++ rest) = some (a, rest)

/-- What is left of a comment and of the given number of others around it, up to the end of
the outermost. -/
inductive CommentRest : Nat → List Char → Prop
  | close : CommentRest 0 ['*', '/']
  | leave {depth : Nat} {text : List Char} :
      CommentRest depth text → CommentRest (depth + 1) ('*' :: '/' :: text)
  | enter {depth : Nat} {text : List Char} :
      CommentRest (depth + 1) text → CommentRest depth ('/' :: '*' :: text)
  | pass {depth : Nat} {c : Char} {text : List Char}
      (hopens : c = '/' → text.head? ≠ some '*') (hcloses : c = '*' → text.head? ≠ some '/') :
      CommentRest depth text → CommentRest depth (c :: text)

/-- Blanks and comments. -/
inductive Blanks : List Char → Prop
  | nil : Blanks []
  | space {c : Char} {text : List Char} (hc : isBlank c = true) : Blanks text → Blanks (c :: text)
  | line {comment text : List Char} (hcomment : '\n' ∉ comment) :
      Blanks text → Blanks ('/' :: '/' :: comment ++ '\n' :: text)
  | block {comment text : List Char} (hcomment : CommentRest 0 comment) :
      Blanks text → Blanks ('/' :: '*' :: comment ++ text)

/-- Parts between two brackets: with blanks around each, commas between them, and perhaps one
behind the last. -/
inductive Laid : List (List Char) → List Char → Prop
  | none {blank : List Char} (hblank : Blanks blank) : Laid [] blank
  | last {before line after : List Char} (hbefore : Blanks before) (hafter : Blanks after) :
      Laid [line] (before ++ line ++ after)
  | cons {before line after text : List Char} {lines : List (List Char)} (hbefore : Blanks before)
      (hafter : Blanks after) (hrest : Laid lines text) :
      Laid (line :: lines) (before ++ line ++ after ++ ',' :: text)

theorem Begins.append (h : Begins text) (rest : List Char) : Begins (text ++ rest) := by
  obtain ⟨c, more, rfl, hc⟩ := h
  exact ⟨c, more ++ rest, rfl, hc⟩

theorem stops_cons (h : isRawPart c = false) (rest : List Char) : Stops (c :: rest) := by
  rintro d hd
  cases hd
  exact h

theorem stops_nil : Stops [] := fun _ h => nomatch h

theorem stops_comma (rest : List Char) : Stops (',' :: rest) := stops_cons (by decide) rest

/-! ## Blanks -/

/-- Nothing is skipped before a character that is neither a blank nor a slash. -/
theorem skipBlank_cons (hblank : isBlank c = false) (hslash : c ≠ '/') (rest : List Char) :
    skipBlank (c :: rest) = some (c :: rest) := by
  rw [skipBlank, skipFrom, if_neg (ne_true_of_eq_false hblank)]
  · exact fun _ h => absurd h hslash
  · exact fun _ h => absurd h hslash
  · exact fun h => absurd h hslash

theorem skipBlank_of_begins (h : Begins text) : skipBlank text = some text := by
  obtain ⟨c, rest, rfl, hc⟩ := h
  simp only [opensContent, Bool.and_eq_true, Bool.not_eq_true', bne_iff_ne] at hc
  exact skipBlank_cons hc.1.1.1.1 hc.1.1.1.2 rest

theorem skipFrom_between_cons (hblank : isBlank c = true) (rest : List Char) :
    skipFrom .between (c :: rest) = skipFrom .between rest := by
  have hslash : c ≠ '/' := by
    rintro rfl
    cases hblank
  rw [skipFrom, if_pos hblank]
  · exact fun _ h => absurd h hslash
  · exact fun _ h => absurd h hslash
  · exact fun h => absurd h hslash

theorem skipFrom_line (hcomment : '\n' ∉ text) (rest : List Char) :
    skipFrom .line (text ++ '\n' :: rest) = skipFrom .between rest := by
  induction text with
  | nil => rfl
  | cons c text ih =>
    obtain ⟨hc, htext⟩ := not_or.1 (mt List.mem_cons.2 hcomment)
    rw [List.cons_append, skipFrom, if_neg (Ne.symm hc), ih htext]

theorem skipFrom_block_cons (depth : Nat) (hopens : c = '/' → rest.head? ≠ some '*')
    (hcloses : c = '*' → rest.head? ≠ some '/') :
    skipFrom (.block depth) (c :: rest) = skipFrom (.block depth) rest := by
  rw [skipFrom]
  · rintro more hc rfl
    exact hopens hc rfl
  · rintro more - hc rfl
    exact hcloses hc rfl
  · rintro _ more - hc rfl
    exact hcloses hc rfl

theorem CommentRest.ne_nil {depth : Nat} (h : CommentRest depth text) : text ≠ [] := by
  cases h <;> exact List.cons_ne_nil _ _

theorem skipFrom_block {depth : Nat} (h : CommentRest depth text) (rest : List Char) :
    skipFrom (.block depth) (text ++ rest) = skipFrom .between rest := by
  induction h with
  | close => rfl
  | leave _ ih => exact ih
  | enter _ ih => exact ih
  | @pass depth c text hopens hcloses hrest ih =>
    have hhead : text.head? = (text ++ rest).head? := by
      obtain ⟨d, more, rfl⟩ := List.exists_cons_of_ne_nil hrest.ne_nil
      rfl
    rw [List.cons_append, skipFrom_block_cons depth (hhead ▸ hopens) (hhead ▸ hcloses), ih]

/-- Blanks and comments are passed over. -/
theorem Blanks.skipBlank_append (h : Blanks blank) (text : List Char) :
    skipBlank (blank ++ text) = skipBlank text := by
  induction h with
  | nil => rfl
  | space hc _ ih => exact (skipFrom_between_cons hc _).trans ih
  | @line comment more hcomment _ ih =>
    have hskip := skipFrom_line hcomment (more ++ text)
    rw [List.append_assoc]
    exact hskip.trans ih
  | @block comment more hcomment _ ih =>
    have hskip := skipFrom_block hcomment (more ++ text)
    rw [List.append_assoc]
    exact hskip.trans ih

theorem Blanks.append {other : List Char} (h : Blanks blank) (hother : Blanks other) :
    Blanks (blank ++ other) := by
  induction h with
  | nil => exact hother
  | space hc _ ih => exact .space hc ih
  | line hcomment _ ih =>
    rw [List.append_assoc]
    exact .line hcomment ih
  | block hcomment _ ih =>
    rw [List.append_assoc]
    exact .block hcomment ih

theorem Blanks.skipBlank_begins (h : Blanks blank) (hbegins : Begins text) (rest : List Char) :
    skipBlank (blank ++ text ++ rest) = some (text ++ rest) := by
  rw [List.append_assoc, h.skipBlank_append]
  exact skipBlank_of_begins (hbegins.append rest)

/-! ## Parts -/

/-- The brackets that close a block. -/
def isClosing (c : Char) : Bool := c == ')' || c == ']' || c == '}'

theorem ne_of_isClosing {other : Char} (h : isClosing closing = true)
    (hother : isClosing other = false) : closing ≠ other := by
  rintro rfl
  rw [h] at hother
  cases hother

theorem isBlank_of_isClosing (h : isClosing closing = true) : isBlank closing = false := by
  simp only [isClosing, Bool.or_eq_true, beq_iff_eq] at h
  rcases h with (rfl | rfl) | rfl <;> decide

theorem isRawPart_of_isClosing (h : isClosing closing = true) : isRawPart closing = false := by
  simp only [isClosing, Bool.or_eq_true, beq_iff_eq] at h
  rcases h with (rfl | rfl) | rfl <;> decide

theorem stops_closing (h : isClosing closing = true) (rest : List Char) :
    Stops (closing :: rest) :=
  stops_cons (isRawPart_of_isClosing h) rest

theorem skipBlank_closing (h : isClosing closing = true) (rest : List Char) :
    skipBlank (closing :: rest) = some (closing :: rest) :=
  skipBlank_cons (isBlank_of_isClosing h) (ne_of_isClosing h (by decide)) rest

theorem Begins.head_ne_closing (h : Begins text) (hclosing : isClosing closing = true) :
    text.head? ≠ some closing := by
  obtain ⟨c, rest, rfl, hc⟩ := h
  intro hhead
  cases hhead
  simp only [isClosing, Bool.or_eq_true, beq_iff_eq] at hclosing
  rcases hclosing with (rfl | rfl) | rfl <;> cases hc

theorem Blanks.stops (h : Blanks blank) (hc : isRawPart c = false) (rest : List Char) :
    Stops (blank ++ c :: rest) := by
  have hblanks : ∀ d, isBlank d = true → isRawPart d = false := by
    intro d hd
    simp only [isBlank, List.mem_cons, List.not_mem_nil, or_false, decide_eq_true_eq] at hd
    rcases hd with rfl | rfl | rfl | rfl | rfl | rfl | rfl | rfl | rfl | rfl | rfl <;>
      decide +kernel
  cases h with
  | nil => exact stops_cons hc rest
  | space hd _ => exact stops_cons (hblanks _ hd) _
  | line _ _ => exact stops_cons (by decide) _
  | block _ _ => exact stops_cons (by decide) _

/-- A comma is passed over with the blanks around it. -/
theorem Blanks.skipComma_append (h : Blanks blank) (hrest : skipBlank text = some rest) :
    skipComma (blank ++ ',' :: text) = some (true, rest) := by
  rw [skipComma, h.skipBlank_append, skipBlank_cons (by decide) (by decide), Option.bind_eq_bind,
    Option.bind_some]
  simp only [hrest, Option.bind_some]
  rfl

/-- Where no comma is, blanks are passed over. -/
theorem Blanks.skipComma_closing (h : Blanks blank) (hclosing : isClosing closing = true)
    (rest : List Char) : skipComma (blank ++ closing :: rest) = some (false, closing :: rest) := by
  rw [skipComma, h.skipBlank_append, skipBlank_closing hclosing, Option.bind_eq_bind,
    Option.bind_some]
  split
  next heq => exact absurd (List.cons.inj heq).1 (ne_of_isClosing hclosing (by decide))
  next => rfl

variable {item : Reader α} {parts : List (List Char × α)}

/-- Items are read from behind the blanks before the first one. -/
theorem readItems_of_skipBlank (htext : skipBlank text = some rest)
    (hrest : skipBlank rest = some rest) (count : Nat) :
    readItems closing item count text = readItems closing item count rest := by
  cases count with
  | zero => rfl
  | succ count => rw [readItems, readItems, htext, hrest]

/-- What is read begins with content. -/
theorem begins_of_reads (hparts : ∀ part ∈ parts, item.Reads part.1 part.2) :
    ∀ line ∈ parts.map Prod.fst, Begins line :=
  List.forall_mem_map.2 fun part hpart => (hparts part hpart).begins

/-- The first part, or the closing bracket, stands behind the blanks. -/
theorem Laid.exists_skipBlank (h : Laid lines text) (hbegins : ∀ line ∈ lines, Begins line)
    (hclosing : isClosing closing = true) (rest : List Char) :
    ∃ first, skipBlank (text ++ closing :: rest) = some first ∧ skipBlank first = some first := by
  cases h with
  | none hblank =>
    have hskip := skipBlank_closing hclosing rest
    exact ⟨_, (hblank.skipBlank_append _).trans hskip, hskip⟩
  | last hbefore hafter =>
    have hbegin := hbegins _ List.mem_cons_self
    rw [List.append_assoc]
    exact ⟨_, hbefore.skipBlank_begins hbegin _, skipBlank_of_begins (hbegin.append _)⟩
  | cons hbefore hafter hrest =>
    have hbegin := hbegins _ List.mem_cons_self
    rw [List.append_assoc, List.append_assoc]
    exact ⟨_, hbefore.skipBlank_begins hbegin _, skipBlank_of_begins (hbegin.append _)⟩

/-- However they are laid out, items are read one with each step. -/
theorem Laid.readItems (hclosing : isClosing closing = true)
    (h : Laid (parts.map Prod.fst) text) (hparts : ∀ part ∈ parts, item.Reads part.1 part.2)
    {count : Nat} (hcount : parts.length < count) (rest : List Char) :
    readItems closing item count (text ++ closing :: rest) =
      some (parts.map Prod.snd, closing :: rest) := by
  obtain ⟨steps, rfl⟩ := Nat.exists_eq_succ_of_ne_zero (Nat.ne_of_gt (Nat.zero_lt_of_lt hcount))
  generalize hlines : parts.map Prod.fst = lines at h
  induction h generalizing parts steps with
  | none hblank =>
    obtain rfl := List.map_eq_nil_iff.1 hlines
    rw [Document.readItems, hblank.skipBlank_append, skipBlank_closing hclosing]
    simp only [Option.bind_eq_bind, Option.bind_some, List.head?_cons, if_true]
    rfl
  | @last before line after hbefore hafter =>
    obtain ⟨part, rfl, rfl⟩ := List.map_eq_singleton_iff.1 hlines
    have hpart := hparts part List.mem_cons_self
    have hstops := hafter.stops (isRawPart_of_isClosing hclosing) rest
    rw [List.append_assoc, Document.readItems, hbefore.skipBlank_begins hpart.begins]
    simp only [Option.bind_eq_bind, Option.bind_some]
    rw [if_neg ((hpart.begins.append _).head_ne_closing hclosing), hpart.reads _ hstops]
    simp only [Option.bind_some, hafter.skipComma_closing hclosing, Bool.false_eq_true, if_false,
      List.head?_cons, if_true]
    rfl
  | @cons before line after text lines hbefore hafter hrest ih =>
    obtain ⟨part, parts, rfl, rfl, rfl⟩ := List.map_eq_cons_iff.1 hlines
    obtain ⟨hpart, hparts⟩ := List.forall_mem_cons.1 hparts
    obtain ⟨first, hfirst, hagain⟩ :=
      hrest.exists_skipBlank (begins_of_reads hparts) hclosing rest
    obtain ⟨steps, rfl⟩ := Nat.exists_eq_succ_of_ne_zero
      (Nat.ne_of_gt (Nat.zero_lt_of_lt (Nat.lt_of_succ_lt_succ hcount)))
    have hread := ih hparts steps (Nat.lt_of_succ_lt_succ hcount) rfl
    rw [readItems_of_skipBlank hfirst hagain] at hread
    have hstops := hafter.stops (by decide : isRawPart ',' = false) (text ++ closing :: rest)
    rw [List.append_assoc, List.append_assoc, List.cons_append, Document.readItems,
      hbefore.skipBlank_begins hpart.begins]
    simp only [Option.bind_eq_bind, Option.bind_some]
    rw [if_neg ((hpart.begins.append _).head_ne_closing hclosing), hpart.reads _ hstops]
    simp only [Option.bind_some, hafter.skipComma_append hfirst, if_true, hread]
    rfl

/-- There are no more parts than characters. -/
theorem Laid.length_le (h : Laid lines text) (hbegins : ∀ line ∈ lines, Begins line) :
    lines.length ≤ text.length := by
  induction h with
  | none _ => exact Nat.zero_le _
  | last _ _ =>
    obtain ⟨c, rest, rfl, -⟩ := hbegins _ List.mem_cons_self
    simp only [List.length_append, List.length_cons, List.length_nil]
    omega
  | cons _ _ _ ih =>
    have hrest := ih (List.forall_mem_cons.1 hbegins).2
    simp only [List.length_append, List.length_cons]
    omega

/-! ## Keys -/

/-- A key is read with the content behind its colon. -/
theorem Reader.Reads.readKeyed_laid {key : Reader κ} {content : κ → Reader α} {k : κ} {a : α}
    {keyText contentText before after : List Char} (hkey : key.Reads keyText k)
    (hcontent : (content k).Reads contentText a) (hbefore : Blanks before) (hafter : Blanks after) :
    (Document.readKeyed key content).Reads (keyText ++ before ++ ':' :: (after ++ contentText))
      (k, a) where
  begins := by
    rw [List.append_assoc]
    exact hkey.begins.append _
  reads := by
    intro rest hrest
    have hstops := hbefore.stops (by decide : isRawPart ':' = false) (after ++ contentText ++ rest)
    rw [List.append_assoc, List.append_assoc, List.cons_append, Document.readKeyed,
      hkey.reads _ hstops, Option.bind_eq_bind, Option.bind_some]
    simp only [Option.bind_eq_bind, hbefore.skipBlank_append,
      skipBlank_cons (by decide : isBlank ':' = false) (by decide : ':' ≠ '/'), Option.bind_some,
      expect, if_true, hafter.skipBlank_begins hcontent.begins, hcontent.reads rest hrest]
    rfl

end FlowGraph.Document
