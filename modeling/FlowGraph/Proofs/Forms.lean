import FlowGraph.Document.Form
import FlowGraph.Proofs.Blocks
import FlowGraph.Proofs.Digits
import FlowGraph.Proofs.Quoted

/-!
# Forms and what is written

A form reads a tree back if it leads from what is written of the tree, at whatever depth and
whatever stops it, to the tree.  For each kind of form there is a lemma that says so of the
whole if it holds of the parts.  They also count the levels of nesting that are entered.
-/

namespace FlowGraph.Document

variable {α β γ : Type} {c opening closing : Char} {text rest written name : List Char}

/-! ## Names -/

/-- A name that begins no literal and stands as it is. -/
def isPlainName (name : List Char) : Bool :=
  literalMarks.all (fun mark => !mark.isPrefixOf name && !name.isPrefixOf mark)
    && name.head?.any (fun c => Text.isIdentifierStart c && opensContent c)
    && name.tail.all Text.isIdentifierPart

theorem begins_of_isPlainName (h : isPlainName name = true) : Begins name := by
  cases name with
  | nil => cases h
  | cons c tail =>
    simp only [isPlainName, List.head?_cons, Option.any_some, Bool.and_eq_true] at h
    exact ⟨c, tail, rfl, h.1.2.2⟩

/-- What a mark and a name begin with cannot be the same. -/
theorem not_mark_of_isPlainName (h : isPlainName name = true) (rest : List Char) :
    (literalMarks.any fun mark => mark.isPrefixOf (name ++ rest)) = false := by
  simp only [isPlainName, Bool.and_eq_true, List.all_eq_true, Bool.not_eq_true'] at h
  rw [List.any_eq_false]
  intro mark hmark hprefix
  obtain ⟨hshort, hlong⟩ := h.1.1 mark hmark
  rcases List.prefix_or_prefix_of_prefix (List.isPrefixOf_iff_prefix.1 hprefix)
    (List.prefix_append name rest) with hmarkName | hnameMark
  · rw [List.isPrefixOf_iff_prefix.2 hmarkName] at hshort
    cases hshort
  · rw [List.isPrefixOf_iff_prefix.2 hnameMark] at hlong
    cases hlong

theorem tail_of_isPlainName (h : isPlainName (c :: text) = true) :
    Text.isIdentifierStart c = true ∧ ∀ d ∈ text, Text.isIdentifierPart d = true := by
  simp only [isPlainName, List.head?_cons, Option.any_some, List.tail_cons, Bool.and_eq_true,
    List.all_eq_true] at h
  exact ⟨h.1.2.1, h.2⟩

/-- A plain name is read as an identifier up to what stops it. -/
theorem readIdentifier?_of_isPlainName (h : isPlainName name = true) (hrest : Stops rest) :
    readIdentifier? (name ++ rest) = some ⟨String.ofList name, false, rest⟩ := by
  have hmark := not_mark_of_isPlainName h rest
  have hstop : ∀ d ∈ rest.head?, Text.isIdentifierPart d = false := by
    intro d hd
    have hraw := hrest d hd
    simp only [isRawPart, Bool.or_eq_false_iff] at hraw
    exact hraw.1.1.1
  cases name with
  | nil => cases h
  | cons c tail =>
    obtain ⟨hstart, htail⟩ := tail_of_isPlainName h
    rw [readIdentifier?.eq_def, hmark, if_neg Bool.false_ne_true, List.cons_append]
    split
    next more heq =>
      -- A raw identifier begins with characters that no plain name has in this order.
      obtain ⟨rfl, hmore⟩ := List.cons.inj heq
      cases tail with
      | nil => exact absurd h (by decide)
      | cons d tail =>
        obtain rfl := (List.cons.inj hmore).1
        exact absurd (htail '#' List.mem_cons_self) (by decide)
    next d more hnot heq =>
      obtain ⟨rfl, rfl⟩ := List.cons.inj heq
      rw [if_pos hstart, takeWhile_append_of_stop htail hstop]
      dsimp only
      rw [List.drop_left]
    next heq => cases heq

theorem reads_readName {name : String} (h : isPlainName name.toList = true) :
    Reader.Reads readName name.toList name where
  begins := begins_of_isPlainName h
  reads := by
    intro rest hrest
    rw [readName, readIdentifier?_of_isPlainName h hrest, Option.map_some, String.ofList_toList]

/-! ## Readers at a place -/

/-- A place where nothing is switched on, with a number of levels left. -/
abbrev Place.plain (room : Nat) : Place := { dialect := {}, room }

theorem Reader.Reads.map {reader : Reader α} {a : α} (h : reader.Reads written a) (f : α → β) :
    (Reader.map f reader).Reads written (f a) where
  begins := h.begins
  reads := by
    intro rest hrest
    rw [Reader.map, h.reads rest hrest, Option.map_some]

/-- Content with blanks around it is read up to what closes it. -/
theorem Reader.Reads.padded {reader : Reader α} {a : α} (h : reader.Reads written a)
    (hclosing : isClosing closing = true) (rest : List Char) :
    Document.padded reader (written ++ closing :: rest) = some (a, closing :: rest) := by
  have hcomma : skipComma (closing :: rest) = some (false, closing :: rest) :=
    Blanks.nil.skipComma_closing hclosing rest
  rw [Document.padded, skipBlank_of_begins (h.begins.append _)]
  simp only [Option.bind_eq_bind, Option.bind_some, h.reads _ (stops_closing hclosing rest), hcomma]
  rfl

/-- What stands between two brackets is read together with them. -/
theorem between_cons (opening : Char) {body : Reader α} {a : α}
    (h : ∀ rest, body (written ++ closing :: rest) = some (a, closing :: rest)) (rest : List Char) :
    between opening closing body (opening :: (written ++ closing :: rest)) = some (a, rest) := by
  rw [between, expect, if_pos rfl]
  simp only [Option.bind_eq_bind, Option.bind_some, h rest, expect, if_true]
  rfl

theorem between_append (opening : Char) {body : Reader α} {a : α}
    (h : ∀ rest, body (written ++ closing :: rest) = some (a, closing :: rest)) (rest : List Char) :
    between opening closing body (opening :: written ++ [closing] ++ rest) = some (a, rest) := by
  rw [List.cons_append, List.cons_append, List.append_assoc, List.singleton_append]
  exact between_cons opening h rest

theorem reads_between {body : Reader α} {a : α} (hopening : opensContent opening = true)
    (h : ∀ rest, body (written ++ closing :: rest) = some (a, closing :: rest)) :
    (between opening closing body).Reads (opening :: written ++ [closing]) a where
  begins := ⟨opening, written ++ [closing], rfl, hopening⟩
  reads := fun rest _ => between_append opening h rest

/-- However they are laid out, parts are read two levels further in. -/
theorem Laid.readParts (part : Place → Reader α) (hclosing : isClosing closing = true)
    {items : List γ} {write : γ → List Char} {value : γ → α} {room : Nat}
    (hlaid : Laid (items.map write) text)
    (hitems : ∀ i ∈ items, (part (.plain room)).Reads (write i) (value i)) (rest : List Char) :
    Document.readParts closing part (.plain (room + 2)) (text ++ closing :: rest) =
      some (items.map value, closing :: rest) := by
  have hparts : ∀ p ∈ items.map fun i => (write i, value i),
      (part (.plain room)).Reads p.1 p.2 := List.forall_mem_map.2 hitems
  have hbegins : ∀ line ∈ items.map write, Begins line :=
    List.forall_mem_map.2 fun i hi => (hitems i hi).begins
  have hlength := hlaid.length_le hbegins
  have hwritten : (items.map fun i => (write i, value i)).map Prod.fst = items.map write := by
    rw [List.map_map]
    rfl
  have hcount : (items.map fun i => (write i, value i)).length <
      (text ++ closing :: rest).length + 1 := by
    rw [List.length_map] at hlength ⊢
    rw [List.length_append]
    omega
  rw [← hwritten] at hlaid
  have hread := hlaid.readItems hclosing hparts hcount rest
  rw [List.map_map] at hread
  exact hread

/-- In the place of a name before a parenthesis nothing is skipped. -/
theorem skipName_paren (name : String) (rest : List Char) :
    Dialect.skipName {} name ('(' :: rest) = some ('(' :: rest) := by
  rw [Dialect.skipName, List.head?_cons, Option.any_some, if_neg (by decide),
    if_neg Bool.false_ne_true]

theorem skipBlank_paren (rest : List Char) : skipBlank ('(' :: rest) = some ('(' :: rest) :=
  skipBlank_cons (by decide) (by decide) rest

/-! ## Writing by parts -/

namespace Tree

theorem write_number (depth : Nat) (token : List Char) : (Tree.number token).write depth = token :=
  rfl

theorem write_text (depth : Nat) (s : String) :
    (Tree.text s).write depth = Text.quoteChars .document s.toList := rfl

theorem write_truth (depth : Nat) (b : Bool) :
    (Tree.truth b).write depth = if b then ['t', 'r', 'u', 'e'] else ['f', 'a', 'l', 's', 'e'] :=
  rfl

theorem write_absent (depth : Nat) : Tree.absent.write depth = ['N', 'o', 'n', 'e'] := rfl

theorem write_present (depth : Nat) (content : Tree) :
    (Tree.present content).write depth =
      ['S', 'o', 'm', 'e'] ++ ('(' :: content.write depth ++ [')']) := rfl

theorem writeLines_eq (depth : Nat) (items : List Tree) :
    writeLines depth items =
      (items.map (write depth)).flatMap fun line => indent depth ++ line ++ [',', '\n'] := by
  induction items with
  | nil => rfl
  | cons item items ih =>
    rw [List.map_cons, List.flatMap_cons, ← ih]
    rfl

/-- The line of a field. -/
def writeField (depth : Nat) (field : String × Tree) : List Char :=
  field.1.toList ++ [':', ' '] ++ field.2.write depth

theorem writeFields_eq (depth : Nat) (fields : List (String × Tree)) :
    writeFields depth fields =
      (fields.map (writeField depth)).flatMap fun line => indent depth ++ line ++ [',', '\n'] := by
  induction fields with
  | nil => rfl
  | cons field fields ih =>
    have hwritten : writeFields depth (field :: fields) =
        indent depth ++ field.1.toList ++ [':', ' '] ++ field.2.write depth ++ [',', '\n'] ++
          writeFields depth fields := rfl
    rw [hwritten, ih, List.map_cons, List.flatMap_cons, writeField]
    simp only [List.append_assoc]

/-- The line of an entry. -/
def writeEntry (depth : Nat) (entry : Tree × Tree) : List Char :=
  entry.1.write depth ++ [':', ' '] ++ entry.2.write depth

theorem writeEntries_eq (depth : Nat) (entries : List (Tree × Tree)) :
    writeEntries depth entries =
      (entries.map (writeEntry depth)).flatMap fun line => indent depth ++ line ++ [',', '\n'] := by
  induction entries with
  | nil => rfl
  | cons entry entries ih =>
    have hwritten : writeEntries depth (entry :: entries) =
        indent depth ++ entry.1.write depth ++ [':', ' '] ++ entry.2.write depth ++ [',', '\n'] ++
          writeEntries depth entries := rfl
    rw [hwritten, ih, List.map_cons, List.flatMap_cons, writeEntry]
    simp only [List.append_assoc]

theorem writeItems_eq (depth : Nat) (items : List Tree) :
    writeItems depth items = writeSequence (items.map (write depth)) := by
  induction items with
  | nil => rfl
  | cons item items ih =>
    cases items with
    | nil => rfl
    | cons next items =>
      have hwritten : writeItems depth (item :: next :: items) =
          item.write depth ++ [',', ' '] ++ writeItems depth (next :: items) := rfl
      rw [hwritten, ih]
      rfl

theorem write_list (depth : Nat) (items : List Tree) :
    (Tree.list items).write depth =
      '[' :: writeBlock depth (items.map (write (depth + 1))) ++ [']'] := by
  cases items with
  | nil => rfl
  | cons item items =>
    have hwritten : (Tree.list (item :: items)).write depth =
        ['[', '\n'] ++ writeLines (depth + 1) (item :: items) ++ indent depth ++ [']'] := rfl
    rw [hwritten, writeLines_eq]
    rfl

theorem write_record (depth : Nat) (name : Option String) (fields : List (String × Tree)) :
    (Tree.record name fields).write depth =
      writeName name ++
        ('(' :: writeBlock depth (fields.map (writeField (depth + 1))) ++ [')']) := by
  cases fields with
  | nil => rfl
  | cons field fields =>
    have hwritten : (Tree.record name (field :: fields)).write depth =
        writeName name ++ ['(', '\n'] ++ writeFields (depth + 1) (field :: fields) ++
          indent depth ++ [')'] := rfl
    rw [hwritten, writeFields_eq, writeBlock, List.map_cons, List.isEmpty_cons,
      if_neg Bool.false_ne_true]
    simp only [List.append_assoc, List.cons_append, List.nil_append]

theorem write_table (depth : Nat) (entries : List (Tree × Tree)) :
    (Tree.table entries).write depth =
      '{' :: writeBlock depth (entries.map (writeEntry (depth + 1))) ++ ['}'] := by
  cases entries with
  | nil => rfl
  | cons entry entries =>
    have hwritten : (Tree.table (entry :: entries)).write depth =
        ['{', '\n'] ++ writeEntries (depth + 1) (entry :: entries) ++ indent depth ++ ['}'] := rfl
    rw [hwritten, writeEntries_eq]
    rfl

theorem write_group (depth : Nat) (name : Option String) (items : List Tree) :
    (Tree.group name items).write depth =
      writeName name ++ ('(' :: writeSequence (items.map (write depth)) ++ [')']) := by
  have hwritten : (Tree.group name items).write depth =
      writeName name ++ '(' :: writeItems depth items ++ [')'] := rfl
  rw [hwritten, writeItems_eq, List.append_assoc]

end Tree

/-! ## Forms -/

/-- A form reads a tree back from what is written of it, at every depth, if the given number
of levels may still be entered. -/
def Form.Reads (form : Form) (t : Tree) (levels : Nat) : Prop :=
  ∀ depth room, levels ≤ room → Reader.Reads (form (.plain room)) (t.write depth) t

namespace Form

variable {form key : Form} {forms : List (String × Form)} {t : Tree} {items : List Tree}
  {fields : List (String × Tree)} {levels more : Nat}

theorem Reads.mono (h : form.Reads t levels) (hle : levels ≤ more) : form.Reads t more :=
  fun depth room hroom => h depth room (hle.trans hroom)

theorem reads_number {token : List Char} (hbegins : Begins token)
    (htoken : ∀ c ∈ token, isRawPart c = true) : Form.number.Reads (.number token) 0 := by
  intro depth room _
  refine ⟨hbegins, fun rest hrest => ?_⟩
  have hne : token.isEmpty = false := by
    obtain ⟨c, more, rfl, -⟩ := hbegins
    rfl
  rw [Tree.write_number, number, takeWhile_append_of_stop htoken hrest, hne,
    if_neg Bool.false_ne_true, List.drop_left]

theorem reads_text (s : String) : Form.text.Reads (.text s) 0 := by
  intro depth room _
  refine ⟨⟨'"', _, rfl, by decide⟩, fun rest _ => ?_⟩
  rw [Tree.write_text, Form.text, Reader.map, readString_quoteChars, Option.map_some]
  exact congrArg (fun s => some (Tree.text s, rest)) String.ofList_toList

theorem reads_truth (b : Bool) : Form.truth.Reads (.truth b) 0 := by
  intro depth room _
  cases b with
  | true =>
    have hname : isPlainName ['t', 'r', 'u', 'e'] = true := by decide
    refine ⟨begins_of_isPlainName hname, fun rest hrest => ?_⟩
    rw [Tree.write_truth, if_pos rfl, Form.truth, readIdentifier?_of_isPlainName hname hrest]
    rfl
  | false =>
    have hname : isPlainName ['f', 'a', 'l', 's', 'e'] = true := by decide
    refine ⟨begins_of_isPlainName hname, fun rest hrest => ?_⟩
    rw [Tree.write_truth, if_neg Bool.false_ne_true, Form.truth,
      readIdentifier?_of_isPlainName hname hrest]
    rfl

theorem reads_list (h : ∀ item ∈ items, form.Reads item levels) :
    (Form.list form).Reads (.list items) (levels + 2) := by
  intro depth room hroom
  obtain ⟨room, rfl⟩ : ∃ r, room = r + 2 := ⟨room - 2, by omega⟩
  have hclosing : isClosing ']' = true := rfl
  have hitems : ∀ item ∈ items, (form (.plain room)).Reads (item.write (depth + 1)) item :=
    fun item hitem => h item hitem (depth + 1) room (by omega)
  have hblock := (laid_writeBlock depth _).readParts form hclosing hitems
  rw [List.map_id'] at hblock
  rw [Tree.write_list]
  exact (reads_between (by decide) hblock).map Tree.list

theorem reads_table {entries : List (Tree × Tree)}
    (h : ∀ e ∈ entries, key.Reads e.1 levels ∧ form.Reads e.2 levels) :
    (Form.table key form).Reads (.table entries) (levels + 2) := by
  intro depth room hroom
  obtain ⟨room, rfl⟩ : ∃ r, room = r + 2 := ⟨room - 2, by omega⟩
  have hclosing : isClosing '}' = true := rfl
  have hentries : ∀ e ∈ entries, Reader.Reads
      (readKeyed (key (.plain room)) fun _ => form (.plain room))
      (e.1.write (depth + 1) ++ [':', ' '] ++ e.2.write (depth + 1)) e := by
    intro e he
    obtain ⟨hkey, hcontent⟩ := h e he
    exact (hkey (depth + 1) room (by omega)).readKeyed (hcontent (depth + 1) room (by omega))
  have hblock := (laid_writeBlock depth _).readParts
    (fun q => readKeyed (key q) fun _ => form q) hclosing hentries
  rw [List.map_id'] at hblock
  rw [Tree.write_table]
  exact (reads_between (by decide) hblock).map Tree.table

theorem reads_absent : (Form.optional form).Reads .absent levels := by
  intro depth room _
  have hname : isPlainName ['N', 'o', 'n', 'e'] = true := by decide
  refine ⟨begins_of_isPlainName hname, fun rest hrest => ?_⟩
  rw [Tree.write_absent, Form.optional, Reader.map, readOptional]
  dsimp only
  rw [readIdentifier?_of_isPlainName hname hrest]
  rfl

theorem reads_present (h : form.Reads t levels) :
    (Form.optional form).Reads (.present t) (levels + 1) := by
  intro depth room hroom
  obtain ⟨room, rfl⟩ : ∃ r, room = r + 1 := ⟨room - 1, by omega⟩
  have hname : isPlainName ['S', 'o', 'm', 'e'] = true := by decide
  have hcontent := h depth room (by omega)
  have hheld : ∀ rest, padded (Place.enterHeld form (.plain (room + 1)))
      (t.write depth ++ ')' :: rest) = some (t, ')' :: rest) :=
    hcontent.padded rfl
  refine ⟨(begins_of_isPlainName hname).append _, fun rest hrest => ?_⟩
  have htext : (Tree.present t).write depth ++ rest =
      ['S', 'o', 'm', 'e'] ++ ('(' :: t.write depth ++ [')'] ++ rest) := by
    rw [Tree.write_present]
    simp only [List.append_assoc, List.cons_append, List.nil_append]
  have hstops : Stops ('(' :: t.write depth ++ [')'] ++ rest) := stops_cons (by decide) _
  have hread : Reader.map some (between '(' ')' (padded (Place.enterHeld form (.plain (room + 1)))))
      ('(' :: t.write depth ++ [')'] ++ rest) = some (some t, rest) := by
    rw [Reader.map, between_append '(' hheld]
    rfl
  have hskip : skipBlank ('(' :: t.write depth ++ [')'] ++ rest) =
      some ('(' :: t.write depth ++ [')'] ++ rest) := skipBlank_paren _
  have hnone : (String.ofList ['S', 'o', 'm', 'e'] == "None") = false := by decide
  have hsome : (String.ofList ['S', 'o', 'm', 'e'] == "Some") = true := by decide
  rw [htext, Form.optional, Reader.map, readOptional]
  dsimp only
  rw [readIdentifier?_of_isPlainName hname hstops]
  simp only [Identifier.isWord, hnone, hsome, Bool.not_false, Bool.and_false, Bool.and_true,
    Bool.false_eq_true, if_false, if_true, Option.bind_eq_bind, hskip, Option.bind_some]
  rw [List.cons_append, List.cons_append, List.head?_cons, if_pos rfl, ← List.cons_append,
    ← List.cons_append, hread]
  rfl

/-- Without a name, a group that only wraps its content is read with it. -/
theorem reads_wrapped (name : String) (h : form.Reads t levels) :
    (Form.wrapped name form).Reads (.group none [t]) (levels + 1) := by
  intro depth room hroom
  obtain ⟨room, rfl⟩ : ∃ r, room = r + 1 := ⟨room - 1, by omega⟩
  have hcontent := h depth room (by omega)
  have hheld : ∀ rest, padded (Place.enter form (.plain (room + 1)))
      (t.write depth ++ ')' :: rest) = some (t, ')' :: rest) :=
    hcontent.padded rfl
  have hopening : opensContent '(' = true := by decide
  have hgroup := (reads_between hopening hheld).map fun t => Tree.group none [t]
  have hwritten : (Tree.group none [t]).write depth = '(' :: t.write depth ++ [')'] := rfl
  rw [hwritten]
  refine ⟨hgroup.begins, fun rest hrest => ?_⟩
  have hread := hgroup.reads rest hrest
  have hskip := skipBlank_paren (t.write depth ++ [')'] ++ rest)
  have hname := skipName_paren name (t.write depth ++ [')'] ++ rest)
  rw [Form.wrapped, Bool.or_false, if_neg Bool.false_ne_true]
  dsimp only [Place.plain]
  rw [List.cons_append, List.cons_append, hname, Option.bind_eq_bind, Option.bind_some, hskip]
  exact hread

/-- Without a name, a group of numbers is read with its parentheses. -/
theorem reads_numbers (name : String) (h : ∀ item ∈ items, Form.number.Reads item 0) :
    (Form.numbers name items.length).Reads (.group none items) 2 := by
  intro depth room hroom
  obtain ⟨room, rfl⟩ : ∃ r, room = r + 2 := ⟨room - 2, by omega⟩
  have hparts : ∀ p ∈ items.map fun item => (item.write depth, item),
      (Form.number (.plain room)).Reads p.1 p.2 :=
    List.forall_mem_map.2 fun item hitem => h item hitem depth room (Nat.zero_le _)
  have hitems : ∀ rest, (Place.enter (fun whole => readExactly (whole.enter number) items.length)
      (.plain (room + 2))) (writeSequence (items.map (Tree.write depth)) ++ ')' :: rest) =
        some (items, ')' :: rest) := by
    intro rest
    have hclosing : isClosing ')' = true := rfl
    have hread := readExactly_writeSequence hclosing hparts rest
    rw [List.map_map, List.map_map, List.length_map] at hread
    exact hread.trans (by rw [Function.comp_def, List.map_id'])
  have hopening : opensContent '(' = true := by decide
  have hgroup := (reads_between hopening hitems).map (Tree.group none)
  have hwritten : (Tree.group none items).write depth =
      '(' :: writeSequence (items.map (Tree.write depth)) ++ [')'] :=
    Tree.write_group depth none items
  rw [hwritten]
  refine ⟨hgroup.begins, fun rest hrest => ?_⟩
  have hread := hgroup.reads rest hrest
  have hname := skipName_paren name
    (writeSequence (items.map (Tree.write depth)) ++ [')'] ++ rest)
  rw [Form.numbers, if_neg Bool.false_ne_true]
  dsimp only [Place.plain]
  rw [List.cons_append, List.cons_append, hname, Option.bind_eq_bind, Option.bind_some]
  exact hread

/-- However they are laid out, fields are read up to the closing parenthesis if none stands
twice. -/
theorem fields_of_laid {γ : Type} {items : List γ} {write : γ → List Char}
    {field : γ → String × Tree} {room : Nat} (hlaid : Laid (items.map write) text)
    (hitems : ∀ i ∈ items, Reader.Reads (readKeyed readName (fieldContent forms (.plain room)))
      (write i) ((field i).1, some (field i).2))
    (hdistinct : (items.map fun i => (field i).1).Nodup) (rest : List Char) :
    Form.fields forms (.plain (room + 2)) (text ++ ')' :: rest) =
      some (items.map field, ')' :: rest) := by
  have hclosing : isClosing ')' = true := rfl
  have hread := hlaid.readParts (fun q => readKeyed readName (fieldContent forms q)) hclosing
    hitems rest
  have hknown : (items.map fun i => ((field i).1, some (field i).2)).filterMap
      (fun part : String × Option Tree => part.2.map (part.1, ·)) = items.map field := by
    rw [List.filterMap_map]
    exact congrFun List.filterMap_eq_map items
  have honce : (forms.all fun form => (items.map field).countP (fun f => f.1 == form.1) ≤ 1) =
      true := by
    rw [List.all_eq_true]
    intro form _
    have hcount := List.nodup_iff_count.1 hdistinct form.1
    rw [List.count_eq_countP, List.countP_map] at hcount
    rw [List.countP_map]
    exact decide_eq_true hcount
  rw [Form.fields, hread, Option.bind_eq_bind, Option.bind_some]
  dsimp only
  rw [hknown, if_pos honce]
  rfl

/-- The fields of a record with the forms of their contents. -/
structure ReadsFields (forms : List (String × Form)) (fields : List (String × Tree))
    (levels : Nat) : Prop where
  names : fields.map Prod.fst = forms.map Prod.fst
  distinct : (forms.map Prod.fst).Nodup
  plain : ∀ name ∈ forms.map Prod.fst, isPlainName name.toList = true
  reads : ∀ field ∈ fields, ∃ form, forms.lookup field.1 = some form ∧ form.Reads field.2 levels

theorem ReadsFields.fields_read (h : ReadsFields forms fields levels) {room : Nat}
    (hroom : levels ≤ room) (depth : Nat) (rest : List Char) :
    Form.fields forms (.plain (room + 2))
        (writeBlock depth (fields.map (Tree.writeField (depth + 1))) ++ ')' :: rest) =
      some (fields, ')' :: rest) := by
  have hfields : ∀ field ∈ fields,
      Reader.Reads (readKeyed readName (fieldContent forms (.plain room)))
        (Tree.writeField (depth + 1) field) (field.1, some field.2) := by
    intro field hfield
    obtain ⟨form, hform, hreads⟩ := h.reads field hfield
    have hname : isPlainName field.1.toList = true := by
      apply h.plain
      rw [← h.names]
      exact List.mem_map_of_mem hfield
    have hcontent := (hreads (depth + 1) room hroom).map some
    apply (reads_readName hname).readKeyed
    rw [fieldContent, hform]
    exact hcontent
  have hread : Form.fields forms (.plain (room + 2))
      (writeBlock depth (fields.map (Tree.writeField (depth + 1))) ++ ')' :: rest) =
        some (fields.map id, ')' :: rest) :=
    fields_of_laid (laid_writeBlock depth _) hfields (h.names ▸ h.distinct) rest
  rw [List.map_id] at hread
  exact hread

/-- Without a name, a record is read with its parentheses. -/
theorem reads_record (name : String) (h : ReadsFields forms fields levels) :
    (Form.record name forms).Reads (.record none fields) (levels + 2) := by
  intro depth room hroom
  obtain ⟨room, rfl⟩ : ∃ r, room = r + 2 := ⟨room - 2, by omega⟩
  have hopening : opensContent '(' = true := by decide
  have hbody := (reads_between hopening (h.fields_read (by omega : levels ≤ room) depth)).map
    (Tree.record none)
  have hwritten : (Tree.record none fields).write depth =
      '(' :: writeBlock depth (fields.map (Tree.writeField (depth + 1))) ++ [')'] :=
    Tree.write_record depth none fields
  rw [hwritten]
  refine ⟨hbody.begins, fun rest hrest => ?_⟩
  have hread := hbody.reads rest hrest
  have hskip := skipBlank_paren
    (writeBlock depth (fields.map (Tree.writeField (depth + 1))) ++ [')'] ++ rest)
  have hname := skipName_paren name
    (writeBlock depth (fields.map (Tree.writeField (depth + 1))) ++ [')'] ++ rest)
  rw [Form.record, if_neg Bool.false_ne_true]
  dsimp only [Place.plain]
  rw [List.cons_append, List.cons_append, hname, Option.bind_eq_bind, Option.bind_some, hskip,
    Option.bind_some]
  exact hread

/-! ## Alternatives -/

variable {alternatives : List (String × Holding)} {name : String} {holding : Holding}

/-- The name of an alternative leads to what it holds, one level further in. -/
theorem choice_append (hname : isPlainName name.toList = true)
    (hholding : alternatives.lookup name = some holding) (room : Nat) (hrest : Stops rest) :
    Form.choice alternatives (.plain (room + 2)) (name.toList ++ rest) =
      holding.read name (.plain (room + 1)) rest := by
  have hskip : skipBlank (name.toList ++ rest) = some (name.toList ++ rest) :=
    skipBlank_of_begins ((begins_of_isPlainName hname).append rest)
  have hread : Place.enter (fun _ => readName) (.plain (room + 1)) (name.toList ++ rest) =
      some (name, rest) := (reads_readName hname).reads rest hrest
  rw [Form.choice, Place.enter]
  dsimp only
  rw [hskip, Option.bind_eq_bind, Option.bind_some, hread, Option.bind_eq_bind, Option.bind_some,
    hholding, Option.bind_eq_bind, Option.bind_some]

theorem reads_word (hname : isPlainName name.toList = true)
    (hholding : alternatives.lookup name = some .nothing) :
    (Form.choice alternatives).Reads (.word name) 2 := by
  intro depth room hroom
  obtain ⟨room, rfl⟩ : ∃ r, room = r + 2 := ⟨room - 2, by omega⟩
  refine ⟨begins_of_isPlainName hname, fun rest hrest => ?_⟩
  exact choice_append hname hholding room hrest

theorem reads_holding (hname : isPlainName name.toList = true)
    (hholding : alternatives.lookup name = some (.content form)) (h : form.Reads t levels) :
    (Form.choice alternatives).Reads (.group (some name) [t]) (levels + 2) := by
  intro depth room hroom
  obtain ⟨room, rfl⟩ : ∃ r, room = r + 2 := ⟨room - 2, by omega⟩
  have hheld : ∀ rest, padded (Place.enterHeld form (.plain (room + 1)))
      (t.write depth ++ ')' :: rest) = some (t, ')' :: rest) :=
    (h depth room (by omega)).padded rfl
  have hwritten : (Tree.group (some name) [t]).write depth =
      name.toList ++ ('(' :: t.write depth ++ [')']) := Tree.write_group depth (some name) [t]
  rw [hwritten]
  refine ⟨(begins_of_isPlainName hname).append _, fun rest hrest => ?_⟩
  have hstops : Stops ('(' :: t.write depth ++ [')'] ++ rest) := stops_cons (by decide) _
  have hskip := skipBlank_paren (t.write depth ++ [')'] ++ rest)
  rw [List.append_assoc, choice_append hname hholding room hstops, Holding.read]
  dsimp only
  rw [List.cons_append, List.cons_append, hskip, Option.bind_eq_bind, Option.bind_some, Reader.map,
    ← List.cons_append, ← List.cons_append, between_append '(' hheld]
  rfl

theorem reads_variant (hname : isPlainName name.toList = true)
    (hholding : alternatives.lookup name = some (.fields forms))
    (h : ReadsFields forms fields levels) :
    (Form.choice alternatives).Reads (.record (some name) fields) (levels + 3) := by
  intro depth room hroom
  obtain ⟨room, rfl⟩ : ∃ r, room = r + 3 := ⟨room - 3, by omega⟩
  rw [Tree.write_record]
  refine ⟨(begins_of_isPlainName hname).append _, fun rest hrest => ?_⟩
  have hbody := between_append '(' (h.fields_read (by omega : levels ≤ room) depth) rest
  have hstops : Stops ('(' :: writeBlock depth (fields.map (Tree.writeField (depth + 1))) ++
      [')'] ++ rest) := stops_cons (by decide) _
  have hskip := skipBlank_paren
    (writeBlock depth (fields.map (Tree.writeField (depth + 1))) ++ [')'] ++ rest)
  have hwritten : writeName (some name) = name.toList := rfl
  rw [hwritten, List.append_assoc, choice_append hname hholding (room + 1) hstops, Holding.read]
  dsimp only
  rw [List.cons_append, List.cons_append, hskip, Option.bind_eq_bind, Option.bind_some, Reader.map,
    ← List.cons_append, ← List.cons_append, hbody]
  rfl

end Form

end FlowGraph.Document
