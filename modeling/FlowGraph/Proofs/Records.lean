import FlowGraph.Document.Read
import FlowGraph.Proofs.Forms

/-!
# Records in any layout

A document that is a record may be laid out freely: with blanks and comments around its parts,
with a comma behind the last field or without, with the name of the record before its
parenthesis or without, and with `r#` before any of the names.  In every such layout it is read
for the same tree.  The names of the fields can be made out whatever the fields hold; if a known
one stands twice among them, then nothing is read.
-/

namespace FlowGraph.Document

/-- A name as it is or behind `r#`. -/
def WritesName (name : String) (text : List Char) : Prop :=
  text = name.toList ∨ text = 'r' :: '#' :: name.toList

/-- What may stand before the opening parenthesis of a record with a name. -/
inductive Opening (name : String) : List Char → Prop
  | bare : Opening name []
  | named {title gap : List Char} (htitle : WritesName name title) (hgap : Blanks gap) :
      Opening name (title ++ gap)

/-- A field with blanks around its colon. -/
inductive LaidField (name : String) (content : List Char) : List Char → Prop
  | intro {key before after : List Char} (hkey : WritesName name key) (hbefore : Blanks before)
      (hafter : Blanks after) : LaidField name content (key ++ before ++ ':' :: (after ++ content))

/-- A document that is a record, with the texts of its fields. -/
inductive LaidRecord (name : String) (lines : List (List Char)) : List Char → Prop
  | intro {lead opening inside trail : List Char} (hlead : Blanks lead)
      (hopening : Opening name opening) (hinside : Laid lines inside) (htrail : Blanks trail) :
      LaidRecord name lines (lead ++ (opening ++ '(' :: (inside ++ ')' :: trail)))

/-- The names of the fields of a record at the start of a document, whatever the fields hold. -/
def fieldNames? (name : String) (text : List Char) : Option (List String) := do
  let (dialect, body) ← readAttributes (text.length + 1) {} (← skipBlank text)
  let rest ← skipBlank (← dialect.skipName name body)
  let part : Place → Reader String := fun q =>
    Reader.map Prod.fst (readKeyed readName fun _ => skipAny q)
  let (names, _) ← between '(' ')' (readParts ')' part { dialect, room := depthLimit }) rest
  return names

/-- Whatever a form reads is skipped where any content may stand. -/
def Form.Skips (form : Form) : Prop :=
  ∀ p : Place, p.isBare = false → ∀ text t rest,
    form p text = some (t, rest) → skipAny p text = some ((), rest)

variable {α β : Type} {name : String} {text rest title gap s : List Char}
  {lines : List (List Char)} {forms : List (String × Form)}

/-! ## Names -/

theorem isIdentifierPart_of_start {c : Char} (h : Text.isIdentifierStart c = true) :
    Text.isIdentifierPart c = true := by
  rw [Text.isIdentifierStart, Bool.or_eq_true, beq_iff_eq] at h
  rcases h with rfl | h
  · decide
  · rw [Text.isIdentifierPart, h]
    rfl

theorem isRawPart_of_isIdentifierPart {c : Char} (h : Text.isIdentifierPart c = true) :
    isRawPart c = true := by
  rw [isRawPart, h]
  rfl

theorem isRawPart_of_isPlainName (h : isPlainName name.toList = true) :
    ∀ c ∈ name.toList, isRawPart c = true := by
  cases hname : name.toList with
  | nil => exact nofun
  | cons c tail =>
    rw [hname] at h
    obtain ⟨hstart, htail⟩ := tail_of_isPlainName h
    exact List.forall_mem_cons.2
      ⟨isRawPart_of_isIdentifierPart (isIdentifierPart_of_start hstart),
        fun d hd => isRawPart_of_isIdentifierPart (htail d hd)⟩

theorem readIdentifier?_raw (h : isPlainName name.toList = true) (hrest : Stops rest) :
    readIdentifier? ('r' :: '#' :: name.toList ++ rest) = some ⟨name, true, rest⟩ := by
  have hraw := isRawPart_of_isPlainName h
  obtain ⟨c, tail, hname, -⟩ := begins_of_isPlainName h
  have hc : isRawPart c = true := hraw c (hname ▸ List.mem_cons_self)
  have hquote : c ≠ '"' := by
    rintro rfl
    exact absurd hc (by decide)
  have hhash : c ≠ '#' := by
    rintro rfl
    exact absurd hc (by decide)
  have hmark : (literalMarks.any fun mark =>
      mark.isPrefixOf ('r' :: '#' :: name.toList ++ rest)) = false := by
    simp [literalMarks, hname, List.isPrefixOf, hquote.symm, hhash.symm]
  have hempty : name.toList.isEmpty = false := by
    rw [hname]
    rfl
  rw [readIdentifier?.eq_def, hmark, if_neg Bool.false_ne_true]
  simp only [List.cons_append, takeWhile_append_of_stop hraw hrest, hempty, Bool.false_eq_true,
    if_false, List.drop_left, String.ofList_toList]

/-- Either way of writing a name is read as an identifier that gives it. -/
theorem WritesName.exists_readIdentifier? (hwrites : WritesName name text)
    (h : isPlainName name.toList = true) (hrest : Stops rest) :
    ∃ isRaw, readIdentifier? (text ++ rest) = some ⟨name, isRaw, rest⟩ := by
  rcases hwrites with rfl | rfl
  · have hread := readIdentifier?_of_isPlainName h hrest
    rw [String.ofList_toList] at hread
    exact ⟨false, hread⟩
  · exact ⟨true, readIdentifier?_raw h hrest⟩

theorem WritesName.begins (hwrites : WritesName name text) (h : isPlainName name.toList = true) :
    Begins text := by
  rcases hwrites with rfl | rfl
  · exact begins_of_isPlainName h
  · exact ⟨'r', _, rfl, by decide⟩

theorem WritesName.reads (hwrites : WritesName name text) (h : isPlainName name.toList = true) :
    Reader.Reads readName text name where
  begins := hwrites.begins h
  reads := by
    intro rest hrest
    obtain ⟨isRaw, hread⟩ := hwrites.exists_readIdentifier? h hrest
    rw [readName, hread, Option.map_some]

/-- A name begins with the part of an identifier, so that it does not begin an attribute. -/
theorem WritesName.exists_cons (hwrites : WritesName name text)
    (h : isPlainName name.toList = true) :
    ∃ c tail, text = c :: tail ∧ Text.isIdentifierPart c = true := by
  rcases hwrites with rfl | rfl
  · cases hname : name.toList with
    | nil =>
      rw [hname] at h
      cases h
    | cons c tail =>
      rw [hname] at h
      exact ⟨c, tail, rfl, isIdentifierPart_of_start (tail_of_isPlainName h).1⟩
  · exact ⟨'r', _, rfl, by decide⟩

/-- What stands before the opening parenthesis is passed over. -/
theorem Opening.skipName (hopening : Opening name text) (h : isPlainName name.toList = true)
    (rest : List Char) :
    (Dialect.skipName {} name (text ++ '(' :: rest)).bind skipBlank = some ('(' :: rest) := by
  cases hopening with
  | bare => rw [List.nil_append, skipName_paren, Option.bind_some, skipBlank_paren]
  | @named title gap htitle hgap =>
    obtain ⟨isRaw, hread⟩ := htitle.exists_readIdentifier? h
      (hgap.stops (by decide : isRawPart '(' = false) rest)
    obtain ⟨c, tail, htext, hc⟩ := htitle.exists_cons h
    have hhead : (title ++ (gap ++ '(' :: rest)).head?.any Text.isIdentifierPart = true := by
      rw [htext]
      exact hc
    rw [List.append_assoc, Dialect.skipName, if_pos hhead, hread]
    dsimp only
    rw [if_pos rfl, Option.bind_some, hgap.skipBlank_append, skipBlank_paren]

theorem Opening.begins (hopening : Opening name text) (h : isPlainName name.toList = true)
    (rest : List Char) : Begins (text ++ '(' :: rest) := by
  cases hopening with
  | bare => exact ⟨'(', rest, rfl, by decide⟩
  | named htitle hgap =>
    rw [List.append_assoc]
    exact (htitle.begins h).append _

/-! ## Reading -/

theorem readAttributes_of_head {c : Char} (hc : c ≠ '#') (count : Nat) (d : Dialect) :
    readAttributes (count + 1) d (c :: text) = some (d, c :: text) := by
  rw [readAttributes]
  exact fun tail heq => absurd (List.cons.inj heq).1 hc

/-- A record does not begin like an attribute. -/
theorem Opening.readAttributes (hopening : Opening name text) (h : isPlainName name.toList = true)
    (count : Nat) (d : Dialect) (rest : List Char) :
    readAttributes (count + 1) d (text ++ '(' :: rest) = some (d, text ++ '(' :: rest) := by
  cases hopening with
  | bare => rfl
  | named htitle hgap =>
    obtain ⟨c, tail, rfl, hc⟩ := htitle.exists_cons h
    apply readAttributes_of_head
    rintro rfl
    exact absurd hc (by decide)

/-- The way to the opening parenthesis of a record, and what follows from there. -/
structure Opened (name : String) (lines : List (List Char))
    (text body bare inside trail : List Char) : Prop where
  start : skipBlank text = some body
  attributes : ∀ count, readAttributes (count + 1) {} body = some ({}, body)
  name : Dialect.skipName {} name body = some bare
  opening : skipBlank bare = some ('(' :: (inside ++ ')' :: trail))
  inside : Laid lines inside
  trail : skipBlank trail = some []

theorem LaidRecord.exists_opened (h : LaidRecord name lines text)
    (hname : isPlainName name.toList = true) :
    ∃ body bare inside trail, Opened name lines text body bare inside trail := by
  cases h with
  | @intro lead opening inside trail hlead hopening hinside htrail =>
    obtain ⟨bare, hskipped, hbare⟩ :=
      Option.bind_eq_some_iff.1 (hopening.skipName hname (inside ++ ')' :: trail))
    have hskip := htrail.skipBlank_append []
    rw [List.append_nil] at hskip
    refine ⟨_, bare, inside, trail, ?_, ?_, hskipped, hbare, hinside, hskip⟩
    · rw [hlead.skipBlank_append]
      exact skipBlank_of_begins (hopening.begins hname _)
    · exact fun count => hopening.readAttributes hname count {} _

/-- A record in any layout is read field by field, if none stands twice. -/
theorem LaidRecord.read? {γ : Type} {items : List γ} {write : γ → List Char}
    {field : γ → String × Tree} (h : LaidRecord name (items.map write) text)
    (hname : isPlainName name.toList = true)
    (hitems : ∀ i ∈ items, Reader.Reads
      (readKeyed readName (Form.fieldContent forms (.plain (depthLimit - 2))))
      (write i) ((field i).1, some (field i).2))
    (hdistinct : (items.map fun i => (field i).1).Nodup) :
    Document.read? (Form.record name forms) text = some (.record none (items.map field)) := by
  obtain ⟨body, bare, inside, trail, hopened⟩ := h.exists_opened hname
  have hfields := Form.fields_of_laid hopened.inside hitems hdistinct
  have hbetween : between '(' ')' (Form.fields forms (.plain depthLimit))
      ('(' :: (inside ++ ')' :: trail)) = some (items.map field, trail) :=
    between_cons '(' hfields trail
  have hrecord : Form.record name forms (.plain depthLimit) body =
      some (.record none (items.map field), trail) := by
    rw [Form.record, if_neg Bool.false_ne_true]
    dsimp only [Place.plain] at hbetween ⊢
    rw [hopened.name, Option.bind_eq_bind, Option.bind_some, hopened.opening, Option.bind_some,
      Reader.map, hbetween, Option.map_some]
  rw [Document.read?, hopened.start, Option.bind_eq_bind, Option.bind_some, hopened.attributes,
    Option.bind_eq_bind, Option.bind_some]
  dsimp only
  rw [hrecord, Option.bind_eq_bind, Option.bind_some]
  dsimp only
  rw [hopened.trail]
  rfl

/-- The names of the fields of a record are made out in any layout. -/
theorem LaidRecord.fieldNames? {γ : Type} {items : List γ} {write : γ → List Char}
    {key : γ → String} (h : LaidRecord name (items.map write) text)
    (hname : isPlainName name.toList = true)
    (hitems : ∀ i ∈ items, Reader.Reads
      (readKeyed readName fun _ => skipAny (.plain (depthLimit - 2))) (write i) (key i, ())) :
    Document.fieldNames? name text = some (items.map key) := by
  obtain ⟨body, bare, inside, trail, hopened⟩ := h.exists_opened hname
  let part : Place → Reader String := fun q =>
    Reader.map Prod.fst (readKeyed readName fun _ => skipAny q)
  have hread : between '(' ')' (readParts ')' part (.plain depthLimit))
      ('(' :: (inside ++ ')' :: trail)) = some (items.map key, trail) :=
    between_cons '('
      (hopened.inside.readParts part rfl fun i hi => (hitems i hi).map Prod.fst) trail
  rw [Document.fieldNames?, hopened.start, Option.bind_eq_bind, Option.bind_some,
    hopened.attributes, Option.bind_eq_bind, Option.bind_some]
  dsimp only [Place.plain] at hread ⊢
  rw [hopened.name, Option.bind_eq_bind, Option.bind_some, hopened.opening, Option.bind_some, hread]
  rfl

/-! ## Texts and truth values are skipped -/

/-- Behind the `r` of raw text there are a quote or hash signs. -/
theorem exists_of_readRaw (h : readRaw text = some (s, rest)) :
    ∃ c more, text = c :: more ∧
      (c = '"' ∨ c = '#' ∧ ∃ d after, more = d :: after ∧ (d = '"' ∨ d = '#')) := by
  rw [readRaw] at h
  split at h
  next more hdrop =>
    cases text with
    | nil => cases hdrop
    | cons c more =>
      by_cases hc : c = '#'
      · subst hc
        refine ⟨'#', more, rfl, .inr ⟨rfl, ?_⟩⟩
        cases more with
        | nil => cases hdrop
        | cons d after =>
          by_cases hd : d = '#'
          · exact ⟨d, after, rfl, .inr hd⟩
          · simp [hd] at hdrop
            exact ⟨d, after, rfl, .inl hdrop.1⟩
      · simp [hc] at hdrop
        exact ⟨c, more, rfl, .inl hdrop.1⟩
  next => cases h

/-- A text literal does not begin like an identifier. -/
theorem readIdentifier?_of_readString (h : readString text = some (s, rest)) :
    readIdentifier? text = none := by
  rw [readString.eq_def] at h
  split at h
  next more =>
    have hstart : Text.isIdentifierStart '"' = false := by decide
    simp [readIdentifier?.eq_def, literalMarks, List.isPrefixOf, hstart]
  next more =>
    have hmark : (literalMarks.any fun mark => mark.isPrefixOf ('r' :: more)) = true := by
      obtain ⟨c, after, rfl, rfl | ⟨rfl, d, last, rfl, rfl | rfl⟩⟩ := exists_of_readRaw h <;>
        simp [literalMarks, List.isPrefixOf]
    rw [readIdentifier?.eq_def, if_pos hmark]
  next => cases h

theorem skipAny_of_isBare {p : Place} (hp : p.isBare = false) (text : List Char) :
    skipAny p text = skipBracketed (skipWithin p.room) p text := by
  rw [skipAny, skipWithin, skipContent, hp]
  rfl

theorem Form.skips_text : Form.text.Skips := by
  intro p hp text t rest h
  obtain ⟨⟨s, behind⟩, hread, heq⟩ := Option.map_eq_some_iff.1 h
  cases heq
  have hhead : ∃ c more, text = c :: more ∧ (c = '"' ∨ c = 'r') := by
    rw [readString.eq_def] at hread
    split at hread
    next more => exact ⟨'"', more, rfl, .inl rfl⟩
    next more => exact ⟨'r', more, rfl, .inr rfl⟩
    next => cases hread
  obtain ⟨c, more, rfl, hc⟩ := hhead
  have hliteral : skipLiteral (c :: more) = some ((), rest) := by
    have hnumber : startsNumber c = false := by
      rcases hc with rfl | rfl <;> decide
    have hquoted : (c = '"' || c = 'r') = true := by
      rw [Bool.or_eq_true, decide_eq_true_eq, decide_eq_true_eq]
      exact hc
    rw [skipLiteral, hnumber, if_neg Bool.false_ne_true, if_pos hquoted, Reader.skip, Reader.map,
      hread]
    rfl
  rw [skipAny_of_isBare hp, skipBracketed.eq_def, readIdentifier?_of_readString hread]
  rcases hc with rfl | rfl <;> exact hliteral

theorem skipBracketed_of_isWord {inner : Place → Reader Unit} {p : Place} {id : Identifier}
    {word : String} (hid : readIdentifier? text = some id) (hword : id.isWord word = true)
    (hplain : word ∈ plainWords) (hsome : word ≠ "Some") :
    skipBracketed inner p text = some ((), id.rest) := by
  have hplainWord : plainWords.any id.isWord = true := List.any_eq_true.2 ⟨word, hplain, hword⟩
  have hother : id.isWord "Some" = false := by
    rw [Identifier.isWord, Bool.and_eq_true, beq_iff_eq] at hword
    rw [Identifier.isWord, hword.2, Bool.and_eq_false_iff, beq_eq_false_iff_ne]
    exact .inr hsome
  rw [skipBracketed.eq_def, hid]
  dsimp only
  rw [hother, if_neg Bool.false_ne_true, skipNamed, if_pos hplainWord]

theorem Form.skips_truth : Form.truth.Skips := by
  intro p hp text t rest h
  rw [Form.truth] at h
  rw [skipAny_of_isBare hp]
  split at h
  next id hid =>
    split at h
    next hword =>
      cases h
      exact skipBracketed_of_isWord hid hword (by decide) (by decide)
    next =>
      split at h
      next hword =>
        cases h
        exact skipBracketed_of_isWord hid hword (by decide) (by decide)
      next => cases h
  next => cases h

/-! ## Names that stand twice -/

/-- If whatever one reader reads another reads as well, then they read the same items. -/
theorem readItems_of_forall {item : Reader α} {other : Reader β} {f : α → β} {p : α → Prop}
    {closing : Char} {count : Nat} {as : List α}
    (hitem : ∀ text a rest, item text = some (a, rest) → other text = some (f a, rest) ∧ p a)
    (h : readItems closing item count text = some (as, rest)) :
    readItems closing other count text = some (as.map f, rest) ∧ ∀ a ∈ as, p a := by
  induction count generalizing text as rest with
  | zero => cases h
  | succ count ih =>
    rw [readItems] at h ⊢
    obtain ⟨first, hfirst, h⟩ := Option.bind_eq_some_iff.1 h
    rw [hfirst, Option.bind_eq_bind, Option.bind_some]
    split at h
    next hclosing =>
      cases h
      rw [if_pos hclosing]
      exact ⟨rfl, fun _ hmem => absurd hmem List.not_mem_nil⟩
    next hclosing =>
      obtain ⟨⟨a, behind⟩, ha, h⟩ := Option.bind_eq_some_iff.1 h
      obtain ⟨hother, hp⟩ := hitem first a behind ha
      obtain ⟨⟨separated, next⟩, hcomma, h⟩ := Option.bind_eq_some_iff.1 h
      rw [if_neg hclosing, hother, Option.bind_eq_bind, Option.bind_some]
      dsimp only at hcomma h ⊢
      rw [hcomma, Option.bind_eq_bind, Option.bind_some]
      dsimp only
      split at h
      next hseparated =>
        obtain ⟨⟨more, last⟩, hmore, h⟩ := Option.bind_eq_some_iff.1 h
        obtain ⟨hread, hall⟩ := ih hmore
        cases h
        rw [if_pos hseparated, hread]
        exact ⟨rfl, List.forall_mem_cons.2 ⟨hp, hall⟩⟩
      next hseparated =>
        split at h
        next hlast =>
          cases h
          rw [if_neg hseparated, if_pos hlast]
          exact ⟨rfl, List.forall_mem_singleton.2 hp⟩
        next => cases h

theorem readParts_of_forall {part : Place → Reader α} {other : Place → Reader β} {f : α → β}
    {property : α → Prop} {closing : Char} {p : Place} {as : List α}
    (hpart : ∀ q : Place, q.isBare = false → ∀ text a rest,
      part q text = some (a, rest) → other q text = some (f a, rest) ∧ property a)
    (h : readParts closing part p text = some (as, rest)) :
    readParts closing other p text = some (as.map f, rest) ∧ ∀ a ∈ as, property a := by
  obtain ⟨dialect, _ | room, isBare⟩ := p
  · cases h
  · refine readItems_of_forall ?_ h
    intro text a rest ha
    cases room with
    | zero => cases ha
    | succ room => exact hpart _ rfl text a rest ha

/-- What belongs to a field name is skipped, and there is a tree for it if the name is known. -/
theorem fieldContent_skips (hforms : ∀ form ∈ forms, form.2.Skips) {p : Place}
    (hp : p.isBare = false) {tree : Option Tree}
    (h : Form.fieldContent forms p name text = some (tree, rest)) :
    skipAny p text = some ((), rest) ∧ (name ∈ forms.map Prod.fst → tree.isSome = true) := by
  rw [Form.fieldContent] at h
  cases hlookup : forms.lookup name with
  | some form =>
    rw [hlookup] at h
    obtain ⟨⟨t, behind⟩, ht, hsome⟩ := Option.map_eq_some_iff.1 h
    cases hsome
    obtain ⟨before, after, hsplit, -⟩ := List.lookup_eq_some_iff.1 hlookup
    have hmem : (name, form) ∈ forms := by
      rw [hsplit]
      exact List.mem_append_right before List.mem_cons_self
    exact ⟨hforms _ hmem p hp text t rest ht, fun _ => rfl⟩
  | none =>
    rw [hlookup] at h
    obtain ⟨⟨t, behind⟩, ht, hnone⟩ := Option.map_eq_some_iff.1 h
    cases hnone
    refine ⟨ht, fun hknown => ?_⟩
    obtain ⟨form, hform, rfl⟩ := List.mem_map.1 hknown
    exact absurd rfl (bne_iff_ne.1 (List.lookup_eq_none_iff.1 hlookup form hform))

/-- A field that is read is made out by its name. -/
theorem readKeyed_skips (hforms : ∀ form ∈ forms, form.2.Skips) {p : Place}
    (hp : p.isBare = false) {part : String × Option Tree}
    (h : readKeyed readName (Form.fieldContent forms p) text = some (part, rest)) :
    Reader.map Prod.fst (readKeyed readName fun _ => skipAny p) text = some (part.1, rest) ∧
      (part.1 ∈ forms.map Prod.fst → part.2.isSome = true) := by
  rw [readKeyed] at h
  obtain ⟨⟨key, behind⟩, hkey, h⟩ := Option.bind_eq_some_iff.1 h
  obtain ⟨blanks, hblanks, h⟩ := Option.bind_eq_some_iff.1 h
  obtain ⟨colon, hcolon, h⟩ := Option.bind_eq_some_iff.1 h
  obtain ⟨start, hstart, h⟩ := Option.bind_eq_some_iff.1 h
  obtain ⟨⟨tree, last⟩, hcontent, h⟩ := Option.bind_eq_some_iff.1 h
  cases h
  obtain ⟨hskips, hknown⟩ := fieldContent_skips hforms hp hcontent
  refine ⟨?_, hknown⟩
  rw [Reader.map, readKeyed, hkey, Option.bind_eq_bind, Option.bind_some]
  dsimp only at hblanks ⊢
  rw [hblanks, Option.bind_eq_bind, Option.bind_some, hcolon, Option.bind_some, hstart,
    Option.bind_some, hskips]
  rfl

/-- A known name is counted as often among the fields that are kept. -/
theorem countP_known {parts : List (String × Option Tree)}
    (h : ∀ part ∈ parts, part.1 = name → part.2.isSome = true) :
    (parts.filterMap fun part => part.2.map (part.1, ·)).countP (fun f => f.1 == name) =
      (parts.map Prod.fst).count name := by
  rw [List.countP_filterMap, List.count_eq_countP, List.countP_map]
  apply List.countP_congr
  rintro ⟨key, tree⟩ hpart
  cases tree with
  | some t => rfl
  | none =>
    have hother : (key == name) = false := by
      rw [beq_eq_false_iff_ne]
      exact fun hkey => absurd (h _ hpart hkey) Bool.false_ne_true
    simp [hother]

theorem fields_of_repeated (hforms : ∀ form ∈ forms, form.2.Skips) {p : Place}
    {names : List String} {known : String}
    (hnames : readParts ')' (fun q => Reader.map Prod.fst (readKeyed readName fun _ => skipAny q))
      p text = some (names, rest))
    (hknown : known ∈ forms.map Prod.fst) (hrepeated : 2 ≤ names.count known) :
    Form.fields forms p text = none := by
  rw [Form.fields]
  cases hparts : readParts ')' (fun q => readKeyed readName (Form.fieldContent forms q)) p text with
  | none => rfl
  | some read =>
    obtain ⟨parts, behind⟩ := read
    obtain ⟨hmade, htrees⟩ := readParts_of_forall (f := Prod.fst)
      (fun q hq _ _ _ hread => readKeyed_skips hforms hq hread) hparts
    obtain ⟨form, hform, rfl⟩ := List.mem_map.1 hknown
    rw [hmade] at hnames
    cases hnames
    have hkept : ∀ part ∈ parts, part.1 = form.1 → part.2.isSome = true :=
      fun part hpart hname => htrees part hpart (hname ▸ hknown)
    have hcount := countP_known hkept
    rw [Option.bind_eq_bind, Option.bind_some]
    dsimp only
    rw [if_neg]
    intro hall
    have honce := of_decide_eq_true (List.all_eq_true.1 hall form hform)
    omega

/-- If a known name stands twice among the names of the fields, nothing is read. -/
theorem read?_of_repeated {names : List String} {known : String}
    (hforms : ∀ form ∈ forms, form.2.Skips) (hnames : fieldNames? name text = some names)
    (hknown : known ∈ forms.map Prod.fst) (hrepeated : 2 ≤ names.count known) :
    read? (Form.record name forms) text = none := by
  rw [fieldNames?] at hnames
  obtain ⟨start, hstart, hnames⟩ := Option.bind_eq_some_iff.1 hnames
  obtain ⟨⟨dialect, body⟩, hbody, hnames⟩ := Option.bind_eq_some_iff.1 hnames
  obtain ⟨bare, hbare, hnames⟩ := Option.bind_eq_some_iff.1 hnames
  obtain ⟨opened, hopened, hnames⟩ := Option.bind_eq_some_iff.1 hnames
  obtain ⟨⟨made, trail⟩, hmade, hnames⟩ := Option.bind_eq_some_iff.1 hnames
  cases hnames
  rw [between] at hmade
  obtain ⟨inside, hinside, hmade⟩ := Option.bind_eq_some_iff.1 hmade
  obtain ⟨⟨parts, behind⟩, hparts, hmade⟩ := Option.bind_eq_some_iff.1 hmade
  obtain ⟨after, -, hmade⟩ := Option.bind_eq_some_iff.1 hmade
  cases hmade
  have hfields := fields_of_repeated hforms hparts hknown hrepeated
  have hrecord : Form.record name forms { dialect, room := depthLimit } body = none := by
    rw [Form.record, if_neg Bool.false_ne_true]
    dsimp only
    rw [hbare, Option.bind_eq_bind, Option.bind_some, hopened, Option.bind_some, Reader.map,
      between, hinside, Option.bind_eq_bind, Option.bind_some, hfields]
    rfl
  rw [read?, hstart, Option.bind_eq_bind, Option.bind_some, hbody, Option.bind_eq_bind,
    Option.bind_some]
  dsimp only
  rw [hrecord]
  rfl

end FlowGraph.Document
