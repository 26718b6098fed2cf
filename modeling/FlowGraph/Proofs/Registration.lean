import Mathlib.Data.List.Induction
import Mathlib.Data.List.Nodup
import FlowGraph.Catalog.Standard
import FlowGraph.Table.Lemmas

/-!
# Catalogs after any registrations

A catalog lists each key that was registered once, in the order of the first registrations,
with the template that was registered last.  Its categories follow from this list alone: they
come in the order of their first template, and each template is listed in one of them.  A node
of a kind is created exactly as from the declaration that the last template spells out.
-/

namespace FlowGraph

/-- The template that was registered last under a key. -/
def Template.latest? (registered : List Template) (key : String) : Option Template :=
  registered.reverse.find? fun t => t.key = key

namespace Catalog

/-- The catalog lists what was registered: each key in the place of its first registration, with
the template of the last. -/
structure Lists (c : Catalog) (registered : List Template) : Prop where
  keys_eq : c.templates.rows.map Template.key = (registered.map Template.key).eraseDups
  latest : ∀ t ∈ c.templates.rows, Template.latest? registered t.key = some t
  get?_iff : ∀ key t, c.get? key = some t ↔ t ∈ c.templates.rows ∧ t.key = key
  size_eq : c.size = c.templates.rows.length

/-- The lists of the templates in each category divide up the list of all templates and keep its
order. -/
structure Divided (c : Catalog) : Prop where
  categories_eq : c.categories = (c.templates.rows.map Template.category).eraseDups
  sublist : ∀ category, (c.inCategory category).Sublist c.templates.rows
  mem_iff : ∀ category t,
    t ∈ c.inCategory category ↔ t ∈ c.templates.rows ∧ t.category = category
  ne_nil : ∀ category ∈ c.categories, c.inCategory category ≠ []
  perm : (c.categories.map c.inCategory).flatten.Perm c.templates.rows

/-- A node of a kind that was registered is created from the last template of the kind; of any
other kind no node is created. -/
structure Spawns (c : Catalog) (registered : List Template) : Prop where
  known : ∀ t ∈ registered, ∃ last, Template.latest? registered t.key = some last ∧
    ∀ g : Graph,
      let created := g.addNode
        { title := last.title, category := last.category, inputs := last.inputs,
          outputs := last.outputs, flow := last.flow, behavior := last.behavior }
      c.spawn g t.key = created.answer (created.result.mapError .invalid)
  unknown : ∀ key, (∀ t ∈ registered, t.key ≠ key) →
    ∀ g : Graph, c.spawn g key = { graph := g, result := .error (.unknownKey key) }

/-- The catalog is what registrations make of it. -/
structure Records (c : Catalog) (registered : List Template) : Prop
    extends c.Lists registered, c.Divided, c.Spawns registered

end Catalog

/-! ## Keeping first occurrences -/

section FirstOccurrences

variable {α : Type} [DecidableEq α]

theorem eraseDups_concat (as : List α) (a : α) :
    (as ++ [a]).eraseDups = if a ∈ as then as.eraseDups else as.eraseDups ++ [a] := by
  rw [List.eraseDups_append]
  by_cases ha : a ∈ as
  · simp [List.removeAll, ha]
  · simp [List.removeAll, ha, List.eraseDups_cons]

theorem nodup_eraseDups (as : List α) : as.eraseDups.Nodup := by
  induction as using List.reverseRecOn with
  | nil => exact .nil
  | append_singleton as a ih =>
    rw [eraseDups_concat]
    split
    next => exact ih
    next ha =>
      have hnew : a ∉ as.eraseDups := mt List.mem_eraseDups.1 ha
      exact List.nodup_append_comm.1 (List.nodup_cons.2 ⟨hnew, ih⟩)

/-- The parts of a list in which a function takes each of its values make up the list. -/
theorem flatten_map_filter_perm {β : Type} (f : β → α) {values : List α} (hnodup : values.Nodup)
    {bs : List β} (hcovered : ∀ b ∈ bs, f b ∈ values) :
    (values.map fun a => bs.filter fun b => f b == a).flatten.Perm bs := by
  induction values generalizing bs with
  | nil =>
    have hempty : bs = [] := List.eq_nil_iff_forall_not_mem.2 fun b hb => nomatch hcovered b hb
    rw [hempty]
    exact .nil
  | cons a values ih =>
    obtain ⟨hfresh, hrest⟩ := List.nodup_cons.1 hnodup
    -- What the later values take is left over by the first.
    have hlater : (values.map fun a => bs.filter fun b => f b == a) =
        values.map fun a' => (bs.filter fun b => !(f b == a)).filter fun b => f b == a' := by
      apply List.map_congr_left
      intro a' ha'
      rw [List.filter_filter]
      apply List.filter_congr
      intro b _
      by_cases hb : f b = a'
      · have hne : a' ≠ a := by
          rintro rfl
          exact hfresh ha'
        simp [hb, hne]
      · simp [hb]
    rw [List.map_cons, List.flatten_cons, hlater]
    refine List.Perm.trans (List.Perm.append_left _ (ih hrest ?_))
      (List.filter_append_perm (fun b => f b == a) bs)
    intro b hb
    obtain ⟨hmem, hne⟩ := List.mem_filter.1 hb
    rcases List.mem_cons.1 (hcovered b hmem) with heq | hin
    · simp [heq] at hne
    · exact hin

end FirstOccurrences

namespace Catalog

variable {c : Catalog} {registered : List Template} {t : Template} {key : String}

theorem categories_eq (c : Catalog) :
    c.categories = (c.templates.rows.map Template.category).eraseDups := by
  rw [categories]
  induction c.templates.rows using List.reverseRecOn with
  | nil => rfl
  | append_singleton rows t ih =>
    rw [List.foldl_append, ih, List.map_append, List.map_singleton, eraseDups_concat,
      List.foldl_cons, List.foldl_nil]
    simp only [List.mem_eraseDups]

theorem mem_inCategory {category : String} :
    t ∈ c.inCategory category ↔ t ∈ c.templates.rows ∧ t.category = category := by
  simp [inCategory]

theorem divided (c : Catalog) : c.Divided where
  categories_eq := c.categories_eq
  sublist _ := List.filter_sublist
  mem_iff _ _ := mem_inCategory
  ne_nil := by
    intro category hcategory
    rw [categories_eq, List.mem_eraseDups] at hcategory
    obtain ⟨t, ht, rfl⟩ := List.mem_map.1 hcategory
    exact List.ne_nil_of_mem (mem_inCategory.2 ⟨ht, rfl⟩)
  perm := by
    apply flatten_map_filter_perm Template.category
    · rw [categories_eq]
      exact nodup_eraseDups _
    · intro t ht
      rw [categories_eq, List.mem_eraseDups]
      exact List.mem_map_of_mem ht

/-! ## Registering -/

/-- What a run of registrations keeps up: the keys in the order of their first registrations, and
under each the last template. -/
structure Holds (c : Catalog) (registered : List Template) : Prop where
  keys_eq : c.keys = (registered.map Template.key).eraseDups
  get?_eq : ∀ key, c.get? key = Template.latest? registered key

theorem holds_empty : ({} : Catalog).Holds [] where
  keys_eq := rfl
  get?_eq _ := rfl

/-- One registration. -/
theorem Holds.add (h : c.Holds registered) (t : Template) :
    (c.add t).Holds (registered ++ [t]) where
  keys_eq := by
    have hkeys : (c.add t).keys = if t.key ∈ c.keys then c.keys else c.keys ++ [t.key] :=
      Table.keys_put c.templates t
    rw [hkeys, h.keys_eq, List.map_append, List.map_singleton, eraseDups_concat]
    simp only [List.mem_eraseDups]
  get?_eq key := by
    have hget : (c.add t).get? key = if key = t.key then some t else c.get? key :=
      Table.find?_put c.templates t key
    rw [hget, h.get?_eq, Template.latest?, Template.latest?, List.reverse_append,
      List.reverse_singleton, List.singleton_append, List.find?_cons]
    by_cases hkey : key = t.key
    · simp [hkey]
    · simp [hkey, Ne.symm hkey]

theorem Holds.foldl_add (h : c.Holds registered) (calls : List Template) :
    (calls.foldl Catalog.add c).Holds (registered ++ calls) := by
  induction calls generalizing c registered with
  | nil =>
    rw [List.append_nil]
    exact h
  | cons t calls ih =>
    rw [List.foldl_cons, List.append_cons]
    exact ih (h.add t)

theorem Holds.lists (h : c.Holds registered) : c.Lists registered where
  keys_eq := h.keys_eq
  latest t ht := by
    rw [← h.get?_eq]
    exact Table.find?_key_iff.2 ht
  get?_iff key t := by
    constructor
    · intro hget
      exact ⟨Table.mem_of_find? hget, Table.key_of_find? hget⟩
    · rintro ⟨ht, rfl⟩
      exact Table.find?_key_iff.2 ht
  size_eq := rfl

theorem Holds.spawns (h : c.Holds registered) : c.Spawns registered where
  known t ht := by
    have hsome : (Template.latest? registered t.key).isSome = true := by
      rw [Template.latest?, List.find?_isSome]
      exact ⟨t, List.mem_reverse.2 ht, decide_eq_true rfl⟩
    obtain ⟨last, hlast⟩ := Option.isSome_iff_exists.1 hsome
    refine ⟨last, hlast, fun g => ?_⟩
    rw [spawn, h.get?_eq, hlast]
    rfl
  unknown key hnone g := by
    have hlatest : Template.latest? registered key = none := by
      rw [Template.latest?, List.find?_eq_none]
      intro t ht
      simpa using hnone t (List.mem_reverse.1 ht)
    rw [spawn, h.get?_eq, hlatest]

/-- After any registrations on an empty or a standard catalog, the catalog lists each key once and
in the order of the first registrations, with the last template, its categories divide up this
list, and nodes are created from the last templates. -/
theorem registrations_recorded (calls : List Template) :
    (calls.foldl add {}).Records calls ∧
      ∀ settings,
        (calls.foldl add (standard settings)).Records (standardTemplates settings ++ calls) := by
  have hempty := holds_empty.foldl_add calls
  refine ⟨⟨hempty.lists, divided _, hempty.spawns⟩, fun settings => ?_⟩
  have hstandard := (holds_empty.foldl_add (standardTemplates settings)).foldl_add calls
  exact ⟨hstandard.lists, divided _, hstandard.spawns⟩

/-- A second registration keeps the place of the first, and with it its new category comes first. -/
example :
    let c := [Template.ofSpec "a" { title := "First", category := "Old" },
      Template.ofSpec "b" { title := "Other", category := "Math" },
      Template.ofSpec "a" { title := "Second", category := "New" }].foldl add {}
    c.templates.rows.map Template.title = ["Second", "Other"] ∧ c.categories = ["New", "Math"] := by
  decide

end Catalog

end FlowGraph
