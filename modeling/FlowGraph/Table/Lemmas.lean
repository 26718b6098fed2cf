import FlowGraph.Table.Basic

/-!
# Reading tables

What a key finds after a row has been put in, changed or erased, and what becomes
of the keys.  A row is in a table exactly when its own key finds it.
-/

namespace FlowGraph

namespace Table

variable {α κ : Type} {key : α → κ} [DecidableEq κ]

@[simp]
theorem find?_empty (k : κ) : (∅ : Table key).find? k = none := rfl

theorem key_of_find? {t : Table key} {k : κ} {a : α} (h : t.find? k = some a) : key a = k := by
  simpa using List.find?_some h

theorem mem_of_find? {t : Table key} {k : κ} {a : α} (h : t.find? k = some a) : a ∈ t.rows :=
  List.mem_of_find?_eq_some h

theorem find?_eq_none_iff {t : Table key} {k : κ} : t.find? k = none ↔ ∀ a ∈ t.rows, key a ≠ k := by
  simp [find?]

omit [DecidableEq κ] in
theorem eq_of_key_eq {rows : List α} (h : rows.Pairwise fun a b => key a ≠ key b) {a b : α}
    (ha : a ∈ rows) (hb : b ∈ rows) (hkey : key a = key b) : a = b := by
  induction rows with
  | nil => cases ha
  | cons head rest ih =>
    obtain ⟨hhead, hrest⟩ := List.pairwise_cons.1 h
    rcases List.mem_cons.1 ha with hahead | harest <;>
      rcases List.mem_cons.1 hb with hbhead | hbrest
    · rw [hahead, hbhead]
    · exact absurd (hahead ▸ hkey) (hhead b hbrest)
    · exact absurd (hbhead ▸ hkey.symm) (hhead a harest)
    · exact ih hrest harest hbrest

omit [DecidableEq κ] in
theorem nodup_keys (t : Table key) : t.keys.Nodup :=
  List.pairwise_map.2 t.distinct

/-- A row is in a table exactly when its own key finds it. -/
theorem find?_key_iff {t : Table key} {a : α} : t.find? (key a) = some a ↔ a ∈ t.rows := by
  refine ⟨mem_of_find?, fun ha => ?_⟩
  cases hfind : t.find? (key a) with
  | none => exact absurd rfl (find?_eq_none_iff.1 hfind a ha)
  | some b => rw [eq_of_key_eq t.distinct (mem_of_find? hfind) ha (key_of_find? hfind)]

theorem find?_map_of_key {rows : List α} (f : α → α) (hkey : ∀ a, key (f a) = key a) (k : κ) :
    (rows.map f).find? (fun a => key a = k) = (rows.find? fun a => key a = k).map f := by
  simp only [List.find?_map, Function.comp_def, hkey]

@[simp]
theorem find?_map (t : Table key) (f : α → α) (hkey : ∀ a, key (f a) = key a) (k : κ) :
    (t.map f hkey).find? k = (t.find? k).map f :=
  find?_map_of_key f hkey k

omit [DecidableEq κ] in
theorem filter_eq_self {t : Table key} {p : α → Bool} (h : ∀ a ∈ t.rows, p a = true) :
    t.filter p = t := by
  cases t
  simp only [filter, mk.injEq]
  exact List.filter_eq_self.2 h

/-- No two rows have the same key. -/
theorem filter_key_eq_toList (t : Table key) (k : κ) :
    t.rows.filter (fun a => key a = k) = (t.find? k).toList := by
  cases hfind : t.find? k with
  | none =>
    apply List.filter_eq_nil_iff.2
    intro a ha
    simpa using find?_eq_none_iff.1 hfind a ha
  | some a =>
    obtain ⟨before, after, hrows⟩ := List.append_of_mem (mem_of_find? hfind)
    obtain ⟨-, hlater, hearlier⟩ := List.pairwise_append.1 (hrows ▸ t.distinct)
    have hkey := key_of_find? hfind
    have hbefore : before.filter (fun b => key b = k) = [] := by
      apply List.filter_eq_nil_iff.2
      intro b hb
      simpa [hkey] using hearlier b hb a List.mem_cons_self
    have hafter : after.filter (fun b => key b = k) = [] := by
      apply List.filter_eq_nil_iff.2
      intro b hb
      simpa [hkey, eq_comm] using (List.pairwise_cons.1 hlater).1 b hb
    simp [hrows, hbefore, hafter, hkey]

/-- A change that a function cannot see is not seen in the table either. -/
theorem map_modify (t : Table key) (k : κ) (f g : α → α) (hf : ∀ a, key (f a) = key a)
    (hg : ∀ a, key (g a) = key a) (hunseen : ∀ a, g (f a) = g a) :
    (t.modify k f hf).map g hg = t.map g hg := by
  simp only [map, modify, List.map_map, mk.injEq]
  apply List.map_congr_left
  intro a _
  simp only [Function.comp_apply]
  split <;> simp [hunseen]

/-- A key finds the changed row if it is the key of the change. -/
@[simp]
theorem find?_modify (t : Table key) (k j : κ) (f : α → α) (hkey : ∀ a, key (f a) = key a) :
    (t.modify k f hkey).find? j = if j = k then (t.find? j).map f else t.find? j := by
  have hmap : (t.modify k f hkey).find? j
      = (t.find? j).map fun a => if key a = k then f a else a :=
    find?_map_of_key _ (fun a => by split <;> simp [hkey]) j
  rw [hmap]
  cases hfind : t.find? j with
  | none => simp
  | some a =>
    have hj := key_of_find? hfind
    by_cases hk : j = k <;> simp [hj, hk]

@[simp]
theorem keys_modify (t : Table key) (k : κ) (f : α → α) (hkey : ∀ a, key (f a) = key a) :
    (t.modify k f hkey).keys = t.keys := by
  simp only [keys, modify, List.map_map]
  apply List.map_congr_left
  intro a _
  simp only [Function.comp_apply]
  split <;> simp [hkey]

/-- An erased key finds nothing, and every other what it found before. -/
@[simp]
theorem find?_erase (t : Table key) (k j : κ) :
    (t.erase k).find? j = if j = k then none else t.find? j := by
  by_cases hj : j = k
  · simp [hj, find?, erase, filter]
  · rw [if_neg hj]
    simp only [find?, erase, filter, List.find?_filter]
    congr 1
    funext a
    by_cases ha : key a = j <;> simp [ha, hj]

/-- The key of a row put in finds that row, and every other what it found before. -/
@[simp]
theorem find?_put (t : Table key) (a : α) (j : κ) :
    (t.put a).find? j = if j = key a then some a else t.find? j := by
  unfold put
  split
  next habsent =>
    by_cases hj : j = key a
    · have hnone : t.find? (key a) = none := find?_eq_none_iff.2 habsent
      simp only [find?] at hnone ⊢
      simp [hj, List.find?_append, hnone]
    · simp [find?, hj, List.find?_append, Ne.symm hj]
  next hpresent =>
    have hmap : (t.rows.map fun b => if key b = key a then a else b).find? (fun b => key b = j)
        = (t.find? j).map fun b => if key b = key a then a else b :=
      find?_map_of_key _ (fun b => by split <;> simp_all) j
    simp only [find?] at hmap ⊢
    rw [hmap]
    by_cases hj : j = key a
    · have hsome : (t.find? (key a)) ≠ none := fun hnone =>
        hpresent (find?_eq_none_iff.1 hnone)
      obtain ⟨b, hb⟩ := Option.ne_none_iff_exists'.1 hsome
      have hkey := key_of_find? hb
      simp only [find?] at hb
      simp [hj, hb, hkey]
    · cases hfind : t.rows.find? fun b => key b = j with
      | none => simp [hj]
      | some b =>
        have hkey : key b = j := by simpa using List.find?_some hfind
        simp [hkey, hj]

/-- A row of the table is the one put in, or it was there before. -/
theorem mem_of_mem_put {t : Table key} {a b : α} (h : b ∈ (t.put a).rows) :
    b = a ∨ b ∈ t.rows := by
  have hfind := find?_key_iff.2 h
  rw [find?_put] at hfind
  split at hfind
  · exact .inl (Option.some.inj hfind).symm
  · exact .inr (mem_of_find? hfind)

/-- A row with a new key is put behind all others. -/
theorem rows_put_of_find?_eq_none {t : Table key} {a : α} (h : t.find? (key a) = none) :
    (t.put a).rows = t.rows ++ [a] := by
  rw [put, dif_pos (find?_eq_none_iff.1 h)]

/-- A row with a new key can be put in and erased again. -/
theorem erase_put_of_find?_eq_none {t : Table key} {a : α} (h : t.find? (key a) = none) :
    (t.put a).erase (key a) = t := by
  have hkept : t.rows.filter (fun b => key b ≠ key a) = t.rows :=
    List.filter_eq_self.2 fun b hb => decide_eq_true (find?_eq_none_iff.1 h b hb)
  have hgone : [a].filter (fun b => key b ≠ key a) = [] := by simp
  have hrows : (t.put a).rows.filter (fun b => key b ≠ key a) = t.rows := by
    rw [rows_put_of_find?_eq_none h, List.filter_append, hkept, hgone, List.append_nil]
  rw [erase, filter]
  simp only [hrows]

/-- Up to its place, a row that is put in is added to the rows with other keys. -/
theorem rows_put_perm (t : Table key) (a : α) :
    (t.put a).rows.Perm ((t.erase (key a)).rows ++ [a]) := by
  have hnodup : ∀ {rows : List α}, rows.Pairwise (fun a b => key a ≠ key b) → rows.Nodup :=
    fun h => h.imp fun hne heq => hne (congrArg key heq)
  have hothers : ∀ b ∈ (t.erase (key a)).rows, key b ≠ key a := by
    intro b hb
    simpa using (List.mem_filter.1 hb).2
  have hadded : ((t.erase (key a)).rows ++ [a]).Nodup := by
    rw [List.nodup_append]
    refine ⟨hnodup (t.erase (key a)).distinct, by simp, ?_⟩
    rintro b hb _ hlast rfl
    exact hothers b hb (congrArg key (List.mem_singleton.1 hlast))
  rw [List.perm_ext_iff_of_nodup (hnodup (t.put a).distinct) hadded]
  intro b
  rw [← find?_key_iff, find?_put, List.mem_append, List.mem_singleton, ← find?_key_iff, find?_erase]
  by_cases hb : key b = key a
  · simp [hb, eq_comm]
  · have hne : b ≠ a := fun heq => hb (congrArg key heq)
    simp [hb, hne]

/-- Putting in a row with a new key adds its key at the end, and otherwise leaves the
keys as they are. -/
theorem keys_put (t : Table key) (a : α) :
    (t.put a).keys = if key a ∈ t.keys then t.keys else t.keys ++ [key a] := by
  unfold put
  split
  next habsent =>
    have hmem : key a ∉ t.keys := by simpa [keys, eq_comm] using habsent
    rw [if_neg hmem]
    simp [keys]
  next hpresent =>
    have hmem : key a ∈ t.keys := by simpa [keys, eq_comm] using hpresent
    rw [if_pos hmem]
    simp only [keys, List.map_map]
    apply List.map_congr_left
    intro b _
    simp only [Function.comp_apply]
    split <;> simp_all

end Table

end FlowGraph
