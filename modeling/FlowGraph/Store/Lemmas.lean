import FlowGraph.Store.Basic

/-!
# Reading stores

What a key reads after a write and after an erasure, and extensionality: a store
is determined by what its keys read.
-/

namespace FlowGraph

namespace Store

variable {K : Type} [Ord K] [Std.TransOrd K] [Std.LawfulEqOrd K]

omit [Std.TransOrd K] [Std.LawfulEqOrd K] in
@[simp]
theorem get?_empty (key : K) : (∅ : Store K).get? key = none := rfl

omit [Std.TransOrd K] in
theorem lookup_insert [Std.OrientedOrd K] (key j : K) (value : Value) (entries : List (K × Value)) :
    lookup j (insert key value entries)
      = if compare j key = .eq then some value else lookup j entries := by
  induction entries with
  | nil => simp [insert, lookup]
  | cons head rest ih =>
    obtain ⟨k, v⟩ := head
    simp only [insert]
    split
    next hlt => simp [lookup]
    next heq =>
      obtain rfl := Std.LawfulEqCmp.eq_of_compare heq
      by_cases hj : compare j key = .eq <;> simp [lookup, hj]
    next hgt =>
      by_cases hk : compare j k = .eq
      · have hjk := Std.LawfulEqCmp.eq_of_compare hk
        subst hjk
        have hne : compare j key ≠ .eq := by
          intro heq
          rw [Std.LawfulEqCmp.eq_of_compare heq] at hgt
          simp [Std.ReflCmp.compare_self] at hgt
        simp [lookup, hne]
      · simp only [lookup, hk, if_false, ih]

/-- A read after a write gives the written value under its key and what was
there before under every other. -/
@[simp]
theorem get?_set [DecidableEq K] (s : Store K) (key j : K) (value : Value) :
    (s.set key value).get? j = if j = key then some value else s.get? j := by
  simp only [get?, set, lookup_insert, Std.LawfulEqCmp.compare_eq_iff_eq]

omit [Std.TransOrd K] in
theorem lookup_filter_ne [Std.OrientedOrd K] (key j : K) (entries : List (K × Value)) :
    lookup j (entries.filter fun e => compare key e.1 != .eq)
      = if compare j key = .eq then none else lookup j entries := by
  induction entries with
  | nil => simp [lookup]
  | cons head rest ih =>
    obtain ⟨k, v⟩ := head
    by_cases hk : compare key k = .eq
    · have hkey := Std.LawfulEqCmp.eq_of_compare hk
      subst hkey
      by_cases hj : compare j key = .eq <;> simp [lookup, hj, ih]
    · rw [List.filter_cons_of_pos (by simpa using hk)]
      by_cases hj : compare j k = .eq
      · have hjk := Std.LawfulEqCmp.eq_of_compare hj
        subst hjk
        have hne : compare j key ≠ .eq := fun heq =>
          hk (Std.LawfulEqCmp.eq_of_compare heq ▸ Std.ReflCmp.compare_self)
        simp [lookup, hne]
      · simp only [lookup, hj, if_false, ih]

/-- A read after an erasure finds nothing under the erased key and what was
there before under every other. -/
@[simp]
theorem get?_erase [DecidableEq K] (s : Store K) (key j : K) :
    (s.erase key).get? j = if j = key then none else s.get? j := by
  simp only [get?, erase, lookup_filter_ne, Std.LawfulEqCmp.compare_eq_iff_eq]

omit [Std.TransOrd K] [Std.LawfulEqOrd K] in
theorem lookup_eq_none_of_lt {key : K} {entries : List (K × Value)}
    (h : ∀ e ∈ entries, compare key e.1 = .lt) : lookup key entries = none := by
  induction entries with
  | nil => rfl
  | cons head rest ih =>
    obtain ⟨k, v⟩ := head
    have hk : compare key k ≠ .eq := by
      rw [h _ List.mem_cons_self]; decide
    simp only [lookup, hk, if_false]
    exact ih fun e he => h e (List.mem_cons_of_mem _ he)

omit [Std.TransOrd K] in
/-- What a key reads is entered under it, and what is entered is read. -/
theorem get?_eq_some_iff {s : Store K} {key : K} {value : Value} :
    s.get? key = some value ↔ (key, value) ∈ s.entries := by
  obtain ⟨entries, hincreasing⟩ := s
  change lookup key entries = some value ↔ (key, value) ∈ entries
  induction entries with
  | nil => simp [lookup]
  | cons head rest ih =>
    obtain ⟨k, v⟩ := head
    obtain ⟨hhead, hrest⟩ := List.pairwise_cons.1 hincreasing
    rw [lookup, List.mem_cons]
    split
    next heq =>
      obtain rfl := Std.LawfulEqCmp.eq_of_compare heq
      have hlater : (key, value) ∉ rest := by
        intro hmem
        have hlt : compare key key = .lt := hhead _ hmem
        simp [Std.ReflCmp.compare_self] at hlt
      simp [hlater, eq_comm]
    next hne =>
      have hkey : key ≠ k := by
        rintro rfl
        exact hne Std.ReflCmp.compare_self
      simp [hkey, ih hrest]

theorem entries_eq_of_lookup {s t : List (K × Value)}
    (hs : s.Pairwise fun a b => compare a.1 b.1 = .lt)
    (ht : t.Pairwise fun a b => compare a.1 b.1 = .lt)
    (h : ∀ key, lookup key s = lookup key t) : s = t := by
  induction s generalizing t with
  | nil =>
    cases t with
    | nil => rfl
    | cons b t =>
      have := h b.1
      simp [lookup, Std.ReflCmp.compare_self] at this
  | cons a s ih =>
    cases t with
    | nil =>
      have := h a.1
      simp [lookup, Std.ReflCmp.compare_self] at this
    | cons b t =>
      obtain ⟨ka, va⟩ := a
      obtain ⟨kb, vb⟩ := b
      obtain ⟨hsa, hsrest⟩ := List.pairwise_cons.1 hs
      obtain ⟨htb, htrest⟩ := List.pairwise_cons.1 ht
      have hka := h ka
      have hkb := h kb
      simp only [lookup, Std.ReflCmp.compare_self, if_true] at hka hkb
      match hab : compare ka kb with
      | .eq =>
        obtain rfl := Std.LawfulEqCmp.eq_of_compare hab
        simp only [Std.ReflCmp.compare_self, if_true, Option.some.injEq] at hka
        subst hka
        congr 1
        refine ih hsrest htrest fun key => ?_
        by_cases hkey : compare key ka = .eq
        · obtain rfl := Std.LawfulEqCmp.eq_of_compare hkey
          rw [lookup_eq_none_of_lt hsa, lookup_eq_none_of_lt htb]
        · simpa [lookup, hkey] using h key
      | .lt =>
        simp only [hab, reduceCtorEq, if_false] at hka
        rw [lookup_eq_none_of_lt fun e he => Std.TransCmp.lt_trans hab (htb e he)] at hka
        cases hka
      | .gt =>
        have hba : compare kb ka = .lt := Std.OrientedCmp.lt_of_gt hab
        simp only [hba, reduceCtorEq, if_false] at hkb
        rw [lookup_eq_none_of_lt fun e he => Std.TransCmp.lt_trans hba (hsa e he)] at hkb
        cases hkb

/-- Two stores in which every key reads the same are equal. -/
theorem ext_get? {s t : Store K} (h : ∀ key, s.get? key = t.get? key) : s = t := by
  obtain ⟨es, hs⟩ := s
  obtain ⟨et, ht⟩ := t
  simp only [mk.injEq]
  exact entries_eq_of_lookup hs ht h

omit [Std.TransOrd K] [Std.LawfulEqOrd K] in
/-- A typed read looks at nothing but its key. -/
theorem getD_congr {s t : Store K} {key : K} (h : s.get? key = t.get? key) (kind : ValueKind)
    (fallback : kind.Carrier) : s.getD key kind fallback = t.getD key kind fallback := by
  rw [getD, h, getD]

omit [Std.TransOrd K] [Std.LawfulEqOrd K] in
/-- A key above all others goes to the end. -/
theorem insert_of_forall_lt [Std.OrientedOrd K] {key : K} (value : Value)
    {entries : List (K × Value)} (h : ∀ e ∈ entries, compare e.1 key = .lt) :
    insert key value entries = entries ++ [(key, value)] := by
  induction entries with
  | nil => rfl
  | cons e entries ih =>
    obtain ⟨hhead, hrest⟩ := List.forall_mem_cons.1 h
    rw [insert, Std.OrientedCmp.gt_of_lt hhead, List.cons_append, ← ih hrest]

theorem entries_foldl_set (s : Store K) {entries : List (K × Value)}
    (h : (s.entries ++ entries).Pairwise fun a b => compare a.1 b.1 = .lt) :
    (entries.foldl (fun s e => s.set e.1 e.2) s).entries = s.entries ++ entries := by
  induction entries generalizing s with
  | nil => rw [List.foldl_nil, List.append_nil]
  | cons e entries ih =>
    have hlast : (s.set e.1 e.2).entries = s.entries ++ [e] :=
      insert_of_forall_lt e.2 fun a ha =>
        (List.pairwise_append.1 h).2.2 a ha e List.mem_cons_self
    rw [List.append_cons, ← hlast] at h
    rw [List.foldl_cons, ih _ h, hlast, ← List.append_cons]

/-- Entries in increasing order of keys are kept as they are. -/
theorem entries_ofList {entries : List (K × Value)}
    (h : entries.Pairwise fun a b => compare a.1 b.1 = .lt) : (ofList entries).entries = entries :=
  entries_foldl_set empty h

/-- A store holds its own entries. -/
theorem ofList_entries (s : Store K) : ofList s.entries = s := by
  have hentries : (ofList s.entries).entries = s.entries := entries_ofList s.increasing
  cases s
  exact (mk.injEq ..).mpr hentries

end Store

end FlowGraph
