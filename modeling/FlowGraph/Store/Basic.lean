import FlowGraph.Value

/-!
# Value stores

A store maps keys to values.  Pins are keyed by their index, the values that a
behavior keeps between invocations by name.  The entries are kept in increasing
order of keys, so that a store has one representation and two stores are equal
exactly when every key reads the same in both.
-/

namespace FlowGraph

/-- Values by key, in increasing order of keys. -/
structure Store (K : Type) [Ord K] where
  entries : List (K × Value)
  increasing : entries.Pairwise fun a b => compare a.1 b.1 = .lt

namespace Store

variable {K : Type} [Ord K]

/-- The store without entries. -/
def empty : Store K := ⟨[], .nil⟩

instance : EmptyCollection (Store K) := ⟨empty⟩
instance : Inhabited (Store K) := ⟨empty⟩

instance [DecidableEq K] : DecidableEq (Store K) := fun s t =>
  decidable_of_iff (s.entries = t.entries) (by cases s; cases t; simp)

/-- The value under a key in a list of entries. -/
def lookup (key : K) : List (K × Value) → Option Value
  | [] => none
  | (k, v) :: rest => if compare key k = .eq then some v else lookup key rest

/-- The entries with one key set, which takes its place in the order. -/
def insert (key : K) (value : Value) : List (K × Value) → List (K × Value)
  | [] => [(key, value)]
  | (k, v) :: rest =>
    match compare key k with
    | .lt => (key, value) :: (k, v) :: rest
    | .eq => (key, value) :: rest
    | .gt => (k, v) :: insert key value rest

/-- The value under a key. -/
def get? (s : Store K) (key : K) : Option Value := lookup key s.entries

def contains (s : Store K) (key : K) : Bool := (s.get? key).isSome

def size (s : Store K) : Nat := s.entries.length

def isEmpty (s : Store K) : Bool := s.entries.isEmpty

/-- The typed read: the content under a key if there is a value of the asked
kind, the fallback otherwise. -/
def getD (s : Store K) (key : K) (kind : ValueKind) (fallback : kind.Carrier) :
    kind.Carrier :=
  ((s.get? key).bind (·.get? kind)).getD fallback

theorem mem_insert {key : K} {value : Value} {entries : List (K × Value)}
    {e : K × Value} (h : e ∈ insert key value entries) :
    e = (key, value) ∨ e ∈ entries := by
  induction entries with
  | nil => simpa [insert] using h
  | cons head rest ih =>
    obtain ⟨k, v⟩ := head
    simp only [insert] at h
    split at h
    · simpa using h
    · rcases List.mem_cons.1 h with rfl | hrest
      · exact .inl rfl
      · exact .inr (List.mem_cons_of_mem _ hrest)
    · rcases List.mem_cons.1 h with rfl | hrest
      · exact .inr List.mem_cons_self
      · rcases ih hrest with heq | hmem
        · exact .inl heq
        · exact .inr (List.mem_cons_of_mem _ hmem)

variable [Std.TransOrd K] [Std.LawfulEqOrd K]

theorem increasing_insert (key : K) (value : Value) {entries : List (K × Value)}
    (h : entries.Pairwise fun a b => compare a.1 b.1 = .lt) :
    (insert key value entries).Pairwise fun a b => compare a.1 b.1 = .lt := by
  induction entries with
  | nil => simp [insert]
  | cons head rest ih =>
    obtain ⟨k, v⟩ := head
    obtain ⟨hhead, hrest⟩ := List.pairwise_cons.1 h
    simp only [insert]
    split
    next hlt =>
      refine List.pairwise_cons.2 ⟨fun e he => ?_, h⟩
      rcases List.mem_cons.1 he with rfl | he
      · exact hlt
      · exact Std.TransCmp.lt_trans hlt (hhead e he)
    next heq =>
      obtain rfl := Std.LawfulEqCmp.eq_of_compare heq
      exact List.pairwise_cons.2 ⟨hhead, hrest⟩
    next hgt =>
      refine List.pairwise_cons.2 ⟨fun e he => ?_, ih hrest⟩
      rcases mem_insert he with rfl | he
      · exact Std.OrientedCmp.lt_of_gt hgt
      · exact hhead e he

/-- The store with one key set. -/
def set (s : Store K) (key : K) (value : Value) : Store K where
  entries := insert key value s.entries
  increasing := increasing_insert key value s.increasing

omit [Std.TransOrd K] [Std.LawfulEqOrd K] in
theorem increasing_filter (p : K × Value → Bool) {entries : List (K × Value)}
    (h : entries.Pairwise fun a b => compare a.1 b.1 = .lt) :
    (entries.filter p).Pairwise fun a b => compare a.1 b.1 = .lt :=
  h.sublist List.filter_sublist

/-- The store without one key. -/
def erase (s : Store K) (key : K) : Store K where
  entries := s.entries.filter fun e => compare key e.1 != .eq
  increasing := increasing_filter _ s.increasing

/-- The store that holds the given entries, a later one replacing an earlier
one under the same key. -/
def ofList (entries : List (K × Value)) : Store K :=
  entries.foldl (fun s e => s.set e.1 e.2) empty

/-- Equality of stores, with numbers compared as numbers. -/
def equals (s t : Store K) : Bool :=
  s.size == t.size &&
    (s.entries.zip t.entries).all fun (a, b) => compare a.1 b.1 == .eq && a.2.equals b.2

end Store

end FlowGraph
