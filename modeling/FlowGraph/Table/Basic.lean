/-!
# Tables

A table is a list of rows with distinct keys, in the order in which the keys
were first put in.  Putting a row under a key that is present replaces the old
row in its place.
-/

namespace FlowGraph

/-- Rows with distinct keys, in insertion order. -/
structure Table {α κ : Type} (key : α → κ) where
  rows : List α
  distinct : rows.Pairwise fun a b => key a ≠ key b

namespace Table

variable {α κ : Type} {key : α → κ}

def empty : Table key := ⟨[], .nil⟩

instance : EmptyCollection (Table key) := ⟨empty⟩
instance : Inhabited (Table key) := ⟨empty⟩

def size (t : Table key) : Nat := t.rows.length

/-- The keys in insertion order. -/
def keys (t : Table key) : List κ := t.rows.map key

theorem distinct_map {rows : List α} (f : α → α) (hkey : ∀ a, key (f a) = key a)
    (h : rows.Pairwise fun a b => key a ≠ key b) :
    (rows.map f).Pairwise fun a b => key a ≠ key b :=
  List.pairwise_map.2 (h.imp fun hne => by rwa [hkey, hkey])

/-- The rows that satisfy a condition. -/
def filter (t : Table key) (p : α → Bool) : Table key where
  rows := t.rows.filter p
  distinct := t.distinct.sublist List.filter_sublist

/-- The table with every row changed by a function that keeps keys. -/
def map (t : Table key) (f : α → α) (hkey : ∀ a, key (f a) = key a) : Table key where
  rows := t.rows.map f
  distinct := distinct_map f hkey t.distinct

variable [DecidableEq κ]

/-- The row under a key. -/
def find? (t : Table key) (k : κ) : Option α := t.rows.find? fun a => key a = k

def contains (t : Table key) (k : κ) : Bool := (t.find? k).isSome

/-- Change the row under a key, if there is one, by a function that keeps keys. -/
def modify (t : Table key) (k : κ) (f : α → α) (hkey : ∀ a, key (f a) = key a) :
    Table key where
  rows := t.rows.map fun a => if key a = k then f a else a
  distinct := distinct_map _ (fun a => by split <;> simp [hkey]) t.distinct

/-- The table without the row under a key. -/
def erase (t : Table key) (k : κ) : Table key := t.filter fun a => key a ≠ k

/-- Put a row under its key: in the place of the row that is there, or else at
the end. -/
def put (t : Table key) (a : α) : Table key :=
  if h : ∀ b ∈ t.rows, key b ≠ key a then
    { rows := t.rows ++ [a]
      distinct := List.pairwise_append.2
        ⟨t.distinct, List.pairwise_singleton _ _, fun b hb c hc => by
          rw [List.mem_singleton.1 hc]; exact h b hb⟩ }
  else
    { rows := t.rows.map fun b => if key b = key a then a else b
      distinct := distinct_map _ (fun b => by split <;> simp_all) t.distinct }

end Table

end FlowGraph
