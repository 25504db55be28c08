import Std.Data.HashMap

/-!
# Dictionaries in insertion order

A table answers look-ups through a hash map and lists its keys in the order in
which they first appeared.  Writing to a key that is present replaces the value
and moves nothing: the key keeps its place, and the key that was stored first
stays the one that is listed.

`groupBy` is the other way of indexing a list: every element goes under its
label, and the elements of one label keep the order of the list.
-/

namespace EntryPoints

universe u v

structure Table (κ : Type u) (α : Type v) [BEq κ] [Hashable κ] where
  slots : Std.HashMap κ α
  order : Array κ

namespace Table

variable {κ : Type u} {α : Type v} [BEq κ] [Hashable κ]

def empty : Table κ α := ⟨∅, #[]⟩

instance : Inhabited (Table κ α) := ⟨empty⟩

def get? (t : Table κ α) (k : κ) : Option α := t.slots[k]?

def contains (t : Table κ α) (k : κ) : Bool := t.slots.contains k

def insert (t : Table κ α) (k : κ) (a : α) : Table κ α :=
  { slots := t.slots.insert k a
    order := if t.slots.contains k then t.order else t.order.push k }

def ofList (entries : List (κ × α)) : Table κ α :=
  entries.foldl (fun t e => t.insert e.1 e.2) empty

def keys (t : Table κ α) : List κ := t.order.toList

def entries (t : Table κ α) : List (κ × α) :=
  t.keys.filterMap fun k => (t.get? k).map (k, ·)

def values (t : Table κ α) : List α := t.keys.filterMap t.get?

def size (t : Table κ α) : Nat := t.order.size

@[simp] theorem get?_empty (k : κ) : (empty : Table κ α).get? k = none := by
  simp [empty, get?]

@[simp] theorem keys_empty : (empty : Table κ α).keys = [] := rfl

theorem get?_insert [EquivBEq κ] [LawfulHashable κ] (t : Table κ α) (k j : κ) (a : α) :
    (t.insert k a).get? j = if k == j then some a else t.get? j := by
  simp [insert, get?, Std.HashMap.getElem?_insert]

theorem keys_insert (t : Table κ α) (k : κ) (a : α) :
    (t.insert k a).keys = if t.contains k then t.keys else t.keys ++ [k] := by
  by_cases h : t.slots.contains k <;> simp [insert, keys, contains, h]

theorem contains_eq_isSome (t : Table κ α) [EquivBEq κ] [LawfulHashable κ] (k : κ) :
    t.contains k = (t.get? k).isSome := by
  simp [contains, get?, Std.HashMap.isSome_getElem?_eq_contains]

end Table

/-- The elements of a list under their labels, each label's in list order. -/
def groupBy {α : Type u} (label : α → String) (xs : List α) :
    Std.HashMap String (List α) :=
  xs.foldr (fun x groups => groups.insert (label x) (x :: groups.getD (label x) [])) ∅

theorem groupBy_cons {α : Type u} (label : α → String) (x : α) (xs : List α) :
    groupBy label (x :: xs) =
      (groupBy label xs).insert (label x) (x :: (groupBy label xs).getD (label x) []) := rfl

theorem groupBy_getD {α : Type u} (label : α → String) (xs : List α) (k : String) :
    (groupBy label xs).getD k [] = xs.filter (label · == k) := by
  induction xs with
  | nil => simp [groupBy]
  | cons x xs ih =>
    rw [groupBy_cons, Std.HashMap.getD_insert]
    by_cases h : label x = k
    · subst h
      simp [ih]
    · simp [h, ih]

end EntryPoints
