import EntryPoints.Code.Symbol
import Std.Data.HashMap

/-!
# Caches of a session

`CallerCache` remembers the callers of a method under its key.  It is emptied as a
whole, and only between searches, once it holds more entries than its limit.

`KeyCache` remembers the keys of methods.  Its proof field says that every stored
key is the key of its method, so that reading through the cache is computing the
key: `keyOf_fst`.
-/

namespace EntryPoints

structure CallerCache where
  limit : Int := 1000
  entries : Std.HashMap String (List Method) := ∅

namespace CallerCache

instance : Inhabited CallerCache := ⟨{}⟩

def size (c : CallerCache) : Nat := c.entries.size

def get? (c : CallerCache) (key : String) : Option (List Method) := c.entries[key]?

def contains (c : CallerCache) (key : String) : Bool := c.entries.contains key

def put (c : CallerCache) (key : String) (callers : List Method) : CallerCache :=
  { c with entries := c.entries.insert key callers }

def clear (c : CallerCache) : CallerCache := { c with entries := ∅ }

def isOverfull (c : CallerCache) : Bool := decide (c.limit < c.size)

/-- Empties the cache if it holds more entries than its limit. -/
def trim (c : CallerCache) : CallerCache := if c.isOverfull then c.clear else c

@[simp] theorem get?_clear (c : CallerCache) (key : String) : c.clear.get? key = none := by
  simp [clear, get?]

@[simp] theorem size_clear (c : CallerCache) : c.clear.size = 0 := by
  simp [clear, size]

theorem get?_put (c : CallerCache) (key k : String) (callers : List Method) :
    (c.put key callers).get? k = if key = k then some callers else c.get? k := by
  simp [put, get?, Std.HashMap.getElem?_insert]

theorem get?_trim (c : CallerCache) (key : String) :
    c.trim.get? key = if c.isOverfull then none else c.get? key := by
  unfold trim
  split <;> simp

theorem size_put_le (c : CallerCache) (key : String) (callers : List Method) :
    (c.put key callers).size ≤ c.size + 1 := Std.HashMap.size_insert_le

end CallerCache

structure KeyCache where
  entries : Std.HashMap Method String
  sound : ∀ (m : Method) (k : String), entries[m]? = some k → k = m.key

namespace KeyCache

def empty : KeyCache := ⟨∅, by simp⟩

instance : Inhabited KeyCache := ⟨empty⟩

def size (c : KeyCache) : Nat := c.entries.size

/-- The key of a method, and the cache that remembers it. -/
def keyOf (c : KeyCache) (m : Method) : String × KeyCache :=
  match c.entries[m]? with
  | some key => (key, c)
  | none =>
    (m.key,
      { entries := c.entries.insert m m.key
        sound := by
          intro n k h
          rw [Std.HashMap.getElem?_insert] at h
          split at h
          case isTrue same => exact (Option.some.inj h) ▸ Method.key_eq_of_beq same
          case isFalse => exact c.sound n k h })

theorem keyOf_fst (c : KeyCache) (m : Method) : (c.keyOf m).1 = m.key := by
  unfold keyOf
  split
  case h_1 key h => exact c.sound m key h
  case h_2 => rfl

end KeyCache

end EntryPoints
