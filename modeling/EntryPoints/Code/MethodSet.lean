import EntryPoints.Code.Symbol
import Std.Data.HashSet

/-!
# Sets of methods in order of discovery

A set of methods holds at most one method of each key and lists them in the order
in which they were found.  The keys are kept beside the list so that membership is
one look-up; the two proof fields tie them together.
-/

namespace EntryPoints

structure MethodSet where
  members : Array Method
  keys : Std.HashSet String
  mem_keys : ∀ k, k ∈ keys ↔ k ∈ members.toList.map Method.key
  distinct : (members.toList.map Method.key).Nodup

namespace MethodSet

def empty : MethodSet := ⟨#[], ∅, by simp, by simp⟩

instance : Inhabited MethodSet := ⟨empty⟩

def toList (s : MethodSet) : List Method := s.members.toList

def size (s : MethodSet) : Nat := s.members.size

def containsKey (s : MethodSet) (k : String) : Bool := s.keys.contains k

/-- Adds a method unless one of its key is there already. -/
def insert (s : MethodSet) (m : Method) : MethodSet :=
  if h : m.key ∈ s.keys then s
  else
    { members := s.members.push m
      keys := s.keys.insert m.key
      mem_keys := by
        intro k
        rw [Std.HashSet.mem_insert, s.mem_keys, beq_iff_eq, Array.toList_push, List.map_append,
          List.mem_append, List.map_singleton, List.mem_singleton, or_comm, eq_comm (a := k)]
      distinct := by
        rw [s.mem_keys] at h
        simp only [Array.toList_push, List.map_append, List.map_cons, List.map_nil]
        exact List.nodup_append.2 ⟨s.distinct, by simp, by
          intro a ha b hb
          simp only [List.mem_singleton] at hb
          rintro rfl
          exact h (hb ▸ ha)⟩ }

def erase (s : MethodSet) (k : String) : MethodSet where
  members := s.members.filter (·.key ≠ k)
  keys := s.keys.erase k
  mem_keys := by
    intro j
    simp only [Std.HashSet.mem_erase, s.mem_keys, Array.toList_filter, List.mem_map,
      List.mem_filter]
    constructor
    · rintro ⟨hne, m, hm, rfl⟩
      exact ⟨m, ⟨hm, decide_eq_true fun h => by simp [h] at hne⟩, rfl⟩
    · rintro ⟨m, ⟨hm, hne⟩, rfl⟩
      exact ⟨beq_false_of_ne fun h => of_decide_eq_true hne h.symm, m, hm, rfl⟩
  distinct := by
    rw [Array.toList_filter]
    exact List.Sublist.nodup (List.Sublist.map _ List.filter_sublist) s.distinct

@[simp] theorem toList_empty : empty.toList = [] := rfl

theorem mem_keys_iff {s : MethodSet} {k : String} :
    s.containsKey k = true ↔ ∃ m ∈ s.toList, m.key = k := by
  rw [containsKey, ← Std.HashSet.mem_iff_contains, s.mem_keys]
  simp [toList]

theorem toList_insert (s : MethodSet) (m : Method) :
    (s.insert m).toList =
      if s.containsKey m.key then s.toList else s.toList ++ [m] := by
  unfold insert containsKey toList
  by_cases h : m.key ∈ s.keys
  · rw [dif_pos h, if_pos (Std.HashSet.mem_iff_contains.1 h)]
  · rw [dif_neg h, if_neg fun k => h (Std.HashSet.mem_iff_contains.2 k), Array.toList_push]

theorem toList_erase (s : MethodSet) (k : String) :
    (s.erase k).toList = s.toList.filter (·.key ≠ k) := by
  simp [erase, toList]

theorem nodup_keys (s : MethodSet) : (s.toList.map Method.key).Nodup := s.distinct

def ofList (ms : List Method) : MethodSet := ms.foldl insert empty

end MethodSet

end EntryPoints
