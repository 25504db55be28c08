/-!
# Places in source text

A location is a half-open range of byte offsets in one file, with the line on
which it starts.  Containment compares offsets only, within one file, and is a
partial order on them.
-/

namespace EntryPoints

structure Location where
  file : String
  line : Int
  start : Int
  stop : Int
deriving DecidableEq, Repr, Inhabited

namespace Location

/-- Whether a location lies inside another one of the same file. -/
def contains (outer inner : Location) : Bool :=
  outer.file == inner.file && decide (outer.start ≤ inner.start) && decide (inner.stop ≤ outer.stop)

def width (l : Location) : Int := l.stop - l.start

theorem contains_iff {outer inner : Location} :
    outer.contains inner ↔
      outer.file = inner.file ∧ outer.start ≤ inner.start ∧ inner.stop ≤ outer.stop := by
  simp [contains, and_assoc]

theorem contains_refl (l : Location) : l.contains l := by
  simp [contains_iff]

theorem contains_trans {a b c : Location} (hab : a.contains b) (hbc : b.contains c) :
    a.contains c := by
  rw [contains_iff] at *
  exact ⟨hab.1.trans hbc.1, by omega, by omega⟩

end Location

end EntryPoints
