import EntryPoints.File.Path
import Mathlib.Data.List.TakeWhile

/-!
# Paths in normal form

A path is in normal form when its root is one that leading slashes can give and when each of its
segments can stand between slashes without vanishing.  Reading a text gives such a path, and the
text of such a path is read back as that path.  So two of them are the same when their texts are.
-/

namespace EntryPoints

/-! ## Cutting and joining -/

namespace Text

variable {sep : Char} {s piece : List Char}

theorem splitOn_of_notMem (hpiece : sep ∉ piece) : splitOn sep piece = [piece] := by
  induction piece with
  | nil => rfl
  | cons c piece ih =>
      rw [List.mem_cons, not_or] at hpiece
      simp [splitOn, Ne.symm hpiece.1, ih hpiece.2]

theorem splitOn_append_cons (hpiece : sep ∉ piece) (s : List Char) :
    splitOn sep (piece ++ sep :: s) = piece :: splitOn sep s := by
  induction piece with
  | nil => simp [splitOn]
  | cons c piece ih =>
      rw [List.mem_cons, not_or] at hpiece
      simp [splitOn, Ne.symm hpiece.1, ih hpiece.2]

/-- Pieces without the separator are what cutting at it finds. -/
theorem splitOn_intercalate {pieces : List (List Char)} (hpieces : pieces ≠ [])
    (h : ∀ piece ∈ pieces, sep ∉ piece) : splitOn sep ([sep].intercalate pieces) = pieces := by
  induction pieces with
  | nil => exact absurd rfl hpieces
  | cons first more ih =>
      have hfirst : sep ∉ first := h first (by simp)
      cases more with
      | nil => rw [List.intercalate_singleton, splitOn_of_notMem hfirst]
      | cons second more =>
          rw [List.intercalate_cons_cons, List.append_assoc, List.singleton_append,
            splitOn_append_cons hfirst, ih (by simp) fun piece hpiece => h piece (by simp [hpiece])]

/-- A piece of a longer text is empty, a piece of the rest, or one of them with a character in
front. -/
theorem of_mem_splitOn_cons {c : Char} (hpiece : piece ∈ splitOn sep (c :: s)) :
    piece = [] ∨ piece ∈ splitOn sep s ∨
      (c ≠ sep ∧ ∃ first ∈ splitOn sep s, piece = c :: first) := by
  rw [splitOn] at hpiece
  cases hrest : splitOn sep s with
  | nil => exact absurd hrest (splitOn_ne_nil sep s)
  | cons first more =>
      rw [hrest] at hpiece
      split at hpiece
      · exact (List.mem_cons.mp hpiece).imp_right .inl
      · next hc =>
        rcases List.mem_cons.mp hpiece with rfl | hpiece
        · exact .inr (.inr ⟨hc, first, List.mem_cons_self, rfl⟩)
        · exact .inr (.inl (List.mem_cons_of_mem _ hpiece))

theorem notMem_of_mem_splitOn (hpiece : piece ∈ splitOn sep s) : sep ∉ piece := by
  induction s generalizing piece with
  | nil => simp_all [splitOn]
  | cons c s ih =>
      rcases of_mem_splitOn_cons hpiece with rfl | hpiece | ⟨hc, first, hfirst, rfl⟩
      · exact List.not_mem_nil
      · exact ih hpiece
      · simp [Ne.symm hc, ih hfirst]

theorem mem_of_mem_splitOn {c : Char} (hpiece : piece ∈ splitOn sep s) (hc : c ∈ piece) :
    c ∈ s := by
  induction s generalizing piece with
  | nil => simp_all [splitOn]
  | cons d s ih =>
      rcases of_mem_splitOn_cons hpiece with rfl | hpiece | ⟨-, first, hfirst, rfl⟩
      · cases hc
      · exact List.mem_cons_of_mem _ (ih hpiece hc)
      · rcases List.mem_cons.mp hc with rfl | hc
        · exact List.mem_cons_self
        · exact List.mem_cons_of_mem _ (ih hfirst hc)

end Text

namespace FilePath

/-! ## Normal form -/

/-- Whether a text can stand between slashes and does not vanish there. -/
structure IsSegment (text : String) : Prop where
  nonempty : text ≠ ""
  notDot : text ≠ "."
  unbroken : '/' ∉ text.toList

structure IsNormal (p : FilePath) : Prop where
  root : p.root = "" ∨ p.root = "/" ∨ p.root = "//"
  segments : ∀ segment ∈ p.segments, IsSegment segment

theorem rootOf_cases (s : List Char) : rootOf s = "" ∨ rootOf s = "/" ∨ rootOf s = "//" := by
  unfold rootOf
  split <;> simp

theorem isNormal_ofString (s : String) : (ofString s).IsNormal where
  root := rootOf_cases s.toList
  segments segment hsegment := by
    simp only [ofString, segmentsOf, List.mem_filter, List.mem_map, Bool.and_eq_true,
      decide_eq_true_eq] at hsegment
    obtain ⟨⟨piece, hpiece, rfl⟩, hnonempty, hnotDot⟩ := hsegment
    exact ⟨hnonempty, hnotDot, by simpa using Text.notMem_of_mem_splitOn hpiece⟩

/-- The text of the segments, without the root. -/
def segmentText (segments : List String) : List Char :=
  ['/'].intercalate (segments.map String.toList)

theorem toList_joinWith (segments : List String) :
    (Text.joinWith "/" segments).toList = segmentText segments := by
  simp [Text.joinWith, segmentText]

theorem splitOn_segmentText {segments : List String} (hne : segments ≠ [])
    (hsegments : ∀ segment ∈ segments, IsSegment segment) :
    Text.splitOn '/' (segmentText segments) = segments.map String.toList := by
  apply Text.splitOn_intercalate
  · simpa using hne
  · intro piece hpiece
    obtain ⟨segment, hsegment, rfl⟩ := List.mem_map.mp hpiece
    exact (hsegments segment hsegment).unbroken

theorem filter_segments {segments : List String}
    (hsegments : ∀ segment ∈ segments, IsSegment segment) :
    (segments.filter fun piece => piece ≠ "" && piece ≠ ".") = segments := by
  rw [List.filter_eq_self]
  intro segment hsegment
  simp [(hsegments segment hsegment).nonempty, (hsegments segment hsegment).notDot]

theorem segmentsOf_segmentText {segments : List String}
    (hsegments : ∀ segment ∈ segments, IsSegment segment) :
    segmentsOf (segmentText segments) = segments := by
  cases segments with
  | nil => rfl
  | cons first more =>
      rw [segmentsOf, splitOn_segmentText (by simp) hsegments, List.map_map]
      simpa [Function.comp_def] using filter_segments hsegments

/-- Slashes in front give no segments. -/
theorem segmentsOf_slash (s : List Char) : segmentsOf ('/' :: s) = segmentsOf s := by
  simp [segmentsOf, Text.splitOn]

theorem head?_segmentText {segments : List String}
    (hsegments : ∀ segment ∈ segments, IsSegment segment) :
    ∀ c ∈ (segmentText segments).head?, decide (c = '/') = false := by
  intro c hc
  cases segments with
  | nil => cases hc
  | cons first more =>
      have hfirst := hsegments first (by simp)
      cases hchars : first.toList with
      | nil => exact absurd (String.toList_eq_nil_iff.mp hchars) hfirst.nonempty
      | cons d rest =>
          have hd : '/' ≠ d := by
            have hunbroken := hfirst.unbroken
            rw [hchars, List.mem_cons, not_or] at hunbroken
            exact hunbroken.1
          have hcd : c = d := by
            cases more <;> simp_all [segmentText]
          simpa [hcd] using hd.symm

/-- The root is read off the slashes in front. -/
theorem rootOf_append (root : List Char) {s : List Char}
    (hroot : ∀ c ∈ root, decide (c = '/') = true)
    (hs : ∀ c ∈ s.head?, decide (c = '/') = false) : rootOf (root ++ s) = rootOf root := by
  have hall : root.takeWhile (· = '/') = root := List.takeWhile_eq_self_iff.mpr hroot
  rw [rootOf, rootOf, (Text.cut_append hroot hs).1, hall]

/-- The text of a path in normal form is read back as that path. -/
theorem ofString_toString {p : FilePath} (h : p.IsNormal) : ofString p.toString = p := by
  obtain ⟨root, segments⟩ := p
  have hsegments := segmentsOf_segmentText h.segments
  have hroot (slashes : List Char) (hslashes : ∀ c ∈ slashes, decide (c = '/') = true) :=
    rootOf_append slashes hslashes (head?_segmentText h.segments)
  rcases h.root with rfl | rfl | rfl
  · cases segments with
    | nil => rfl
    | cons first more =>
        have htext : (toString ⟨"", first :: more⟩).toList = segmentText (first :: more) := by
          simp [toString, toList_joinWith]
        have hnone : rootOf (segmentText (first :: more)) = "" := hroot [] (by simp)
        rw [ofString, htext, hsegments, hnone]
  · have htext : (toString ⟨"/", segments⟩).toList = '/' :: segmentText segments := by
      simp [toString, toList_joinWith]
    have hone : rootOf ('/' :: segmentText segments) = "/" := hroot ['/'] (by simp)
    rw [ofString, htext, segmentsOf_slash, hsegments, hone]
  · have htext : (toString ⟨"//", segments⟩).toList = '/' :: '/' :: segmentText segments := by
      simp [toString, toList_joinWith]
    have htwo : rootOf ('/' :: '/' :: segmentText segments) = "//" := hroot ['/', '/'] (by simp)
    rw [ofString, htext, segmentsOf_slash, segmentsOf_slash, hsegments, htwo]

theorem eq_of_toString_eq {p q : FilePath} (hp : p.IsNormal) (hq : q.IsNormal)
    (h : p.toString = q.toString) : p = q := by
  rw [← ofString_toString hp, h, ofString_toString hq]

/-! ## Going on from a path -/

/-- Where names lead to from a path. -/
def below (p : FilePath) (names : List String) : FilePath :=
  { p with segments := p.segments ++ names }

variable {p : FilePath}

@[simp] theorem below_child (p : FilePath) (name : String) (names : List String) :
    (p.child name).below names = p.below (name :: names) := by
  simp [below, child]

theorem IsNormal.below {names : List String} (hp : p.IsNormal)
    (hnames : ∀ name ∈ names, IsSegment name) : (p.below names).IsNormal where
  root := hp.root
  segments segment hsegment := by
    rcases List.mem_append.mp hsegment with hsegment | hsegment
    · exact hp.segments segment hsegment
    · exact hnames segment hsegment

theorem IsNormal.child {name : String} (hp : p.IsNormal) (hname : IsSegment name) :
    (p.child name).IsNormal :=
  hp.below (List.forall_mem_singleton.mpr hname)

end FilePath

end EntryPoints
