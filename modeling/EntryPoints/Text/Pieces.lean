/-!
# Cutting text into pieces

Every text rule of the library works on a list of characters: cutting at a
separator, at its first or last occurrence, trimming at both ends, and breaking
at blanks.  What counts as blank is a parameter.
-/

namespace EntryPoints.Text

/-- The pieces between the occurrences of a separator; always at least one. -/
def splitOn (sep : Char) : List Char → List (List Char)
  | [] => [[]]
  | c :: rest =>
    if c = sep then [] :: splitOn sep rest
    else
      match splitOn sep rest with
      | [] => [[c]]
      | piece :: pieces => (c :: piece) :: pieces

theorem splitOn_ne_nil (sep : Char) (s : List Char) : splitOn sep s ≠ [] := by
  cases s with
  | nil => simp [splitOn]
  | cons c rest =>
    rw [splitOn]
    split
    · simp
    · split <;> simp

/-- The text before the first separator, and what follows it. -/
def cutFirst (sep : Char) (s : List Char) : List Char × List Char :=
  (s.takeWhile (· ≠ sep), (s.dropWhile (· ≠ sep)).drop 1)

def beforeFirst (sep : Char) (s : List Char) : List Char := s.takeWhile (· ≠ sep)

/-- The text after the last separator; all of it when there is none. -/
def afterLast (sep : Char) (s : List Char) : List Char :=
  (s.reverse.takeWhile (· ≠ sep)).reverse

/-- The text before the last separator; empty when there is none. -/
def beforeLast (sep : Char) (s : List Char) : List Char :=
  ((s.reverse.dropWhile (· ≠ sep)).drop 1).reverse

/-- A text is cut behind its front when what follows begins with another kind of character. -/
theorem cut_append {p : Char → Bool} {front rest : List Char} (hfront : ∀ c ∈ front, p c = true)
    (hrest : ∀ c ∈ rest.head?, p c = false) :
    (front ++ rest).takeWhile p = front ∧ (front ++ rest).dropWhile p = rest := by
  rw [List.takeWhile_append_of_pos hfront, List.dropWhile_append_of_pos hfront]
  cases rest with
  | nil => simp
  | cons c rest => simp [hrest c rfl]

/-- Read from its end, a text is cut at its last separator. -/
theorem cut_reverse {sep : Char} (before : List Char) {after : List Char} (hafter : sep ∉ after) :
    (before ++ sep :: after).reverse.takeWhile (· ≠ sep) = after.reverse ∧
      (before ++ sep :: after).reverse.dropWhile (· ≠ sep) = sep :: before.reverse := by
  have hreverse : (before ++ sep :: after).reverse = after.reverse ++ sep :: before.reverse := by
    simp
  rw [hreverse]
  refine cut_append (fun c hc => ?_) (by simp)
  rw [decide_eq_true_eq]
  rintro rfl
  exact hafter (List.mem_reverse.mp hc)

theorem afterLast_append {sep : Char} {before after : List Char} (hafter : sep ∉ after) :
    afterLast sep (before ++ sep :: after) = after := by
  rw [afterLast, (cut_reverse before hafter).1, List.reverse_reverse]

theorem beforeLast_append {sep : Char} {before after : List Char} (hafter : sep ∉ after) :
    beforeLast sep (before ++ sep :: after) = before := by
  rw [beforeLast, (cut_reverse before hafter).2]
  simp

def trimLeft (blank : Char → Bool) (s : List Char) : List Char := s.dropWhile blank

def trimRight (blank : Char → Bool) (s : List Char) : List Char :=
  (s.reverse.dropWhile blank).reverse

def trim (blank : Char → Bool) (s : List Char) : List Char := trimRight blank (trimLeft blank s)

/-- The maximal runs of characters that are not blank. -/
def words (blank : Char → Bool) (s : List Char) : List (List Char) :=
  (s.splitBy (fun a b => blank a == blank b)).filter (fun run => !(run.all blank))

/-- The text without a given ending, if it has it. -/
def dropEnding? (ending s : List Char) : Option (List Char) :=
  if ending.isSuffixOf s then some (s.take (s.length - ending.length)) else none

def endsWith (ending s : String) : Bool := ending.toList.isSuffixOf s.toList

def joinWith (sep : String) (parts : List String) : String := sep.intercalate parts

end EntryPoints.Text
