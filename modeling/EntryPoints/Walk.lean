/-!
# Breadth-first walks

A walk lists what can be reached from some starting points, each label once, in
breadth-first order.  Successors need not be smaller than the node they belong to,
so the walk is given a budget of expansions that make the pending list heavier; an
expansion that makes it lighter is free.  The budget bounds the number of distinct
labels with heavy successors, and a walk that is given as many never runs short.
-/

namespace EntryPoints.Walk

variable {α κ : Type} [BEq κ]

/-- The weight of everything that is still pending. -/
def load (weight : α → Nat) : List α → Nat
  | [] => 0
  | x :: rest => weight x + 1 + load weight rest

@[simp] theorem load_cons (weight : α → Nat) (x : α) (rest : List α) :
    load weight (x :: rest) = weight x + 1 + load weight rest := rfl

@[simp] theorem load_append (weight : α → Nat) (xs ys : List α) :
    load weight (xs ++ ys) = load weight xs + load weight ys := by
  induction xs with
  | nil => simp only [List.nil_append, load, Nat.zero_add]
  | cons x xs ih => simp only [List.cons_append, load_cons, ih, Nat.add_assoc]

/-- Visits the pending nodes in order; `seen` holds the labels that were visited. -/
def visit (label : α → κ) (next : α → List α) (weight : α → Nat) (budget : Nat)
    (pending : List α) (seen : List κ) : List α :=
  match pending with
  | [] => []
  | x :: rest =>
    if seen.contains (label x) then visit label next weight budget rest seen
    else
      let successors := next x
      if load weight successors ≤ weight x then
        x :: visit label next weight budget (rest ++ successors) (label x :: seen)
      else
        match budget with
        | 0 => x :: visit label next weight 0 rest (label x :: seen)
        | left + 1 =>
          x :: visit label next weight left (rest ++ successors) (label x :: seen)
termination_by (budget, load weight pending)
decreasing_by
  · exact Prod.Lex.right _ (by rw [load_cons]; omega)
  · exact Prod.Lex.right _ (by
      have : load weight (next x) ≤ weight x := by assumption
      rw [load_cons, load_append]; omega)
  · exact Prod.Lex.right _ (by rw [load_cons]; omega)
  · exact Prod.Lex.left _ _ (by omega)

end EntryPoints.Walk
