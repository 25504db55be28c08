import EntryPoints.Walk
import Mathlib.Logic.Relation

/-!
# What a walk lists

A walk lists only what can be reached from its starting points, and when its budget
allows an expansion for every heavy label that can occur, it misses no label that
can be reached.

Nodes of one label stand for each other, so a node whose label was met before is
passed over.  The invariant of the walk is therefore about labels: whatever follows
a label that was met has been met itself or is still pending.
-/

namespace EntryPoints.Walk

variable {α κ : Type} [BEq κ] {label : α → κ} {next : α → List α} {weight : α → Nat}

theorem reaches_of_mem_visit {budget : Nat} {pending : List α} {seen : List κ} {x : α}
    (hx : x ∈ visit label next weight budget pending seen) :
    ∃ p ∈ pending, Relation.ReflTransGen (fun a b => b ∈ next a) p x := by
  have hstep : ∀ {y : α} {rest : List α},
      (∃ p ∈ rest ++ next y, Relation.ReflTransGen (fun a b => b ∈ next a) p x) →
        ∃ p ∈ y :: rest, Relation.ReflTransGen (fun a b => b ∈ next a) p x := by
    rintro y rest ⟨p, hp, hreach⟩
    rcases List.mem_append.mp hp with hp | hp
    · exact ⟨p, List.mem_cons_of_mem y hp, hreach⟩
    · exact ⟨y, List.mem_cons_self, .head hp hreach⟩
  fun_induction visit label next weight budget pending seen with
  | case1 => cases hx
  | case2 budget seen y rest hseen ih =>
      obtain ⟨p, hp, hreach⟩ := ih hx
      exact ⟨p, List.mem_cons_of_mem y hp, hreach⟩
  | case3 budget seen y rest hseen successors hlight ih =>
      rcases List.mem_cons.mp hx with rfl | hx
      · exact ⟨x, List.mem_cons_self, .refl⟩
      · exact hstep (ih hx)
  | case4 seen y rest hseen successors hheavy ih =>
      rcases List.mem_cons.mp hx with rfl | hx
      · exact ⟨x, List.mem_cons_self, .refl⟩
      · obtain ⟨p, hp, hreach⟩ := ih hx
        exact ⟨p, List.mem_cons_of_mem y hp, hreach⟩
  | case5 seen y rest hseen successors hheavy left ih =>
      rcases List.mem_cons.mp hx with rfl | hx
      · exact ⟨x, List.mem_cons_self, .refl⟩
      · exact hstep (ih hx)

/-- A walk from known nodes lists known nodes, when no step leaves them. -/
theorem known_of_mem_visit {known : α → Prop} {budget : Nat} {pending : List α} {seen : List κ}
    (hclosed : ∀ a, known a → ∀ b ∈ next a, known b) (hpending : ∀ p ∈ pending, known p) :
    ∀ x ∈ visit label next weight budget pending seen, known x := by
  intro x hx
  obtain ⟨p, hp, hreach⟩ := reaches_of_mem_visit hx
  clear hx
  induction hreach with
  | refl => exact hpending p hp
  | tail _ hstep ih => exact hclosed _ ih _ hstep

/-! ## Nothing is missed -/

/-- The nodes that a walk may meet: no step leaves them, nodes of one label have the same
successors, and the labels with heavy successors are listed. -/
structure Terrain (label : α → κ) (next : α → List α) (weight : α → Nat)
    (known : α → Prop) (heavy : List κ) : Prop where
  closed : ∀ a, known a → ∀ b ∈ next a, known b
  same : ∀ a b, known a → known b → (label a == label b) = true → next a = next b
  heavy : ∀ a, known a → weight a < load weight (next a) → heavy.contains (label a) = true

theorem Terrain.known_expand {known : α → Prop} {heavy : List κ}
    (hterrain : Terrain label next weight known heavy) {x : α} {rest : List α}
    (hpending : ∀ p ∈ x :: rest, known p) : ∀ p ∈ rest ++ next x, known p := by
  intro p hp
  rcases List.mem_append.mp hp with hp | hp
  · exact hpending p (List.mem_cons_of_mem x hp)
  · exact hterrain.closed x (hpending x List.mem_cons_self) p hp

/-- The label was seen before the walk, or the walk lists a node of it. -/
def Met (label : α → κ) (seen : List κ) (listed : List α) (k : κ) : Prop :=
  seen.contains k = true ∨ ∃ z ∈ listed, (label z == k) = true

/-- The listed labels that may still need an expansion from the budget. -/
def remaining (heavy seen : List κ) : List κ := heavy.filter fun k => !seen.contains k

variable {known : α → Prop} {heavy : List κ}

theorem met_cons [EquivBEq κ] (x : α) (seen : List κ) (listed : List α) (k : κ) :
    Met label (label x :: seen) listed k ↔ Met label seen (x :: listed) k := by
  unfold Met
  rw [List.contains_cons, Bool.or_eq_true]
  constructor
  · rintro ((hk | hk) | ⟨z, hz, hk⟩)
    · exact .inr ⟨x, List.mem_cons_self, BEq.symm hk⟩
    · exact .inl hk
    · exact .inr ⟨z, List.mem_cons_of_mem x hz, hk⟩
  · rintro (hk | ⟨z, hz, hk⟩)
    · exact .inl (.inr hk)
    · rcases List.mem_cons.mp hz with rfl | hz
      · exact .inl (.inl (BEq.symm hk))
      · exact .inr ⟨z, hz, hk⟩

theorem contains_of_beq [EquivBEq κ] {seen : List κ} {j k : κ} (hjk : (j == k) = true)
    (hj : seen.contains j = true) : seen.contains k = true := by
  rw [List.contains_iff_exists_mem_beq] at hj ⊢
  obtain ⟨i, hi, hji⟩ := hj
  exact ⟨i, hi, BEq.trans (BEq.symm hjk) hji⟩

theorem remaining_cons (heavy seen : List κ) (k : κ) :
    remaining heavy (k :: seen) = (remaining heavy seen).filter fun i => !(i == k) := by
  unfold remaining
  rw [List.filter_filter]
  apply List.filter_congr
  intro i _
  rw [List.contains_cons, Bool.not_or]

theorem length_remaining_cons_le (labels seen : List κ) (k : κ) :
    (remaining labels (k :: seen)).length ≤ (remaining labels seen).length := by
  rw [remaining_cons]
  exact List.length_filter_le _ _

theorem length_remaining_cons_lt [EquivBEq κ] {seen : List κ} {k : κ}
    (hheavy : heavy.contains k = true) (hnew : ¬ seen.contains k = true) :
    (remaining heavy (k :: seen)).length < (remaining heavy seen).length := by
  rw [List.contains_iff_exists_mem_beq] at hheavy
  obtain ⟨j, hj, hkj⟩ := hheavy
  have hmem : j ∈ remaining heavy seen := by
    refine List.mem_filter.mpr ⟨hj, ?_⟩
    rw [Bool.not_eq_true', ← Bool.not_eq_true]
    exact fun hseen => hnew (contains_of_beq (BEq.symm hkj) hseen)
  rw [remaining_cons]
  apply List.length_filter_lt_length_iff_exists.mpr
  exact ⟨j, hmem, by simp [BEq.symm hkj]⟩

/-- The labels that follow a seen one are seen or pending. -/
def Frontier (label : α → κ) (next : α → List α) (known : α → Prop) (seen : List κ)
    (pending : List α) : Prop :=
  ∀ a, known a → seen.contains (label a) = true → ∀ b ∈ next a,
    seen.contains (label b) = true ∨ ∃ p ∈ pending, (label p == label b) = true

theorem Frontier.skip [EquivBEq κ] {seen : List κ} {x : α} {rest : List α}
    (h : Frontier label next known seen (x :: rest)) (hx : seen.contains (label x) = true) :
    Frontier label next known seen rest := by
  intro a ha hseen b hb
  rcases h a ha hseen b hb with hmet | ⟨p, hp, hpb⟩
  · exact .inl hmet
  · rcases List.mem_cons.mp hp with rfl | hp
    · exact .inl (contains_of_beq hpb hx)
    · exact .inr ⟨p, hp, hpb⟩

theorem Frontier.expand [EquivBEq κ] (hterrain : Terrain label next weight known heavy)
    {seen : List κ} {x : α} {rest : List α} (hx : known x)
    (h : Frontier label next known seen (x :: rest)) :
    Frontier label next known (label x :: seen) (rest ++ next x) := by
  intro a ha hseen b hb
  rw [List.contains_cons, Bool.or_eq_true] at hseen
  rcases hseen with hax | hseen
  · rw [hterrain.same a x ha hx hax] at hb
    exact .inr ⟨b, List.mem_append_right rest hb, BEq.rfl⟩
  · rcases h a ha hseen b hb with hmet | ⟨p, hp, hpb⟩
    · exact .inl (by simp [List.contains_cons, hmet])
    · rcases List.mem_cons.mp hp with rfl | hp
      · exact .inl (by simp [List.contains_cons, BEq.symm hpb])
      · exact .inr ⟨p, List.mem_append_left _ hp, hpb⟩

/-- What the rest of a walk meets after `x` was taken up, said from before that. -/
theorem met_closed_cons [EquivBEq κ] {seen : List κ} {x : α} {rest successors listed : List α}
    (hrest : ∀ p ∈ rest ++ successors, Met label (label x :: seen) listed (label p))
    (hclosed : ∀ a, known a → Met label (label x :: seen) listed (label a) →
      ∀ b ∈ next a, Met label (label x :: seen) listed (label b)) :
    (∀ p ∈ x :: rest, Met label seen (x :: listed) (label p)) ∧
      ∀ a, known a → Met label seen (x :: listed) (label a) →
        ∀ b ∈ next a, Met label seen (x :: listed) (label b) := by
  simp only [met_cons] at hrest hclosed
  refine ⟨?_, hclosed⟩
  intro p hp
  rcases List.mem_cons.mp hp with rfl | hp
  · exact .inr ⟨p, List.mem_cons_self, BEq.rfl⟩
  · exact hrest p (List.mem_append_left successors hp)

/-- With a budget for every heavy label that is left, the pending labels are met, and so is
whatever follows a label that is met. -/
theorem met_closed_of_visit [EquivBEq κ] (hterrain : Terrain label next weight known heavy)
    (budget : Nat) (pending : List α) (seen : List κ) (hpending : ∀ p ∈ pending, known p)
    (hfrontier : Frontier label next known seen pending)
    (hbudget : (remaining heavy seen).length ≤ budget) :
    (∀ p ∈ pending, Met label seen (visit label next weight budget pending seen) (label p)) ∧
      ∀ a, known a → Met label seen (visit label next weight budget pending seen) (label a) →
        ∀ b ∈ next a,
          Met label seen (visit label next weight budget pending seen) (label b) := by
  fun_induction visit label next weight budget pending seen with
  | case1 budget seen =>
      refine ⟨by simp, ?_⟩
      intro a ha hmet b hb
      rcases hmet with hseen | ⟨z, hz, -⟩
      · rcases hfrontier a ha hseen b hb with hmet | ⟨p, hp, -⟩
        · exact .inl hmet
        · cases hp
      · cases hz
  | case2 budget seen x rest hseen ih =>
      obtain ⟨hrest, hclosed⟩ := ih (fun p hp => hpending p (List.mem_cons_of_mem x hp))
        (hfrontier.skip hseen) hbudget
      refine ⟨?_, hclosed⟩
      intro p hp
      rcases List.mem_cons.mp hp with rfl | hp
      · exact .inl hseen
      · exact hrest p hp
  | case3 budget seen x rest hseen successors hlight ih =>
      have hx : known x := hpending x List.mem_cons_self
      have hleft : (remaining heavy (label x :: seen)).length ≤ budget :=
        Nat.le_trans (length_remaining_cons_le heavy seen (label x)) hbudget
      obtain ⟨hrest, hclosed⟩ := ih (hterrain.known_expand hpending)
        (hfrontier.expand hterrain hx) hleft
      exact met_closed_cons hrest hclosed
  | case4 seen x rest hseen successors hheavy ih =>
      -- The budget is not used up while a heavy label is left.
      have hx : known x := hpending x List.mem_cons_self
      have hmore := length_remaining_cons_lt (hterrain.heavy x hx (Nat.lt_of_not_le hheavy)) hseen
      omega
  | case5 seen x rest hseen successors hheavy left ih =>
      have hx : known x := hpending x List.mem_cons_self
      have hmore := length_remaining_cons_lt (hterrain.heavy x hx (Nat.lt_of_not_le hheavy)) hseen
      obtain ⟨hrest, hclosed⟩ := ih (hterrain.known_expand hpending)
        (hfrontier.expand hterrain hx) (by omega)
      exact met_closed_cons hrest hclosed

theorem met_of_reaches [EquivBEq κ] (hterrain : Terrain label next weight known heavy)
    {budget : Nat} {pending : List α} {seen : List κ} (hpending : ∀ p ∈ pending, known p)
    (hfrontier : Frontier label next known seen pending)
    (hbudget : (remaining heavy seen).length ≤ budget) {p x : α} (hp : p ∈ pending)
    (hreach : Relation.ReflTransGen (fun a b => b ∈ next a) p x) :
    Met label seen (visit label next weight budget pending seen) (label x) := by
  obtain ⟨hmet, hclosed⟩ := met_closed_of_visit hterrain budget pending seen hpending
    hfrontier hbudget
  have hknown : known x ∧
      Met label seen (visit label next weight budget pending seen) (label x) := by
    induction hreach with
    | refl => exact ⟨hpending p hp, hmet p hp⟩
    | tail _ hb ih => exact ⟨hterrain.closed _ ih.1 _ hb, hclosed _ ih.1 ih.2 _ hb⟩
  exact hknown.2

/-! ## Budgets that suffice -/

section Steps

variable {budget : Nat} {x : α} {rest : List α} {seen : List κ}

theorem visit_cons_of_seen (hseen : seen.contains (label x) = true) :
    visit label next weight budget (x :: rest) seen =
      visit label next weight budget rest seen := by
  rw [visit, if_pos hseen]

theorem visit_cons_of_light (hnew : ¬ seen.contains (label x) = true)
    (hlight : load weight (next x) ≤ weight x) :
    visit label next weight budget (x :: rest) seen =
      x :: visit label next weight budget (rest ++ next x) (label x :: seen) := by
  rw [visit, if_neg hnew]
  exact if_pos hlight

theorem visit_cons_of_heavy (hnew : ¬ seen.contains (label x) = true)
    (hweight : ¬ load weight (next x) ≤ weight x) :
    visit label next weight (budget + 1) (x :: rest) seen =
      x :: visit label next weight budget (rest ++ next x) (label x :: seen) := by
  rw [visit, if_neg hnew]
  exact if_neg hweight

end Steps

/-- Two walks whose steps agree on the known nodes list the same, when each has a budget for
the heavy labels that are left. -/
theorem visit_eq_of_budgets [EquivBEq κ] {other : α → List α} {more : List κ}
    (hclosed : ∀ a, known a → ∀ b ∈ next a, known b)
    (hother : ∀ a, known a → other a = next a)
    (hheavy : ∀ a, known a → weight a < load weight (next a) →
      heavy.contains (label a) = true ∧ more.contains (label a) = true)
    (budget spare : Nat) (pending : List α) (seen : List κ) (hpending : ∀ p ∈ pending, known p)
    (hbudget : (remaining heavy seen).length ≤ budget)
    (hspare : (remaining more seen).length ≤ spare) :
    visit label other weight spare pending seen = visit label next weight budget pending seen := by
  have hexpand (x : α) (rest : List α) (hknown : ∀ p ∈ x :: rest, known p) :
      ∀ p ∈ rest ++ next x, known p := by
    intro p hp
    rcases List.mem_append.mp hp with hp | hp
    · exact hknown p (List.mem_cons_of_mem x hp)
    · exact hclosed x (hknown x List.mem_cons_self) p hp
  fun_induction visit label next weight budget pending seen generalizing spare with
  | case1 budget seen => rw [visit]
  | case2 budget seen x rest hseen ih =>
      rw [visit_cons_of_seen hseen]
      exact ih spare (fun p hp => hpending p (List.mem_cons_of_mem x hp)) hbudget hspare
  | case3 budget seen x rest hseen successors hlight ih =>
      have hx : known x := hpending x List.mem_cons_self
      have hotherLight : load weight (other x) ≤ weight x := by rwa [hother x hx]
      rw [visit_cons_of_light hseen hotherLight, hother x hx]
      congr 1
      exact ih spare (hexpand x rest hpending)
        (Nat.le_trans (length_remaining_cons_le heavy seen (label x)) hbudget)
        (Nat.le_trans (length_remaining_cons_le more seen (label x)) hspare)
  | case4 seen x rest hseen successors hweight ih =>
      -- As above, this budget is not used up; in the next case neither is the other one.
      have hx : known x := hpending x List.mem_cons_self
      have hmore := length_remaining_cons_lt (hheavy x hx (Nat.lt_of_not_le hweight)).1 hseen
      omega
  | case5 seen x rest hseen successors hweight left ih =>
      have hx : known x := hpending x List.mem_cons_self
      have hlabel := hheavy x hx (Nat.lt_of_not_le hweight)
      have hfewer := length_remaining_cons_lt hlabel.1 hseen
      have hfewerMore := length_remaining_cons_lt hlabel.2 hseen
      have hotherWeight : ¬ load weight (other x) ≤ weight x := by rwa [hother x hx]
      obtain ⟨less, rfl⟩ : ∃ less, spare = less + 1 := ⟨spare - 1, by omega⟩
      rw [visit_cons_of_heavy hseen hotherWeight, hother x hx]
      congr 1
      exact ih less (hexpand x rest hpending) (by omega) (by omega)

end EntryPoints.Walk
