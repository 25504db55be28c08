import EntryPoints.Proofs.EndingWalks

/-!
# Members that are hidden

The members of a type are gathered on the way upwards from it, nearest types first.  A
declaration hides those that it overrides and that are met after it; what was met before it
is a member already.  So the order in which types are met decides.  Where several types are
inherited from, a type can be met before another one that inherits from it.  Its declaration
is a member then, although the other one overrides it, and since signatures agree both ways
it hides that other one on top.

No type is met twice, so a declaration is tried once, against what was kept of the types met
before.  A first declaration is always kept.  As far as overriding is transitive, what was
not kept does not matter: another declaration was kept that overrides whatever it does.
-/

namespace EntryPoints

namespace Walk

variable {α κ : Type} [BEq κ] {label : α → κ} {next : α → List α} {weight : α → Nat}

/-- A walk lists no label twice, and none that was seen before it. -/
theorem nodup_labels_visit [LawfulBEq κ] (budget : Nat) (pending : List α) (seen : List κ) :
    ((visit label next weight budget pending seen).map label).Nodup ∧
      ∀ x ∈ visit label next weight budget pending seen, label x ∉ seen := by
  have hcons {x : α} {listed : List α} {seen : List κ} (hnew : ¬ seen.contains (label x) = true)
      (hlisted : (listed.map label).Nodup ∧ ∀ y ∈ listed, label y ∉ label x :: seen) :
      ((x :: listed).map label).Nodup ∧ ∀ y ∈ x :: listed, label y ∉ seen := by
    rw [List.contains_iff_mem] at hnew
    rw [List.map_cons, List.nodup_cons, List.forall_mem_cons]
    refine ⟨⟨fun hx => ?_, hlisted.1⟩, hnew, fun y hy hseen => ?_⟩
    · obtain ⟨y, hy, hyx⟩ := List.mem_map.mp hx
      exact hlisted.2 y hy (hyx ▸ List.mem_cons_self)
    · exact hlisted.2 y hy (List.mem_cons_of_mem _ hseen)
  fun_induction visit label next weight budget pending seen with
  | case1 => simp
  | case2 budget seen x rest hseen ih => exact ih
  | case3 budget seen x rest hseen successors hlight ih => exact hcons hseen ih
  | case4 seen x rest hseen successors hheavy ih => exact hcons hseen ih
  | case5 seen x rest hseen successors hheavy left ih => exact hcons hseen ih

end Walk

namespace CodeIndex

/-! ## Above a type -/

def IsAbove (index : CodeIndex) (t u : TypeSymbol) : Prop :=
  Relation.ReflTransGen (fun a b => b ∈ index.directSupertypes a) t u

def IsStrictlyBelow (index : CodeIndex) (u v : TypeSymbol) : Prop :=
  index.IsAbove u v ∧ u ≠ v

/-- No two types above `t` go by the same id.  A type outside the index that is written like
the binary name of an indexed type would. -/
def TellsApart (index : CodeIndex) (t : TypeSymbol) : Prop :=
  ∀ u v, index.IsAbove t u → index.IsAbove t v → u.id = v.id → u = v

/-- On the way upwards from `t`, the type `u` comes before `v`. -/
def MetBefore (index : CodeIndex) (t u v : TypeSymbol) : Prop :=
  ∃ before after, index.ancestors t = before ++ v :: after ∧ u ∈ before

theorem nodup_ancestors (index : CodeIndex) (t : TypeSymbol) :
    ((index.ancestors t).map TypeSymbol.id).Nodup :=
  (Walk.nodup_labels_visit _ _ _).1

theorem isAbove_of_mem_ancestors {index : CodeIndex} {t u : TypeSymbol}
    (hu : u ∈ index.ancestors t) : index.IsAbove t u := by
  obtain ⟨p, hp, hreach⟩ := Walk.reaches_of_mem_visit hu
  rw [List.mem_singleton] at hp
  exact hp ▸ hreach

/-- Types that nothing leads out of hold whatever is above them. -/
theorem IsAbove.mem_of_closed {index : CodeIndex} {t u : TypeSymbol} (h : index.IsAbove t u)
    (types : List TypeSymbol) (ht : t ∈ types)
    (hclosed : ∀ a ∈ types, ∀ b ∈ index.directSupertypes a, b ∈ types) : u ∈ types := by
  induction h with
  | refl => exact ht
  | tail _ hstep ih => exact hclosed _ ih _ hstep

variable {files : List FileFacts}

/-- Types of one id stand for each other on the way upwards, when the same types are above them. -/
theorem exists_id_of_isAbove (hfiles : ∀ file ∈ files, file.IsClosed) {t u : TypeSymbol}
    (hsame : ∀ v w, (ofFiles files).IsAbove t v → (ofFiles files).IsAbove t w → v.id = w.id →
      (ofFiles files).directSupertypes v = (ofFiles files).directSupertypes w)
    (hu : (ofFiles files).IsAbove t u) : ∃ z ∈ (ofFiles files).ancestors t, z.id = u.id := by
  have hterrain : Walk.Terrain TypeSymbol.id (ofFiles files).directSupertypes
      TypeSymbol.weight ((ofFiles files).IsAbove t) (ofFiles files).types.keys :=
    { closed := fun a ha b hb => ha.tail hb
      same := fun a b ha hb hab => hsame a b ha hb (beq_iff_eq.mp hab)
      heavy := fun a _ hheavy => contains_id_of_heavy hfiles hheavy }
  have hbudget : (Walk.remaining (ofFiles files).types.keys []).length ≤
      (ofFiles files).types.size + t.weight + 1 := by
    have hkeys := length_remaining_types_le (ofFiles files)
    omega
  have hpending : ∀ p ∈ [t], (ofFiles files).IsAbove t p := by
    intro p hp
    rw [List.mem_singleton.mp hp]
    exact .refl
  rcases Walk.met_of_reaches hterrain hpending (fun _ _ hseen => by cases hseen) hbudget
    List.mem_cons_self hu with hseen | ⟨z, hz, hzu⟩
  · cases hseen
  · exact ⟨z, hz, beq_iff_eq.mp hzu⟩

theorem mem_ancestors_iff (hfiles : ∀ file ∈ files, file.IsClosed) {t u : TypeSymbol}
    (hids : (ofFiles files).TellsApart t) :
    u ∈ (ofFiles files).ancestors t ↔ (ofFiles files).IsAbove t u := by
  constructor
  · exact isAbove_of_mem_ancestors
  · intro hu
    obtain ⟨z, hz, hzu⟩ := exists_id_of_isAbove hfiles
      (fun v w hv hw hvw => by rw [hids v w hv hw hvw]) hu
    rw [← hids z u (isAbove_of_mem_ancestors hz) hu hzu]
    exact hz

/-- What is resolved has resolved types above it. -/
theorem isResolved_of_isAbove {t u : TypeSymbol} (ht : (ofFiles files).IsResolved t)
    (hu : (ofFiles files).IsAbove t u) : (ofFiles files).IsResolved u := by
  induction hu with
  | refl => exact ht
  | tail _ hstep ih => exact isResolved_of_mem_directSupertypes ih hstep

/-! ## What a type offers -/

/-- A method of a type that an invocation may call which names it and gives it `count`
arguments. -/
structure Offers (index : CodeIndex) (name : String) (count : Option Nat) (t : TypeSymbol)
    (m : Method) : Prop where
  declared : m ∈ index.declaredMethods t
  named : m.name = name
  notConstructor : m.isConstructor = false
  accepts : m.acceptsCount count = true

def offered (index : CodeIndex) (name : String) (count : Option Nat) (t : TypeSymbol) :
    List Method :=
  (index.declaredMethods t).filter fun m =>
    m.name == name && !m.isConstructor && m.acceptsCount count

variable {index : CodeIndex} {name : String} {count : Option Nat}

theorem mem_offered {t : TypeSymbol} {m : Method} :
    m ∈ index.offered name count t ↔ index.Offers name count t m := by
  unfold offered
  simp only [List.mem_filter, Bool.and_eq_true, beq_iff_eq, Bool.not_eq_true']
  constructor
  · rintro ⟨hdeclared, ⟨hname, hconstructor⟩, haccepts⟩
    exact ⟨hdeclared, hname, hconstructor, haccepts⟩
  · rintro ⟨hdeclared, hname, hconstructor, haccepts⟩
    exact ⟨hdeclared, ⟨hname, hconstructor⟩, haccepts⟩

/-- Types with different ids, whose methods have owners of the same ids. -/
structure AreApart (index : CodeIndex) (types : List TypeSymbol) : Prop where
  nodup : (types.map TypeSymbol.id).Nodup
  owners : ∀ t ∈ types, ∀ m ∈ index.declaredMethods t, m.owner.id = t.id

theorem AreApart.init {types : List TypeSymbol} {t : TypeSymbol}
    (h : index.AreApart (types ++ [t])) : index.AreApart types where
  nodup := by
    have hnodup := h.nodup
    rw [List.map_append, List.nodup_append] at hnodup
    exact hnodup.1
  owners u hu := h.owners u (List.mem_append_left _ hu)

theorem AreApart.id_ne {types : List TypeSymbol} {t u : TypeSymbol}
    (h : index.AreApart (types ++ [t])) (hu : u ∈ types) : u.id ≠ t.id := by
  have hnodup := h.nodup
  rw [List.map_append, List.nodup_append] at hnodup
  exact hnodup.2.2 u.id (List.mem_map_of_mem hu) t.id (by simp)

theorem areApart_ancestors {t : TypeSymbol} (ht : (ofFiles files).IsResolved t) :
    (ofFiles files).AreApart ((ofFiles files).ancestors t) where
  nodup := nodup_ancestors _ t
  owners _ hu _ hm := (owner_of_mem_declaredMethods (isResolved_of_mem_ancestors ht hu) hm).1

/-! ## What is kept -/

/-- A list that grows by the elements of another one, some left out, where those that came from
there before leave out nothing. -/
theorem foldl_unless_append {α : Type} (leaveOut : List α → α → Bool) {result : List α}
    {p : α → Prop}
    (hsame : ∀ kept, (∀ y ∈ kept, p y) → ∀ x, leaveOut (result ++ kept) x = leaveOut result x)
    (xs kept : List α) (hxs : ∀ y ∈ xs, p y) (hkept : ∀ y ∈ kept, p y) :
    xs.foldl (fun result x => if leaveOut result x then result else result ++ [x])
        (result ++ kept) =
      result ++ (kept ++ xs.filter fun x => !leaveOut result x) := by
  induction xs generalizing kept with
  | nil => simp
  | cons x xs ih =>
      obtain ⟨hx, hrest⟩ := List.forall_mem_cons.mp hxs
      rw [List.foldl_cons, hsame kept hkept x]
      cases hleft : leaveOut result x with
      | true => rw [if_pos rfl, ih kept hrest hkept, List.filter_cons_of_neg (by simp [hleft])]
      | false =>
          have hmore : ∀ y ∈ kept ++ [x], p y := by
            intro y hy
            rcases List.mem_append.mp hy with hy | hy
            · exact hkept y hy
            · exact List.mem_singleton.mp hy ▸ hx
          rw [if_neg Bool.false_ne_true, List.append_assoc, ih (kept ++ [x]) hrest hmore,
            List.filter_cons_of_pos (by simp [hleft]), List.append_assoc]
          rfl

theorem isHidden_eq_false {t : TypeSymbol} {m : Method} {candidates : List Method} :
    index.isHidden t m candidates = false ↔
      ∀ n ∈ candidates, n.owner.id ≠ t.id → index.overrides n m = false := by
  simp [isHidden]

/-- The methods of a type do not hide each other. -/
theorem addDeclared_eq {t : TypeSymbol}
    (howners : ∀ m ∈ index.declaredMethods t, m.owner.id = t.id) (candidates : List Method) :
    index.addDeclared name count candidates t =
      candidates ++ (index.offered name count t).filter fun m =>
        !index.isHidden t m candidates := by
  have hsame (kept : List Method) (hkept : ∀ n ∈ kept, n.owner.id = t.id) (m : Method) :
      index.isHidden t m (candidates ++ kept) = index.isHidden t m candidates := by
    have hnone : kept.any (fun nearer => nearer.owner.id ≠ t.id && index.overrides nearer m) =
        false := by
      rw [List.any_eq_false]
      intro n hn
      simp [hkept n hn]
    unfold isHidden
    rw [List.any_append, hnone, Bool.or_false]
  have hoffered : ∀ n ∈ index.offered name count t, n.owner.id = t.id :=
    fun n hn => howners n (mem_offered.mp hn).declared
  have hall := foldl_unless_append (fun candidates m => index.isHidden t m candidates) hsame
    (index.offered name count t) [] hoffered (fun _ hn => by cases hn)
  rw [List.append_nil, List.nil_append] at hall
  exact hall

/-- The members that come from some types, taken in their order. -/
def gathered (index : CodeIndex) (name : String) (count : Option Nat) (types : List TypeSymbol) :
    List Method :=
  types.foldl (index.addDeclared name count) []

theorem gathered_concat {types : List TypeSymbol} {t : TypeSymbol}
    (hapart : index.AreApart (types ++ [t])) :
    index.gathered name count (types ++ [t]) =
      index.gathered name count types ++ (index.offered name count t).filter fun m =>
        !index.isHidden t m (index.gathered name count types) := by
  unfold gathered
  rw [List.foldl_append, List.foldl_cons, List.foldl_nil,
    addDeclared_eq (hapart.owners t (by simp))]

theorem exists_offers_of_mem_gathered {types : List TypeSymbol}
    (hapart : index.AreApart types) {m : Method}
    (hm : m ∈ index.gathered name count types) :
    ∃ t ∈ types, index.Offers name count t m := by
  induction types using List.reverseRecOn with
  | nil => cases hm
  | append_singleton types t ih =>
      rw [gathered_concat hapart, List.mem_append] at hm
      rcases hm with hm | hm
      · obtain ⟨u, hu, hoffers⟩ := ih hapart.init hm
        exact ⟨u, List.mem_append_left _ hu, hoffers⟩
      · exact ⟨t, by simp, mem_offered.mp (List.mem_filter.mp hm).1⟩

/-- One more type adds what it offers, as far as nothing overrides it that was kept before. -/
theorem mem_gathered_concat {types : List TypeSymbol} {t : TypeSymbol}
    (hapart : index.AreApart (types ++ [t])) {m : Method} :
    m ∈ index.gathered name count (types ++ [t]) ↔
      m ∈ index.gathered name count types ∨
        index.Offers name count t m ∧
          ∀ n ∈ index.gathered name count types, index.overrides n m = false := by
  have hother (n : Method) (hn : n ∈ index.gathered name count types) : n.owner.id ≠ t.id := by
    obtain ⟨u, hu, hoffers⟩ := exists_offers_of_mem_gathered hapart.init hn
    rw [hapart.init.owners u hu n hoffers.declared]
    exact hapart.id_ne hu
  rw [gathered_concat hapart, List.mem_append, List.mem_filter, mem_offered,
    Bool.not_eq_true', isHidden_eq_false]
  constructor
  · rintro (hm | ⟨hoffers, hfree⟩)
    · exact .inl hm
    · exact .inr ⟨hoffers, fun n hn => hfree n hn (hother n hn)⟩
  · rintro (hm | ⟨hoffers, hfree⟩)
    · exact .inl hm
    · exact .inr ⟨hoffers, fun n hn _ => hfree n hn⟩

/-- A later type neither adds nor takes away what an earlier one offers. -/
theorem mem_gathered_concat_of_offers {types : List TypeSymbol} {t u : TypeSymbol}
    (hapart : index.AreApart (types ++ [t])) {m : Method} (hu : u ∈ types)
    (hm : index.Offers name count u m) :
    m ∈ index.gathered name count (types ++ [t]) ↔ m ∈ index.gathered name count types := by
  rw [mem_gathered_concat hapart]
  constructor
  · rintro (hkept | ⟨hoffers, -⟩)
    · exact hkept
    · have hid := hapart.id_ne hu
      rw [← hapart.init.owners u hu m hm.declared,
        hapart.owners t (by simp) m hoffers.declared] at hid
      exact absurd rfl hid
  · exact .inl

/-- What is gathered was offered by a type after nothing was kept that overrides it. -/
theorem mem_gathered_iff {types : List TypeSymbol} (hapart : index.AreApart types)
    {m : Method} :
    m ∈ index.gathered name count types ↔
      ∃ before v after, types = before ++ v :: after ∧ index.Offers name count v m ∧
        ∀ u ∈ before, ∀ n, index.Offers name count u n →
          n ∈ index.gathered name count types → index.overrides n m = false := by
  induction types using List.reverseRecOn with
  | nil => simp [gathered]
  | append_singleton types t ih =>
      rw [mem_gathered_concat hapart]
      constructor
      · rintro (hm | ⟨hoffers, hfree⟩)
        · obtain ⟨before, v, after, rfl, hoffers, hfree⟩ := (ih hapart.init).mp hm
          refine ⟨before, v, after ++ [t], by simp, hoffers, fun u hu n hn hkept => ?_⟩
          have huv : u ∈ before ++ v :: after := List.mem_append_left _ hu
          exact hfree u hu n hn ((mem_gathered_concat_of_offers hapart huv hn).mp hkept)
        · refine ⟨types, t, [], rfl, hoffers, fun u hu n hn hkept => hfree n ?_⟩
          exact (mem_gathered_concat_of_offers hapart hu hn).mp hkept
      · rintro ⟨before, v, after, hsplit, hoffers, hfree⟩
        rcases List.eq_nil_or_concat' after with rfl | ⟨after, last, rfl⟩
        · obtain ⟨rfl, hlast⟩ := List.append_inj' hsplit rfl
          cases hlast
          refine .inr ⟨hoffers, fun n hn => ?_⟩
          obtain ⟨u, hu, hn'⟩ := exists_offers_of_mem_gathered hapart.init hn
          exact hfree u hu n hn' ((mem_gathered_concat_of_offers hapart hu hn').mpr hn)
        · rw [← List.cons_append, ← List.append_assoc] at hsplit
          obtain ⟨rfl, -⟩ := List.append_inj' hsplit rfl
          refine .inl ((ih hapart.init).mpr
            ⟨before, v, after, rfl, hoffers, fun u hu n hn hkept => ?_⟩)
          have huv : u ∈ before ++ v :: after := List.mem_append_left _ hu
          exact hfree u hu n hn ((mem_gathered_concat_of_offers hapart huv hn).mpr hkept)

/-! ## The order in which types are met -/

/-- As no type is met twice, what comes before it is a part of the way upwards. -/
theorem metBefore_iff {t u v : TypeSymbol} {before after : List TypeSymbol}
    (hsplit : index.ancestors t = before ++ v :: after) :
    index.MetBefore t u v ↔ u ∈ before := by
  have hnodup : (index.ancestors t).Nodup := (nodup_ancestors index t).of_map
  rw [hsplit, List.nodup_middle, List.nodup_cons, List.mem_append, not_or] at hnodup
  constructor
  · rintro ⟨others, rest, hother, hu⟩
    rw [hsplit, List.append_cons_inj_of_notMem hnodup.1.1 hnodup.1.2] at hother
    exact hother.1 ▸ hu
  · intro hu
    exact ⟨before, after, hsplit, hu⟩

theorem MetBefore.isAbove {t u v : TypeSymbol} (h : index.MetBefore t u v) :
    index.IsAbove t u := by
  obtain ⟨before, after, hsplit, hu⟩ := h
  exact isAbove_of_mem_ancestors (hsplit ▸ List.mem_append_left _ hu)

theorem MetBefore.trans {t u v w : TypeSymbol} (huv : index.MetBefore t u v)
    (hvw : index.MetBefore t v w) : index.MetBefore t u w := by
  obtain ⟨before, after, hsplit, hv⟩ := hvw
  obtain ⟨first, second, rfl⟩ := List.append_of_mem hv
  have hfirst : index.ancestors t = first ++ v :: (second ++ w :: after) := by
    rw [hsplit, List.append_assoc, List.cons_append]
  exact ⟨_, after, hsplit, List.mem_append_left _ ((metBefore_iff hfirst).mp huv)⟩

/-! ## Members -/

/-- A method that a type above `t` offers, be it hidden or not. -/
def IsOfferedAbove (index : CodeIndex) (name : String) (count : Option Nat) (t : TypeSymbol)
    (m : Method) : Prop :=
  ∃ v, index.IsAbove t v ∧ index.Offers name count v m

/-- No member is overridden by a declaration above `t` in a type that inherits from the one
that declares the member. -/
def MembersPreferOverriding (index : CodeIndex) (name : String) (count : Option Nat)
    (t : TypeSymbol) : Prop :=
  ∀ d ∈ index.members t name count, ∀ v, index.IsAbove t v → index.Offers name count v d →
    ∀ u, index.IsAbove t u → index.IsStrictlyBelow u v →
      ∀ n, index.Offers name count u n → index.overrides n d = false

def OverridesTransitively (index : CodeIndex) (name : String) (count : Option Nat)
    (t : TypeSymbol) : Prop :=
  ∀ a b c, index.IsOfferedAbove name count t a → index.IsOfferedAbove name count t b →
    index.IsOfferedAbove name count t c → index.overrides a b = true →
      index.overrides b c = true → index.overrides a c = true

theorem zip_all_eq_iff {α β : Type} [BEq β] [LawfulBEq β] (f : α → β) (xs ys : List α) :
    (xs.length == ys.length && (xs.zip ys).all fun pair => f pair.1 == f pair.2) = true ↔
      xs.map f = ys.map f := by
  induction xs generalizing ys with
  | nil => cases ys <;> simp
  | cons x xs ih =>
      cases ys with
      | nil => simp
      | cons y ys =>
          have hrest := ih ys
          simp only [Bool.and_eq_true, beq_iff_eq] at hrest
          simp only [List.length_cons, List.zip_cons_cons, List.all_cons, List.map_cons,
            List.cons.injEq, Bool.and_eq_true, beq_iff_eq, Nat.add_right_cancel_iff, ← hrest]
          exact and_left_comm

/-- Without type variables, a method overrides those with the same erased parameter types. -/
theorem overrides_iff_of_plain {m inherited : Method}
    (hplain : ∀ p ∈ inherited.parameters, index.isTypeVariable p inherited = false) :
    index.overrides m inherited = true ↔
      m.isVarargs = inherited.isVarargs ∧
        m.parameters.map TypeText.erase = inherited.parameters.map TypeText.erase := by
  have hall : ((m.parameters.zip inherited.parameters).all fun pair =>
        TypeText.erase pair.1 == TypeText.erase pair.2 ||
          index.isTypeVariable pair.2 inherited) =
      (m.parameters.zip inherited.parameters).all fun pair =>
        TypeText.erase pair.1 == TypeText.erase pair.2 := by
    rw [Bool.eq_iff_iff, List.all_eq_true, List.all_eq_true]
    refine forall₂_congr fun pair hpair => ?_
    rw [hplain pair.2 (List.of_mem_zip hpair).2, Bool.or_false]
  have hoverrides : index.overrides m inherited =
      (m.parameters.length == inherited.parameters.length &&
        m.isVarargs == inherited.isVarargs &&
        (m.parameters.zip inherited.parameters).all fun pair =>
          TypeText.erase pair.1 == TypeText.erase pair.2 ||
            index.isTypeVariable pair.2 inherited) := rfl
  rw [hoverrides, hall, Bool.and_right_comm, Bool.and_eq_true, beq_iff_eq, zip_all_eq_iff,
    and_comm]

theorem overridesTransitively_of_plain {t : TypeSymbol}
    (hplain : ∀ m, index.IsOfferedAbove name count t m →
      ∀ p ∈ m.parameters, index.isTypeVariable p m = false) :
    index.OverridesTransitively name count t := by
  intro a b c _ hb hc hab hbc
  rw [overrides_iff_of_plain (hplain b hb)] at hab
  rw [overrides_iff_of_plain (hplain c hc)] at hbc ⊢
  exact ⟨hab.1.trans hbc.1, hab.2.trans hbc.2⟩

theorem mem_members_iff (hfiles : ∀ file ∈ files, file.IsClosed) {t : TypeSymbol}
    (ht : (ofFiles files).IsResolved t) (hids : (ofFiles files).TellsApart t) {d : Method} :
    d ∈ (ofFiles files).members t name count ↔
      ∃ v, (ofFiles files).IsAbove t v ∧ (ofFiles files).Offers name count v d ∧
        ∀ u n, (ofFiles files).MetBefore t u v → (ofFiles files).Offers name count u n →
          n ∈ (ofFiles files).members t name count → (ofFiles files).overrides n d = false := by
  have hmembers : (ofFiles files).members t name count =
      (ofFiles files).gathered name count ((ofFiles files).ancestors t) := rfl
  rw [hmembers, mem_gathered_iff (areApart_ancestors ht)]
  constructor
  · rintro ⟨before, v, after, hsplit, hoffers, hfree⟩
    have hv : v ∈ (ofFiles files).ancestors t :=
      hsplit ▸ List.mem_append_right _ List.mem_cons_self
    exact ⟨v, (mem_ancestors_iff hfiles hids).mp hv, hoffers,
      fun u n hmet => hfree u ((metBefore_iff hsplit).mp hmet) n⟩
  · rintro ⟨v, hv, hoffers, hfree⟩
    obtain ⟨before, after, hsplit⟩ :=
      List.append_of_mem ((mem_ancestors_iff hfiles hids).mpr hv)
    exact ⟨before, v, after, hsplit, hoffers,
      fun u hu n => hfree u n ((metBefore_iff hsplit).mpr hu)⟩

/-- What is offered and is no member was hidden by a member. -/
theorem exists_overriding_of_not_mem_members (hfiles : ∀ file ∈ files, file.IsClosed)
    {t v : TypeSymbol} (ht : (ofFiles files).IsResolved t) (hids : (ofFiles files).TellsApart t)
    {d : Method} (hv : (ofFiles files).IsAbove t v)
    (hoffers : (ofFiles files).Offers name count v d)
    (hd : d ∉ (ofFiles files).members t name count) :
    ∃ u n, (ofFiles files).MetBefore t u v ∧ (ofFiles files).Offers name count u n ∧
      n ∈ (ofFiles files).members t name count ∧ (ofFiles files).overrides n d = true := by
  by_contra hnone
  refine hd ((mem_members_iff hfiles ht hids).mpr ⟨v, hv, hoffers, fun u n hmet hn hkept => ?_⟩)
  rw [← Bool.not_eq_true]
  exact fun hoverrides => hnone ⟨u, n, hmet, hn, hkept, hoverrides⟩

/-- Where overriding is transitive, whatever overrides a method and is met before it has been
hidden only by something that overrides the method as well. -/
theorem mem_members_iff_of_transitive (hfiles : ∀ file ∈ files, file.IsClosed) {t : TypeSymbol}
    (ht : (ofFiles files).IsResolved t) (hids : (ofFiles files).TellsApart t)
    (htransitive : (ofFiles files).OverridesTransitively name count t) {d : Method} :
    d ∈ (ofFiles files).members t name count ↔
      ∃ v, (ofFiles files).IsAbove t v ∧ (ofFiles files).Offers name count v d ∧
        ∀ u n, (ofFiles files).MetBefore t u v → (ofFiles files).Offers name count u n →
          (ofFiles files).overrides n d = false := by
  rw [mem_members_iff hfiles ht hids]
  constructor
  · rintro ⟨v, hv, hoffers, hfree⟩
    refine ⟨v, hv, hoffers, fun u n hmet hn => ?_⟩
    rw [← Bool.not_eq_true]
    intro hoverrides
    by_cases hmember : n ∈ (ofFiles files).members t name count
    · rw [hfree u n hmet hn hmember] at hoverrides
      cases hoverrides
    · -- The method that hides `n` is a member, and overrides `d` too.
      obtain ⟨w, o, hw, ho, hkept, hover⟩ :=
        exists_overriding_of_not_mem_members hfiles ht hids hmet.isAbove hn hmember
      have hboth := htransitive o n d ⟨w, hw.isAbove, ho⟩ ⟨u, hmet.isAbove, hn⟩
        ⟨v, hv, hoffers⟩ hover hoverrides
      rw [hfree w o (hw.trans hmet) ho hkept] at hboth
      cases hboth
  · rintro ⟨v, hv, hoffers, hfree⟩
    exact ⟨v, hv, hoffers, fun u n hmet hn _ => hfree u n hmet hn⟩

theorem preferOverriding_iff (hfiles : ∀ file ∈ files, file.IsClosed) {t : TypeSymbol}
    (ht : (ofFiles files).IsResolved t) (hids : (ofFiles files).TellsApart t)
    (htransitive : (ofFiles files).OverridesTransitively name count t) :
    (ofFiles files).MembersPreferOverriding name count t ↔
      ∀ v d, (ofFiles files).IsAbove t v → (ofFiles files).Offers name count v d →
        ∀ u n, (ofFiles files).IsAbove t u → (ofFiles files).IsStrictlyBelow u v →
          (ofFiles files).Offers name count u n → (ofFiles files).overrides n d = true →
            ∃ w o, (ofFiles files).MetBefore t w v ∧ (ofFiles files).Offers name count w o ∧
              (ofFiles files).overrides o d = true := by
  constructor
  · intro hprefer v d hv hoffers u n hu hbelow hn hoverrides
    have hd : d ∉ (ofFiles files).members t name count := by
      intro hd
      rw [hprefer d hd v hv hoffers u hu hbelow n hn] at hoverrides
      cases hoverrides
    obtain ⟨w, o, hw, ho, -, hover⟩ :=
      exists_overriding_of_not_mem_members hfiles ht hids hv hoffers hd
    exact ⟨w, o, hw, ho, hover⟩
  · intro hpreceded d hd v hv hoffers u hu hbelow n hn
    rw [← Bool.not_eq_true]
    intro hoverrides
    obtain ⟨w, o, hw, ho, hover⟩ := hpreceded v d hv hoffers u n hu hbelow hn hoverrides
    rw [mem_members_iff_of_transitive hfiles ht hids htransitive] at hd
    obtain ⟨x, hx, hoffered, hfree⟩ := hd
    -- The type that offers `d` is `v`: its id is that of the owner.
    have hxv : x = v := by
      apply hids x v hx hv
      rw [← (owner_of_mem_declaredMethods (isResolved_of_isAbove ht hx) hoffered.declared).1,
        (owner_of_mem_declaredMethods (isResolved_of_isAbove ht hv) hoffers.declared).1]
    rw [hfree w o (hxv ▸ hw) ho] at hover
    cases hover

/-- What is offered above a type is among its members unless something kept before overrides it,
so a type with anything to offer has members.  Where overriding is transitive, a member is what
no declaration overrides that is met before it.  Members then prefer the overriding declarations
exactly when each overridden one is preceded by some declaration that overrides it; in
particular when every type is met before the types that it inherits from. -/
theorem members_preferOverriding_iff (hfiles : ∀ file ∈ files, file.IsClosed) {t : TypeSymbol}
    (ht : (ofFiles files).IsResolved t) (hids : (ofFiles files).TellsApart t) (name : String)
    (count : Option Nat) :
    (∀ d, d ∈ (ofFiles files).members t name count ↔
      ∃ v, (ofFiles files).IsAbove t v ∧ (ofFiles files).Offers name count v d ∧
        ∀ u n, (ofFiles files).MetBefore t u v → (ofFiles files).Offers name count u n →
          n ∈ (ofFiles files).members t name count → (ofFiles files).overrides n d = false) ∧
    ((∃ d, (ofFiles files).IsOfferedAbove name count t d) →
      (ofFiles files).members t name count ≠ []) ∧
    ((ofFiles files).OverridesTransitively name count t →
      ((ofFiles files).MembersPreferOverriding name count t ↔
        ∀ v d, (ofFiles files).IsAbove t v → (ofFiles files).Offers name count v d →
          ∀ u n, (ofFiles files).IsAbove t u → (ofFiles files).IsStrictlyBelow u v →
            (ofFiles files).Offers name count u n → (ofFiles files).overrides n d = true →
              ∃ w o, (ofFiles files).MetBefore t w v ∧ (ofFiles files).Offers name count w o ∧
                (ofFiles files).overrides o d = true) ∧
      ((∀ u v, (ofFiles files).IsAbove t u → (ofFiles files).IsStrictlyBelow u v →
          (ofFiles files).MetBefore t u v) →
        (ofFiles files).MembersPreferOverriding name count t)) := by
  refine ⟨fun d => mem_members_iff hfiles ht hids, ?_, fun htransitive => ?_⟩
  · rintro ⟨d, v, hv, hoffers⟩ hnone
    have hd : d ∈ (ofFiles files).members t name count := by
      rw [mem_members_iff hfiles ht hids]
      refine ⟨v, hv, hoffers, fun u n _ _ hkept => ?_⟩
      rw [hnone] at hkept
      cases hkept
    rw [hnone] at hd
    cases hd
  · have hiff : (ofFiles files).MembersPreferOverriding name count t ↔ _ :=
      preferOverriding_iff hfiles ht hids htransitive
    refine ⟨hiff, fun horder => hiff.mpr fun v d hv hoffers u n hu hbelow hn hoverrides => ?_⟩
    exact ⟨u, n, horder u v hu hbelow, hn, hoverrides⟩

end CodeIndex

/-! ## An interface that declares a method again -/

namespace Redeclared

open CodeIndex

def upperDecl : TypeDecl where
  binaryName := "I"
  name := "I"
  kind := .interfaceType
  qualifiedName := some "I"
  location := some ⟨"A.java", 1, 0, 22⟩

def lowerDecl : TypeDecl where
  binaryName := "J"
  name := "J"
  kind := .interfaceType
  qualifiedName := some "J"
  interfaces := ["I"]
  location := some ⟨"A.java", 1, 22, 54⟩

def upperFirstDecl : TypeDecl where
  binaryName := "T"
  name := "T"
  qualifiedName := some "T"
  interfaces := ["I", "J"]
  location := some ⟨"A.java", 1, 54, 87⟩

def lowerFirstDecl : TypeDecl where
  binaryName := "U"
  name := "U"
  qualifiedName := some "U"
  interfaces := ["J", "I"]
  location := some ⟨"A.java", 1, 87, 120⟩

def methodDecl (id owner : String) (location : Location) : MethodDecl where
  id
  owner
  name := "f"
  returnType := some "void"
  isAbstract := true
  location := some location

def upperMethodDecl : MethodDecl := methodDecl "I#f@12" "I" ⟨"A.java", 1, 12, 21⟩

def lowerMethodDecl : MethodDecl := methodDecl "J#f@44" "J" ⟨"A.java", 1, 44, 53⟩

/-- The interface `J` extends `I` and declares its method again; `T` and `U` implement both, in
different orders. -/
def source : FileFacts where
  file := "A.java"
  relativePath := "A.java"
  types := [upperDecl, lowerDecl, upperFirstDecl, lowerFirstDecl]
  methods := [upperMethodDecl, lowerMethodDecl]

def text : String :=
  "interface I\x7bvoid f();\x7dinterface J extends I\x7bvoid f();\x7d" ++
    "abstract class T implements I,J\x7b\x7dabstract class U implements J,I\x7b\x7d"

theorem ofText_source : FileFacts.ofText "A.java" text none = source := by decide +kernel

def index : CodeIndex := ofFiles [source]

def upper : TypeEntry := ⟨symbolOf upperDecl, upperDecl, source⟩

def lower : TypeEntry := ⟨symbolOf lowerDecl, lowerDecl, source⟩

def upperFirst : TypeEntry := ⟨symbolOf upperFirstDecl, upperFirstDecl, source⟩

def lowerFirst : TypeEntry := ⟨symbolOf lowerFirstDecl, lowerFirstDecl, source⟩

def upperMethod : Method := methodOf upper.symbol upperMethodDecl

def lowerMethod : Method := methodOf lower.symbol lowerMethodDecl

theorem isClosed : ∀ file ∈ [source], file.IsClosed := by
  intro file hfile
  have hnames : (Java.parse text).HasNoEmptyName := by decide +kernel
  rw [List.mem_singleton.mp hfile, ← ofText_source]
  exact FileFacts.isClosed_ofTree _ _ hnames

theorem type?_eq : index.type? "I" = some upper ∧ index.type? "J" = some lower ∧
    index.type? "T" = some upperFirst ∧ index.type? "U" = some lowerFirst := by
  simp only [index, type?_ofFiles]
  exact ⟨rfl, rfl, rfl, rfl⟩

theorem typeParameters_eq {k : String} {entry : TypeEntry} (hentry : index.type? k = some entry) :
    entry.decl.typeParameters = [] := by
  have hall : ∀ entry ∈ typeEntries [source], entry.decl.typeParameters = [] := by decide
  exact hall entry (mem_typeEntries_of_type? hentry)

theorem resolveType_eq (view : Viewpoint) (hview : view.method = none) :
    index.resolveType "I" view = some upper.symbol ∧
      index.resolveType "J" view = some lower.symbol := by
  obtain ⟨hupper, hlower, -⟩ := type?_eq
  have hparameter : ∀ name, index.typeParameter name view = none :=
    typeParameter_eq_none (fun _ _ => typeParameters_eq) (by simp [hview])
  have hqualified : index.qualified? "I" = some upper ∧ index.qualified? "J" = some lower := by
    simp only [index, qualified?_ofFiles]
    exact ⟨hupper, hlower⟩
  exact ⟨resolveType_of_qualified? (by decide) hparameter hqualified.1,
    resolveType_of_qualified? (by decide) hparameter hqualified.2⟩

theorem directSupertypes_eq : index.directSupertypes upper.symbol = [] ∧
    index.directSupertypes lower.symbol = [upper.symbol] ∧
    index.directSupertypes upperFirst.symbol = [upper.symbol, lower.symbol] ∧
    index.directSupertypes lowerFirst.symbol = [lower.symbol, upper.symbol] := by
  obtain ⟨hupper, hlower, hupperFirst, hlowerFirst⟩ := type?_eq
  have hresolve (entry : TypeEntry) := resolveType_eq (headView entry) rfl
  have hdeclared : index.declaredSupertypes lower = [upper.symbol] ∧
      index.declaredSupertypes upperFirst = [upper.symbol, lower.symbol] ∧
      index.declaredSupertypes lowerFirst = [lower.symbol, upper.symbol] := by
    unfold declaredSupertypes
    rw [show supertypeTexts lower.decl = ["I"] by decide,
      show supertypeTexts upperFirst.decl = ["I", "J"] by decide,
      show supertypeTexts lowerFirst.decl = ["J", "I"] by decide]
    simp only [List.filterMap_cons, List.filterMap_nil, (hresolve _).1, (hresolve _).2]
    exact ⟨rfl, rfl, rfl⟩
  exact ⟨directSupertypes_symbol hupper (by decide),
    (directSupertypes_symbol hlower (by decide)).trans hdeclared.1,
    (directSupertypes_symbol hupperFirst (by decide)).trans hdeclared.2.1,
    (directSupertypes_symbol hlowerFirst (by decide)).trans hdeclared.2.2⟩

theorem ancestors_eq :
    index.ancestors upperFirst.symbol = [upperFirst.symbol, upper.symbol, lower.symbol] ∧
    index.ancestors lowerFirst.symbol = [lowerFirst.symbol, lower.symbol, upper.symbol] := by
  obtain ⟨hupper, hlower, hupperFirst, hlowerFirst⟩ := directSupertypes_eq
  have hsize : index.types.size = 4 := by
    change (typesOf [source]).keys.length = 4
    rw [typesOf, Table.keys_ofList (by decide)]
    rfl
  have hids : upper.symbol.id = "I" ∧ lower.symbol.id = "J" ∧ upperFirst.symbol.id = "T" ∧
      lowerFirst.symbol.id = "U" := by decide
  have hweights : upper.symbol.weight = 0 ∧ lower.symbol.weight = 0 ∧
      upperFirst.symbol.weight = 0 ∧ lowerFirst.symbol.weight = 0 := ⟨rfl, rfl, rfl, rfl⟩
  unfold ancestors
  rw [hsize]
  simp [Walk.visit, Walk.load, hupper, hlower, hupperFirst, hlowerFirst, hids, hweights]

theorem declaredMethods_eq : index.declaredMethods upper.symbol = [upperMethod] ∧
    index.declaredMethods lower.symbol = [lowerMethod] ∧
    index.declaredMethods upperFirst.symbol = [] ∧
    index.declaredMethods lowerFirst.symbol = [] := by
  have hmethods : methodEntries (typesOf [source]) [source] =
      [(upperMethod, ⟨upperMethodDecl, source⟩), (lowerMethod, ⟨lowerMethodDecl, source⟩)] := by
    obtain ⟨hupper, hlower, -⟩ := type?_eq
    change (typesOf [source]).get? "I" = some upper at hupper
    change (typesOf [source]).get? "J" = some lower at hlower
    generalize typesOf [source] = types at hupper hlower ⊢
    unfold methodEntries
    rw [List.flatMap_cons, List.flatMap_nil, List.append_nil]
    unfold source
    simp only [List.filterMap_cons, upperMethodDecl, lowerMethodDecl, methodDecl, hupper, hlower]
    rfl
  unfold declaredMethods
  rw [if_neg (by decide), if_neg (by decide), if_neg (by decide), if_neg (by decide)]
  simp only [index, methodsDeclaredBy_ofFiles, hmethods]
  exact ⟨rfl, rfl, rfl, rfl⟩

theorem members_eq : index.members upperFirst.symbol "f" (some 0) = [upperMethod] := by
  obtain ⟨hupper, hlower, hupperFirst, -⟩ := declaredMethods_eq
  have hhidden : index.isHidden lower.symbol lowerMethod [upperMethod] = true := rfl
  unfold members
  rw [ancestors_eq.1]
  simp only [List.foldl_cons, List.foldl_nil, addDeclared, hupper, hlower, hupperFirst]
  change (if index.isHidden lower.symbol lowerMethod [upperMethod] = true then [upperMethod]
    else [upperMethod, lowerMethod]) = [upperMethod]
  rw [if_pos hhidden]

theorem offers_eq : index.Offers "f" (some 0) upper.symbol upperMethod ∧
    index.Offers "f" (some 0) lower.symbol lowerMethod := by
  obtain ⟨hupper, hlower, -⟩ := declaredMethods_eq
  exact ⟨⟨hupper ▸ List.mem_singleton_self _, rfl, rfl, rfl⟩,
    ⟨hlower ▸ List.mem_singleton_self _, rfl, rfl, rfl⟩⟩

theorem of_isAbove_interface {u : TypeSymbol} :
    (index.IsAbove upper.symbol u → u = upper.symbol) ∧
      (index.IsAbove lower.symbol u → u = lower.symbol ∨ u = upper.symbol) := by
  obtain ⟨hupper, hlower, -⟩ := directSupertypes_eq
  constructor
  · intro h
    have hmem := h.mem_of_closed [upper.symbol] List.mem_cons_self (by simp [hupper])
    exact List.mem_singleton.mp hmem
  · intro h
    have hmem := h.mem_of_closed [lower.symbol, upper.symbol] List.mem_cons_self
      (by simp [hupper, hlower])
    exact List.mem_pair.mp hmem

theorem of_isAbove {t u : TypeSymbol}
    (ht : t ∈ [upperFirst.symbol, lowerFirst.symbol]) (hu : index.IsAbove t u) :
    u = t ∨ u = lower.symbol ∨ u = upper.symbol := by
  obtain ⟨hupper, hlower, hupperFirst, hlowerFirst⟩ := directSupertypes_eq
  have hmem := hu.mem_of_closed [t, lower.symbol, upper.symbol] List.mem_cons_self (by
    rcases List.mem_pair.mp ht with rfl | rfl
    · simp [hupper, hlower, hupperFirst]
    · simp [hupper, hlower, hlowerFirst])
  simpa using hmem

/-- Below another type there are only `T` or `U` and, below `I`, the interface `J`. -/
theorem of_isStrictlyBelow {t u v : TypeSymbol}
    (ht : t ∈ [upperFirst.symbol, lowerFirst.symbol]) (hu : index.IsAbove t u)
    (huv : index.IsStrictlyBelow u v) :
    u = t ∧ (v = lower.symbol ∨ v = upper.symbol) ∨ u = lower.symbol ∧ v = upper.symbol := by
  rcases of_isAbove ht hu with rfl | rfl | rfl
  · exact .inl ⟨rfl, (of_isAbove ht huv.1).resolve_left huv.2.symm⟩
  · exact .inr ⟨rfl, (of_isAbove_interface.2 huv.1).resolve_left huv.2.symm⟩
  · exact absurd (of_isAbove_interface.1 huv.1).symm huv.2

theorem symbols_ne : upper.symbol ≠ lower.symbol ∧
    ∀ t ∈ [upperFirst.symbol, lowerFirst.symbol], upper.symbol ≠ t ∧ lower.symbol ≠ t := by
  have hids : upper.symbol.id ≠ lower.symbol.id ∧
      ∀ t ∈ [upperFirst.symbol, lowerFirst.symbol],
        upper.symbol.id ≠ t.id ∧ lower.symbol.id ≠ t.id := by decide
  refine ⟨fun h => hids.1 (congrArg _ h), fun t ht => ⟨fun h => ?_, fun h => ?_⟩⟩
  · exact (hids.2 t ht).1 (congrArg _ h)
  · exact (hids.2 t ht).2 (congrArg _ h)

theorem metBefore {u v : TypeSymbol} (hu : index.IsAbove lowerFirst.symbol u)
    (huv : index.IsStrictlyBelow u v) : index.MetBefore lowerFirst.symbol u v := by
  have hancestors := ancestors_eq.2
  rcases of_isStrictlyBelow (by simp) hu huv with ⟨rfl, rfl | rfl⟩ | ⟨rfl, rfl⟩
  · exact ⟨[lowerFirst.symbol], [upper.symbol], hancestors, by simp⟩
  · exact ⟨[lowerFirst.symbol, lower.symbol], [], hancestors, by simp⟩
  · exact ⟨[lowerFirst.symbol, lower.symbol], [], hancestors, by simp⟩

theorem tellsApart : index.TellsApart lowerFirst.symbol := by
  have hnodup : ([lowerFirst.symbol, lower.symbol, upper.symbol].map TypeSymbol.id).Nodup := by
    decide
  intro u v hu hv
  apply List.inj_on_of_nodup_map hnodup
  · simpa using of_isAbove (by simp) hu
  · simpa using of_isAbove (by simp) hv

theorem overridesTransitively :
    index.OverridesTransitively "f" (some 0) lowerFirst.symbol := by
  apply overridesTransitively_of_plain
  rintro m ⟨v, hv, hoffers⟩
  obtain ⟨hupper, hlower, -, hlowerFirst⟩ := declaredMethods_eq
  have hm := hoffers.declared
  have hnone : m.parameters = [] := by
    rcases of_isAbove (by simp) hv with rfl | rfl | rfl
    · rw [hlowerFirst] at hm
      cases hm
    · rw [hlower, List.mem_singleton] at hm
      rw [hm]
      rfl
    · rw [hupper, List.mem_singleton] at hm
      rw [hm]
      rfl
  simp [hnone]

end Redeclared

open Redeclared in
/-- From `U`, which names `J` first, every type is met before those that it inherits from. -/
theorem members_preferOverriding_of_order :
    (∀ file ∈ [source], file.IsClosed) ∧ index.IsResolved lowerFirst.symbol ∧
    index.TellsApart lowerFirst.symbol ∧
    index.OverridesTransitively "f" (some 0) lowerFirst.symbol ∧
    index.members lowerFirst.symbol "f" (some 0) ≠ [] ∧
    index.MembersPreferOverriding "f" (some 0) lowerFirst.symbol := by
  have hresolved : index.IsResolved lowerFirst.symbol :=
    .inl (CodeIndex.isNamed_symbol type?_eq.2.2.2)
  obtain ⟨-, hnonempty, htransitive⟩ := CodeIndex.members_preferOverriding_iff isClosed hresolved
    tellsApart "f" (some 0)
  have habove : index.IsAbove lowerFirst.symbol lower.symbol := by
    refine .single ?_
    rw [directSupertypes_eq.2.2.2]
    exact List.mem_cons_self
  exact ⟨isClosed, hresolved, tellsApart, overridesTransitively,
    hnonempty ⟨lowerMethod, lower.symbol, habove, offers_eq.2⟩,
    (htransitive overridesTransitively).2 fun u v hu huv => metBefore hu huv⟩

open Redeclared in
/-- From `T`, which names `I` first, nothing inherits from itself, but the method of `I` is the one
member, and the one of `J`, which overrides it, is hidden. -/
theorem overridden_member_hides_overriding :
    index = CodeIndex.ofFiles [FileFacts.ofText "A.java"
      ("interface I\x7bvoid f();\x7dinterface J extends I\x7bvoid f();\x7d" ++
        "abstract class T implements I,J\x7b\x7dabstract class U implements J,I\x7b\x7d") none] ∧
    (∀ u v, index.IsAbove upperFirst.symbol u → index.IsStrictlyBelow u v →
      ¬ index.IsAbove v u) ∧
    index.members upperFirst.symbol "f" (some 0) = [upperMethod] ∧
    ¬ index.MembersPreferOverriding "f" (some 0) upperFirst.symbol := by
  obtain ⟨hinterfaces, hclasses⟩ := symbols_ne
  obtain ⟨hupper, hlower⟩ := hclasses upperFirst.symbol (by simp)
  have hindex := congrArg (fun file => CodeIndex.ofFiles [file]) ofText_source.symm
  refine ⟨hindex, fun u v hu huv hvu => ?_, members_eq, fun hprefer => ?_⟩
  · rcases of_isStrictlyBelow (by simp) hu huv with ⟨rfl, rfl | rfl⟩ | ⟨rfl, rfl⟩
    · rcases of_isAbove_interface.2 hvu with h | h
      · exact hlower h.symm
      · exact hupper h.symm
    · exact hupper (of_isAbove_interface.1 hvu).symm
    · exact hinterfaces (of_isAbove_interface.1 hvu).symm
  · have hsupertypes := directSupertypes_eq
    have habove : index.IsAbove upperFirst.symbol upper.symbol ∧
        index.IsAbove upperFirst.symbol lower.symbol ∧
        index.IsAbove lower.symbol upper.symbol := by
      refine ⟨.single ?_, .single ?_, .single ?_⟩
      · rw [hsupertypes.2.2.1]
        simp
      · rw [hsupertypes.2.2.1]
        simp
      · rw [hsupertypes.2.1]
        simp
    have hnot := hprefer upperMethod (by rw [members_eq]; simp) upper.symbol habove.1 offers_eq.1
      lower.symbol habove.2.1 ⟨habove.2.2, hinterfaces.symm⟩ lowerMethod offers_eq.2
    cases hnot

end EntryPoints
