import EntryPoints.Proofs.IndexLookups
import EntryPoints.Proofs.WalkCoverage

/-!
# The roots of a method

The methods that a method overrides, directly or through others, form a graph over
the methods of the index and of the library.  The roots are found by a walk through
this graph whose budget is the number of indexed methods.  Only such a method can
override anything, and methods that are the same override the same, so the walk
misses nothing: the roots of a method are exactly the methods that can be reached
from it and that override nothing themselves.
-/

namespace EntryPoints.CodeIndex

variable {files : List FileFacts}

/-! ## Ancestors and members -/

theorem bounds_eq_nil_of_isNamed {t : TypeSymbol} (ht : (ofFiles files).IsNamed t) :
    t.bounds = [] := by
  rcases ht with ⟨name, rfl⟩ | ⟨k, entry, hentry, rfl⟩
  · rfl
  · rw [(symbol_of_type? hentry).2]
    rfl

theorem directSupertypes_symbol {k : String} {entry : TypeEntry}
    (hentry : (ofFiles files).type? k = some entry)
    (hkind : entry.decl.kind ≠ .typeParameter) :
    (ofFiles files).directSupertypes entry.symbol =
      (ofFiles files).declaredSupertypes entry := by
  obtain ⟨hk, hsymbol⟩ := symbol_of_type? hentry
  have hparameter : entry.symbol.isTypeParameter = false := by
    rw [hsymbol]
    exact beq_false_of_ne hkind
  have hexternal : entry.symbol.isExternal = false := by
    rw [hsymbol]
    rfl
  have hbinary : entry.symbol.binaryName = k := by
    rw [hsymbol]
    exact hk
  unfold directSupertypes
  rw [hparameter, hexternal, hbinary, hentry]
  rfl

/-- Whatever a type inherits from is resolved, when the bounds that it has are. -/
theorem isResolved_of_mem_directSupertypes_of_bounds {t u : TypeSymbol}
    (hbounds : ∀ b ∈ t.bounds, (ofFiles files).IsNamed b)
    (hu : u ∈ (ofFiles files).directSupertypes t) : (ofFiles files).IsResolved u := by
  unfold directSupertypes at hu
  split at hu
  · exact .inl (hbounds u hu)
  · split at hu
    · cases hu
    · split at hu
      · obtain ⟨text, -, htext⟩ := List.mem_filterMap.mp hu
        exact isResolved_of_resolveType (Option.filter_eq_some_iff.mp htext).1
      · cases hu

theorem isResolved_of_mem_directSupertypes {t u : TypeSymbol}
    (ht : (ofFiles files).IsResolved t) (hu : u ∈ (ofFiles files).directSupertypes t) :
    (ofFiles files).IsResolved u := by
  refine isResolved_of_mem_directSupertypes_of_bounds (fun b hb => ?_) hu
  rcases ht with ht | ⟨-, -, -, hbounds⟩
  · rw [bounds_eq_nil_of_isNamed ht] at hb
    cases hb
  · exact hbounds b hb

theorem isResolved_of_mem_ancestors {t u : TypeSymbol} (ht : (ofFiles files).IsResolved t)
    (hu : u ∈ (ofFiles files).ancestors t) : (ofFiles files).IsResolved u := by
  apply Walk.known_of_mem_visit (fun a ha b => isResolved_of_mem_directSupertypes ha) ?_ u hu
  simpa using ht

/-- A list that grows by the elements of another one, some left out, has no others. -/
theorem mem_foldl_unless {α : Type} {leaveOut : List α → α → Bool} {xs result : List α} {x : α}
    (hx : x ∈ xs.foldl
      (fun result x => if leaveOut result x then result else result ++ [x]) result) :
    x ∈ result ∨ x ∈ xs := by
  induction xs generalizing result with
  | nil => exact .inl hx
  | cons y xs ih =>
      rw [List.foldl_cons] at hx
      rcases ih hx with hx | hx
      · split at hx
        · exact .inl hx
        · rcases List.mem_append.mp hx with hx | hx
          · exact .inl hx
          · rw [List.mem_singleton] at hx
            exact .inr (hx ▸ List.mem_cons_self)
      · exact .inr (List.mem_cons_of_mem y hx)

theorem mem_foldl_addDeclared {index : CodeIndex} {name : String} {count : Option Nat}
    {types : List TypeSymbol} {candidates : List Method} {m : Method}
    (hm : m ∈ types.foldl (index.addDeclared name count) candidates) :
    m ∈ candidates ∨
      ∃ t ∈ types, m ∈ index.declaredMethods t ∧ m.name = name ∧ m.isConstructor = false := by
  induction types generalizing candidates with
  | nil => exact .inl hm
  | cons t types ih =>
      rw [List.foldl_cons] at hm
      rcases ih hm with hm | ⟨u, hu, hdeclared⟩
      · rcases mem_foldl_unless hm with hm | hm
        · exact .inl hm
        · obtain ⟨hdeclared, htest⟩ := List.mem_filter.mp hm
          simp only [Bool.and_eq_true, beq_iff_eq, Bool.not_eq_true'] at htest
          exact .inr ⟨t, List.mem_cons_self, hdeclared, htest.1.1, htest.1.2⟩
      · exact .inr ⟨u, List.mem_cons_of_mem t hu, hdeclared⟩

theorem mem_members {index : CodeIndex} {t : TypeSymbol} {name : String} {count : Option Nat}
    {m : Method} (hm : m ∈ index.members t name count) :
    ∃ u ∈ index.ancestors t, m ∈ index.declaredMethods u ∧ m.name = name ∧
      m.isConstructor = false := by
  rcases mem_foldl_addDeclared hm with hm | hm
  · cases hm
  · exact hm

def IsKnown (index : CodeIndex) (m : Method) : Prop :=
  index.IsNamed m.owner ∧
    (m.owner.isExternal = true ∨ index.methods.keys.contains m = true)

theorem id_eq_binaryName {t : TypeSymbol} (ht : t.binaryName ≠ "") : t.id = t.binaryName := by
  simp [TypeSymbol.id, firstNonempty, ht]

theorem owner_of_mem_declaredMethods {t : TypeSymbol} (ht : (ofFiles files).IsResolved t)
    {m : Method} (hm : m ∈ (ofFiles files).declaredMethods t) :
    m.owner.id = t.id ∧ (ofFiles files).IsKnown m := by
  unfold declaredMethods at hm
  split at hm
  next hexternal =>
    have howner : m.owner = t := by
      obtain ⟨found, -, rfl⟩ := Option.map_eq_some_iff.mp (Option.mem_toList.mp hm)
      rfl
    rcases ht with ht | ⟨-, hdeclared, -⟩
    · exact ⟨by rw [howner], howner ▸ ht, .inl (howner ▸ hexternal)⟩
    · rw [hdeclared] at hexternal
      cases hexternal
  next hexternal =>
    obtain ⟨⟨entry, hentry, howner⟩, hindexed⟩ := owner_of_mem_methodsDeclaredBy hm
    refine ⟨?_, howner ▸ isNamed_symbol hentry, .inr hindexed⟩
    rw [howner]
    rcases ht with (⟨name, rfl⟩ | ⟨k, found, hfound, rfl⟩) | ⟨-, -, hname, -⟩
    · exact absurd rfl hexternal
    · have hk : found.symbol.binaryName = k := by
        rw [(symbol_of_type? hfound).2]
        exact (symbol_of_type? hfound).1
      rw [hk, hfound, Option.some.injEq] at hentry
      rw [hentry]
    · have hbinary : entry.symbol.binaryName = t.binaryName := by
        rw [(symbol_of_type? hentry).2]
        exact (symbol_of_type? hentry).1
      rw [id_eq_binaryName hname, id_eq_binaryName (hbinary ▸ hname), hbinary]

/-! ## Direct overriding -/

theorem exists_member_of_mem_overriddenBy {index : CodeIndex} {m above : Method}
    (habove : above ∈ index.overriddenBy m) :
    above.isStatic = false ∧
      ∃ t ∈ index.directSupertypes m.owner, above ∈ index.members t m.name (some m.arity) := by
  unfold overriddenBy at habove
  rcases mem_foldl_unless habove with h | h
  · cases h
  · obtain ⟨t, ht, h⟩ := List.mem_flatMap.mp h
    obtain ⟨hmember, htest⟩ := List.mem_filter.mp h
    simp only [Bool.and_eq_true, Bool.not_eq_true'] at htest
    exact ⟨htest.1, t, ht, hmember⟩

/-- What a method overrides belongs to the index or to the library, whatever the method is. -/
theorem isKnown_of_mem_overriddenBy {m above : Method} (hbounds : m.owner.bounds = [])
    (habove : above ∈ (ofFiles files).overriddenBy m) :
    (ofFiles files).IsKnown above ∧ above.name = m.name ∧ above.isConstructor = false := by
  obtain ⟨-, t, ht, hmember⟩ := exists_member_of_mem_overriddenBy habove
  obtain ⟨u, hu, hdeclared, hname, hconstructor⟩ := mem_members hmember
  have hresolved := isResolved_of_mem_directSupertypes_of_bounds (by simp [hbounds]) ht
  exact ⟨(owner_of_mem_declaredMethods (isResolved_of_mem_ancestors hresolved hu) hdeclared).2,
    hname, hconstructor⟩

theorem of_mem_overriddenBy {m above : Method} (hm : (ofFiles files).IsKnown m)
    (habove : above ∈ (ofFiles files).overriddenBy m) :
    (ofFiles files).IsKnown above ∧ above.name = m.name ∧ above.isConstructor = false :=
  isKnown_of_mem_overriddenBy (bounds_eq_nil_of_isNamed hm.1) habove

/-- Named types that agree in everything but declaration sites are the same. -/
theorem eq_of_beq_of_isNamed {t u : TypeSymbol} (ht : (ofFiles files).IsNamed t)
    (hu : (ofFiles files).IsNamed u) (htu : (t == u) = true) : t = u := by
  have hbinary := TypeSymbol.binaryName_eq_of_beq htu
  have hexternal : t.isExternal = u.isExternal := by
    have hbare := TypeSymbol.beq_iff.mp htu
    cases t
    cases u
    simp only [TypeSymbol.bare, TypeSymbol.mk.injEq] at hbare
    exact hbare.2.2.2.2.2.1
  rcases ht with ⟨name, rfl⟩ | ⟨k, entry, hentry, rfl⟩
  · rcases hu with ⟨other, rfl⟩ | ⟨l, found, hfound, rfl⟩
    · rw [show name = other from hbinary]
    · rw [(symbol_of_type? hfound).2] at hexternal
      cases hexternal
  · rcases hu with ⟨other, rfl⟩ | ⟨l, found, hfound, rfl⟩
    · rw [(symbol_of_type? hentry).2] at hexternal
      cases hexternal
    · rw [(symbol_of_type? hentry).2, (symbol_of_type? hfound).2] at hbinary
      have hkl : k = l := by
        rw [← (symbol_of_type? hentry).1, ← (symbol_of_type? hfound).1]
        exact hbinary
      rw [hkl, hfound, Option.some.injEq] at hentry
      rw [hentry]

theorem overriddenBy_congr {index : CodeIndex} {m n : Method} (howner : m.owner = n.owner)
    (hname : m.name = n.name) (hparameters : m.parameters = n.parameters) :
    index.overriddenBy m = index.overriddenBy n := by
  simp only [overriddenBy, overrides, Method.arity, Method.isVarargs, howner, hname,
    hparameters]

theorem overriddenBy_eq_of_beq {m n : Method} (hm : (ofFiles files).IsKnown m)
    (hn : (ofFiles files).IsKnown n) (hmn : (m == n) = true) :
    (ofFiles files).overriddenBy m = (ofFiles files).overriddenBy n := by
  have hsame := Method.beq_iff.mp hmn
  simp only [Method.identity, Prod.mk.injEq] at hsame
  exact overriddenBy_congr
    (eq_of_beq_of_isNamed hm.1 hn.1 (TypeSymbol.beq_iff.mpr hsame.1)) hsame.2.1 hsame.2.2.1

theorem overriddenBy_eq_nil_of_isExternal {m : Method} (hm : (ofFiles files).IsKnown m)
    (hexternal : m.owner.isExternal = true) : (ofFiles files).overriddenBy m = [] := by
  have hsupertypes : (ofFiles files).directSupertypes m.owner = [] := by
    unfold directSupertypes
    rw [bounds_eq_nil_of_isNamed hm.1, if_pos hexternal, ite_self]
  unfold overriddenBy
  rw [hsupertypes]
  rfl

/-! ## Roots -/

def DirectlyOverrides (index : CodeIndex) (m above : Method) : Prop :=
  above ∈ index.overriddenBy m

theorem isKnown_of_overrides {m above : Method} (hm : (ofFiles files).IsKnown m)
    (habove : Relation.TransGen (ofFiles files).DirectlyOverrides m above) :
    (ofFiles files).IsKnown above ∧ above.name = m.name ∧ above.isConstructor = false := by
  induction habove with
  | single hstep => exact of_mem_overriddenBy hm hstep
  | tail _ hstep ih =>
      obtain ⟨hknown, hname, hconstructor⟩ := of_mem_overriddenBy ih.1 hstep
      exact ⟨hknown, hname.trans ih.2.1, hconstructor⟩

theorem terrain_overriddenBy (files : List FileFacts) :
    Walk.Terrain (fun m : Method => m) (ofFiles files).overriddenBy (fun _ => 0)
      (ofFiles files).IsKnown (ofFiles files).methods.keys where
  closed m hm above habove := (of_mem_overriddenBy hm habove).1
  same m n hm hn hmn := overriddenBy_eq_of_beq hm hn hmn
  heavy m hm hheavy := by
    rcases hm.2 with hexternal | hindexed
    · rw [overriddenBy_eq_nil_of_isExternal hm hexternal] at hheavy
      cases hheavy
    · exact hindexed

/-- The search for roots has an expansion for every method of the index. -/
theorem length_remaining_methods_le (index : CodeIndex) (m : Method) :
    (Walk.remaining index.methods.keys [m]).length ≤ index.methods.size + 1 :=
  Nat.le_succ_of_le (List.length_filter_le _ _)

/-- Every root is reached by overriding and overrides nothing itself. -/
theorem overrides_of_mem_roots {index : CodeIndex} {m root : Method}
    (hroot : root ∈ index.roots m) :
    Relation.TransGen index.DirectlyOverrides m root ∧ index.overriddenBy root = [] := by
  unfold roots at hroot
  split at hroot
  · cases hroot
  · obtain ⟨hlisted, htop⟩ := List.mem_filter.mp hroot
    obtain ⟨p, hp, hreach⟩ := Walk.reaches_of_mem_visit hlisted
    exact ⟨Relation.TransGen.head' hp hreach, List.isEmpty_iff.mp htop⟩

theorem isConstructor_of_mem_roots {index : CodeIndex} {m root : Method}
    (hroot : root ∈ index.roots m) : m.isConstructor = false := by
  unfold roots at hroot
  split at hroot
  · cases hroot
  next h =>
    simp only [Bool.or_eq_true, not_or, Bool.not_eq_true] at h
    exact h.1

/-- Whatever a method overrides, directly or through others, is a root if it overrides nothing
itself. -/
theorem exists_mem_roots_of_overrides {m top : Method} (hm : (ofFiles files).IsKnown m)
    (hinstance : m.isConstructor = false ∧ m.isStatic = false)
    (hoverrides : Relation.TransGen (ofFiles files).DirectlyOverrides m top)
    (htop : (ofFiles files).overriddenBy top = []) :
    ∃ root ∈ (ofFiles files).roots m, (root == top) = true := by
  have hterrain := terrain_overriddenBy files
  obtain ⟨p, hp, hreach⟩ := Relation.TransGen.head'_iff.mp hoverrides
  have hfrontier : Walk.Frontier (fun m : Method => m) (ofFiles files).overriddenBy
      (ofFiles files).IsKnown [m] ((ofFiles files).overriddenBy m) := by
    intro a ha hseen b hb
    have ham : (a == m) = true := by simpa using hseen
    rw [overriddenBy_eq_of_beq ha hm ham] at hb
    exact .inr ⟨b, hb, BEq.rfl⟩
  have hmet := Walk.met_of_reaches hterrain
    (fun above habove => (of_mem_overriddenBy hm habove).1) hfrontier
    (length_remaining_methods_le _ m) hp hreach
  have hknown := (isKnown_of_overrides hm hoverrides).1
  rcases hmet with hseen | ⟨root, hlisted, hroot⟩
  · have htopm : (top == m) = true := by simpa using hseen
    have hnone : p ∈ (ofFiles files).overriddenBy m := hp
    rw [← overriddenBy_eq_of_beq hknown hm htopm, htop] at hnone
    cases hnone
  · refine ⟨root, ?_, hroot⟩
    obtain ⟨q, hq, hqroot⟩ := Walk.reaches_of_mem_visit hlisted
    have hrootKnown := (isKnown_of_overrides hm (Relation.TransGen.head' hq hqroot)).1
    unfold roots
    rw [hinstance.1, hinstance.2]
    refine List.mem_filter.mpr ⟨hlisted, ?_⟩
    rw [overriddenBy_eq_of_beq hrootKnown hknown hroot, htop]
    rfl

end EntryPoints.CodeIndex
