import EntryPoints.Proofs.DeclaredNames
import Mathlib.Data.Set.Finite.List
import Mathlib.Order.WellFounded

/-!
# The methods at the top

The search for roots goes from a method to those that it overrides directly, and on from them,
until nothing is pending.  It may go in a circle, and it lists no method twice.  The roots are
the listed methods that override nothing.

A method that is overridden is declared in a type that is really above the type of the method
that overrides it, or belongs to the library, where nothing is overridden.  So when no type
inherits from itself, there is no endless way upwards, and a method that overrides anything at
all has a root.
-/

namespace EntryPoints

namespace Walk

variable {α κ : Type} [BEq κ] {label : α → κ} {next : α → List α}

/-- A walk lists no label twice, and none that was seen before it. -/
theorem Lists.pairwise [EquivBEq κ] {pending : List α} {seen : List κ} {listed : List α}
    (h : Lists label next pending seen listed) :
    listed.Pairwise (fun x y => (label x == label y) = false) ∧
      ∀ x ∈ listed, seen.contains (label x) = false := by
  induction h with
  | done => simp
  | skip old others ih => exact ih
  | @visit x rest listed seen new others ih =>
      obtain ⟨hpairwise, hunseen⟩ := ih
      simp only [List.contains_cons, Bool.or_eq_false_iff] at hunseen
      refine ⟨List.pairwise_cons.mpr ⟨fun y hy => ?_, hpairwise⟩, ?_⟩
      · rw [BEq.comm]
        exact (hunseen y hy).1
      · rw [List.forall_mem_cons]
        exact ⟨by simpa using new, fun y hy => (hunseen y hy).2⟩

end Walk

namespace CodeIndex

/-- No declared type is above itself. -/
def InheritsWithoutCircles (index : CodeIndex) : Prop :=
  ∀ k entry, index.type? k = some entry →
    ¬ Relation.TransGen (fun a b => b ∈ index.directSupertypes a) entry.symbol entry.symbol

variable {files : List FileFacts}

/-- What a method overrides is declared above the type of the method, or in the library. -/
theorem owner_of_mem_overriddenBy (hfiles : ∀ file ∈ files, file.NamesPlainly)
    {m above : Method} (hm : (ofFiles files).IsKnown m)
    (habove : above ∈ (ofFiles files).overriddenBy m) :
    Relation.TransGen (fun a b => b ∈ (ofFiles files).directSupertypes a) m.owner
      above.owner := by
  obtain ⟨-, t, ht, hmember⟩ := exists_member_of_mem_overriddenBy habove
  obtain ⟨u, hu, hdeclared, -⟩ := mem_members hmember
  have hway := Relation.TransGen.head' ht (isAbove_of_mem_ancestors hu)
  have hplaced := isNamed_or_isScoped_of_isAbove (.inl hm.1) hway.to_reflTransGen
  rw [owner_eq_of_mem_declaredMethods hfiles hplaced hdeclared]
  exact hway

/-- Going upwards ends at the top, when no type is above itself. -/
theorem wellFounded_supertypes {index : CodeIndex} (hcircles : index.InheritsWithoutCircles)
    (types : List TypeSymbol)
    (htypes : ∀ t ∈ types, ∃ k entry, index.type? k = some entry ∧ t = entry.symbol) :
    WellFounded fun b a : {t // t ∈ types} =>
      Relation.TransGen (fun a b => b ∈ index.directSupertypes a) a.1 b.1 := by
  have hfinite : Finite {t // t ∈ types} := (List.finite_toSet types).to_subtype
  have htrans : IsTrans {t // t ∈ types} fun b a =>
      Relation.TransGen (fun a b => b ∈ index.directSupertypes a) a.1 b.1 :=
    ⟨fun _ _ _ hab hbc => hbc.trans hab⟩
  have hirrefl : Std.Irrefl fun b a : {t // t ∈ types} =>
      Relation.TransGen (fun a b => b ∈ index.directSupertypes a) a.1 b.1 := by
    refine ⟨fun a ha => ?_⟩
    obtain ⟨k, entry, hentry, hsymbol⟩ := htypes a.1 a.2
    rw [hsymbol] at ha
    exact hcircles k entry hentry ha
  exact Finite.wellFounded_of_trans_of_irrefl _

/-- A method that overrides anything has a topmost one among those that it overrides. -/
theorem exists_top_of_overrides (hfiles : ∀ file ∈ files, file.NamesPlainly)
    (hcircles : (ofFiles files).InheritsWithoutCircles) {m : Method}
    (hm : (ofFiles files).IsKnown m) (hsome : (ofFiles files).overriddenBy m ≠ []) :
    ∃ top, Relation.TransGen (ofFiles files).DirectlyOverrides m top ∧
      (ofFiles files).overriddenBy top = [] := by
  have hwell := wellFounded_supertypes hcircles (ofFiles files).allTypes
    fun _ => exists_type?_of_mem_allTypes
  -- A method that overrides anything belongs to a type of the index.
  have howner {n : Method} (hn : (ofFiles files).IsKnown n)
      (hnot : (ofFiles files).overriddenBy n ≠ []) : n.owner ∈ (ofFiles files).allTypes := by
    rcases hn.1 with ⟨name, hname⟩ | ⟨k, entry, hentry, hsymbol⟩
    · exact absurd (overriddenBy_eq_nil_of_isExternal hn (by rw [hname]; rfl)) hnot
    · rw [hsymbol]
      exact symbol_mem_allTypes hentry
  obtain ⟨owner, hsame⟩ : ∃ owner : {t // t ∈ (ofFiles files).allTypes}, m.owner = owner.1 :=
    ⟨⟨m.owner, howner hm hsome⟩, rfl⟩
  induction owner using hwell.induction generalizing m with
  | _ owner ih =>
      obtain ⟨above, habove⟩ := List.exists_mem_of_ne_nil _ hsome
      have hknown := (of_mem_overriddenBy hm habove).1
      by_cases htop : (ofFiles files).overriddenBy above = []
      · exact ⟨above, .single habove, htop⟩
      · have hhigher := owner_of_mem_overriddenBy hfiles hm habove
        rw [hsame] at hhigher
        obtain ⟨top, hreach, hnone⟩ :=
          ih ⟨above.owner, howner hknown htop⟩ hhigher hknown htop rfl
        exact ⟨top, .head habove hreach, hnone⟩

theorem contains_roots_iff {m : Method} (hm : (ofFiles files).IsKnown m)
    (hinstance : m.isConstructor = false ∧ m.isStatic = false) (r : Method) :
    ((ofFiles files).roots m).contains r = true ↔
      ∃ top, Relation.TransGen (ofFiles files).DirectlyOverrides m top ∧
        (ofFiles files).overriddenBy top = [] ∧ (r == top) = true := by
  rw [List.contains_iff_exists_mem_beq]
  constructor
  · rintro ⟨root, hroot, hsame⟩
    obtain ⟨hreach, hnone⟩ := overrides_of_mem_roots hroot
    exact ⟨root, hreach, hnone, hsame⟩
  · rintro ⟨top, hreach, hnone, hsame⟩
    obtain ⟨root, hroot, htop⟩ := exists_mem_roots_of_overrides hm hinstance hreach hnone
    exact ⟨root, hroot, BEq.trans hsame (BEq.symm htop)⟩

/-- The search for the roots of a method ends, also when types inherit from each other in a circle.
It gives, each once, the methods other than this one that are reached by overriding and override
nothing themselves.  Without circles there is one for every method that overrides anything.  All
this holds of any facts in which no type is named like a type parameter. -/
theorem roots_topmost (hfiles : ∀ file ∈ files, file.NamesPlainly) {m : Method}
    (hm : (ofFiles files).IsKnown m) (hinstance : m.isConstructor = false ∧ m.isStatic = false) :
    (∃ methods, Walk.Lists (fun above : Method => above) (ofFiles files).overriddenBy
        ((ofFiles files).overriddenBy m) [m] methods ∧
      (ofFiles files).roots m =
        methods.filter fun above => ((ofFiles files).overriddenBy above).isEmpty) ∧
    ((ofFiles files).roots m).Pairwise (fun r s => (r == s) = false) ∧
    (∀ r, ((ofFiles files).roots m).contains r = true ↔ (r == m) = false ∧
      ∃ top, Relation.TransGen (ofFiles files).DirectlyOverrides m top ∧
        (ofFiles files).overriddenBy top = [] ∧ (r == top) = true) ∧
    ((ofFiles files).InheritsWithoutCircles →
      ((ofFiles files).roots m = [] ↔ (ofFiles files).overriddenBy m = [])) := by
  have hlists := @lists_overriddenBy files m (bounds_eq_nil_of_isNamed hm.1)
  have hroots : (ofFiles files).roots m = (Walk.visit (fun above : Method => above)
      (ofFiles files).overriddenBy (fun _ => 0) ((ofFiles files).methods.size + 1)
      ((ofFiles files).overriddenBy m) [m]).filter fun above =>
        ((ofFiles files).overriddenBy above).isEmpty := by
    unfold roots
    rw [hinstance.1, hinstance.2]
    rfl
  have hexists := contains_roots_iff hm hinstance
  refine ⟨⟨_, hlists, hroots⟩, ?_, fun r => ?_, fun hcircles => ⟨fun hnone => ?_, fun hnone => ?_⟩⟩
  · rw [hroots]
    exact hlists.pairwise.1.filter _
  · refine (hexists r).trans ⟨fun ⟨top, hreach, htop, hsame⟩ => ⟨?_, top, hreach, htop, hsame⟩,
      And.right⟩
    -- A method that overrides itself overrides something.
    rw [← Bool.not_eq_true]
    intro hself
    obtain ⟨above, habove, -⟩ := Relation.TransGen.head'_iff.mp hreach
    have heq := overriddenBy_eq_of_beq (isKnown_of_overrides hm hreach).1 hm
      (BEq.trans (BEq.symm hsame) hself)
    have hmem : above ∈ (ofFiles files).overriddenBy m := habove
    rw [← heq, htop] at hmem
    cases hmem
  · by_contra hsome
    obtain ⟨top, hreach, htop⟩ := exists_top_of_overrides hfiles hcircles hm hsome
    have hroot := (hexists top).mpr ⟨top, hreach, htop, BEq.rfl⟩
    rw [hnone] at hroot
    cases hroot
  · rw [hroots, hnone]
    simp [Walk.visit]

end CodeIndex

namespace Redeclared

open CodeIndex

theorem namesPlainly : ∀ file ∈ [source], file.NamesPlainly := by
  intro file hfile
  have hnames : (Java.parse text).HasNoEmptyName ∧ (Java.parse text).NamesTypesPlainly := by
    decide +kernel
  rw [List.mem_singleton.mp hfile, ← ofText_source]
  exact FileFacts.namesPlainly_ofTree _ _ hnames.1 hnames.2

theorem overriddenBy_eq : index.overriddenBy upperMethod = [] ∧
    index.overriddenBy lowerMethod = [upperMethod] := by
  obtain ⟨hupper, hlower, -⟩ := directSupertypes_eq
  have hmembers : index.members upper.symbol "f" (some 0) = [upperMethod] := by
    have hancestors : index.ancestors upper.symbol = [upper.symbol] := by
      unfold ancestors
      simp [Walk.visit, Walk.load, hupper]
    unfold members
    rw [hancestors]
    simp only [List.foldl_cons, List.foldl_nil, addDeclared, declaredMethods_eq.1]
    rfl
  unfold overriddenBy
  rw [show upperMethod.owner = upper.symbol from rfl, hupper,
    show lowerMethod.owner = lower.symbol from rfl, hlower]
  refine ⟨rfl, ?_⟩
  simp only [List.flatMap_cons, List.flatMap_nil, List.append_nil]
  rw [show lowerMethod.name = "f" from rfl, show lowerMethod.arity = 0 from rfl, hmembers]
  rfl

end Redeclared

open Redeclared in
/-- The method of `I` is at the top of the one of `J`. -/
theorem roots_topmost_redeclared :
    (∀ file ∈ [source], file.NamesPlainly) ∧ index.IsKnown lowerMethod ∧
    (lowerMethod.isConstructor = false ∧ lowerMethod.isStatic = false) ∧
    (index.roots lowerMethod).contains upperMethod = true := by
  have hlower : index.IsResolved lower.symbol := .inl (CodeIndex.isNamed_symbol type?_eq.2.1)
  have hdeclared : lowerMethod ∈ index.declaredMethods lower.symbol := by
    rw [declaredMethods_eq.2.1]
    exact List.mem_singleton_self lowerMethod
  have hknown := (CodeIndex.owner_of_mem_declaredMethods hlower hdeclared).2
  have hstep : index.DirectlyOverrides lowerMethod upperMethod := by
    change upperMethod ∈ index.overriddenBy lowerMethod
    rw [overriddenBy_eq.2]
    exact List.mem_singleton_self upperMethod
  obtain ⟨-, -, hroots, -⟩ := CodeIndex.roots_topmost namesPlainly hknown ⟨rfl, rfl⟩
  exact ⟨namesPlainly, hknown, ⟨rfl, rfl⟩, (hroots upperMethod).mpr
    ⟨rfl, upperMethod, .single hstep, overriddenBy_eq.1, BEq.rfl⟩⟩

end EntryPoints
