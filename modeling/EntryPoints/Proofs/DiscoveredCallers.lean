import EntryPoints.Proofs.SearchReplay

/-!
# Callers in order of discovery

The callers of a method are told here without the code that collects them.  Its call sites are
listed, its own first and then those of the methods at the top of what it overrides, each with the
type that its receiver is expected to refer to and, if there is one, the implementation that it
has to be able to hold.  Some of these sites count, and the methods around them are discovered one
after the other.  The answer has the first of every key, in that order.

A rejected site leaves no trace: the method around it is still found at a later site that counts.
-/

namespace EntryPoints

variable {σ ρ : Type}

/-! ## The first of every key -/

/-- One method for every key that was found, the first one, in the order in which the keys were
found. -/
structure IsFirstOfEach (found callers : List Method) : Prop where
  first : ∀ c, c ∈ callers ↔ found.find? (·.key == c.key) = some c
  inOrder : callers.Pairwise fun c d =>
    found.findIdx (·.key == c.key) < found.findIdx (·.key == d.key)

theorem findIdx_cons_of_key_ne {m d : Method} (hkey : d.key ≠ m.key) (found : List Method) :
    (m :: found).findIdx (·.key == d.key) = found.findIdx (·.key == d.key) + 1 := by
  rw [List.findIdx_cons, beq_false_of_ne hkey.symm]
  rfl

theorem isFirstOfEach_firstOfKeys (found : List Method) :
    IsFirstOfEach found (firstOfKeys found) := by
  induction found with
  | nil => exact ⟨by simp [firstOfKeys], List.Pairwise.nil⟩
  | cons m found ih =>
      rw [firstOfKeys]
      constructor
      · intro c
        rw [List.mem_cons, List.mem_filter, ih.first, List.find?_cons]
        by_cases hkey : m.key = c.key
        · simp [hkey, eq_comm]
        · have hne : c ≠ m := fun h => hkey (h ▸ rfl)
          rw [beq_false_of_ne hkey]
          simp [hne, Ne.symm hkey]
      · have hothers : ∀ d ∈ (firstOfKeys found).filter (·.key ≠ m.key), d.key ≠ m.key :=
          fun d hd => of_decide_eq_true (List.mem_filter.mp hd).2
        refine List.pairwise_cons.mpr ⟨fun d hd => ?_, ?_⟩
        · rw [findIdx_cons_of_key_ne (hothers d hd), List.findIdx_cons, beq_self_eq_true]
          exact Nat.succ_pos _
        · refine List.Pairwise.imp_of_mem (fun hc hd hless => ?_) (ih.inOrder.filter _)
          rw [findIdx_cons_of_key_ne (hothers _ hc), findIdx_cons_of_key_ne (hothers _ hd)]
          exact Nat.succ_lt_succ hless

namespace Answers

/-! ## What a receiver could be -/

/-- One of two types is the other or inherits from it, where one of its bounds may stand for a
type parameter. -/
def IsRelated (answers : Answers) (expected receiver : TypeSymbol) : Prop :=
  ∃ t, (t = receiver ∨ receiver.isTypeParameter = true ∧ t ∈ receiver.bounds) ∧
    (answers.isSubtypeOrSelf expected t = true ∨ answers.isSubtypeOrSelf t expected = true)

/-- A receiver could hold an instance of an implementation: an interface could, a type parameter
that has no bounds or a bound that could, and any other type if it is the implementation or one of
its ancestors. -/
inductive CouldHold (answers : Answers) (implementation : TypeSymbol) : TypeSymbol → Prop
  | interface {t : TypeSymbol} (hinterface : t.isInterface = true) :
      CouldHold answers implementation t
  | unbounded {t : TypeSymbol} (hparameter : t.isTypeParameter = true) (hbounds : t.bounds = []) :
      CouldHold answers implementation t
  | bound {t b : TypeSymbol} (hparameter : t.isTypeParameter = true) (hb : b ∈ t.bounds)
      (hold : CouldHold answers implementation b) : CouldHold answers implementation t
  | ancestor {t : TypeSymbol} (hinterface : t.isInterface = false)
      (hparameter : t.isTypeParameter = false)
      (hsubtype : answers.isSubtypeOrSelf implementation t = true) :
      CouldHold answers implementation t

variable {answers : Answers}

theorem related_iff {expected receiver : TypeSymbol} :
    answers.related expected receiver = true ↔ answers.IsRelated expected receiver := by
  simp only [related, comparable, Bool.or_eq_true, Bool.and_eq_true, List.any_eq_true, IsRelated,
    or_and_right, exists_or, exists_eq_left, and_assoc, exists_and_left]

section Compatible

variable {implementation t : TypeSymbol}

theorem compatible_of_interface (hinterface : t.isInterface = true) :
    answers.compatible implementation t = true := by
  cases t
  simp only [TypeSymbol.isInterface, Bool.or_eq_true, beq_iff_eq] at hinterface
  rw [compatible, if_pos hinterface]

theorem compatible_of_parameter (hparameter : t.isTypeParameter = true) :
    answers.compatible implementation t =
      (t.bounds.isEmpty || answers.anyCompatible implementation t.bounds) := by
  cases t
  simp only [TypeSymbol.isTypeParameter, beq_iff_eq] at hparameter
  subst hparameter
  rw [compatible, if_neg (by simp), if_pos rfl]

theorem compatible_of_class (hinterface : t.isInterface = false)
    (hparameter : t.isTypeParameter = false) :
    answers.compatible implementation t = answers.isSubtypeOrSelf implementation t := by
  cases t
  simp only [TypeSymbol.isInterface, Bool.or_eq_false_iff, beq_eq_false_iff_ne] at hinterface
  simp only [TypeSymbol.isTypeParameter, beq_eq_false_iff_ne] at hparameter
  rw [compatible, if_neg (by simp [hinterface]), if_neg hparameter]

theorem anyCompatible_iff {bounds : List TypeSymbol} :
    answers.anyCompatible implementation bounds = true ↔
      ∃ b ∈ bounds, answers.compatible implementation b = true := by
  induction bounds with
  | nil => simp [anyCompatible]
  | cons b rest ih => simp [anyCompatible, ih]

theorem CouldHold.compatible (h : answers.CouldHold implementation t) :
    answers.compatible implementation t = true := by
  induction h with
  | interface hinterface => exact compatible_of_interface hinterface
  | unbounded hparameter hbounds =>
      rw [compatible_of_parameter hparameter, hbounds]
      rfl
  | bound hparameter hb _ ih =>
      rw [compatible_of_parameter hparameter, Bool.or_eq_true]
      exact .inr (anyCompatible_iff.mpr ⟨_, hb, ih⟩)
  | ancestor hinterface hparameter hsubtype =>
      rw [compatible_of_class hinterface hparameter, hsubtype]

end Compatible

mutual

theorem couldHold_of_compatible (implementation : TypeSymbol) : ∀ t : TypeSymbol,
    answers.compatible implementation t = true → answers.CouldHold implementation t
  | ⟨qualifiedName, name, binaryName, kind, isAnonymous, isExternal, bounds, location⟩ => by
    intro h
    cases hinterface : TypeSymbol.isInterface
        ⟨qualifiedName, name, binaryName, kind, isAnonymous, isExternal, bounds, location⟩ with
    | true => exact .interface hinterface
    | false =>
        cases hparameter : TypeSymbol.isTypeParameter
            ⟨qualifiedName, name, binaryName, kind, isAnonymous, isExternal, bounds, location⟩ with
        | true =>
            rw [compatible_of_parameter hparameter, Bool.or_eq_true] at h
            rcases h with h | h
            · exact .unbounded hparameter (List.isEmpty_iff.mp h)
            · obtain ⟨b, hb, hold⟩ := couldHold_of_anyCompatible implementation bounds h
              exact .bound hparameter hb hold
        | false =>
            rw [compatible_of_class hinterface hparameter] at h
            exact .ancestor hinterface hparameter h

theorem couldHold_of_anyCompatible (implementation : TypeSymbol) : ∀ bounds : List TypeSymbol,
    answers.anyCompatible implementation bounds = true →
      ∃ b ∈ bounds, answers.CouldHold implementation b
  | [] => fun h => nomatch h
  | b :: rest => by
    intro h
    rw [anyCompatible, Bool.or_eq_true] at h
    rcases h with h | h
    · exact ⟨b, List.mem_cons_self, couldHold_of_compatible implementation b h⟩
    · obtain ⟨c, hc, hold⟩ := couldHold_of_anyCompatible implementation rest h
      exact ⟨c, List.mem_cons_of_mem b hc, hold⟩

end

/-! ## Sites that count -/

/-- A call site that is listed for a method: the type to which its receiver is expected to refer,
and the implementation that it has to be able to hold, if there is one. -/
structure ListedSite where
  site : CallSite
  expected : TypeSymbol
  implementation : Option TypeSymbol

/-- The sites of a method as they are listed, on behalf of an implementation or not. -/
def sitesOf (answers : Answers) (implementation : Option TypeSymbol) (m : Method) :
    List ListedSite :=
  (answers.callSites m answers.productionScope).map fun site => ⟨site, m.owner, implementation⟩

/-- The sites at which a method may be called: its own, and then those of its roots in order,
whose receivers have to be able to hold its own class. -/
def listedSites (answers : Answers) (m : Method) : List ListedSite :=
  answers.sitesOf none m ++
    (answers.overriddenRoots m).flatMap (answers.sitesOf (some m.owner))

/-- A listed site makes the method around it a caller. -/
structure Counts (answers : Answers) (listed : ListedSite) (caller : Method) : Prop where
  outsideDocs : answers.isInDocComment listed.site.location = false
  around : answers.enclosingMethod listed.site.location = some caller
  related : ∀ receiver ∈ listed.site.receiver, answers.IsRelated listed.expected receiver
  couldHold : ∀ receiver ∈ listed.site.receiver, ∀ implementation ∈ listed.implementation,
    answers.CouldHold implementation receiver

/-- The methods around the sites that count, in order. -/
inductive Discovers (answers : Answers) : List ListedSite → List Method → Prop
  | done : Discovers answers [] []
  | counts {listed : ListedSite} {caller : Method} {rest : List ListedSite} {found : List Method}
      (hcounts : answers.Counts listed caller) (others : Discovers answers rest found) :
      Discovers answers (listed :: rest) (caller :: found)
  | passes {listed : ListedSite} {rest : List ListedSite} {found : List Method}
      (hcounts : ∀ caller, ¬ answers.Counts listed caller)
      (others : Discovers answers rest found) : Discovers answers (listed :: rest) found

def callerOf (answers : Answers) (listed : ListedSite) : Option Method :=
  answers.callerAt listed.expected listed.implementation listed.site

theorem compatible_iff {implementation t : TypeSymbol} :
    answers.compatible implementation t = true ↔ answers.CouldHold implementation t :=
  ⟨couldHold_of_compatible implementation t, CouldHold.compatible⟩

theorem accepts_iff {expected : TypeSymbol} {implementation : Option TypeSymbol}
    {site : CallSite} :
    answers.accepts expected implementation site = true ↔
      answers.isInDocComment site.location = false ∧ ∀ receiver ∈ site.receiver,
        answers.IsRelated expected receiver ∧
          ∀ owner ∈ implementation, answers.CouldHold owner receiver := by
  simp only [accepts, Bool.and_eq_true, Bool.not_eq_true', Option.all_eq_true, related_iff,
    compatible_iff, Option.mem_def]

theorem callerOf_eq_some_iff {listed : ListedSite} {caller : Method} :
    answers.callerOf listed = some caller ↔ answers.Counts listed caller := by
  unfold callerOf callerAt
  rw [Option.ite_none_right_eq_some, accepts_iff]
  constructor
  · rintro ⟨⟨houtside, hreceivers⟩, haround⟩
    exact ⟨houtside, haround, fun receiver hreceiver => (hreceivers receiver hreceiver).1,
      fun receiver hreceiver => (hreceivers receiver hreceiver).2⟩
  · intro h
    exact ⟨⟨h.outsideDocs, fun receiver hreceiver =>
      ⟨h.related receiver hreceiver, h.couldHold receiver hreceiver⟩⟩, h.around⟩

theorem discovers_filterMap (listed : List ListedSite) :
    answers.Discovers listed (listed.filterMap answers.callerOf) := by
  induction listed with
  | nil => exact .done
  | cons site rest ih =>
      rw [List.filterMap_cons]
      cases hcaller : answers.callerOf site with
      | some caller => exact .counts (callerOf_eq_some_iff.mp hcaller) ih
      | none =>
          refine .passes (fun caller hcounts => ?_) ih
          rw [callerOf_eq_some_iff.mpr hcounts] at hcaller
          cases hcaller

theorem filterMap_sitesOf (implementation : Option TypeSymbol) (m : Method) :
    (answers.sitesOf implementation m).filterMap answers.callerOf =
      answers.directCallers m implementation := by
  rw [sitesOf, List.filterMap_map]
  rfl

theorem filterMap_listedSites (m : Method) :
    (answers.listedSites m).filterMap answers.callerOf =
      answers.directCallers m none ++
        (answers.overriddenRoots m).flatMap fun root =>
          answers.directCallers root (some m.owner) := by
  rw [listedSites, List.filterMap_append, filterMap_sitesOf, List.filterMap_flatMap]
  simp only [filterMap_sitesOf]

end Answers

/-- The callers of a method that is not in the cache are the methods around the sites that count,
in order of discovery and once for each key.  In particular a site of a root does not count when
its receiver is a class that is no ancestor of the method's own. -/
theorem callersOf_exact {answers : Answers} {base : KnowledgeBase σ} {watcher : Watcher ρ}
    (finder : Finder) (m : Method) (s : RunState σ ρ) (hbase : base.Follows answers)
    (hundisturbed : Undisturbed base watcher) (hentry : s.cache.get? m.key = none) :
    ∃ found, answers.Discovers (answers.listedSites m) found ∧
      IsFirstOfEach found (answers.callers m) ∧
      ((finder.setting base answers.productionScope
        (Run.checkpoint base watcher)).callersOf m none s).1 = .ok (answers.callers m) ∧
      ∀ root ∈ answers.overriddenRoots m, ∀ listed ∈ answers.sitesOf (some m.owner) root,
        ∀ receiver ∈ listed.site.receiver, receiver.isInterface = false →
          receiver.isTypeParameter = false → answers.isSubtypeOrSelf m.owner receiver = false →
            ∀ caller, ¬ answers.Counts listed caller := by
  refine ⟨_, Answers.discovers_filterMap _, ?_, ?_, ?_⟩
  · rw [Answers.filterMap_listedSites]
    exact isFirstOfEach_firstOfKeys _
  · have happart : answers.ToldApart finder.functional (· = m) :=
      Answers.ToldApart.of_key_injective fun _ _ hn hk _ => hn.trans hk.symm
    have hcomplete : s.cache.Complete answers (· = m) := by
      rintro n callers rfl hcached
      rw [hentry] at hcached
      cases hcached
    exact (gives_callersOf (finder.setting_follows hbase _) happart
      hundisturbed.gives_checkpoint (fun _ hfalse => hfalse.elim) rfl).eq_ok hcomplete
  · intro root _ listed hlisted receiver hreceiver hinterface hparameter hsubtype caller hcounts
    obtain ⟨site, -, rfl⟩ := List.mem_map.mp hlisted
    have hcompatible := (hcounts.couldHold receiver hreceiver m.owner rfl).compatible
    rw [Answers.compatible_of_class hinterface hparameter, hsubtype] at hcompatible
    cases hcompatible

/-! ## Two implementations of one interface -/

namespace Siblings

def typeNamed (name : String) (kind : TypeKind) (bounds : List TypeSymbol) : TypeSymbol where
  qualifiedName := some name
  name
  binaryName := name
  kind
  bounds

def face : TypeSymbol := typeNamed "Face" .interfaceType []

def self : TypeSymbol := typeNamed "Self" .classType []

def sibling : TypeSymbol := typeNamed "Sibling" .classType []

/-- A type parameter that is bounded by another one, and that one by the class. -/
def parameter : TypeSymbol := typeNamed "T" .typeParameter [typeNamed "U" .typeParameter [self]]

def siteIn (caller : String) (receiver : TypeSymbol) : CallSite where
  location := ⟨caller, 1, 0, 1⟩
  receiver := some receiver

/-- The method `f` of the interface is implemented twice.  It is called in `x` on the class, in
`y` on the sibling and then on the interface, and in `z` on the type parameter. -/
def answers : Answers where
  callSites m _ :=
    match m.owner.name with
    | "Self" => [siteIn "x" self]
    | "Face" => [siteIn "y" sibling, siteIn "y" face, siteIn "x" face, siteIn "z" parameter]
    | _ => []
  overriddenRoots m := if m.owner.name = "Self" then [{ owner := face, name := "f" }] else []
  functionalImplementations _ _ := []
  enclosingMethod place := some { owner := self, name := place.file }
  isSubtypeOrSelf sub sup := sub.name == sup.name || sup.name == "Face"
  isInDocComment _ := false
  productionScope := { testRoots := [] }
  methodsNamed _ _ := []

end Siblings

/-- The call on the sibling does not count, and the method around it is found by the later call on
the interface. -/
theorem callersOf_exact_siblings :
    (∀ caller, ¬ Siblings.answers.Counts
      ⟨Siblings.siteIn "y" Siblings.sibling, Siblings.face, some Siblings.self⟩ caller) ∧
    ∃ callers, ((Finder.setting {} Siblings.answers.knowledgeBase
        Siblings.answers.productionScope
        (Run.checkpoint Siblings.answers.knowledgeBase Watcher.idle)).callersOf
          { owner := Siblings.self, name := "f" } none
          (⟨(), (), {}⟩ : RunState Unit Unit)).1 = .ok callers ∧
      callers.map Method.name = ["x", "y", "z"] := by
  obtain ⟨found, -, -, hcallers, hsibling⟩ :=
    callersOf_exact {} { owner := Siblings.self, name := "f" }
      (⟨(), (), {}⟩ : RunState Unit Unit) Answers.follows_knowledgeBase
      (undisturbed_idle fun _ => rfl) (CallerCache.get?_new _)
  refine ⟨?_, _, hcallers, by decide⟩
  exact hsibling { owner := Siblings.face, name := "f" } List.mem_cons_self _
    List.mem_cons_self Siblings.sibling rfl rfl rfl rfl

end EntryPoints
