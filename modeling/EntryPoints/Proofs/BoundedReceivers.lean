import EntryPoints.Proofs.DeclaredNames
import EntryPoints.Proofs.OverloadChoice
import EntryPoints.Proofs.TargetCallers
import EntryPoints.Proofs.TypeArguments

/-!
# Variables whose type is a type parameter

A type parameter declares nothing itself.  What a call finds on a variable of such a type comes
from its bounds, which are met together, level by level.  A bound is read as the name of a type:
when it names another type parameter, it is taken for a type of that name.

What a bound offers is found as far as no other bound comes in between.  A method of another
bound hides those that it overrides, and the arguments may fit it better.  When the other bounds
offer nothing of the name, dropping what only they lead to leaves the way upwards as it is, and
the call finds what it finds on a variable of the type of the bound.
-/

namespace EntryPoints

namespace Walk

variable {α κ : Type} [BEq κ] {label : α → κ} {next : α → List α}

theorem Lists.unique {pending listed others : List α} {seen : List κ}
    (h : Lists label next pending seen listed) (hother : Lists label next pending seen others) :
    listed = others := by
  induction h generalizing others with
  | done =>
      cases hother
      rfl
  | skip old _ ih =>
      cases hother with
      | skip _ rest => exact ih rest
      | visit new _ => exact absurd old new
  | visit new _ ih =>
      cases hother with
      | skip old _ => exact absurd old new
      | visit _ rest => rw [ih rest]

/-- What a walk may leave out: nothing that is kept comes after what is dropped, and they share no
labels. -/
structure Sieve (label : α → κ) (next : α → List α) (known : α → Prop) (keep : α → Bool) :
    Prop where
  closed : ∀ a, known a → ∀ b ∈ next a, known b
  dropped : ∀ a, known a → keep a = false → ∀ b ∈ next a, keep b = false
  same : ∀ a b, known a → known b → (label a == label b) = true → keep a = keep b

/-- A walk meets what is kept in the order in which it would meet it alone.  Of what was seen,
only what is kept matters. -/
theorem Lists.filter {keep : α → Bool} {known : α → Prop} (hsieve : Sieve label next known keep)
    {pending listed : List α} {seen : List κ} (h : Lists label next pending seen listed)
    (hpending : ∀ p ∈ pending, known p) (others : List κ)
    (hseen : ∀ a, known a → keep a = true →
      seen.contains (label a) = others.contains (label a)) :
    Lists label (fun a => (next a).filter keep) (pending.filter keep) others
      (listed.filter keep) := by
  induction h generalizing others with
  | done => exact .done
  | @skip x rest listed seen old _ ih =>
      obtain ⟨hx, hrest⟩ := List.forall_mem_cons.mp hpending
      have hmore := ih hrest others hseen
      cases hkeep : keep x with
      | true =>
          rw [List.filter_cons_of_pos hkeep]
          exact .skip (hseen x hx hkeep ▸ old) hmore
      | false =>
          rw [List.filter_cons_of_neg (by simp [hkeep])]
          exact hmore
  | @visit x rest listed seen new _ ih =>
      obtain ⟨hx, hrest⟩ := List.forall_mem_cons.mp hpending
      have hexpanded : ∀ p ∈ rest ++ next x, known p := by
        intro p hp
        rcases List.mem_append.mp hp with hp | hp
        · exact hrest p hp
        · exact hsieve.closed x hx p hp
      cases hkeep : keep x with
      | true =>
          rw [List.filter_cons_of_pos hkeep, List.filter_cons_of_pos hkeep]
          refine .visit (hseen x hx hkeep ▸ new) ?_
          rw [← List.filter_append]
          refine ih hexpanded _ fun a ha hkept => ?_
          rw [List.contains_cons, List.contains_cons, hseen a ha hkept]
      | false =>
          have hnone : (next x).filter keep = [] := by
            rw [List.filter_eq_nil_iff]
            intro b hb
            rw [hsieve.dropped x hx hkeep b hb]
            exact Bool.false_ne_true
          -- The label of what is dropped belongs to nothing that is kept.
          have hstill (a : α) (ha : known a) (hkept : keep a = true) :
              (label x :: seen).contains (label a) = others.contains (label a) := by
            have hlabel : (label a == label x) = false := by
              rw [← Bool.not_eq_true]
              intro heq
              rw [hsieve.same a x ha hx heq, hkeep] at hkept
              cases hkept
            rw [List.contains_cons, hlabel, Bool.false_or]
            exact hseen a ha hkept
          have hmore := ih hexpanded others hstill
          rw [List.filter_append, hnone, List.append_nil] at hmore
          rw [List.filter_cons_of_neg (by simp [hkeep]), List.filter_cons_of_neg (by simp [hkeep])]
          exact hmore

end Walk

namespace CodeIndex

variable {index : CodeIndex} {name : String} {count : Option Nat}

/-! ## Names of type parameters -/

/-- A name that no primitive type bears, written without blanks, dots and brackets. -/
structure IsBareName (name : String) : Prop where
  nonempty : name ≠ ""
  isName : ∀ c ∈ name.toList, TypeText.isNamePart c = true
  reference : Library.primitives.contains name = false

theorem IsBareName.isDotted (h : IsBareName name) : TypeText.IsDotted name.toList :=
  TypeText.Segment.isDotted
    { name := name.toList
      nonempty := fun hnil => h.nonempty (String.toList_injective hnil)
      isName := h.isName
      balanced := fun _ hinner => by cases hinner }

/-- A type parameter in scope goes before every type of its name. -/
theorem resolveType_of_typeParameter {view : Viewpoint} {t : TypeSymbol} (hname : IsBareName name)
    (ht : index.typeParameter name view = some t) : index.resolveType name view = some t := by
  have hbase : TypeText.base name = name := by
    unfold TypeText.base
    have hangle := TypeText.beforeFirst_of_not_mem (hname.isDotted.not_mem (by decide) (by decide))
    rw [TypeText.baseOf_eq (by rw [hangle]; exact hname.isDotted.isBlank), hangle,
      String.ofList_toList]
  have hnamed : namesNoType name = false := by
    have hnone := namesNoType_of_isDotted hname.isDotted
    rwa [String.ofList_toList, hname.reference] at hnone
  have hwhole : Text.cutFirst '.' name.toList = (name.toList, []) := by
    unfold Text.cutFirst
    have hdot : ∀ c ∈ name.toList, decide (c ≠ '.') = true := by
      intro c hc
      rw [decide_eq_true_eq]
      rintro rfl
      exact absurd (hname.isName '.' hc) (by decide)
    rw [List.takeWhile_eq_self_iff.mpr hdot, List.dropWhile_eq_nil_iff.mpr hdot]
    rfl
  unfold resolveType
  simp [hbase, hnamed, hwhole, ht]

/-- A variable that is declared with the name of a type parameter in scope.  A variable of the
types around is known by the text of its type, an inherited field by its name. -/
inductive IsVariableOf (index : CodeIndex) (view : Viewpoint) (t : TypeSymbol) : Receiver → Prop
  | declared {name : String} (hname : IsBareName name)
      (ht : index.typeParameter name view = some t) : IsVariableOf index view t (.typed name)
  | field {field name : String} {entry : TypeEntry} (hname : IsBareName name)
      (hfield : (index.ownersFrom view.owner).findSome? (index.fieldText field) =
        some (entry, name))
      (ht : index.typeParameter name ⟨entry.file, some entry.decl.binaryName, none⟩ = some t) :
      IsVariableOf index view t (.named field)

theorem IsVariableOf.isScoped {view : Viewpoint} {t : TypeSymbol} {receiver : Receiver}
    (h : index.IsVariableOf view t receiver) : index.IsScoped t := by
  cases h with
  | declared _ ht => exact isScoped_of_typeParameter ht
  | field _ _ ht => exact isScoped_of_typeParameter ht

theorem IsVariableOf.type_eq {view : Viewpoint} {t : TypeSymbol} {receiver : Receiver}
    (h : index.IsVariableOf view t receiver) :
    (index.receiverType view receiver).type = some t := by
  cases h with
  | declared hname ht => simp only [receiverType, resolveType_of_typeParameter hname ht]
  | field hname hfield ht =>
      rw [receiverType, nameType, fieldType, hfield]
      simp [resolveType_of_typeParameter hname ht]

/-! ## What comes from a bound -/

theorem addDeclared_of_offered_eq_nil {t : TypeSymbol} (h : index.offered name count t = [])
    (candidates : List Method) : index.addDeclared name count candidates t = candidates := by
  unfold offered at h
  unfold addDeclared
  rw [h]
  rfl

/-- Types that offer nothing may be left out. -/
theorem gathered_filter {types : List TypeSymbol} {keep : TypeSymbol → Bool}
    (hdropped : ∀ u ∈ types, keep u = false → index.offered name count u = []) :
    index.gathered name count (types.filter keep) = index.gathered name count types := by
  unfold gathered
  rw [List.foldl_filter]
  refine List.foldl_ext _ _ _ fun candidates u hu => ?_
  cases hkeep : keep u with
  | true => rfl
  | false => exact (addDeclared_of_offered_eq_nil (hdropped u hu hkeep) candidates).symm

def IsAboveAny (index : CodeIndex) (types : List TypeSymbol) (u : TypeSymbol) : Prop :=
  ∃ t ∈ types, index.IsAbove t u

theorem IsAboveAny.tail {types : List TypeSymbol} {u v : TypeSymbol}
    (hu : index.IsAboveAny types u) (hv : v ∈ index.directSupertypes u) :
    index.IsAboveAny types v := by
  obtain ⟨t, ht, habove⟩ := hu
  exact ⟨t, ht, Relation.ReflTransGen.tail habove hv⟩

theorem isAboveAny_of_mem {types : List TypeSymbol} {t : TypeSymbol} (ht : t ∈ types) :
    index.IsAboveAny types t := ⟨t, ht, Relation.ReflTransGen.refl⟩

/-- One of the bounds of `t` decides alone what a call finds that names a method and gives it
`count` arguments.  Nothing above it goes by the id of `t`, as no type inherits from a type
parameter.  Nothing above the other bounds offers such a method, or goes by the id of another
type above this one. -/
structure DecidesAlone (index : CodeIndex) (name : String) (count : Option Nat) (t : TypeSymbol)
    (before : List TypeSymbol) (bound : TypeSymbol) (after : List TypeSymbol) : Prop where
  bounds : t.bounds = before ++ bound :: after
  leaves : ∀ u, index.IsAbove bound u → u.id ≠ t.id
  silent : ∀ u, index.IsAboveAny (before ++ after) u → index.offered name count u = []
  apart : ∀ u v, index.IsAboveAny (before ++ after) u → index.IsAbove bound v → u.id = v.id → u = v

/-- A type parameter with one bound leaves nothing else to decide. -/
theorem decidesAlone_of_single {t bound : TypeSymbol} (hbounds : t.bounds = [bound])
    (hleaves : ∀ u, index.IsAbove bound u → u.id ≠ t.id) :
    index.DecidesAlone name count t [] bound [] where
  bounds := hbounds
  leaves := hleaves
  silent := by
    rintro u ⟨other, hother, -⟩
    cases hother
  apart := by
    rintro u v ⟨other, hother, -⟩
    cases hother

namespace DecidesAlone

variable {t bound : TypeSymbol} {before after : List TypeSymbol} {keep : TypeSymbol → Bool}

theorem isAbove_of_kept (h : index.DecidesAlone name count t before bound after)
    (hkeep : ∀ u, keep u = false ↔ index.IsAboveAny (before ++ after) u) {u : TypeSymbol}
    (hu : index.IsAboveAny t.bounds u) (hkept : keep u = true) : index.IsAbove bound u := by
  obtain ⟨b, hb, habove⟩ := hu
  have hmem : b = bound ∨ b ∈ before ++ after := by
    rw [h.bounds, List.mem_append, List.mem_cons, or_left_comm] at hb
    rwa [List.mem_append]
  rcases hmem with rfl | hother
  · exact habove
  · rw [(hkeep u).mpr ⟨b, hother, habove⟩] at hkept
    cases hkept

/-- What is above another bound may be left out. -/
theorem sieve (h : index.DecidesAlone name count t before bound after)
    (hkeep : ∀ u, keep u = false ↔ index.IsAboveAny (before ++ after) u) :
    Walk.Sieve TypeSymbol.id index.directSupertypes (index.IsAboveAny t.bounds) keep where
  closed _ hu _ hv := hu.tail hv
  dropped u _ hu v hv := (hkeep v).mpr (((hkeep u).mp hu).tail hv)
  same u v hu hv hid := by
    have hdiffer {a b : TypeSymbol} (ha : keep a = false) (hb : index.IsAboveAny t.bounds b)
        (hab : a.id = b.id) : keep b = false := by
      rw [← Bool.not_eq_true]
      intro hkept
      rw [h.apart a b ((hkeep a).mp ha) (h.isAbove_of_kept hkeep hb hkept) hab, hkept] at ha
      cases ha
    rw [beq_iff_eq] at hid
    rw [Bool.eq_iff_iff, ← Bool.not_eq_false, ← Bool.not_eq_false (keep v), not_iff_not]
    exact ⟨fun hdrop => hdiffer hdrop hv hid, fun hdrop => hdiffer hdrop hu hid.symm⟩

theorem filter_bounds (h : index.DecidesAlone name count t before bound after)
    (hkeep : ∀ u, keep u = false ↔ index.IsAboveAny (before ++ after) u) :
    t.bounds.filter keep = [bound].filter keep := by
  have hnone (others : List TypeSymbol) (hothers : others ⊆ before ++ after) :
      others.filter keep = [] := by
    rw [List.filter_eq_nil_iff]
    intro other hother
    rw [(hkeep other).mpr (isAboveAny_of_mem (hothers hother))]
    exact Bool.false_ne_true
  rw [h.bounds, List.append_cons, List.filter_append, List.filter_append,
    hnone before (List.subset_append_left _ _), hnone after (List.subset_append_right _ _),
    List.nil_append, List.append_nil]

end DecidesAlone

variable {files : List FileFacts} {t bound : TypeSymbol}

/-- Above a type parameter there is what its bounds lead to. -/
theorem exists_ancestors_of_isScoped (hfiles : ∀ file ∈ files, file.IsClosed)
    (ht : (ofFiles files).IsScoped t) :
    ∃ listed, (ofFiles files).ancestors t = t :: listed ∧
      Walk.Lists TypeSymbol.id (ofFiles files).directSupertypes t.bounds [t.id] listed := by
  have hlists : (ofFiles files).Upward t ((ofFiles files).ancestors t) := upward_ancestors hfiles t
  unfold Upward at hlists
  generalize (ofFiles files).ancestors t = types at hlists ⊢
  cases hlists with
  | skip old => cases old
  | @visit _ _ listed _ _ others =>
      rw [List.nil_append, ht.directSupertypes_eq] at others
      exact ⟨listed, rfl, others⟩

/-- A bound that decides alone gives a type parameter its members. -/
theorem members_eq_of_decidesAlone (hclosed : ∀ file ∈ files, file.IsClosed)
    (hplain : ∀ file ∈ files, file.NamesPlainly) (ht : (ofFiles files).IsScoped t)
    {before after : List TypeSymbol}
    (h : (ofFiles files).DecidesAlone name count t before bound after) :
    (ofFiles files).members t name count = (ofFiles files).members bound name count := by
  classical
  obtain ⟨keep, hkeep⟩ : ∃ keep : TypeSymbol → Bool,
      ∀ u, keep u = false ↔ (ofFiles files).IsAboveAny (before ++ after) u :=
    ⟨fun u => decide ¬ (ofFiles files).IsAboveAny (before ++ after) u, by simp⟩
  obtain ⟨listed, hancestors, hlisted⟩ := exists_ancestors_of_isScoped hclosed ht
  have hbound : (ofFiles files).IsAboveAny t.bounds bound :=
    isAboveAny_of_mem (by simp [h.bounds])
  -- The way from the bounds and the way from this one meet the same types, others left out.
  have hfromBounds := hlisted.filter (h.sieve hkeep) (fun _ => isAboveAny_of_mem) []
    fun u hu hkept => by simpa using h.leaves u (h.isAbove_of_kept hkeep hu hkept)
  have hfromBound := Walk.Lists.filter (h.sieve hkeep) (upward_ancestors hclosed bound)
    (fun u hu => List.mem_singleton.mp hu ▸ hbound) [] fun _ _ _ => rfl
  rw [h.filter_bounds hkeep] at hfromBounds
  have hsilent (types : List TypeSymbol) :
      (ofFiles files).gathered name count (types.filter keep) =
        (ofFiles files).gathered name count types :=
    gathered_filter fun u _ hdrop => h.silent u ((hkeep u).mp hdrop)
  have hnone : (ofFiles files).offered name count t = [] := by
    unfold offered
    rw [declaredMethods_of_isScoped hplain ht]
    rfl
  calc (ofFiles files).members t name count
      = (ofFiles files).gathered name count (t :: listed) := by
        rw [← hancestors]
        rfl
    _ = (ofFiles files).gathered name count listed := by
        unfold gathered
        rw [List.foldl_cons, addDeclared_of_offered_eq_nil hnone]
    _ = (ofFiles files).gathered name count (listed.filter keep) := (hsilent _).symm
    _ = (ofFiles files).gathered name count (((ofFiles files).ancestors bound).filter keep) := by
        rw [hfromBounds.unique hfromBound]
    _ = (ofFiles files).members bound name count := hsilent _

/-! ## What several bounds leave -/

variable {call : Invocation} {view : Viewpoint} {m : Method}

/-- No other member of `t` overrides the method, or fits the arguments of the call better. -/
def Prevails (index : CodeIndex) (call : Invocation) (view : Viewpoint) (t : TypeSymbol)
    (m : Method) : Prop :=
  ∀ n ∈ index.members t call.name call.argumentCount, n ≠ m →
    index.overrides n m = false ∧
      index.argumentScore n (call.argumentTypes.getD []) view ≤
        index.argumentScore m (call.argumentTypes.getD []) view

theorem mem_membersFor_of_prevails (hfiles : ∀ file ∈ files, file.IsClosed)
    (ht : (ofFiles files).IsScoped t) (hids : (ofFiles files).TellsApart t)
    (hbound : bound ∈ t.bounds) (hm : m ∈ (ofFiles files).membersFor bound call view)
    (hprevails : (ofFiles files).Prevails call view t m) :
    m ∈ (ofFiles files).membersFor t call view := by
  unfold membersFor narrowed at hm ⊢
  rw [mem_selectOverloads_iff] at hm ⊢
  have hmember : m ∈ (ofFiles files).members t call.name call.argumentCount := by
    by_contra hnot
    obtain ⟨u, hu, hoffers⟩ :=
      exists_offers_of_mem_gathered (areApart_ancestors (.inl (ht.bounds bound hbound))) hm.1
    have habove : (ofFiles files).IsAbove t u :=
      .head (ht.directSupertypes_eq.symm ▸ hbound) (isAbove_of_mem_ancestors hu)
    obtain ⟨-, n, -, -, hn, hoverrides⟩ :=
      exists_overriding_of_not_mem_members hfiles ht.isResolved hids habove hoffers hnot
    rw [(hprevails n hn fun heq => hnot (heq ▸ hn)).1] at hoverrides
    cases hoverrides
  refine ⟨hmember, fun n hn => ?_⟩
  by_cases hsame : n = m
  · rw [hsame]
    exact score_le_refl _
  · exact (hprevails n hn hsame).2

theorem targets_of_receiver (call : Invocation) {receiver : Receiver}
    (hkind : call.kind ≠ .creation) (hreceiver : call.receiver = some receiver)
    (ht : (index.receiverType view receiver).type = some t) :
    (index.resolve view call).targets = index.membersFor t call view := by
  rw [resolve_of_receiver hkind hreceiver]
  unfold resolveQualified
  rw [ht]

end CodeIndex

namespace Snapshot

open CodeIndex (IsVariableOf DecidesAlone Prevails)

variable {σ ρ : Type} {files : List FileFacts} {scope : Scope}

/-- The place where a call is written. -/
def viewOfCall (files : List FileFacts) (file : FileFacts) (call : Invocation) : Viewpoint :=
  (CodeIndex.ofFiles files).viewOf file call.owner call.method

/-- A call in the method `g` on a variable whose type is the type parameter `t`. -/
structure CallsOn (files : List FileFacts) (scope : Scope) (file : FileFacts) (call : Invocation)
    (t : TypeSymbol) (g : Method) : Prop where
  inFiles : file ∈ files
  recorded : call ∈ file.invocations
  inScope : scope.contains call.location = true
  notMentioned : (ofFiles files scope).isInDocComment call.location = false
  kind : call.kind ≠ .creation
  receiver : ∃ receiver, call.receiver = some receiver ∧
    (CodeIndex.ofFiles files).IsVariableOf (viewOfCall files file call) t receiver
  inside : (ofFiles files scope).enclosingMethod call.location = some g

/-- Let a method be a target of the same call on a variable of the type of a bound.  It is a target
on the type parameter as well, with the method around the call among its callers, when the bound
decides alone, or when no other member that the bounds give overrides it or fits better.  The facts
are closed, and no type in them is named like a type parameter. -/
theorem callersOf_of_bound (hclosed : ∀ file ∈ files, file.IsClosed)
    (hplain : ∀ file ∈ files, file.NamesPlainly) {file : FileFacts} {call : Invocation}
    {t : TypeSymbol} {g : Method} (hcalls : CallsOn files scope file call t g)
    {bound : TypeSymbol} (hbound : bound ∈ t.bounds) {other : Receiver}
    (hother : ((CodeIndex.ofFiles files).receiverType (viewOfCall files file call) other).type =
      some bound) {m : Method}
    (hm : m ∈ ((CodeIndex.ofFiles files).resolve (viewOfCall files file call)
      { call with receiver := some other }).targets)
    (hfound : (∃ before after, (CodeIndex.ofFiles files).DecidesAlone call.name call.argumentCount t
        before bound after) ∨
      (CodeIndex.ofFiles files).TellsApart t ∧
        (CodeIndex.ofFiles files).Prevails call (viewOfCall files file call) t m)
    (finder : Finder) {watcher : Watcher ρ}
    (hwatcher : Undisturbed ((ofFiles files scope).knowledgeBase : KnowledgeBase σ) watcher)
    {s : RunState σ ρ} (hempty : ∀ key, s.cache.get? key = none) :
    m ∈ ((CodeIndex.ofFiles files).resolve (viewOfCall files file call) call).targets ∧
      ∃ callers,
        ((finder.setting (ofFiles files scope).knowledgeBase scope
          (Run.checkpoint (ofFiles files scope).knowledgeBase watcher)).callersOf m none s).1 =
            .ok callers ∧
        g.key ∈ callers.map Method.key := by
  obtain ⟨receiver, hreceiver, hvariable⟩ := hcalls.receiver
  have ht := hvariable.isScoped
  have hmember : m ∈
      (CodeIndex.ofFiles files).membersFor bound call (viewOfCall files file call) := by
    have hsame := CodeIndex.targets_of_receiver { call with receiver := some other } hcalls.kind
      rfl hother
    exact hsame ▸ hm
  have htarget : m ∈
      ((CodeIndex.ofFiles files).resolve (viewOfCall files file call) call).targets := by
    rw [CodeIndex.targets_of_receiver call hcalls.kind hreceiver hvariable.type_eq]
    rcases hfound with ⟨before, after, halone⟩ | ⟨hids, hprevails⟩
    · unfold CodeIndex.membersFor
      rwa [CodeIndex.members_eq_of_decidesAlone hclosed hplain ht halone]
    · exact CodeIndex.mem_membersFor_of_prevails hclosed ht hids hbound hmember hprevails
  have hresolves : Resolves files scope
      ⟨call, (CodeIndex.ofFiles files).resolve (viewOfCall files file call) call⟩ m :=
    { recorded := List.mem_flatMap.mpr
        ⟨file, hcalls.inFiles, List.mem_map.mpr ⟨call, hcalls.recorded, rfl⟩⟩
      inScope := hcalls.inScope
      target := htarget }
  obtain ⟨-, callers, hcallers, -, -, hg⟩ := callersOf_target_iff hresolves
    (fun _ _ => CodeIndex.ne_empty_of_type? hclosed) hcalls.inside finder hwatcher hempty
  refine ⟨htarget, callers, hcallers, hg hcalls.notMentioned (fun h => absurd h hcalls.kind) ?_⟩
  intro hnone
  rw [show call.receiver = some receiver from hreceiver] at hnone
  cases hnone

end Snapshot

/-! ## A bound behind another type parameter -/

namespace ParameterBounds

open CodeIndex

def firstDecl : TypeDecl where
  binaryName := "I"
  name := "I"
  kind := .interfaceType
  qualifiedName := some "I"
  location := some ⟨"A.java", 1, 0, 22⟩

def secondDecl : TypeDecl where
  binaryName := "J"
  name := "J"
  kind := .interfaceType
  qualifiedName := some "J"
  location := some ⟨"A.java", 1, 22, 44⟩

def userDecl : TypeDecl where
  binaryName := "A"
  name := "A"
  qualifiedName := some "A"
  typeParameters := [("U", ["J"]), ("T", ["U"]), ("V", ["I", "J"])]
  location := some ⟨"A.java", 1, 44, 121⟩

def abstractDecl (id owner : String) (location : Location) : MethodDecl where
  id
  owner
  name := "f"
  returnType := some "void"
  isAbstract := true
  location := some location

def firstMethodDecl : MethodDecl := abstractDecl "I#f@12" "I" ⟨"A.java", 1, 12, 21⟩

def secondMethodDecl : MethodDecl := abstractDecl "J#f@34" "J" ⟨"A.java", 1, 34, 43⟩

def callerDecl : MethodDecl where
  id := "A#g@91"
  owner := "A"
  name := "g"
  parameters := ["T", "V"]
  returnType := some "void"
  location := some ⟨"A.java", 1, 91, 120⟩

def callOn (type : String) (location : Location) : Invocation :=
  ⟨.call, "f", some 0, some (.typed type), some "A", some "A#g@91", location, some []⟩

def chainCall : Invocation := callOn "T" ⟨"A.java", 1, 107, 112⟩

def pairCall : Invocation := callOn "V" ⟨"A.java", 1, 113, 118⟩

/-- The bound of `T` is the type parameter `U`, and the bound of that is `J`.  The bounds of `V` are
`I` and `J`, which declare the same method.  The method `g` calls it on a `T` and on a `V`. -/
def source : FileFacts where
  file := "A.java"
  relativePath := "A.java"
  types := [firstDecl, secondDecl, userDecl]
  methods := [firstMethodDecl, secondMethodDecl, callerDecl]
  invocations := [chainCall, pairCall]

def text : String :=
  "interface I\x7bvoid f();\x7dinterface J\x7bvoid f();\x7d" ++
    "class A<U extends J,T extends U,V extends I&J>\x7bvoid g(T t,V v)\x7bt.f();v.f();\x7d\x7d"

theorem ofText_source : FileFacts.ofText "A.java" text none = source := by decide +kernel

def index : CodeIndex := ofFiles [source]

def snapshot : Snapshot := Snapshot.ofFiles [source] { testRoots := [] }

def first : TypeEntry := ⟨symbolOf firstDecl, firstDecl, source⟩

def second : TypeEntry := ⟨symbolOf secondDecl, secondDecl, source⟩

def user : TypeEntry := ⟨symbolOf userDecl, userDecl, source⟩

def firstMethod : Method := methodOf first.symbol firstMethodDecl

def secondMethod : Method := methodOf second.symbol secondMethodDecl

def caller : Method := methodOf user.symbol callerDecl

def parameter (name : String) (bounds : List TypeSymbol) : TypeSymbol where
  name
  binaryName := "A<" ++ name ++ ">"
  kind := .typeParameter
  bounds

/-- The type parameter `T` as it is read, with a type of the library that is called `U`. -/
def chained : TypeSymbol := parameter "T" [Library.externalType "U"]

def paired : TypeSymbol := parameter "V" [first.symbol, second.symbol]

/-- The place of both calls. -/
def view : Viewpoint := ⟨source, some "A", some callerDecl⟩

theorem hasNames : (Java.parse text).HasNoEmptyName ∧ (Java.parse text).NamesTypesPlainly := by
  decide +kernel

theorem isClosed : ∀ file ∈ [source], file.IsClosed := by
  intro file hfile
  rw [List.mem_singleton.mp hfile, ← ofText_source]
  exact FileFacts.isClosed_ofTree _ _ hasNames.1

theorem namesPlainly : ∀ file ∈ [source], file.NamesPlainly := by
  intro file hfile
  rw [List.mem_singleton.mp hfile, ← ofText_source]
  exact FileFacts.namesPlainly_ofTree _ _ hasNames.1 hasNames.2

theorem type?_eq : index.type? "I" = some first ∧ index.type? "J" = some second ∧
    index.type? "A" = some user ∧ index.type? "A$U" = none := by
  simp only [index, type?_ofFiles]
  exact ⟨rfl, rfl, rfl, rfl⟩

theorem methodEntries_eq : methodEntries (typesOf [source]) [source] =
    [(firstMethod, ⟨firstMethodDecl, source⟩), (secondMethod, ⟨secondMethodDecl, source⟩),
      (caller, ⟨callerDecl, source⟩)] := by
  obtain ⟨hfirst, hsecond, huser, -⟩ := type?_eq
  change (typesOf [source]).get? "I" = some first at hfirst
  change (typesOf [source]).get? "J" = some second at hsecond
  change (typesOf [source]).get? "A" = some user at huser
  generalize typesOf [source] = types at hfirst hsecond huser ⊢
  unfold methodEntries
  rw [List.flatMap_cons, List.flatMap_nil, List.append_nil]
  unfold source
  simp only [List.filterMap_cons, firstMethodDecl, secondMethodDecl, callerDecl, abstractDecl,
    hfirst, hsecond, huser]
  rfl

theorem qualified?_eq : index.qualified? "I" = some first ∧ index.qualified? "J" = some second ∧
    index.qualified? "U" = none := by
  obtain ⟨hfirst, hsecond, -⟩ := type?_eq
  simp only [index, qualified?_ofFiles]
  exact ⟨hfirst, hsecond, rfl⟩

theorem ownersFrom_eq : index.ownersFrom view.owner = [user] :=
  ownersFrom_of_outermost type?_eq.2.2.1 (by decide) rfl

theorem viewOfCall_eq {call : Invocation} (hcall : call = chainCall ∨ call = pairCall) :
    Snapshot.viewOfCall [source] source call = view := by
  have hdeclaration : index.declarations["A#g@91"]? = some callerDecl := by
    rw [index, declarations_ofFiles, methodEntries_eq]
    rfl
  have hview : Snapshot.viewOfCall [source] source call =
      ⟨source, some "A", index.declarations["A#g@91"]?⟩ := by
    rcases hcall with rfl | rfl
    · rfl
    · rfl
  rw [hview, hdeclaration]
  rfl

/-- In the class, `U` names no type. -/
theorem resolveName_eq : index.resolveName "U" view = Library.externalType "U" := by
  have hseen : index.seenFrom "U" user = none := by
    unfold seenFrom
    rw [show user.decl.binaryName ++ "$" ++ "U" = "A$U" from rfl, type?_eq.2.2.2]
    rfl
  have honly : index.onlyNamed "U" = none := by
    unfold onlyNamed
    rw [index, simple_ofFiles]
    rfl
  have hfile : index.seenInFile "U" view.file = none := by
    unfold seenInFile
    simp [view, source, qualified?_eq.2.2]
  have hsimple : index.resolveSimple "U" view = none := by
    unfold resolveSimple
    simp only [ownersFrom_eq, List.findSome?_cons, List.findSome?_nil, hseen, hfile, honly]
    rfl
  unfold resolveName
  rw [qualified?_eq.2.2]
  simp only
  rw [show Text.cutFirst '.' "U".toList = ("U".toList, []) from rfl]
  simp [hsimple]

theorem resolveBound_eq : index.resolveBound "I" view = some first.symbol ∧
    index.resolveBound "J" view = some second.symbol ∧
    index.resolveBound "U" view = some (Library.externalType "U") := by
  obtain ⟨hfirst, hsecond, -⟩ := qualified?_eq
  have hbase : ∀ text ∈ ["I", "J", "U"], TypeText.base text = text ∧ namesNoType text = false := by
    decide
  unfold resolveBound
  simp only [hbase "I" (by simp), hbase "J" (by simp), hbase "U" (by simp), resolveName_eq,
    Bool.false_eq_true, if_false, Option.some.injEq, and_true]
  unfold resolveName
  rw [hfirst, hsecond]
  exact ⟨rfl, rfl⟩

theorem typeParameter_eq (name : String) : index.typeParameter name view =
    (boundsOf name userDecl.typeParameters).map fun bounds =>
      parameter name (bounds.filterMap fun text => index.resolveBound text view) := by
  have hscopes : index.parameterScopes view =
      [("A#g", callerDecl.typeParameters), ("A", userDecl.typeParameters)] := by
    unfold parameterScopes
    rw [ownersFrom_eq]
    rfl
  have hmethod : boundsOf name callerDecl.typeParameters = none := rfl
  unfold typeParameter
  simp only [hscopes, List.findSome?_cons, List.findSome?_nil, hmethod, Option.map_none]
  cases boundsOf name userDecl.typeParameters <;> rfl

theorem typeParameters_eq : index.typeParameter "T" view = some chained ∧
    index.typeParameter "U" view = some (parameter "U" [second.symbol]) ∧
    index.typeParameter "V" view = some paired := by
  simp only [typeParameter_eq]
  rw [show boundsOf "T" userDecl.typeParameters = some ["U"] by decide,
    show boundsOf "U" userDecl.typeParameters = some ["J"] by decide,
    show boundsOf "V" userDecl.typeParameters = some ["I", "J"] by decide]
  simp only [Option.map_some, List.filterMap_cons, List.filterMap_nil, resolveBound_eq]
  exact ⟨rfl, trivial, rfl⟩

theorem isBareName : IsBareName "T" ∧ IsBareName "V" := by
  have hname : ∀ name ∈ ["T", "V"], name ≠ "" ∧ name.toList.all TypeText.isNamePart = true ∧
      Library.primitives.contains name = false := by decide
  have hbare (name : String) (hmem : name ∈ ["T", "V"]) : IsBareName name :=
    ⟨(hname name hmem).1, List.all_eq_true.mp (hname name hmem).2.1, (hname name hmem).2.2⟩
  exact ⟨hbare "T" (by simp), hbare "V" (by simp)⟩

theorem callsOn {call : Invocation} (hcall : call = chainCall ∨ call = pairCall) {t : TypeSymbol}
    {receiver : Receiver} (hreceiver : call.receiver = some receiver)
    (ht : index.IsVariableOf view t receiver) :
    Snapshot.CallsOn [source] { testRoots := [] } source call t caller where
  inFiles := List.mem_singleton_self source
  recorded := by
    rcases hcall with rfl | rfl
    · exact List.mem_cons_self
    · exact List.mem_cons_of_mem _ List.mem_cons_self
  inScope := by
    rcases hcall with rfl | rfl
    · decide
    · decide
  notMentioned := by
    change snapshot.isInDocComment call.location = false
    unfold Snapshot.isInDocComment snapshot Snapshot.ofFiles
    simp [source]
  kind := by
    rcases hcall with rfl | rfl
    · decide
    · decide
  receiver := ⟨receiver, hreceiver, (viewOfCall_eq hcall).symm ▸ ht⟩
  inside := by
    have hlocation : call.location.file = "A.java" := by
      rcases hcall with rfl | rfl
      · rfl
      · rfl
    change narrowestAround call.location (index.methodsOfFile call.location.file) = some caller
    rw [hlocation, index, methodsOfFile_ofFiles, methodEntries_eq]
    rcases hcall with rfl | rfl
    · rfl
    · rfl

theorem callsOn_chained :
    Snapshot.CallsOn [source] { testRoots := [] } source chainCall chained caller :=
  callsOn (.inl rfl) rfl (.declared isBareName.1 typeParameters_eq.1)

theorem callsOn_paired :
    Snapshot.CallsOn [source] { testRoots := [] } source pairCall paired caller :=
  callsOn (.inr rfl) rfl (.declared isBareName.2 typeParameters_eq.2.2)

/-! ### What the calls find -/

theorem directSupertypes_eq : index.directSupertypes first.symbol = [] ∧
    index.directSupertypes second.symbol = [] ∧
    index.directSupertypes (Library.externalType "U") = [] ∧
    index.directSupertypes chained = [Library.externalType "U"] ∧
    index.directSupertypes paired = [first.symbol, second.symbol] :=
  ⟨directSupertypes_symbol type?_eq.1 (by decide), directSupertypes_symbol type?_eq.2.1 (by decide),
    rfl, rfl, rfl⟩

theorem ancestors_eq : index.ancestors first.symbol = [first.symbol] ∧
    index.ancestors second.symbol = [second.symbol] ∧
    index.ancestors chained = [chained, Library.externalType "U"] ∧
    index.ancestors paired = [paired, first.symbol, second.symbol] := by
  obtain ⟨hfirst, hsecond, hexternal, hchained, hpaired⟩ := directSupertypes_eq
  have hids : first.symbol.id = "I" ∧ second.symbol.id = "J" ∧ chained.id = "A<T>" ∧
      paired.id = "A<V>" ∧ (Library.externalType "U").id = "U" := by decide
  have hweights : first.symbol.weight = 0 ∧ second.symbol.weight = 0 ∧ chained.weight = 1 ∧
      paired.weight = 2 ∧ (Library.externalType "U").weight = 0 := by
    simp [chained, paired, parameter, TypeSymbol.weight, TypeSymbol.weightAll, first, second,
      symbolOf, firstDecl, secondDecl, Library.externalType]
  unfold ancestors
  simp [Walk.visit, Walk.load, hfirst, hsecond, hexternal, hchained, hpaired, hids, hweights]

theorem declaredMethods_eq : index.declaredMethods first.symbol = [firstMethod] ∧
    index.declaredMethods second.symbol = [secondMethod] ∧
    index.declaredMethods (Library.externalType "U") = [] ∧
    index.declaredMethods chained = [] ∧ index.declaredMethods paired = [] := by
  have hparameter {name : String} {t : TypeSymbol} (ht : index.typeParameter name view = some t) :
      index.declaredMethods t = [] :=
    declaredMethods_of_isScoped namesPlainly (isScoped_of_typeParameter ht)
  refine ⟨?_, ?_, rfl, hparameter typeParameters_eq.1, hparameter typeParameters_eq.2.2⟩
  · unfold declaredMethods
    rw [if_neg (by decide), index, methodsDeclaredBy_ofFiles, methodEntries_eq]
    rfl
  · unfold declaredMethods
    rw [if_neg (by decide), index, methodsDeclaredBy_ofFiles, methodEntries_eq]
    rfl

theorem members_eq : index.members first.symbol "f" (some 0) = [firstMethod] ∧
    index.members second.symbol "f" (some 0) = [secondMethod] ∧
    index.members chained "f" (some 0) = [] ∧
    index.members paired "f" (some 0) = [firstMethod] := by
  obtain ⟨hfirst, hsecond, hexternal, hchained, hpaired⟩ := declaredMethods_eq
  have hhidden : index.isHidden second.symbol secondMethod [firstMethod] = true := rfl
  unfold members
  simp only [ancestors_eq, List.foldl_cons, List.foldl_nil, addDeclared, hfirst, hsecond, hexternal,
    hchained, hpaired]
  refine ⟨rfl, rfl, rfl, ?_⟩
  change (if index.isHidden second.symbol secondMethod [firstMethod] = true then [firstMethod]
    else [firstMethod, secondMethod]) = [firstMethod]
  rw [if_pos hhidden]

theorem membersFor_eq {call : Invocation} (hcall : call = chainCall ∨ call = pairCall) :
    index.membersFor first.symbol call view = [firstMethod] ∧
      index.membersFor second.symbol call view = [secondMethod] ∧
      index.membersFor chained call view = [] ∧
      index.membersFor paired call view = [firstMethod] := by
  have hnames : call.name = "f" ∧ call.argumentCount = some 0 := by
    rcases hcall with rfl | rfl
    · exact ⟨rfl, rfl⟩
    · exact ⟨rfl, rfl⟩
  unfold membersFor narrowed
  rw [hnames.1, hnames.2, members_eq.1, members_eq.2.1, members_eq.2.2.1, members_eq.2.2.2]
  exact ⟨rfl, rfl, rfl, rfl⟩

theorem receiverType_eq : (index.receiverType view (.typed "I")).type = some first.symbol ∧
    (index.receiverType view (.typed "J")).type = some second.symbol := by
  have htexts : ∀ text ∈ ["I", "J"], TypeText.base text = text ∧ namesNoType text = false ∧
      Text.cutFirst '.' text.toList = (text.toList, []) ∧
        boundsOf text userDecl.typeParameters = none := by decide
  have hresolve (text : String) (htext : text ∈ ["I", "J"]) {entry : TypeEntry}
      (hentry : index.qualified? text = some entry) :
      (index.receiverType view (.typed text)).type = some entry.symbol := by
    obtain ⟨hbase, hnamed, hsimple, howner⟩ := htexts text htext
    have hnone : index.typeParameter text view = none := by
      rw [typeParameter_eq, howner, Option.map_none]
    rw [receiverType]
    unfold resolveType resolveName
    simp [hbase, hnamed, hsimple, hnone, hentry]
  exact ⟨hresolve "I" (by simp) qualified?_eq.1, hresolve "J" (by simp) qualified?_eq.2.1⟩

/-- The same calls on variables of the types of the bounds. -/
theorem targets_eq {call : Invocation} (hcall : call = chainCall ∨ call = pairCall) :
    (index.resolve (Snapshot.viewOfCall [source] source call)
      { call with receiver := some (.typed "I") }).targets = [firstMethod] ∧
    (index.resolve (Snapshot.viewOfCall [source] source call)
      { call with receiver := some (.typed "J") }).targets = [secondMethod] := by
  have hkind : call.kind ≠ .creation := by
    rcases hcall with rfl | rfl
    · decide
    · decide
  have hmembers := membersFor_eq hcall
  rw [viewOfCall_eq hcall]
  exact ⟨(targets_of_receiver { call with receiver := some (.typed "I") } hkind rfl
      receiverType_eq.1).trans hmembers.1,
    (targets_of_receiver { call with receiver := some (.typed "J") } hkind rfl
      receiverType_eq.2).trans hmembers.2.1⟩

theorem resolveCalls_eq : [source].flatMap (Snapshot.resolveCalls index) =
    [⟨chainCall, ⟨some chained, true, []⟩⟩, ⟨pairCall, ⟨some paired, true, [firstMethod]⟩⟩] := by
  have hreceiver : index.receiverType view (.typed "T") = ⟨some chained, true⟩ ∧
      index.receiverType view (.typed "V") = ⟨some paired, true⟩ := by
    rw [receiverType, receiverType, resolveType_of_typeParameter isBareName.1 typeParameters_eq.1,
      resolveType_of_typeParameter isBareName.2 typeParameters_eq.2.2]
    exact ⟨rfl, rfl⟩
  have hresolved : [source].flatMap (Snapshot.resolveCalls index) = [chainCall, pairCall].map
      fun call => ⟨call, index.resolve (Snapshot.viewOfCall [source] source call) call⟩ := rfl
  rw [hresolved, List.map_cons, List.map_cons, List.map_nil, viewOfCall_eq (.inl rfl),
    viewOfCall_eq (.inr rfl), resolve_of_receiver (by decide) rfl,
    resolve_of_receiver (by decide) rfl, hreceiver.1, hreceiver.2]
  unfold resolveQualified
  simp only [membersFor_eq (.inl rfl), membersFor_eq (.inr rfl)]

theorem callers_eq : snapshot.answers.callers secondMethod = [] := by
  have hroots : index.roots secondMethod = [] := by
    have hoverridden : index.overriddenBy secondMethod = [] := by
      unfold overriddenBy
      rw [show secondMethod.owner = second.symbol from rfl, directSupertypes_eq.2.1]
      rfl
    unfold roots
    rw [hoverridden]
    simp [Walk.visit]
  have hmay : ∀ call ∈ [source].flatMap (Snapshot.resolveCalls index),
      Snapshot.mayCall secondMethod call = false := by
    rw [resolveCalls_eq]
    decide
  rw [← List.map_eq_nil_iff, List.eq_nil_iff_forall_not_mem]
  intro key hkey
  obtain ⟨call, hcounts, -⟩ := Snapshot.mem_keys_callers.mp hkey
  have hnot := hmay call hcounts.recorded
  obtain ⟨place, hplace, -, haccepts⟩ := hcounts
  rw [show snapshot.index.roots secondMethod = [] from hroots, List.map_nil,
    List.mem_singleton] at hplace
  simp only [hplace, Snapshot.accepts, Bool.and_eq_true] at haccepts
  rw [hnot] at haccepts
  exact Bool.false_ne_true haccepts.1.2

theorem tellsApart : index.TellsApart paired := by
  obtain ⟨hfirst, hsecond, -, -, hpaired⟩ := directSupertypes_eq
  have hnodup : ([paired, first.symbol, second.symbol].map TypeSymbol.id).Nodup := by decide
  have hmem (u : TypeSymbol) (hu : index.IsAbove paired u) :
      u ∈ [paired, first.symbol, second.symbol] :=
    hu.mem_of_closed _ List.mem_cons_self (by simp [hfirst, hsecond, hpaired])
  intro u v hu hv
  exact List.inj_on_of_nodup_map hnodup (hmem u hu) (hmem v hv)

theorem prevails : index.Prevails pairCall view paired firstMethod := by
  intro n hn hne
  rw [show index.members paired pairCall.name pairCall.argumentCount = [firstMethod] from
    members_eq.2.2.2] at hn
  exact absurd (List.mem_singleton.mp hn) hne

theorem decidesAlone :
    index.DecidesAlone "f" (some 0) (parameter "U" [second.symbol]) [] second.symbol [] := by
  refine decidesAlone_of_single rfl fun u hu => ?_
  have hmem := hu.mem_of_closed [second.symbol] List.mem_cons_self
    (by simp [directSupertypes_eq.2.1])
  rw [List.mem_singleton.mp hmem]
  decide

end ParameterBounds

open ParameterBounds CodeIndex in
/-- The call on a `V` finds the method of its first bound, and `g` calls that.  On a `U` the one
bound would decide alone. -/
theorem callersOf_of_first_bound :
    (∀ file ∈ [source], file.IsClosed) ∧ (∀ file ∈ [source], file.NamesPlainly) ∧
    Snapshot.CallsOn [source] { testRoots := [] } source pairCall paired caller ∧
    first.symbol ∈ paired.bounds ∧
    (index.resolve (Snapshot.viewOfCall [source] source pairCall)
      { pairCall with receiver := some (.typed "I") }).targets = [firstMethod] ∧
    index.TellsApart paired ∧
    index.Prevails pairCall (Snapshot.viewOfCall [source] source pairCall) paired firstMethod ∧
    index.DecidesAlone "f" (some 0) (parameter "U" [second.symbol]) [] second.symbol [] ∧
    firstMethod ∈
      (index.resolve (Snapshot.viewOfCall [source] source pairCall) pairCall).targets ∧
    ∃ callers,
      (((default : Finder).setting snapshot.knowledgeBase snapshot.scope
        (Run.checkpoint snapshot.knowledgeBase Watcher.idle)).callersOf firstMethod none
          (⟨(), (), {}⟩ : RunState Unit Unit)).1 = .ok callers ∧
      caller.key ∈ callers.map Method.key := by
  have hundisturbed : Undisturbed (snapshot.knowledgeBase : KnowledgeBase Unit)
      (Watcher.idle : Watcher Unit) := undisturbed_idle fun _ => rfl
  have hview := viewOfCall_eq (.inr rfl)
  have hbound : first.symbol ∈ paired.bounds := List.mem_cons_self
  have hother : (index.receiverType (Snapshot.viewOfCall [source] source pairCall)
      (.typed "I")).type = some first.symbol := hview ▸ receiverType_eq.1
  have htargets := (targets_eq (.inr rfl)).1
  have hprevails : index.Prevails pairCall (Snapshot.viewOfCall [source] source pairCall) paired
      firstMethod := hview ▸ prevails
  exact ⟨isClosed, namesPlainly, callsOn_paired, hbound, htargets, tellsApart, hprevails,
    decidesAlone, Snapshot.callersOf_of_bound isClosed namesPlainly callsOn_paired hbound hother
      (htargets ▸ List.mem_singleton_self _) (.inr ⟨tellsApart, hprevails⟩) default hundisturbed
      (s := ⟨(), (), {}⟩) CallerCache.get?_new⟩

open ParameterBounds CodeIndex in
/-- Nothing is found among the callers of the method of `J`, though `g` calls it on a `T`, whose
bound leads to `J` by way of `U`, and on a `V`, which has `J` as a bound. -/
theorem callers_missed_behind_bounds :
    snapshot = Snapshot.ofFiles [FileFacts.ofText "A.java"
      ("interface I\x7bvoid f();\x7dinterface J\x7bvoid f();\x7d" ++
        "class A<U extends J,T extends U,V extends I&J>\x7bvoid g(T t,V v)\x7bt.f();v.f();\x7d\x7d")
      none] { testRoots := [] } ∧
    Snapshot.CallsOn [source] snapshot.scope source chainCall chained caller ∧
    boundsOf "T" userDecl.typeParameters = some ["U"] ∧
    (∃ u, index.typeParameter "U" (Snapshot.viewOfCall [source] source chainCall) = some u ∧
      second.symbol ∈ u.bounds) ∧
    (index.resolve (Snapshot.viewOfCall [source] source chainCall)
      { chainCall with receiver := some (.typed "J") }).targets = [secondMethod] ∧
    Snapshot.CallsOn [source] snapshot.scope source pairCall paired caller ∧
    second.symbol ∈ paired.bounds ∧
    (index.resolve (Snapshot.viewOfCall [source] source pairCall)
      { pairCall with receiver := some (.typed "J") }).targets = [secondMethod] ∧
    (((default : Finder).setting snapshot.knowledgeBase snapshot.scope
      (Run.checkpoint snapshot.knowledgeBase Watcher.idle)).callersOf secondMethod none
        (⟨(), (), {}⟩ : RunState Unit Unit)).1 = .ok [] := by
  have hundisturbed : Undisturbed (snapshot.knowledgeBase : KnowledgeBase Unit)
      (Watcher.idle : Watcher Unit) := undisturbed_idle fun _ => rfl
  have hsnapshot := congrArg (fun file => Snapshot.ofFiles [file] { testRoots := [] })
    ofText_source.symm
  refine ⟨hsnapshot, callsOn_chained, by decide,
    ⟨parameter "U" [second.symbol], ?_, List.mem_singleton_self _⟩, (targets_eq (.inl rfl)).2,
    callsOn_paired, by simp [paired, parameter], (targets_eq (.inr rfl)).2, ?_⟩
  · rw [viewOfCall_eq (.inl rfl)]
    exact typeParameters_eq.2.1
  · rw [← callers_eq]
    exact (hundisturbed.parts_eq default snapshot.follows_answers secondMethod
      (s := ⟨(), (), {}⟩) CallerCache.get?_new).2.1

end EntryPoints
