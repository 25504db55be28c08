import EntryPoints.Index.Resolution
import EntryPoints.Proofs.ClosedFacts
import EntryPoints.Proofs.OverrideRoots
import EntryPoints.Proofs.ProductionIndex

/-!
# Walks that end

The index goes outwards from a type to the types around it and upwards from a type to its
supertypes, or from a method to those that it overrides.  Its walks have bounds.  The walks
here have none: the outward one goes on until no type is around, and the upward ones go on
until nothing is pending.  On the facts of Java files both come to an end, with what the
index lists.

Outwards the binary names get shorter, whichever file declares a type.  Upwards a label that
was seen is passed over, and every label that brings in more than it is worth names a type or
a method of the index; a type parameter is heavier than its bounds.
-/

namespace EntryPoints

namespace Walk

variable {α κ : Type} [BEq κ] {label : α → κ} {next : α → List α} {weight : α → Nat}

/-- A walk that goes on as long as anything is pending, with what it lists. -/
inductive Lists (label : α → κ) (next : α → List α) : List α → List κ → List α → Prop
  | done {seen : List κ} : Lists label next [] seen []
  | skip {x : α} {rest listed : List α} {seen : List κ} (old : seen.contains (label x) = true)
      (others : Lists label next rest seen listed) : Lists label next (x :: rest) seen listed
  | visit {x : α} {rest listed : List α} {seen : List κ} (new : ¬ seen.contains (label x) = true)
      (others : Lists label next (rest ++ next x) (label x :: seen) listed) :
      Lists label next (x :: rest) seen (x :: listed)

/-- With an expansion for every heavy label that is left, a walk never runs short: it lists
what the walk without a budget lists, which ends therefore. -/
theorem lists_visit [EquivBEq κ] (weight : α → Nat) (known : α → Prop) (heavy : List κ)
    (hclosed : ∀ a, known a → ∀ b ∈ next a, known b)
    (hheavy : ∀ a, known a → weight a < load weight (next a) → heavy.contains (label a) = true)
    (budget : Nat) (pending : List α) (seen : List κ) (hpending : ∀ p ∈ pending, known p)
    (hbudget : (remaining heavy seen).length ≤ budget) :
    Lists label next pending seen (visit label next weight budget pending seen) := by
  have hexpand (x : α) (rest : List α) (hknown : ∀ p ∈ x :: rest, known p) :
      ∀ p ∈ rest ++ next x, known p := by
    intro p hp
    rcases List.mem_append.mp hp with hp | hp
    · exact hknown p (List.mem_cons_of_mem x hp)
    · exact hclosed x (hknown x List.mem_cons_self) p hp
  fun_induction visit label next weight budget pending seen with
  | case1 budget seen => exact .done
  | case2 budget seen x rest hseen ih =>
      exact .skip hseen (ih (fun p hp => hpending p (List.mem_cons_of_mem x hp)) hbudget)
  | case3 budget seen x rest hseen successors hlight ih =>
      exact .visit hseen (ih (hexpand x rest hpending)
        (Nat.le_trans (length_remaining_cons_le heavy seen (label x)) hbudget))
  | case4 seen x rest hseen successors hweight ih =>
      -- A heavy label that is left would need an expansion.
      have hlabel := hheavy x (hpending x List.mem_cons_self) (Nat.lt_of_not_le hweight)
      have hmore := length_remaining_cons_lt hlabel hseen
      omega
  | case5 seen x rest hseen successors hweight left ih =>
      have hlabel := hheavy x (hpending x List.mem_cons_self) (Nat.lt_of_not_le hweight)
      have hmore := length_remaining_cons_lt hlabel hseen
      exact .visit hseen (ih (hexpand x rest hpending) (by omega))

end Walk

namespace FileFacts

theorem IsClosed.isNamed {file : FileFacts} (h : file.IsClosed) {decl : TypeDecl}
    (hdecl : decl ∈ file.types) : decl.IsNamed := by
  obtain ⟨before, after, hsplit⟩ := List.append_of_mem hdecl
  exact (h.types before decl after hsplit).1

theorem IsClosed.namesNarrow {file : FileFacts} (h : file.IsClosed) : file.NamesNarrow := by
  intro decl hdecl outer houter
  obtain ⟨suffix, -, hname⟩ := (h.isNamed hdecl).2 outer houter
  rw [hname]
  exact Place.length_lt_of_dollar outer suffix

end FileFacts

namespace CodeIndex

/-! ## Outwards -/

/-- The types from a place outwards, as a walk meets them that goes on until none is around. -/
inductive Outward (index : CodeIndex) : Option String → List TypeEntry → Prop
  | nowhere : Outward index none []
  | unnamed : Outward index (some "") []
  | missing {owner : String} (hnone : index.type? owner = none) : Outward index (some owner) []
  | inside {owner : String} {entry : TypeEntry} {entries : List TypeEntry} (hname : owner ≠ "")
      (hentry : index.type? owner = some entry)
      (around : Outward index entry.decl.outer entries) :
      Outward index (some owner) (entry :: entries)

@[simp] theorem ownersFrom_none (index : CodeIndex) : index.ownersFrom none = [] := by
  unfold ownersFrom
  cases index.types.size <;> rfl

/-- A walk that is cut off after more types than it meets is not cut off. -/
theorem outward_of_length_lt {index : CodeIndex} {steps : Nat} {owner : Option String}
    (hlength : (index.outward steps owner).length < steps) :
    index.Outward owner (index.outward steps owner) := by
  fun_induction index.outward steps owner with
  | case1 owner => cases hlength
  | case2 steps hsteps => exact .nowhere
  | case3 steps => exact .unnamed
  | case4 steps owner hname hnone => exact .missing hnone
  | case5 steps owner hname entry hentry ih =>
      exact .inside hname hentry (ih (Nat.lt_of_succ_lt_succ hlength))

variable {files : List FileFacts}

theorem outward_ownersFrom (hfiles : ∀ file ∈ files, file.NamesNarrow) (owner : Option String) :
    (ofFiles files).Outward owner ((ofFiles files).ownersFrom owner) := by
  rw [← outward_of_size_le hfiles (Nat.le_succ _) owner]
  exact outward_of_length_lt (Nat.lt_succ_of_le (length_outward_le hfiles _ owner))

/-! ## Upwards -/

/-- A type and what is above it, each id once, as a walk lists them that has no budget. -/
def Upward (index : CodeIndex) (t : TypeSymbol) (types : List TypeSymbol) : Prop :=
  Walk.Lists TypeSymbol.id index.directSupertypes [t] [] types

/-- The supertypes in which the search for a field goes on. -/
def fieldSupertypes (index : CodeIndex) (t : TypeSymbol) : List TypeSymbol :=
  if index.types.contains t.binaryName then index.directSupertypes t else []

theorem ne_empty_of_type? (hfiles : ∀ file ∈ files, file.IsClosed) {k : String} {entry : TypeEntry}
    (hentry : (ofFiles files).type? k = some entry) : k ≠ "" := by
  obtain ⟨hfile, hdecl, -⟩ := mem_typeEntries.mp (mem_typeEntries_of_type? hentry)
  rw [← (symbol_of_type? hentry).1]
  exact ((hfiles _ hfile).isNamed hdecl).1

/-- Only a type of the index has supertypes that are heavier than it is itself. -/
theorem contains_id_of_heavy (hfiles : ∀ file ∈ files, file.IsClosed) {t : TypeSymbol}
    (hheavy : t.weight < Walk.load TypeSymbol.weight ((ofFiles files).directSupertypes t)) :
    (ofFiles files).types.keys.contains t.id = true := by
  unfold directSupertypes at hheavy
  split at hheavy
  next hparameter =>
    have hweight : t.weight = Walk.load TypeSymbol.weight t.bounds := by
      rw [TypeSymbol.load_eq_weightAll]
      cases t
      rw [TypeSymbol.weight, if_pos (beq_iff_eq.mp hparameter)]
    rw [hweight] at hheavy
    exact absurd hheavy (Nat.lt_irrefl _)
  · split at hheavy
    · exact absurd hheavy (Nat.not_lt_zero _)
    · split at hheavy
      next entry hentry =>
        rw [id_eq_binaryName (ne_empty_of_type? hfiles hentry), List.contains_iff_mem]
        exact mem_keys_of_type? hentry
      · exact absurd hheavy (Nat.not_lt_zero _)

theorem length_remaining_types_le (index : CodeIndex) :
    (Walk.remaining index.types.keys []).length ≤ index.types.size :=
  List.length_filter_le _ _

theorem upward_ancestors (hfiles : ∀ file ∈ files, file.IsClosed) (t : TypeSymbol) :
    (ofFiles files).Upward t ((ofFiles files).ancestors t) := by
  refine Walk.lists_visit TypeSymbol.weight (fun _ => True) (ofFiles files).types.keys
    (fun _ _ _ _ => trivial) (fun u _ => contains_id_of_heavy hfiles) _ _ _
    (fun _ _ => trivial) ?_
  have hkeys := length_remaining_types_le (ofFiles files)
  omega

theorem lists_fieldOwners (files : List FileFacts) (owner : TypeEntry) :
    ∃ types, Walk.Lists TypeSymbol.binaryName (ofFiles files).fieldSupertypes [owner.symbol] []
        types ∧
      (ofFiles files).fieldOwners owner =
        types.filterMap fun t => (ofFiles files).type? t.binaryName := by
  refine ⟨_, Walk.lists_visit (fun _ => 0) (fun _ => True) (ofFiles files).types.keys
    (fun _ _ _ _ => trivial) (fun t _ hheavy => ?_) ((ofFiles files).types.size + 1) _ _
    (fun _ _ => trivial) (Nat.le_succ_of_le (length_remaining_types_le _)), rfl⟩
  unfold fieldSupertypes at hheavy
  split at hheavy
  next hindexed =>
    rw [Table.contains_eq_isSome] at hindexed
    obtain ⟨entry, hentry⟩ := Option.isSome_iff_exists.mp hindexed
    exact List.contains_iff_mem.mpr (mem_keys_of_type? hentry)
  · exact absurd hheavy (Nat.not_lt_zero _)

theorem lists_overriddenBy {m : Method} (hbounds : m.owner.bounds = []) :
    Walk.Lists (fun above : Method => above) (ofFiles files).overriddenBy
      ((ofFiles files).overriddenBy m) [m]
      (Walk.visit (fun above : Method => above) (ofFiles files).overriddenBy (fun _ => 0)
        ((ofFiles files).methods.size + 1) ((ofFiles files).overriddenBy m) [m]) :=
  Walk.lists_visit (fun _ => 0) _ _ (terrain_overriddenBy files).closed
    (terrain_overriddenBy files).heavy _ _ _
    (fun _ habove => (isKnown_of_mem_overriddenBy hbounds habove).1)
    (length_remaining_methods_le _ m)

/-! ## Lookups -/

/-- Every walk of a lookup ends: each lookup is told by what a walk lists that has no bound.
Only type parameters have bounds, and no method belongs to one. -/
structure WalksEnd (index : CodeIndex) : Prop where
  names : ∀ name view, ∃ owners, index.Outward view.owner owners ∧
    index.resolveSimple name view = (owners.findSome? (index.seenFrom name)
      <|> index.resolveSimple name { view with owner := none })
  typeParameters : ∀ view, ∃ owners, index.Outward view.owner owners ∧
    index.parameterScopes view = index.parameterScopes { view with owner := none } ++
      owners.map fun owner => (owner.decl.binaryName, owner.decl.typeParameters)
  fields : ∀ name view, ∃ owners, index.Outward view.owner owners ∧
    index.fieldType name view = (owners.findSome? (index.fieldText name)).bind fun (entry, text) =>
      index.resolveType text ⟨entry.file, some entry.decl.binaryName, none⟩
  fieldOwners : ∀ owner : TypeEntry, ∃ types,
    Walk.Lists TypeSymbol.binaryName index.fieldSupertypes [owner.symbol] [] types ∧
      index.fieldOwners owner = types.filterMap fun t => index.type? t.binaryName
  calls : ∀ call view, ∃ owners, index.Outward view.owner owners ∧
    index.resolveUnqualified call view =
      ((owners.findSome? fun entry =>
          asCalled entry.symbol (index.membersFor entry.symbol call view))
        <|> view.file.staticImports.findSome? (index.staticImport call view)
        |>.getD { isKnown := true })
  members : ∀ t name count, ∃ types, index.Upward t types ∧
    index.members t name count = types.foldl (index.addDeclared name count) []
  subtypes : ∀ sub sup, ∃ types, index.Upward sub types ∧
    index.isSubtypeOrSelf sub sup = types.any (·.id == sup.id)
  roots : ∀ m : Method, m.owner.bounds = [] → ∃ methods,
    Walk.Lists (fun above : Method => above) index.overriddenBy (index.overriddenBy m) [m]
        methods ∧
      index.roots m = if m.isConstructor || m.isStatic then []
        else methods.filter fun above => (index.overriddenBy above).isEmpty

theorem walksEnd_of_isClosed (hfiles : ∀ file ∈ files, file.IsClosed) :
    (ofFiles files).WalksEnd := by
  have houtward (view : Viewpoint) :
      (ofFiles files).Outward view.owner ((ofFiles files).ownersFrom view.owner) :=
    outward_ownersFrom (fun file hfile => (hfiles file hfile).namesNarrow) view.owner
  refine ⟨fun name view => ⟨_, houtward view, ?_⟩, fun view => ⟨_, houtward view, ?_⟩,
    fun name view => ⟨_, houtward view, rfl⟩, lists_fieldOwners files,
    fun call view => ⟨_, houtward view, rfl⟩,
    fun t name count => ⟨_, upward_ancestors hfiles t, rfl⟩,
    fun sub sup => ⟨_, upward_ancestors hfiles sub, rfl⟩,
    fun m hbounds => ⟨_, lists_overriddenBy hbounds, rfl⟩⟩
  · simp [resolveSimple]
  · simp [parameterScopes]

/-- The facts of every tree are closed in which no name of a type is empty, and on closed facts
every walk of the index ends, whatever the files are and however often a name is declared. -/
theorem closedFacts_walksEnd :
    (∀ (file : SourceFile) (relativePath : String) (tree : Java.Node), tree.HasNoEmptyName →
      (FileFacts.ofTree file relativePath tree).IsClosed) ∧
      ∀ files : List FileFacts, (∀ file ∈ files, file.IsClosed) → (ofFiles files).WalksEnd :=
  ⟨fun file relativePath _ => FileFacts.isClosed_ofTree file relativePath,
    fun _ => walksEnd_of_isClosed⟩

/-- A type that is declared twice, in a circle, with a type parameter that bounds itself. -/
theorem walksEnd_of_circle :
    let sources : List SourceFile := [
      ⟨"A.java", "class A<T extends A<T>> extends B \x7b \x7d"⟩,
      ⟨"B.java",
        "class B extends A \x7b class A extends B \x7b \x7d \x7d class A extends B.A \x7b \x7d"⟩]
    let files := sources.map fun source =>
      FileFacts.ofTree source source.path (Java.parse source.text)
    (∀ source ∈ sources, (Java.parse source.text).HasNoEmptyName) ∧
      (files.flatMap fun file => file.types.map fun decl => (decl.binaryName, decl.superclass)) =
        [("A", some "B"), ("B", some "A"), ("B$A", some "B"), ("A", some "B.A")] ∧
      (ofFiles files).WalksEnd := by
  intro sources files
  have hnames : ∀ source ∈ sources, (Java.parse source.text).HasNoEmptyName := by decide +kernel
  have hclosed : ∀ file ∈ files, file.IsClosed := by
    intro file hfile
    obtain ⟨source, hsource, rfl⟩ := List.mem_map.mp hfile
    exact closedFacts_walksEnd.1 source source.path _ (hnames source hsource)
  exact ⟨hnames, by decide +kernel, closedFacts_walksEnd.2 files hclosed⟩

end CodeIndex

end EntryPoints
