import EntryPoints.Proofs.FactOrigins
import EntryPoints.Proofs.IndexLookups
import Mathlib.Data.List.Find
import Mathlib.Data.List.Nodup
import Mathlib.Data.List.Perm.Subperm

/-!
# The index of production code

The files in scope have an index of their own.  It is a part of the index of all files:
when no two files declare a type of one binary name, a type of the production code is the
same in both, and so are its methods and the types around it.

The other way round a binary name may be free in the one index and taken in the other.
Names for which this is not so are shared.
-/

namespace EntryPoints

/-- Files that were read off trees, whose types have different binary names, and the scope of
production. -/
structure Codebase where
  files : List FileFacts
  scope : Scope
  analyzed : ∀ file ∈ files, ∃ source path tree, file = FileFacts.ofTree source path tree
  distinct : ((CodeIndex.typeEntries files).map (·.decl.binaryName)).Nodup

namespace Codebase

variable (code : Codebase)

def production : List FileFacts := code.files.filter fun file => code.scope.containsFile file.file

/-- The index of all files. -/
def whole : CodeIndex := .ofFiles code.files

/-- The index of the production files. -/
def part : CodeIndex := .ofFiles code.production

/-- A binary name means the same in both indexes. -/
def Shares (k : String) : Prop := code.whole.type? k = code.part.type? k

variable {code}

theorem mem_production {file : FileFacts} :
    file ∈ code.production ↔ file ∈ code.files ∧ code.scope.containsFile file.file = true :=
  List.mem_filter

theorem isSelfContained {file : FileFacts} (hfile : file ∈ code.files) : file.IsSelfContained := by
  obtain ⟨source, path, tree, rfl⟩ := code.analyzed file hfile
  exact FileFacts.isSelfContained_ofTree source path tree

/-! ## Types -/

/-- What the kept files list, when every listed item tells whether its file is kept. -/
theorem flatMap_filter_eq {β : Type} {files : List FileFacts} {keeps : FileFacts → Bool}
    {f g : FileFacts → List β} {keep : β → Bool}
    (hlists : ∀ file ∈ files, keeps file = true → f file = g file)
    (hkeep : ∀ file ∈ files, ∀ b ∈ g file, keep b = keeps file) :
    (files.filter keeps).flatMap f = (files.flatMap g).filter keep := by
  induction files with
  | nil => rfl
  | cons file files ih =>
      have hrest := ih (fun other hother => hlists other (List.mem_cons_of_mem file hother))
        (fun other hother => hkeep other (List.mem_cons_of_mem file hother))
      have hfile := hkeep file List.mem_cons_self
      rw [List.flatMap_cons, List.filter_append, ← hrest]
      cases hkept : keeps file with
      | true =>
          have hall : (g file).filter keep = g file :=
            List.filter_eq_self.mpr fun b hb => (hfile b hb).trans hkept
          rw [List.filter_cons_of_pos hkept, List.flatMap_cons, hall,
            hlists file List.mem_cons_self hkept]
      | false =>
          have hnone : (g file).filter keep = [] := by
            apply List.filter_eq_nil_iff.mpr
            intro b hb
            rw [hfile b hb, hkept]
            exact Bool.false_ne_true
          rw [List.filter_cons_of_neg (by simp [hkept]), hnone, List.nil_append]

theorem typeEntries_production :
    CodeIndex.typeEntries code.production =
      (CodeIndex.typeEntries code.files).filter fun entry =>
        code.scope.containsFile entry.file.file := by
  apply flatMap_filter_eq
  · intro file _ _
    rfl
  · intro file _ entry hentry
    obtain ⟨decl, -, rfl⟩ := List.mem_map.mp hentry
    rfl

theorem eq_of_binaryName_eq {t u : TypeEntry} (ht : t ∈ CodeIndex.typeEntries code.files)
    (hu : u ∈ CodeIndex.typeEntries code.files) (hname : t.decl.binaryName = u.decl.binaryName) :
    t = u :=
  List.inj_on_of_nodup_map code.distinct ht hu hname

theorem mem_typeEntries_of_part {k : String} {entry : TypeEntry}
    (hentry : code.part.type? k = some entry) :
    entry ∈ CodeIndex.typeEntries code.files ∧ entry.file ∈ code.production ∧
      entry.decl.binaryName = k := by
  have hmem : entry ∈ CodeIndex.typeEntries code.production :=
    CodeIndex.mem_typeEntries_of_type? hentry
  have hfile := (CodeIndex.mem_typeEntries.mp hmem).1
  rw [typeEntries_production] at hmem
  exact ⟨(List.mem_filter.mp hmem).1, hfile, (CodeIndex.symbol_of_type? hentry).1⟩

theorem type?_of_mem {files : List FileFacts} {entry : TypeEntry}
    (hdistinct : ∀ other ∈ CodeIndex.typeEntries files,
      other.decl.binaryName = entry.decl.binaryName → other = entry)
    (hentry : entry ∈ CodeIndex.typeEntries files) :
    (CodeIndex.ofFiles files).type? entry.decl.binaryName = some entry := by
  cases hfound : (CodeIndex.ofFiles files).type? entry.decl.binaryName with
  | none =>
      rw [CodeIndex.type?_ofFiles, List.find?_eq_none] at hfound
      exact absurd BEq.rfl (hfound entry (List.mem_reverse.mpr hentry))
  | some other =>
      rw [hdistinct other (CodeIndex.mem_typeEntries_of_type? hfound)
        (CodeIndex.symbol_of_type? hfound).1]

theorem whole_type?_of_mem {entry : TypeEntry} (hentry : entry ∈ CodeIndex.typeEntries code.files) :
    code.whole.type? entry.decl.binaryName = some entry :=
  type?_of_mem (fun _ hother hname => eq_of_binaryName_eq hother hentry hname) hentry

theorem part_type?_of_mem {entry : TypeEntry} (hentry : entry ∈ CodeIndex.typeEntries code.files)
    (hfile : entry.file ∈ code.production) :
    code.part.type? entry.decl.binaryName = some entry := by
  have hscope := (mem_production.mp hfile).2
  have hmem : entry ∈ CodeIndex.typeEntries code.production := by
    rw [typeEntries_production]
    exact List.mem_filter.mpr ⟨hentry, hscope⟩
  refine type?_of_mem (fun other hother hname => ?_) hmem
  rw [typeEntries_production] at hother
  exact eq_of_binaryName_eq (List.mem_filter.mp hother).1 hentry hname

theorem whole_type?_of_part {k : String} {entry : TypeEntry}
    (hentry : code.part.type? k = some entry) : code.whole.type? k = some entry := by
  obtain ⟨hmem, -, rfl⟩ := mem_typeEntries_of_part hentry
  exact whole_type?_of_mem hmem

theorem shares_of_part {k : String} {entry : TypeEntry}
    (hentry : code.part.type? k = some entry) : code.Shares k := by
  rw [Shares, hentry, whole_type?_of_part hentry]

theorem part_type?_of_declared {file : FileFacts} (hfile : file ∈ code.production)
    {owner : String} (howner : owner ∈ file.types.map (·.binaryName)) :
    ∃ entry, code.part.type? owner = some entry ∧ entry.file = file := by
  obtain ⟨decl, hdecl, rfl⟩ := List.mem_map.mp howner
  have hmem : (⟨CodeIndex.symbolOf decl, decl, file⟩ : TypeEntry) ∈
      CodeIndex.typeEntries code.files :=
    CodeIndex.mem_typeEntries.mpr ⟨(mem_production.mp hfile).1, hdecl, rfl⟩
  exact ⟨_, part_type?_of_mem hmem hfile, rfl⟩

theorem contains_types_eq {k : String} (hk : code.Shares k) :
    code.whole.types.contains k = code.part.types.contains k := by
  rw [Table.contains_eq_isSome, Table.contains_eq_isSome]
  exact congrArg Option.isSome hk

/-! ## Methods -/

/-- A method whose owner has a shared name belongs to the file of its owner. -/
theorem mem_production_of_shares {m : Method} {entry : MethodEntry}
    (hm : (m, entry) ∈ CodeIndex.methodEntries (CodeIndex.typesOf code.files) code.files)
    (hshares : code.Shares entry.decl.owner) : code.scope.containsFile entry.file.file = true := by
  obtain ⟨hfile, hdecl⟩ := CodeIndex.file_of_mem_methodEntries hm
  obtain ⟨found, hfound, -⟩ := CodeIndex.mem_methodEntries hm
  have hpart : code.part.type? entry.decl.owner = some found := by
    rw [← hshares]
    exact hfound
  obtain ⟨hfoundMem, hfoundFile, hname⟩ := mem_typeEntries_of_part hpart
  obtain ⟨decl, hdeclared, hbinary⟩ :=
    List.mem_map.mp ((isSelfContained hfile).methods _ hdecl).2
  have hother : (⟨CodeIndex.symbolOf decl, decl, entry.file⟩ : TypeEntry) ∈
      CodeIndex.typeEntries code.files :=
    CodeIndex.mem_typeEntries.mpr ⟨hfile, hdeclared, rfl⟩
  have hsame := eq_of_binaryName_eq hother hfoundMem (hbinary.trans hname.symm)
  have hfileEq : entry.file = found.file := congrArg TypeEntry.file hsame
  rw [hfileEq]
  exact (mem_production.mp hfoundFile).2

/-- The production index has those methods of the whole index that production files declare. -/
theorem methodEntries_production :
    CodeIndex.methodEntries (CodeIndex.typesOf code.production) code.production =
      (CodeIndex.methodEntries (CodeIndex.typesOf code.files) code.files).filter fun entry =>
        code.scope.containsFile entry.2.file.file := by
  unfold CodeIndex.methodEntries
  apply flatMap_filter_eq
  · intro file hfile hscope
    apply List.filterMap_congr
    intro decl hdecl
    have hproduction := mem_production.mpr ⟨hfile, hscope⟩
    obtain ⟨entry, hentry, -⟩ :=
      part_type?_of_declared hproduction ((isSelfContained hfile).methods decl hdecl).2
    have hpart : (CodeIndex.typesOf code.production).get? decl.owner = some entry := hentry
    have hwhole : (CodeIndex.typesOf code.files).get? decl.owner = some entry :=
      whole_type?_of_part hentry
    rw [hpart, hwhole]
  · intro file _ entry hentry
    obtain ⟨decl, -, hdecl⟩ := List.mem_filterMap.mp hentry
    obtain ⟨owner, -, rfl⟩ := Option.map_eq_some_iff.mp hdecl
    rfl

theorem methodsDeclaredBy_eq {k : String} (hk : code.Shares k) :
    code.whole.methodsDeclaredBy k = code.part.methodsDeclaredBy k := by
  unfold whole part
  rw [CodeIndex.methodsDeclaredBy_ofFiles, CodeIndex.methodsDeclaredBy_ofFiles,
    methodEntries_production, List.filter_filter]
  congr 1
  apply List.filter_congr
  rintro ⟨m, entry⟩ hm
  cases howner : entry.decl.owner == k with
  | false => rfl
  | true =>
      rw [← beq_iff_eq.mp howner] at hk
      simp [mem_production_of_shares hm hk]

theorem binaryName_of_mem_methodEntries {files : List FileFacts} {m : Method}
    {entry : MethodEntry} (hm : (m, entry) ∈ CodeIndex.methodEntries (CodeIndex.typesOf files) files) :
    m.owner.binaryName = entry.decl.owner := by
  obtain ⟨owner, howner, rfl⟩ := CodeIndex.mem_methodEntries hm
  have hfound : (CodeIndex.ofFiles files).type? entry.decl.owner = some owner := howner
  obtain ⟨hbinary, hsymbol⟩ := CodeIndex.symbol_of_type? hfound
  rw [← hbinary]
  exact congrArg TypeSymbol.binaryName hsymbol

theorem binaryName_eq_of_beq {m n : Method} (hmn : (m == n) = true) :
    m.owner.binaryName = n.owner.binaryName := by
  have hsame := Method.beq_iff.mp hmn
  simp only [Method.identity, Prod.mk.injEq] at hsame
  exact TypeSymbol.binaryName_eq_of_beq (TypeSymbol.beq_iff.mpr hsame.1)

theorem entryOf_ofFiles (files : List FileFacts) (m : Method) :
    (CodeIndex.ofFiles files).entryOf m =
      ((CodeIndex.methodEntries (CodeIndex.typesOf files) files).reverse.find? (·.1 == m)).map
        (·.2) :=
  Table.get?_ofList _ _

theorem entryOf_eq {m : Method} (hm : code.Shares m.owner.binaryName) :
    code.whole.entryOf m = code.part.entryOf m := by
  unfold whole part
  rw [entryOf_ofFiles, entryOf_ofFiles, methodEntries_production, ← List.filter_reverse,
    List.find?_filter]
  congr 1
  apply List.find?_congr
  rintro ⟨n, entry⟩ hn
  cases hsame : n == m with
  | false => simp
  | true =>
      have hmem := List.mem_reverse.mp hn
      rw [← binaryName_eq_of_beq hsame, binaryName_of_mem_methodEntries hmem] at hm
      simp [mem_production_of_shares hmem hm]

theorem methodsOfFile_eq {path : String} (hpath : code.scope.containsFile path = true) :
    code.whole.methodsOfFile path = code.part.methodsOfFile path := by
  unfold whole part
  rw [CodeIndex.methodsOfFile_ofFiles, CodeIndex.methodsOfFile_ofFiles,
    methodEntries_production, List.filter_filter]
  congr 1
  apply List.filter_congr
  rintro ⟨m, entry⟩ hm
  cases hfile : entry.file.file == path with
  | false => rfl
  | true => simp [beq_iff_eq.mp hfile, hpath]

/-! ## The types around a place -/

end Codebase

namespace CodeIndex

theorem outward_some {index : CodeIndex} {owner : String} {entry : TypeEntry} (steps : Nat)
    (howner : owner ≠ "") (hentry : index.type? owner = some entry) :
    index.outward (steps + 1) (some owner) = entry :: index.outward steps entry.decl.outer := by
  rw [outward, if_neg howner, hentry]

theorem outward_eq_take (index : CodeIndex) {steps more : Nat} (hsteps : steps ≤ more)
    (owner : Option String) :
    index.outward steps owner = (index.outward more owner).take steps := by
  fun_induction index.outward more owner generalizing steps with
  | case1 owner =>
      rw [Nat.le_zero.mp hsteps]
      rfl
  | case2 more hmore => cases steps <;> rfl
  | case3 more => cases steps <;> simp [outward]
  | case4 more owner howner hnone => cases steps <;> simp [outward, hnone]
  | case5 more owner howner entry hentry ih =>
      cases steps with
      | zero => rfl
      | succ steps =>
          rw [outward_some steps howner hentry, List.take_succ_cons,
            ih (Nat.le_of_succ_le_succ hsteps)]

variable {files : List FileFacts}

/-- Binary names get shorter from a type to the type around it. -/
theorem shorter_of_mem_outward (hfiles : ∀ file ∈ files, file.NamesNarrow) {steps : Nat}
    {owner : Option String} :
    (∀ entry ∈ (ofFiles files).outward steps owner, ∃ name, owner = some name ∧
        entry.decl.binaryName.length ≤ name.length) ∧
      ((ofFiles files).outward steps owner).Pairwise fun a b =>
        b.decl.binaryName.length < a.decl.binaryName.length := by
  fun_induction (ofFiles files).outward steps owner with
  | case5 steps owner howner entry hentry ih =>
      obtain ⟨hfile, hdecl, -⟩ := mem_typeEntries.mp (mem_typeEntries_of_type? hentry)
      have hname := (symbol_of_type? hentry).1
      have habove : ∀ other ∈ (ofFiles files).outward steps entry.decl.outer,
          other.decl.binaryName.length < entry.decl.binaryName.length := by
        intro other hother
        obtain ⟨outer, houter, hle⟩ := ih.1 other hother
        exact Nat.lt_of_le_of_lt hle (hfiles _ hfile _ hdecl outer houter)
      refine ⟨fun other hother => ⟨owner, rfl, ?_⟩, List.pairwise_cons.mpr ⟨habove, ih.2⟩⟩
      rcases List.mem_cons.mp hother with rfl | hother
      · rw [hname]
      · rw [← hname]
        exact Nat.le_of_lt (habove other hother)
  | _ => simp

/-- A type has no more types around it than there are types. -/
theorem length_outward_le (hfiles : ∀ file ∈ files, file.NamesNarrow) (steps : Nat)
    (owner : Option String) :
    ((ofFiles files).outward steps owner).length ≤ (ofFiles files).types.size := by
  have hnodup : (((ofFiles files).outward steps owner).map (·.decl.binaryName)).Nodup := by
    apply List.pairwise_map.mpr
    apply (shorter_of_mem_outward hfiles).2.imp
    intro a b hshorter hname
    rw [hname] at hshorter
    exact Nat.lt_irrefl _ hshorter
  have hkeys : ((ofFiles files).outward steps owner).map (·.decl.binaryName) ⊆
      (ofFiles files).types.keys := by
    intro name hname
    obtain ⟨entry, hentry, rfl⟩ := List.mem_map.mp hname
    obtain ⟨k, hk⟩ := exists_type?_of_mem_outward hentry
    rw [(symbol_of_type? hk).1]
    exact mem_keys_of_type? hk
  rw [← List.length_map (·.decl.binaryName)]
  exact (hnodup.subperm hkeys).length_le

theorem outward_of_size_le (hfiles : ∀ file ∈ files, file.NamesNarrow) {steps : Nat}
    (hsteps : (ofFiles files).types.size ≤ steps) (owner : Option String) :
    (ofFiles files).outward steps owner = (ofFiles files).ownersFrom owner := by
  unfold ownersFrom
  rw [outward_eq_take _ hsteps, List.take_of_length_le (length_outward_le hfiles steps owner)]

end CodeIndex

namespace Codebase

variable {code : Codebase}

/-- No owner, or one that a production file declares. -/
def Declares (code : Codebase) (owner : Option String) : Prop :=
  ∀ name, owner = some name → ∃ file ∈ code.production, name ∈ file.types.map (·.binaryName)

theorem declares_outer {entry : TypeEntry} (hfile : entry.file ∈ code.production)
    (hdecl : entry.decl ∈ entry.file.types) : code.Declares entry.decl.outer := by
  intro outer houter
  have hself := isSelfContained (mem_production.mp hfile).1
  exact ⟨entry.file, hfile, (hself.outer _ hdecl outer houter).1⟩

theorem outward_eq (steps : Nat) {owner : Option String} (howner : code.Declares owner) :
    code.whole.outward steps owner = code.part.outward steps owner := by
  induction steps generalizing owner with
  | zero => rfl
  | succ steps ih =>
      cases owner with
      | none => rfl
      | some name =>
          by_cases hempty : name = ""
          · simp [CodeIndex.outward, hempty]
          · obtain ⟨file, hfile, hname⟩ := howner name rfl
            obtain ⟨entry, hentry, rfl⟩ := part_type?_of_declared hfile hname
            have hmem := CodeIndex.mem_typeEntries.mp (mem_typeEntries_of_part hentry).1
            rw [CodeIndex.outward_some steps hempty hentry,
              CodeIndex.outward_some steps hempty (whole_type?_of_part hentry),
              ih (declares_outer hfile hmem.2.1)]

theorem ownersFrom_eq {owner : Option String} (howner : code.Declares owner) :
    code.whole.ownersFrom owner = code.part.ownersFrom owner := by
  have hwhole : code.whole.outward (code.whole.types.size + code.part.types.size) owner =
      code.whole.ownersFrom owner :=
    CodeIndex.outward_of_size_le (fun _ hfile => (isSelfContained hfile).namesNarrow)
      (Nat.le_add_right _ _) owner
  have hpart : code.part.outward (code.whole.types.size + code.part.types.size) owner =
      code.part.ownersFrom owner :=
    CodeIndex.outward_of_size_le
      (fun _ hfile => (isSelfContained (mem_production.mp hfile).1).namesNarrow)
      (Nat.le_add_left _ _) owner
  rw [← hwhole, ← hpart]
  exact outward_eq _ howner

theorem mem_ownersFrom {owner : Option String} {entry : TypeEntry}
    (hentry : entry ∈ code.part.ownersFrom owner) :
    code.part.type? entry.decl.binaryName = some entry := by
  obtain ⟨k, hk⟩ := CodeIndex.exists_type?_of_mem_outward hentry
  obtain ⟨-, -, rfl⟩ := mem_typeEntries_of_part hk
  exact hk

end Codebase

end EntryPoints
