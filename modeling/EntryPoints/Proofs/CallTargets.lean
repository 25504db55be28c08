import EntryPoints.Index.Snapshot

/-!
# What a resolved call may call

A call on a receiver resolves to members of the type of the receiver, and a creation to
constructors.  What a call may call beyond its targets shares its owner with one of them.
-/

namespace EntryPoints

theorem Method.owner_id_eq_of_beq {m n : Method} (hmn : (m == n) = true) :
    m.owner.id = n.owner.id := by
  have hsame := Method.beq_iff.mp hmn
  simp only [Method.identity, Prod.mk.injEq] at hsame
  have howner : (m.owner == n.owner) = true := TypeSymbol.beq_iff.mpr hsame.1
  simp only [TypeSymbol.id, TypeSymbol.binaryName_eq_of_beq howner,
    TypeSymbol.qualifiedName_eq_of_beq howner, TypeSymbol.name_eq_of_beq howner]

/-! ## Targets -/

namespace CodeIndex

variable {index : CodeIndex} {call : Invocation} {view : Viewpoint} {t : TypeSymbol}

theorem mem_of_mem_selectOverloads {candidates : List Method} {arguments : List (Option String)}
    {m : Method} (hm : m ∈ index.selectOverloads candidates arguments view) :
    m ∈ candidates := by
  unfold selectOverloads at hm
  split at hm
  · exact hm
  · simp only at hm
    split at hm
    · exact hm
    · obtain ⟨⟨score, n⟩, hscored, rfl⟩ := List.mem_map.mp hm
      obtain ⟨candidate, hcandidate, hpair⟩ :=
        List.mem_filterMap.mp (List.mem_filter.mp hscored).1
      obtain ⟨_, -, hpair⟩ := Option.map_eq_some_iff.mp hpair
      cases hpair
      exact hcandidate

theorem resolve_of_creation (hkind : call.kind = .creation) :
    index.resolve view call =
      index.resolveCreation call (index.receiverType? view call.receiver) view := by
  cases call
  subst hkind
  simp only [resolve]

theorem resolve_of_receiver {receiver : Receiver} (hkind : call.kind ≠ .creation)
    (hreceiver : call.receiver = some receiver) :
    index.resolve view call =
      index.resolveQualified call (index.receiverType view receiver) view := by
  cases call
  subst hreceiver
  rw [resolve]
  exact hkind

theorem isConstructor_of_mem_resolveCreation {receiver : Typed} {m : Method}
    (hm : m ∈ (index.resolveCreation call receiver view).targets) : m.isConstructor = true := by
  unfold resolveCreation at hm
  split at hm
  · cases hm
  · have hconstructor := List.mem_filter.mp (mem_of_mem_selectOverloads hm)
    simp only [Bool.and_eq_true] at hconstructor
    exact hconstructor.2.1

theorem mem_members_of_mem_resolveQualified {receiver : Typed} {m : Method}
    (ht : (index.resolveQualified call receiver view).receiver = some t)
    (hm : m ∈ (index.resolveQualified call receiver view).targets) :
    m ∈ index.members t call.name call.argumentCount := by
  unfold resolveQualified at ht hm
  cases htype : receiver.type with
  | none =>
      rw [htype] at ht
      cases ht
  | some found =>
      rw [htype] at ht hm
      cases ht
      exact mem_of_mem_selectOverloads hm

/-- A call on a receiver that resolves to a method resolves to members of the type of the
receiver only. -/
theorem members_of_resolve (hqualified : call.receiver.isSome = true)
    (ht : (index.resolve view call).receiver = some t) {target : Method}
    (htarget : target ∈ (index.resolve view call).targets)
    (hconstructor : target.isConstructor = false) :
    call.kind ≠ .creation ∧ ∀ m ∈ (index.resolve view call).targets,
      m ∈ index.members t call.name call.argumentCount := by
  have hkind : call.kind ≠ .creation := by
    intro hcreation
    rw [resolve_of_creation hcreation] at htarget
    rw [isConstructor_of_mem_resolveCreation htarget] at hconstructor
    cases hconstructor
  refine ⟨hkind, fun m hm => ?_⟩
  obtain ⟨receiver, hreceiver⟩ := Option.isSome_iff_exists.mp hqualified
  rw [resolve_of_receiver hkind hreceiver] at ht hm
  exact mem_members_of_mem_resolveQualified ht hm

end CodeIndex

namespace Snapshot

theorem mayCall_congr {m n : Method} (hmn : (m == n) = true) (call : IndexedCall)
    (htargets : call.resolved.targets ≠ []) : mayCall m call = mayCall n call := by
  unfold mayCall
  simp only [List.isEmpty_iff, htargets, if_false, Method.owner_id_eq_of_beq hmn]
  rw [List.contains_congr hmn]

theorem mayCall_of_contains {target : Method} {call : IndexedCall}
    (htarget : call.resolved.targets.contains target = true) : mayCall target call = true := by
  obtain ⟨found, hfound, hsame⟩ := List.contains_iff_exists_mem_beq.mp htarget
  have htargets : call.resolved.targets ≠ [] := List.ne_nil_of_mem hfound
  unfold mayCall
  simp only [List.isEmpty_iff, htargets, if_false]
  split
  · refine List.any_eq_true.mpr ⟨found, hfound, ?_⟩
    exact beq_iff_eq.mpr (Method.owner_id_eq_of_beq hsame).symm
  · exact htarget

/-- What a call with targets may call shares its owner with one of them. -/
theorem exists_target_of_mayCall {m : Method} {call : IndexedCall}
    (htargets : call.resolved.targets ≠ []) (hm : mayCall m call = true) :
    ∃ target ∈ call.resolved.targets, target.owner.id = m.owner.id := by
  unfold mayCall at hm
  simp only [List.isEmpty_iff, htargets, if_false] at hm
  split at hm
  · obtain ⟨target, htarget, hid⟩ := List.any_eq_true.mp hm
    exact ⟨target, htarget, beq_iff_eq.mp hid⟩
  · obtain ⟨target, htarget, hsame⟩ := List.contains_iff_exists_mem_beq.mp hm
    exact ⟨target, htarget, (Method.owner_id_eq_of_beq hsame).symm⟩

end Snapshot

end EntryPoints
