import EntryPoints.Drawing
import Mathlib.Data.List.Forall2

/-!
# Records that can be drawn

A drawing takes from the record of a search what it needs and does not look at the rest.  What it
needs is said here by the shape of the record: members that have to be there, lists of texts, and
texts where a name is cut.  A record is drawn exactly when it has this shape.

Texts and objects can be gone through like lists.  So a text may stand for its characters and an
object for the names of its members wherever texts are listed, and both may stand for an empty list
of callers.
-/

namespace EntryPoints

section Except

variable {ε α β : Type}

theorem bind_eq_ok_iff {result : Except ε α} {next : α → Except ε β} {b : β} :
    result >>= next = .ok b ↔ ∃ a, result = .ok a ∧ next a = .ok b := by
  cases result with
  | error e => simp [bind, Except.bind]
  | ok a => simp [bind, Except.bind]

theorem map_eq_ok_iff {result : Except ε α} {f : α → β} {b : β} :
    result.map f = .ok b ↔ ∃ a, result = .ok a ∧ f a = b := by
  cases result <;> simp [Except.map]

theorem mapM_eq_ok_iff {f : α → Except ε β} {items : List α} {found : List β} :
    items.mapM f = .ok found ↔ List.Forall₂ (fun a b => f a = .ok b) items found := by
  induction items generalizing found with
  | nil => cases found <;> simp [pure, Except.pure]
  | cons a items ih =>
      rw [List.mapM_cons, bind_eq_ok_iff]
      constructor
      · rintro ⟨b, hb, hmore⟩
        obtain ⟨rest, hrest, hfound⟩ := bind_eq_ok_iff.mp hmore
        cases hfound
        exact .cons hb (ih.mp hrest)
      · intro hall
        cases hall with
        | cons hb hrest => exact ⟨_, hb, bind_eq_ok_iff.mpr ⟨_, ih.mpr hrest, rfl⟩⟩

theorem exists_mapM_eq_ok_iff {f : α → Except ε β} {items : List α} :
    (∃ found, items.mapM f = .ok found) ↔ ∀ a ∈ items, ∃ b, f a = .ok b := by
  simp only [mapM_eq_ok_iff]
  induction items with
  | nil => exact ⟨fun _ _ h => absurd h (by simp), fun _ => ⟨[], .nil⟩⟩
  | cons a items ih =>
      rw [List.forall_mem_cons, ← ih]
      constructor
      · rintro ⟨_, _ | ⟨hb, hrest⟩⟩
        exact ⟨⟨_, hb⟩, ⟨_, hrest⟩⟩
      · rintro ⟨⟨b, hb⟩, ⟨rest, hrest⟩⟩
        exact ⟨b :: rest, .cons hb hrest⟩

end Except

namespace Json

/-! ## Shapes -/

/-- Whether a value is an object that has a member with a property. -/
def HasMember (name : String) (property : Json → Prop) (value : Json) : Prop :=
  ∃ members found, value = .object members ∧ member? name members = some found ∧ property found

/-- Whether a value is a sequence of texts. -/
inductive IsTexts : Json → Prop
  | array (texts : List String) : IsTexts (.strings texts)
  | string (text : String) : IsTexts (.string text)
  | object (members : List (String × Json)) : IsTexts (.object members)

/-- A query has a name of any kind, in full and in short, and parameter types. -/
structure IsQueryRecord (query : Json) : Prop where
  qualifiedName : query.HasMember "qualified_name" fun _ => True
  parameters : query.HasMember "parameter_types" IsTexts
  name : query.HasMember "name" fun _ => True

/-- A caller has a name that can be cut, and parameter types. -/
structure IsCallerRecord (caller : Json) : Prop where
  qualifiedName : caller.HasMember "qualified_name" fun name => ∃ text, name = .string text
  parameters : caller.HasMember "parameter_types" IsTexts

/-- Whether a value is a list of callers; an empty text or object has none. -/
inductive IsCallerList : Json → Prop
  | array {callers : List Json} (each : ∀ caller ∈ callers, caller.IsCallerRecord) :
      IsCallerList (.array callers)
  | emptyString : IsCallerList (.string "")
  | emptyObject : IsCallerList (.object [])

structure IsDrawable (results : Json) : Prop where
  query : results.HasMember "query" IsQueryRecord
  /-- The callers may be left out. -/
  callers : ∀ callers, results.HasMember "top_callers" (· = callers) → callers.IsCallerList

/-! ## Taking values apart -/

variable {value found : Json} {name separator text : String} {property : Json → Prop}

theorem memberNamed_eq_ok_iff : value.memberNamed name = .ok found ↔
    value.HasMember name (· = found) := by
  cases value with
  | object members =>
      cases h : member? name members <;> simp [memberNamed, HasMember, h]
  | _ => simp [memberNamed, HasMember]

theorem exists_memberNamed_iff : (∃ found, value.memberNamed name = .ok found ∧ property found) ↔
    value.HasMember name property := by
  simp only [memberNamed_eq_ok_iff, HasMember]
  constructor
  · rintro ⟨found, ⟨members, _, hvalue, hmember, rfl⟩, hproperty⟩
    exact ⟨members, _, hvalue, hmember, hproperty⟩
  · rintro ⟨members, found, hvalue, hmember, hproperty⟩
    exact ⟨found, ⟨members, found, hvalue, hmember, rfl⟩, hproperty⟩

theorem textsFrom_eq_ok_iff {position : Nat} {items : List Json} {texts : List String} :
    textsFrom position items = .ok texts ↔ items = texts.map .string := by
  induction items generalizing position texts with
  | nil => cases texts <;> simp [textsFrom]
  | cons item items ih =>
      cases item with
      | string text =>
          simp only [textsFrom, map_eq_ok_iff, ih]
          constructor
          · rintro ⟨rest, rfl, rfl⟩
            rfl
          · intro h
            cases texts with
            | nil => cases h
            | cons t texts =>
                simp only [List.map_cons, List.cons.injEq, string.injEq] at h
                exact ⟨texts, h.2, by rw [h.1]⟩
      | _ => cases texts <;> simp [textsFrom]

theorem parts?_eq_texts_iff : (∃ texts : List String, value.parts? = some (texts.map .string)) ↔
    value.IsTexts := by
  constructor
  · rintro ⟨texts, h⟩
    cases value with
    | array items =>
        obtain rfl : items = _ := Option.some.inj h
        exact .array texts
    | string text => exact .string text
    | object members => exact .object members
    | _ => cases h
  · rintro (texts | text | members)
    · exact ⟨texts, rfl⟩
    · exact ⟨text.toList.map String.singleton, by simp [parts?]⟩
    · exact ⟨members.map (·.1), by simp [parts?]⟩

theorem exists_joined_iff : (∃ text, value.joined separator = .ok text) ↔ value.IsTexts := by
  rw [← parts?_eq_texts_iff, joined]
  cases value.parts? with
  | none => simp
  | some items => simp [map_eq_ok_iff, textsFrom_eq_ok_iff]

theorem exists_asText_iff : (∃ text, value.asText = .ok text) ↔ ∃ text, value = .string text := by
  cases value <;> simp [asText]

end Json

namespace Drawing

open Json

variable {value results : Json}

/-! ## Drawing -/

theorem idOf_eq_ok_iff {id : String} : idOf value = .ok id ↔
    ∃ name parameters list, value.memberNamed "qualified_name" = .ok name ∧
      value.memberNamed "parameter_types" = .ok parameters ∧ parameters.joined ", " = .ok list ∧
      name.display ++ "(" ++ list ++ ")" = id := by
  simp only [idOf, bind_eq_ok_iff, pure, Except.pure, Except.ok.injEq]
  constructor
  · rintro ⟨name, hname, parameters, hparameters, list, hlist, hid⟩
    exact ⟨name, parameters, list, hname, hparameters, hlist, hid⟩
  · rintro ⟨name, parameters, list, hname, hparameters, hlist, hid⟩
    exact ⟨name, hname, parameters, hparameters, list, hlist, hid⟩

theorem exists_idOf_iff : (∃ id, idOf value = .ok id) ↔
    value.HasMember "qualified_name" (fun _ => True) ∧
      value.HasMember "parameter_types" IsTexts := by
  simp only [idOf_eq_ok_iff, ← exists_memberNamed_iff]
  constructor
  · rintro ⟨id, name, parameters, list, hname, hparameters, hlist, -⟩
    exact ⟨⟨name, hname, trivial⟩, ⟨parameters, hparameters, exists_joined_iff.mp ⟨list, hlist⟩⟩⟩
  · rintro ⟨⟨name, hname, -⟩, ⟨parameters, hparameters, htexts⟩⟩
    obtain ⟨list, hlist⟩ := exists_joined_iff.mpr htexts
    exact ⟨_, name, parameters, list, hname, hparameters, hlist, rfl⟩

theorem exists_queryNode_iff : (∃ node, queryNode value = .ok node) ↔ value.IsQueryRecord := by
  simp only [queryNode, bind_eq_ok_iff]
  constructor
  · rintro ⟨node, id, hid, name, hname, -⟩
    obtain ⟨hqualified, hparameters⟩ := exists_idOf_iff.mp ⟨id, hid⟩
    exact ⟨hqualified, hparameters, exists_memberNamed_iff.mp ⟨name, hname, trivial⟩⟩
  · rintro ⟨hqualified, hparameters, hname⟩
    obtain ⟨id, hid⟩ := exists_idOf_iff.mpr ⟨hqualified, hparameters⟩
    obtain ⟨name, hname, -⟩ := exists_memberNamed_iff.mpr hname
    exact ⟨_, id, hid, name, hname, rfl⟩

theorem exists_callerNode_iff : (∃ node, callerNode value = .ok node) ↔ value.IsCallerRecord := by
  simp only [callerNode, bind_eq_ok_iff]
  constructor
  · rintro ⟨node, id, hid, name, hname, text, htext, -⟩
    obtain ⟨-, hparameters⟩ := exists_idOf_iff.mp ⟨id, hid⟩
    exact ⟨exists_memberNamed_iff.mp ⟨name, hname, exists_asText_iff.mp ⟨text, htext⟩⟩,
      hparameters⟩
  · rintro ⟨hqualified, hparameters⟩
    obtain ⟨name, hname, htext⟩ := exists_memberNamed_iff.mpr hqualified
    obtain ⟨text, htext⟩ := exists_asText_iff.mpr htext
    obtain ⟨id, hid⟩ :=
      exists_idOf_iff.mpr ⟨exists_memberNamed_iff.mp ⟨name, hname, trivial⟩, hparameters⟩
    exact ⟨_, id, hid, name, hname, text, htext, rfl⟩

/-- The parts of a value are callers when it is a list of callers: a text and an object have texts
as parts, which are no callers. -/
theorem exists_callers_iff :
    (∃ items, value.parts = .ok items ∧ ∀ item ∈ items, item.IsCallerRecord) ↔
      value.IsCallerList := by
  have hnone (texts : List String)
      (h : ∀ item ∈ texts.map Json.string, item.IsCallerRecord) : texts = [] := by
    refine List.eq_nil_iff_forall_not_mem.mpr fun text htext => ?_
    obtain ⟨⟨members, found, hobject, -⟩, -⟩ := h _ (List.mem_map_of_mem htext)
    cases hobject
  constructor
  · rintro ⟨items, hparts, hitems⟩
    cases value with
    | array callers =>
        obtain rfl : callers = items := Except.ok.inj hparts
        exact .array hitems
    | string text =>
        have hempty := hnone (text.toList.map String.singleton)
        obtain rfl := Except.ok.inj hparts
        simp only [List.map_map, List.map_eq_nil_iff, String.toList_eq_nil_iff] at hempty
        rw [hempty hitems]
        exact .emptyString
    | object members =>
        have hempty := hnone (members.map (·.1))
        obtain rfl := Except.ok.inj hparts
        simp only [List.map_map, List.map_eq_nil_iff] at hempty
        rw [hempty hitems]
        exact .emptyObject
    | _ => cases hparts
  · rintro (hitems | _ | _)
    · exact ⟨_, rfl, hitems⟩
    · exact ⟨[], rfl, by simp⟩
    · exact ⟨[], rfl, by simp⟩

/-- A record is drawn exactly when it has the shape of a search result. -/
theorem exists_ofRecord_iff : (∃ drawing, ofRecord results = .ok drawing) ↔
    results.IsDrawable := by
  have hlist : (∃ callers, callersOf results = .ok callers ∧
      ∃ nodes, callers.mapM callerNode = .ok nodes) ↔
      ∀ callers, results.HasMember "top_callers" (· = callers) → callers.IsCallerList := by
    simp only [exists_mapM_eq_ok_iff, exists_callerNode_iff, callersOf]
    simp only [← memberNamed_eq_ok_iff]
    cases results.memberNamed "top_callers" with
    | ok callers => simp [exists_callers_iff]
    | error fault => simp
  simp only [ofRecord, bind_eq_ok_iff]
  constructor
  · rintro ⟨drawing, query, hquery, node, hnode, callers, hcallers, nodes, hnodes, -⟩
    exact ⟨exists_memberNamed_iff.mp ⟨query, hquery, exists_queryNode_iff.mp ⟨node, hnode⟩⟩,
      hlist.mp ⟨callers, hcallers, nodes, hnodes⟩⟩
  · rintro ⟨hquery, hcallers⟩
    obtain ⟨query, hquery, hrecord⟩ := exists_memberNamed_iff.mpr hquery
    obtain ⟨node, hnode⟩ := exists_queryNode_iff.mpr hrecord
    obtain ⟨callers, hcallers, nodes, hnodes⟩ := hlist.mpr hcallers
    exact ⟨_, query, hquery, node, hnode, callers, hcallers, nodes, hnodes, rfl⟩

end Drawing

end EntryPoints
