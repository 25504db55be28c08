import EntryPoints.Proofs.IndexLookups
import EntryPoints.Facts.Survey
import Mathlib.Data.List.Nodup

/-!
# What a key tells

The key of a method is a text made of its return type, its owner, its name and its
parameter types.  When these are written as Java writes them, the key can be taken
apart again: the name ends at the first parenthesis and starts behind the last dot
in front of it, the owner contains no blank, and the commas between the parameters
are the ones outside of angle brackets.

Whether a method is a constructor cannot be read off.  A constructor has no return
type, which is shown like that of a method that returns nothing; so a constructor
and such a method with the same name and parameters have the same key.
-/

namespace EntryPoints

/-! ## Lists of type texts -/

namespace TypeText

/-- How many angle brackets are open behind a text, if there is no comma outside of them and
none is closed that was not opened. -/
def depthAfter : Nat → List Char → Option Nat
  | depth, [] => some depth
  | depth, c :: rest =>
    if c = '<' then depthAfter (depth + 1) rest
    else if depth = 0 ∧ (c = ',' ∨ c = '>') then none
    else if c = '>' then depthAfter (depth - 1) rest
    else depthAfter depth rest

/-- A text that reads as one type: every comma in it lies between angle brackets. -/
def IsOneType (text : List Char) : Prop := text ≠ [] ∧ depthAfter 0 text = some 0

instance (text : List Char) : Decidable (IsOneType text) :=
  inferInstanceAs (Decidable (_ ∧ _))

theorem depthAfter_append (depth : Nat) (s t : List Char) :
    depthAfter depth (s ++ t) = (depthAfter depth s).bind fun depth => depthAfter depth t := by
  induction s generalizing depth with
  | nil => rfl
  | cons c rest ih =>
      simp only [List.cons_append, depthAfter]
      split
      · exact ih _
      · split
        · rfl
        · split
          · exact ih _
          · exact ih _

theorem not_isOneType_append_comma {s : List Char} (hs : IsOneType s) (rest : List Char) :
    ¬ IsOneType (s ++ ',' :: rest) := by
  intro h
  have hdepth := h.2
  rw [depthAfter_append, hs.2] at hdepth
  simp [depthAfter] at hdepth

theorem eq_of_append_comma {s t rest others : List Char} (hs : IsOneType s) (ht : IsOneType t)
    (h : s ++ ',' :: rest = t ++ ',' :: others) : s = t ∧ rest = others := by
  rcases List.append_eq_append_iff.mp h with ⟨more, hmore, hrest⟩ | ⟨more, hmore, hrest⟩
  · cases more with
    | nil =>
        simp only [List.append_nil] at hmore
        simp only [List.nil_append, List.cons.injEq, true_and] at hrest
        exact ⟨hmore.symm, hrest⟩
    | cons c more =>
        simp only [List.cons_append, List.cons.injEq] at hrest
        rw [hmore, ← hrest.1] at ht
        exact absurd ht (not_isOneType_append_comma hs more)
  · cases more with
    | nil =>
        simp only [List.append_nil] at hmore
        simp only [List.nil_append, List.cons.injEq, true_and] at hrest
        exact ⟨hmore, hrest.symm⟩
    | cons c more =>
        simp only [List.cons_append, List.cons.injEq] at hrest
        rw [hmore, ← hrest.1] at hs
        exact absurd hs (not_isOneType_append_comma ht more)

theorem intercalate_comma_cons (s t : List Char) (ts : List (List Char)) :
    [','].intercalate (s :: t :: ts) = s ++ ',' :: [','].intercalate (t :: ts) := by
  rw [List.intercalate_cons_cons, List.append_assoc, List.singleton_append]

theorem intercalate_comma_ne_nil {s : List Char} (hs : IsOneType s) (ss : List (List Char)) :
    [','].intercalate (s :: ss) ≠ [] := by
  cases ss with
  | nil =>
      rw [List.intercalate_singleton]
      exact hs.1
  | cons t ts =>
      rw [intercalate_comma_cons]
      simp

/-- Types that are listed with commas can be told apart again. -/
theorem eq_of_intercalate_comma {ss ts : List (List Char)} (hss : ∀ s ∈ ss, IsOneType s)
    (hts : ∀ t ∈ ts, IsOneType t) (h : [','].intercalate ss = [','].intercalate ts) :
    ss = ts := by
  induction ss generalizing ts with
  | nil =>
      cases ts with
      | nil => rfl
      | cons t ts => exact absurd h.symm (intercalate_comma_ne_nil (hts t (by simp)) ts)
  | cons s ss ih =>
      have hs : IsOneType s := hss s (by simp)
      cases ts with
      | nil => exact absurd h (intercalate_comma_ne_nil hs ss)
      | cons t ts =>
          have ht : IsOneType t := hts t (by simp)
          -- One type is not a list of several: it has no comma outside of the brackets.
          cases ss with
          | nil =>
              cases ts with
              | nil => simpa using h
              | cons u us =>
                  rw [List.intercalate_singleton, intercalate_comma_cons] at h
                  rw [h] at hs
                  exact absurd hs (not_isOneType_append_comma ht _)
          | cons u us =>
              cases ts with
              | nil =>
                  rw [List.intercalate_singleton, intercalate_comma_cons] at h
                  rw [← h] at ht
                  exact absurd ht (not_isOneType_append_comma hs _)
              | cons v vs =>
                  rw [intercalate_comma_cons, intercalate_comma_cons] at h
                  have hparts := eq_of_append_comma hs ht h
                  have hrest : u :: us = v :: vs :=
                    ih (fun w hw => hss w (List.mem_cons_of_mem _ hw))
                      (fun w hw => hts w (List.mem_cons_of_mem _ hw)) hparts.2
                  rw [hparts.1, hrest]

end TypeText

/-! ## Taking a key apart -/

section Cuts

variable {a : Char} {s t rest others : List Char}

/-- A text is cut in one way into a front whose characters pass a test and a back that starts
with one that does not. -/
theorem cut_unique {p : Char → Bool} {back more : List Char} (hs : ∀ c ∈ s, p c = true)
    (ht : ∀ c ∈ t, p c = true) (hback : ∀ c ∈ back.head?, p c = false)
    (hmore : ∀ c ∈ more.head?, p c = false) (h : s ++ back = t ++ more) :
    s = t ∧ back = more := by
  have htake {xs ys : List Char} (hxs : ∀ c ∈ xs, p c = true) (hys : ∀ c ∈ ys.head?, p c = false) :
      (xs ++ ys).takeWhile p = xs := by
    rw [List.takeWhile_append_of_pos hxs]
    cases ys with
    | nil => rw [List.takeWhile_nil, List.append_nil]
    | cons y ys => rw [List.takeWhile_cons_of_neg (by simp [hys y rfl]), List.append_nil]
  have hsame : s = t := by
    rw [← htake hs hback, h, htake ht hmore]
  subst hsame
  exact ⟨rfl, List.append_cancel_left h⟩

theorem ne_of_not_mem (hs : a ∉ s) : ∀ c ∈ s, (c != a) = true := by
  intro c hc
  rw [bne_iff_ne]
  rintro rfl
  exact hs hc

theorem eq_of_append_first (hs : a ∉ s) (ht : a ∉ t) (h : s ++ a :: rest = t ++ a :: others) :
    s = t ∧ rest = others := by
  obtain ⟨hfront, hback⟩ := cut_unique (p := (· != a)) (ne_of_not_mem hs) (ne_of_not_mem ht)
    (by simp) (by simp) h
  exact ⟨hfront, List.tail_eq_of_cons_eq hback⟩

theorem eq_of_append_last (hs : a ∉ s) (ht : a ∉ t) (h : rest ++ a :: s = others ++ a :: t) :
    rest = others ∧ s = t := by
  have hreverse : s.reverse ++ a :: rest.reverse = t.reverse ++ a :: others.reverse := by
    have := congrArg List.reverse h
    simpa using this
  have hparts := eq_of_append_first (by simpa using hs) (by simpa using ht) hreverse
  exact ⟨List.reverse_inj.mp hparts.2, List.reverse_inj.mp hparts.1⟩

end Cuts

section Numerals

variable {n k : Nat}

theorem toList_toString (n : Nat) : (toString n).toList = Nat.toDigits 10 n := Nat.toList_repr

theorem isDigit_of_mem_toString {c : Char} (hc : c ∈ (toString n).toList) : c.isDigit = true := by
  rw [toList_toString] at hc
  exact Nat.isDigit_of_mem_toDigits (by omega) (by omega) hc

/-- A number is read back from its digits. -/
theorem eq_of_toString_eq (h : toString n = toString k) : n = k :=
  calc
    n = Nat.ofDigitChars 10 (Nat.toDigits 10 n) 0 := Nat.ofDigitChars_ten_toDigits.symm
    _ = Nat.ofDigitChars 10 (Nat.toDigits 10 k) 0 := by
      rw [← toList_toString, h, toList_toString]
    _ = k := Nat.ofDigitChars_ten_toDigits

/-- What stands before a number is read back too, when a mark is between them. -/
theorem eq_of_append_toString {front other : String}
    (h : front ++ "@" ++ toString n = other ++ "@" ++ toString k) : front = other ∧ n = k := by
  have hat (n : Nat) : '@' ∉ (toString n).toList := by
    intro hmem
    exact absurd (isDigit_of_mem_toString hmem) (by decide)
  have hcut (s : String) (n : Nat) :
      (s ++ "@" ++ toString n).toList = s.toList ++ '@' :: (toString n).toList := by
    simp
  have hlist := congrArg String.toList h
  rw [hcut, hcut] at hlist
  obtain ⟨hfront, hnumber⟩ := eq_of_append_last (hat n) (hat k) hlist
  exact ⟨String.toList_injective hfront, eq_of_toString_eq (String.toList_injective hnumber)⟩

end Numerals

namespace Method

/-- The return type as a key shows it. -/
def shownReturn (m : Method) : String := (firstNonempty [m.returnType.getD ""]).getD "void"

/-- Names and types as Java writes them. -/
structure Legible (m : Method) : Prop where
  name : '.' ∉ m.name.toList ∧ '(' ∉ m.name.toList
  owner : ' ' ∉ m.keyOwner.toList ∧ '(' ∉ m.keyOwner.toList
  result : '(' ∉ m.shownReturn.toList
  parameters : ∀ parameter ∈ m.parameters, TypeText.IsOneType parameter.toList

instance (m : Method) : Decidable m.Legible :=
  decidable_of_iff (('.' ∉ m.name.toList ∧ '(' ∉ m.name.toList) ∧
      (' ' ∉ m.keyOwner.toList ∧ '(' ∉ m.keyOwner.toList) ∧ '(' ∉ m.shownReturn.toList ∧
      ∀ parameter ∈ m.parameters, TypeText.IsOneType parameter.toList)
    ⟨fun h => ⟨h.1, h.2.1, h.2.2.1, h.2.2.2⟩, fun h => ⟨h.1, h.2, h.3, h.4⟩⟩

theorem toList_key (m : Method) :
    m.key.toList = (m.shownReturn.toList ++ ' ' :: (m.keyOwner.toList ++ '.' :: m.name.toList)) ++
      '(' :: ([','].intercalate (m.parameters.map String.toList) ++ [')']) := by
  simp [key, shownReturn, Text.joinWith]

theorem key_eq_of_parts {m n : Method} (howner : m.keyOwner = n.keyOwner) (hname : m.name = n.name)
    (hparameters : m.parameters = n.parameters) (hresult : m.shownReturn = n.shownReturn) :
    m.key = n.key := by
  apply String.toList_injective
  rw [toList_key, toList_key, howner, hname, hparameters, hresult]

/-- The key of a method determines what it is made of. -/
theorem parts_of_key_eq {m n : Method} (hm : m.Legible) (hn : n.Legible) (h : m.key = n.key) :
    m.keyOwner = n.keyOwner ∧ m.name = n.name ∧ m.parameters = n.parameters ∧
      m.shownReturn = n.shownReturn := by
  have hkey := congrArg String.toList h
  rw [toList_key, toList_key] at hkey
  have hopen (k : Method) (hk : k.Legible) : '(' ∉ k.shownReturn.toList ++
      ' ' :: (k.keyOwner.toList ++ '.' :: k.name.toList) := by
    simp [hk.result, hk.owner.2, hk.name.2]
  obtain ⟨hfront, hback⟩ := eq_of_append_first (hopen m hm) (hopen n hn) hkey
  have hlist : m.parameters.map String.toList = n.parameters.map String.toList := by
    apply TypeText.eq_of_intercalate_comma
    · simpa using hm.parameters
    · simpa using hn.parameters
    · exact List.append_cancel_right hback
  have hdotted (k : Method) : k.shownReturn.toList ++
      ' ' :: (k.keyOwner.toList ++ '.' :: k.name.toList) =
        (k.shownReturn.toList ++ ' ' :: k.keyOwner.toList) ++ '.' :: k.name.toList := by
    simp
  rw [hdotted, hdotted] at hfront
  obtain ⟨hspaced, hname⟩ := eq_of_append_last hm.name.1 hn.name.1 hfront
  obtain ⟨hresult, howner⟩ := eq_of_append_last hm.owner.1 hn.owner.1 hspaced
  exact ⟨String.toList_injective howner, String.toList_injective hname,
    (List.map_inj_right fun _ _ hlist => String.toList_injective hlist).mp hlist,
    String.toList_injective hresult⟩

/-- A method of the type of a constructor that has its name and parameters and returns
nothing. -/
structure IsNamesakeOf (m constructor : Method) : Prop where
  kinds : m.isConstructor = false ∧ constructor.isConstructor = true
  owner : m.owner = constructor.owner
  name : m.name = constructor.name
  parameters : m.parameters = constructor.parameters
  returnsNothing : m.shownReturn = "void"

end Method

/-- The name of a type in the keys of its methods. -/
def TypeSymbol.keyName (t : TypeSymbol) : String :=
  (firstNonempty [t.qualifiedName.getD "", t.binaryName]).getD "UnknownClass"

/-! ## Declared methods -/

namespace CodeIndex

theorem methodEntries_typesOf (files : List FileFacts) :
    methodEntries (typesOf files) files = files.flatMap fun file =>
      file.methods.filterMap fun decl =>
        ((typeEntries files).reverse.find? (·.decl.binaryName == decl.owner)).map fun owner =>
          (methodOf owner.symbol decl, ⟨decl, file⟩) := by
  have htype (k : String) : (typesOf files).get? k =
      (typeEntries files).reverse.find? (·.decl.binaryName == k) := type?_ofFiles files k
  simp only [methodEntries, htype]

theorem exists_typeEntry_of_mem_methodEntries {files : List FileFacts}
    {a : Method × MethodEntry} (ha : a ∈ methodEntries (typesOf files) files) :
    ∃ entry ∈ typeEntries files, a.1.owner = entry.symbol := by
  obtain ⟨owner, howner, hmethod⟩ := mem_methodEntries ha
  have hmem : owner ∈ typeEntries files := mem_typeEntries_of_type? howner
  rw [hmethod]
  exact ⟨owner, hmem, rfl⟩

theorem owner_eq_of_keyOwner_eq {files : List FileFacts}
    (hnames : ((typeEntries files).map (·.symbol.keyName)).Nodup) {a b : Method × MethodEntry}
    (ha : a ∈ methodEntries (typesOf files) files) (hb : b ∈ methodEntries (typesOf files) files)
    (h : a.1.keyOwner = b.1.keyOwner) : a.1.owner = b.1.owner := by
  obtain ⟨t, ht, hat⟩ := exists_typeEntry_of_mem_methodEntries ha
  obtain ⟨u, hu, hbu⟩ := exists_typeEntry_of_mem_methodEntries hb
  have hkeyNames : t.symbol.keyName = u.symbol.keyName := by
    rw [← hat, ← hbu]
    exact h
  have htu : t = u := List.inj_on_of_nodup_map hnames ht hu hkeyNames
  rw [hat, hbu, htu]

/-- In files whose types have different names, the key of a declared method tells its type,
its name, its parameters and the return type that is shown.  Hence two declarations that
differ in one of the first three or in being a constructor have the same key exactly when one
is a constructor and the other its namesake that returns nothing. -/
theorem key_eq_iff_namesake {files : List FileFacts}
    (hlegible : ∀ a ∈ methodEntries (typesOf files) files, a.1.Legible)
    (hnames : ((typeEntries files).map (·.symbol.keyName)).Nodup)
    (hresults : ∀ a ∈ methodEntries (typesOf files) files,
      a.1.isConstructor = true → a.1.returnType = none)
    {a b : Method × MethodEntry} (ha : a ∈ methodEntries (typesOf files) files)
    (hb : b ∈ methodEntries (typesOf files) files) :
    (a.1.key = b.1.key ↔
      a.1.owner = b.1.owner ∧ a.1.name = b.1.name ∧ a.1.parameters = b.1.parameters ∧
        a.1.shownReturn = b.1.shownReturn) ∧
    ((a.1.owner = b.1.owner → a.1.name = b.1.name → a.1.parameters = b.1.parameters →
        a.1.isConstructor ≠ b.1.isConstructor) →
      (a.1.key = b.1.key ↔ a.1.IsNamesakeOf b.1 ∨ b.1.IsNamesakeOf a.1)) := by
  have hparts : a.1.key = b.1.key ↔
      a.1.owner = b.1.owner ∧ a.1.name = b.1.name ∧ a.1.parameters = b.1.parameters ∧
        a.1.shownReturn = b.1.shownReturn := by
    constructor
    · intro hkey
      have h := Method.parts_of_key_eq (hlegible a ha) (hlegible b hb) hkey
      exact ⟨owner_eq_of_keyOwner_eq hnames ha hb h.1, h.2⟩
    · intro h
      have howner : a.1.keyOwner = b.1.keyOwner := by
        unfold Method.keyOwner
        rw [h.1]
      exact Method.key_eq_of_parts howner h.2.1 h.2.2.1 h.2.2.2
  -- A key shows a missing return type as that of a method that returns nothing.
  have hvoid (c : Method × MethodEntry) (hc : c ∈ methodEntries (typesOf files) files)
      (hconstructor : c.1.isConstructor = true) : c.1.shownReturn = "void" := by
    rw [Method.shownReturn, hresults c hc hconstructor]
    rfl
  refine ⟨hparts, fun hdiffer => ?_⟩
  rw [hparts]
  constructor
  · intro h
    have hkinds := hdiffer h.1 h.2.1 h.2.2.1
    cases hconstructor : a.1.isConstructor with
    | true =>
        rw [hconstructor] at hkinds
        have hmethod : b.1.isConstructor = false := by simpa using hkinds.symm
        have hresult : b.1.shownReturn = "void" := by
          rw [← h.2.2.2]
          exact hvoid a ha hconstructor
        exact .inr ⟨⟨hmethod, hconstructor⟩, h.1.symm, h.2.1.symm, h.2.2.1.symm, hresult⟩
    | false =>
        rw [hconstructor] at hkinds
        have hother : b.1.isConstructor = true := by simpa using hkinds.symm
        have hresult : a.1.shownReturn = "void" := by
          rw [h.2.2.2]
          exact hvoid b hb hother
        exact .inl ⟨⟨hconstructor, hother⟩, h.1, h.2.1, h.2.2.1, hresult⟩
  · intro h
    rcases h with h | h
    · exact ⟨h.owner, h.name, h.parameters, h.returnsNothing.trans (hvoid b hb h.kinds.2).symm⟩
    · exact ⟨h.owner.symm, h.name.symm, h.parameters.symm,
        (hvoid a ha h.kinds.2).trans h.returnsNothing.symm⟩

end CodeIndex

/-! ## A method with the name of its class -/

namespace Homonym

open CodeIndex

def files : List FileFacts :=
  [.ofText "A.java" "class A { A(int n) { } void A(int n) { } int f(Map<B, A> m) { } }" none]

set_option maxRecDepth 100000 in
theorem declared :
    (∀ a ∈ methodEntries (typesOf files) files,
      a.1.Legible ∧ (a.1.isConstructor = true → a.1.returnType = none)) ∧
    (methodEntries (typesOf files) files).map (fun a => (a.1.isConstructor, a.1.key)) =
      [(true, "void A.A(int)"), (false, "void A.A(int)"), (false, "int A.f(Map<B, A>)")] ∧
    ((typeEntries files).map (·.symbol.keyName)).Nodup := by
  rw [methodEntries_typesOf]
  decide +kernel

end Homonym

open CodeIndex Homonym in
/-- The class `A` declares a constructor and a method that searches take for one. -/
theorem key_shared_with_namesake :
    ∃ a ∈ methodEntries (typesOf files) files, ∃ b ∈ methodEntries (typesOf files) files,
      a.1.isConstructor = true ∧ b.1.isConstructor = false ∧ a.1.key = b.1.key ∧
        b.1.IsNamesakeOf a.1 := by
  obtain ⟨hmethods, hkeys, hnames⟩ := declared
  obtain ⟨a, others, hentries, ha, hothers⟩ := List.map_eq_cons_iff.mp hkeys
  obtain ⟨b, rest, rfl, hb, -⟩ := List.map_eq_cons_iff.mp hothers
  simp only [Prod.mk.injEq] at ha hb
  have hmemA : a ∈ methodEntries (typesOf files) files := by simp [hentries]
  have hmemB : b ∈ methodEntries (typesOf files) files := by simp [hentries]
  have hkey : a.1.key = b.1.key := ha.2.trans hb.2.symm
  have hiff := key_eq_iff_namesake (fun a ha => (hmethods a ha).1) hnames
    (fun a ha => (hmethods a ha).2) hmemA hmemB
  have hdiffer : a.1.isConstructor ≠ b.1.isConstructor := by simp [ha.1, hb.1]
  refine ⟨a, hmemA, b, hmemB, ha.1, hb.1, hkey, ?_⟩
  rcases (hiff.2 fun _ _ _ => hdiffer).mp hkey with h | h
  · have hmethod := h.kinds.1
    rw [ha.1] at hmethod
    cases hmethod
  · exact h

end EntryPoints
