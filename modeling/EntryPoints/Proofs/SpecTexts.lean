import EntryPoints.MethodSpec
import EntryPoints.Proofs.MethodKeys
import Mathlib.Data.List.TakeWhile

/-!
# Reading a spec back

A method is shown as its owner, a sign between owner and name, its name, and its parameter types
in parentheses.  Read as a spec this text comes apart again: the owner holds no `#` and the name
no separator, so the last separator is the sign between them; the parenthesis at the end is the
first one that closes; and the commas of the list are those outside of angle brackets, with a
blank behind each that is trimmed.

Where a spec cannot spell the owner, the name or the list, the text is not read as something else.
It is malformed.
-/

namespace EntryPoints

/-! ## Trimming -/

namespace Text

variable {blank : Char → Bool} {s : List Char}

theorem trim_cons_of_blank {c : Char} (hc : blank c = true) (s : List Char) :
    trim blank (c :: s) = trim blank s := by
  simp [trim, trimLeft, hc]

theorem trim_eq_self (hfirst : ∀ c ∈ s.head?, blank c = false)
    (hlast : ∀ c ∈ s.getLast?, blank c = false) : trim blank s = s := by
  have hleft : s.dropWhile blank = s := by
    cases s with
    | nil => rfl
    | cons c rest => exact List.dropWhile_cons_of_neg (by simp [hfirst c rfl])
  have hright : s.reverse.dropWhile blank = s.reverse := by
    rw [← List.head?_reverse] at hlast
    cases hreverse : s.reverse with
    | nil => rfl
    | cons c rest =>
        rw [hreverse] at hlast
        exact List.dropWhile_cons_of_neg (by simp [hlast c rfl])
  rw [trim, trimLeft, hleft, trimRight, hright, List.reverse_reverse]

end Text

namespace MethodSpec

/-! ## Owner and name -/

theorem isSeparator_of_isNameChar {c : Char} (hc : isNameChar c = true) :
    isSeparator c = false := by
  by_contra hseparator
  simp only [isSeparator, Bool.not_eq_false, Bool.or_eq_true, beq_iff_eq] at hseparator
  rcases hseparator with rfl | rfl <;> revert hc <;> decide

theorem isNameChar_of_belongs {c : Char} (hc : (isOwnerChar c || isSeparator c) = true)
    (hseparator : isSeparator c = false) : isNameChar c = true := by
  rw [hseparator, Bool.or_false] at hc
  simp only [isSeparator, Bool.or_eq_false_iff] at hseparator
  simpa [isOwnerChar, hseparator.2] using hc

/-- Owner and name are what stands around the last separator. -/
theorem split?_eq_some_iff {head owner name : List Char} :
    split? head = some (owner, name) ↔
      (∃ sign, isSeparator sign = true ∧ head = owner ++ sign :: name) ∧
        (∀ c ∈ name, isSeparator c = false) ∧ name ≠ [] ∧ owner ≠ [] ∧
        owner.all isOwnerChar = true := by
  constructor
  · intro h
    unfold split? at h
    have hcut := List.takeWhile_append_dropWhile (p := fun c => !isSeparator c) (l := head.reverse)
    cases hrest : head.reverse.dropWhile (fun c => !isSeparator c) with
    | nil =>
        rw [hrest] at h
        cases h
    | cons sign before =>
        rw [hrest] at h hcut
        simp only [Option.ite_none_right_eq_some, Option.some.injEq, Prod.mk.injEq] at h
        obtain ⟨⟨hname, hbefore, hchars⟩, rfl, rfl⟩ := h
        refine ⟨⟨sign, ?_, ?_⟩, ?_, hname, by simpa using hbefore, by simpa using hchars⟩
        · have hsign := List.head?_dropWhile_not (fun c => !isSeparator c) head.reverse
          rw [hrest] at hsign
          simpa using hsign
        · have hhead := congrArg List.reverse hcut
          simpa using hhead.symm
        · intro c hc
          have hkept := List.mem_takeWhile_imp (List.mem_reverse.mp hc)
          simpa using hkept
  · rintro ⟨⟨sign, hsign, rfl⟩, hseparators, hname, howner, hchars⟩
    have hreverse : (owner ++ sign :: name).reverse = name.reverse ++ sign :: owner.reverse := by
      simp
    have hkept : ∀ c ∈ name.reverse, (!isSeparator c) = true := by
      intro c hc
      simp [hseparators c (List.mem_reverse.mp hc)]
    unfold split?
    rw [hreverse, List.takeWhile_append_of_pos hkept, List.dropWhile_append_of_pos hkept]
    simp [hsign, hname, howner, hchars]

/-- A name without separators behind the sign. -/
theorem split?_sign_eq_some_iff {owner name : List Char} {parts : List Char × List Char} :
    split? (owner ++ '#' :: name) = some parts ↔
      parts = (owner, name) ∧ (∀ c ∈ name, isSeparator c = false) ∧ name ≠ [] ∧ owner ≠ [] ∧
        owner.all isOwnerChar = true := by
  obtain ⟨front, back⟩ := parts
  rw [split?_eq_some_iff]
  constructor
  · rintro ⟨⟨sign, hsign, hcut⟩, hseparators, hback, hfront, hchars⟩
    have hparts : front = owner ∧ back = name := by
      rcases List.append_eq_append_iff.mp hcut.symm with ⟨more, hmore, hrest⟩ | ⟨more, hmore, hrest⟩
      · cases more with
        | nil => simp_all
        | cons c more =>
            rw [List.cons_append, List.cons.injEq] at hrest
            have hsign : isSeparator '#' = false := hseparators '#' (by simp [hrest.2])
            cases hsign
      · cases more with
        | nil => simp_all
        | cons c more =>
            rw [List.cons_append, List.cons.injEq] at hrest
            rw [hmore, ← hrest.1] at hchars
            simp [show isOwnerChar '#' = false by decide] at hchars
    obtain ⟨rfl, rfl⟩ := hparts
    exact ⟨rfl, hseparators, hback, hfront, hchars⟩
  · rintro ⟨hparts, h⟩
    cases hparts
    exact ⟨⟨'#', rfl, rfl⟩, h⟩

/-! ## The list of parameter types -/

theorem tail?_parenthesised (inner : List Char) :
    tail? ('(' :: (inner ++ [')'])) = if ')' ∈ inner then none else some (some inner) := by
  have hopen : ('(' :: (inner ++ [')'])).dropWhile Text.isBlank = '(' :: (inner ++ [')']) :=
    List.dropWhile_cons_of_neg (by decide)
  simp only [tail?, hopen]
  by_cases hclosed : ')' ∈ inner
  · have hrest : inner.dropWhile (· ≠ ')') ≠ [] := by
      intro hnil
      simpa using List.dropWhile_eq_nil_iff.mp hnil ')' hclosed
    have hmore : (inner ++ [')']).dropWhile (· ≠ ')') ≠ [')'] := by
      rw [List.dropWhile_append, if_neg (by simpa using hrest)]
      simpa using hrest
    rw [if_pos hclosed, if_neg hmore]
  · have hkept : ∀ c ∈ inner, decide (c ≠ ')') = true := by
      intro c hc
      rw [decide_eq_true_eq]
      rintro rfl
      exact hclosed hc
    rw [if_neg hclosed, List.dropWhile_append_of_pos hkept, List.takeWhile_append_of_pos hkept]
    simp

/-- A text that does not begin with a parenthesis, blanks aside, is no list. -/
theorem tail?_of_text {text : List Char} (hopen : '(' ∉ text)
    (hblank : ∃ c ∈ text, Text.isBlank c = false) (rest : List Char) :
    tail? (text ++ rest) = none := by
  induction text with
  | nil => simp at hblank
  | cons c text ih =>
      simp only [List.mem_cons, not_or] at hopen
      by_cases hc : Text.isBlank c = true
      · have hskip : tail? (c :: text ++ rest) = tail? (text ++ rest) := by
          simp only [tail?, List.cons_append, List.dropWhile_cons_of_pos hc]
        rw [hskip]
        refine ih hopen.2 ?_
        simpa [hc] using hblank
      · have hstay : (c :: text ++ rest).dropWhile Text.isBlank = c :: (text ++ rest) :=
          List.dropWhile_cons_of_neg hc
        unfold tail?
        rw [hstay]
        split
        · contradiction
        · simp_all
        · rfl

/-- What is read of a text in which `depth` brackets are open. -/
theorem splitParameters_append {depth after : Nat} {text : List Char}
    (htext : TypeText.depthAfter depth text = some after) (piece rest : List Char) :
    splitParameters depth piece (text ++ rest) =
      splitParameters after (text.reverse ++ piece) rest := by
  induction text generalizing depth piece with
  | nil =>
      cases htext
      rfl
  | cons c text ih =>
      simp only [TypeText.depthAfter] at htext
      simp only [List.cons_append, splitParameters]
      -- The depth counts the character in the same way on both sides.
      split at htext
      case isTrue hless =>
        have hsign : c ≠ ',' := by simp [hless]
        simp only [hless, if_true] at hsign ⊢
        rw [if_neg (by simp)]
        simpa using ih htext ('<' :: piece)
      case isFalse hless =>
        split at htext
        case isTrue houtside => cases htext
        case isFalse hinside =>
          split at htext
          case isTrue hgreater =>
            have hopen : depth ≠ 0 := fun hzero => hinside ⟨hzero, .inr hgreater⟩
            have hdepth : ((depth - 1 : Nat) : Int) = (depth : Int) - 1 := by omega
            simp only [hgreater, if_true]
            rw [if_neg (by simp), ← hdepth]
            simpa [hgreater] using ih htext (c :: piece)
          case isFalse hgreater =>
            have hcomma : ¬(c = ',' ∧ (depth : Int) = 0) := by
              rintro ⟨hc, hzero⟩
              exact hinside ⟨by omega, .inl hc⟩
            simp only [hless, hgreater, if_false]
            rw [if_neg hcomma]
            simpa using ih htext (c :: piece)

theorem splitParameters_type {type : List Char} (htype : TypeText.depthAfter 0 type = some 0) :
    splitParameters 0 [] type = [type] := by
  have hread := splitParameters_append htype [] []
  simpa [splitParameters] using hread

theorem splitParameters_comma {type : List Char} (htype : TypeText.depthAfter 0 type = some 0)
    (rest : List Char) :
    splitParameters 0 [] (type ++ ',' :: rest) = type :: splitParameters 0 [] rest := by
  have hread := splitParameters_append htype [] (',' :: rest)
  simpa [splitParameters] using hread

/-- Every piece but the first begins with the blank behind its comma. -/
theorem splitParameters_joined (first : List Char) {types : List (List Char)}
    (htypes : ∀ t ∈ first :: types, TypeText.depthAfter 0 t = some 0) :
    splitParameters 0 [] ([',', ' '].intercalate (first :: types)) =
      first :: types.map (' ' :: ·) := by
  induction types generalizing first with
  | nil =>
      rw [List.intercalate_singleton]
      exact splitParameters_type (htypes first (by simp))
  | cons t ts ih =>
      have hjoined : [',', ' '].intercalate (first :: t :: ts) =
          first ++ ',' :: [',', ' '].intercalate ((' ' :: t) :: ts) := by
        rw [List.intercalate_cons_cons]
        cases ts <;> simp [List.intercalate_cons_cons]
      have hrest : ∀ u ∈ (' ' :: t) :: ts, TypeText.depthAfter 0 u = some 0 := by
        intro u hu
        rcases List.mem_cons.mp hu with rfl | hu
        · exact htypes t (by simp)
        · exact htypes u (by simp [hu])
      rw [hjoined, splitParameters_comma (htypes first (by simp)), ih (' ' :: t) hrest]
      rfl

theorem parametersOf_joined {types : List (List Char)}
    (htypes : ∀ t ∈ types, TypeText.IsOneType t ∧ Text.trim Text.isBlank t = t) :
    parametersOf ([',', ' '].intercalate types) = types := by
  have htrim : (splitParameters 0 [] ([',', ' '].intercalate types)).map
      (Text.trim Text.isBlank) = if types = [] then [[]] else types := by
    cases types with
    | nil => rfl
    | cons first types =>
        rw [splitParameters_joined first fun t ht => (htypes t ht).1.2]
        simp only [List.map_cons, List.map_map, (htypes first (by simp)).2, reduceCtorEq, if_false]
        have hpieces : types.map (Text.trim Text.isBlank ∘ (' ' :: ·)) = types := by
          refine (List.map_congr_left fun t ht => ?_).trans (List.map_id types)
          exact (Text.trim_cons_of_blank (by decide) t).trans (htypes t (by simp [ht])).2
        rw [hpieces]
  unfold parametersOf
  rw [htrim]
  split
  case isTrue hnone => simp [hnone]
  case isFalse hsome =>
    refine List.filter_eq_self.mpr fun t ht => ?_
    simpa using (htypes t ht).1.1

/-! ## The whole text -/

/-- Whether a spec can spell an owner, a name and a list of parameter types. -/
structure CanSpell (owner name inner : List Char) : Prop where
  owner : owner ≠ [] ∧ owner.all isOwnerChar = true
  name : name ≠ [] ∧ name.all isNameChar = true
  inner : ')' ∉ inner

instance (owner name inner : List Char) : Decidable (CanSpell owner name inner) :=
  decidable_of_iff ((owner ≠ [] ∧ owner.all isOwnerChar = true) ∧
      (name ≠ [] ∧ name.all isNameChar = true) ∧ ')' ∉ inner)
    ⟨fun h => ⟨h.1, h.2.1, h.2.2⟩, fun h => ⟨h.1, h.2, h.3⟩⟩

variable {owner name : List Char}

theorem CanSpell.belongs {inner : List Char} {sign : Char} (h : CanSpell owner name inner)
    (hsign : isSeparator sign = true) :
    ∀ c ∈ owner ++ sign :: name, (isOwnerChar c || isSeparator c) = true := by
  intro c hc
  have howner := List.all_eq_true.mp h.owner.2
  have hname := List.all_eq_true.mp h.name.2
  simp only [List.mem_append, List.mem_cons] at hc
  rcases hc with hc | rfl | hc
  · simp [howner c hc]
  · simp [hsign]
  · simp [isOwnerChar, hname c hc]

theorem trim_shown (inner : List Char) (hstart : ∀ c ∈ owner.head?, Text.isBlank c = false) :
    Text.trim Text.isBlank (owner ++ '#' :: name ++ '(' :: (inner ++ [')'])) =
      owner ++ '#' :: name ++ '(' :: (inner ++ [')']) := by
  apply Text.trim_eq_self
  · cases owner with
    | nil => simp [show Text.isBlank '#' = false by decide]
    | cons c owner => simpa using hstart
  · have hend : owner ++ '#' :: name ++ '(' :: (inner ++ [')']) =
        (owner ++ '#' :: name ++ '(' :: inner) ++ [')'] := by simp
    intro c hc
    rw [hend, List.getLast?_concat] at hc
    cases hc
    decide

/-- A character that belongs to no owner and no name begins a text that is no list. -/
theorem tail?_of_stray (rest : List Char) (howner : '(' ∉ owner)
    (hname : ∀ c ∈ name, c ≠ '(' ∧ Text.isBlank c = false)
    (hstray : ∃ c ∈ owner ++ '#' :: name, (isOwnerChar c || isSeparator c) = false) :
    tail? ((owner ++ '#' :: name ++ rest).dropWhile fun c => isOwnerChar c || isSeparator c) =
      none := by
  have hleft : (owner ++ '#' :: name).dropWhile (fun c => isOwnerChar c || isSeparator c) ≠ [] := by
    obtain ⟨c, hc, hstray⟩ := hstray
    intro hnil
    have hbelongs := List.dropWhile_eq_nil_iff.mp hnil c hc
    rw [hstray] at hbelongs
    cases hbelongs
  rw [List.dropWhile_append, if_neg (by simpa using hleft)]
  apply tail?_of_text
  · intro hopen
    have hmem := (List.dropWhile_sublist _).subset hopen
    simp only [List.mem_append, List.mem_cons] at hmem
    rcases hmem with hmem | hmem | hmem
    · exact howner hmem
    · cases hmem
    · exact (hname _ hmem).1 rfl
  · rw [List.dropWhile_append] at hleft ⊢
    split at hleft
    case isTrue hall =>
      rw [List.dropWhile_cons_of_pos rfl] at hleft
      rw [if_pos hall, List.dropWhile_cons_of_pos rfl]
      obtain ⟨c, more, hmore⟩ := List.exists_cons_of_ne_nil hleft
      have hc : c ∈ name := (List.dropWhile_sublist _).subset (hmore ▸ List.mem_cons_self)
      exact ⟨c, hmore ▸ List.mem_cons_self, (hname c hc).2⟩
    case isFalse hsome =>
      rw [if_neg hsome]
      exact ⟨'#', by simp, by decide⟩

/-- The text that shows a method is read as what it was made of, or as nothing. -/
theorem ofChars?_shown (inner : List Char) (howner : '(' ∉ owner)
    (hstart : ∀ c ∈ owner.head?, Text.isBlank c = false)
    (hname : ∀ c ∈ name, c ≠ '(' ∧ Text.isBlank c = false) :
    ofChars? (owner ++ '#' :: name ++ '(' :: (inner ++ [')'])) =
      if CanSpell owner name inner then
        some ⟨String.ofList owner, String.ofList name,
          some ((parametersOf inner).map String.ofList)⟩
      else none := by
  unfold ofChars?
  simp only [trim_shown inner hstart]
  by_cases hfront : ∀ c ∈ owner ++ '#' :: name, (isOwnerChar c || isSeparator c) = true
  · have hopen : (isOwnerChar '(' || isSeparator '(') = false := by decide
    rw [List.takeWhile_append_of_pos hfront, List.dropWhile_append_of_pos hfront,
      List.takeWhile_cons_of_neg (by simp [hopen]), List.dropWhile_cons_of_neg (by simp [hopen]),
      List.append_nil, tail?_parenthesised]
    cases hsplit : split? (owner ++ '#' :: name) with
    | none =>
        have hno : ¬CanSpell owner name inner := by
          intro h
          have hparts := split?_sign_eq_some_iff.mpr ⟨rfl, fun c hc =>
            isSeparator_of_isNameChar (List.all_eq_true.mp h.name.2 c hc), h.name.1, h.owner.1,
            h.owner.2⟩
          rw [hsplit] at hparts
          cases hparts
        rw [if_neg hno]
        rfl
    | some parts =>
        obtain ⟨rfl, hseparators, hnonempty, howned, hchars⟩ := split?_sign_eq_some_iff.mp hsplit
        have hletters : name.all isNameChar = true := by
          refine List.all_eq_true.mpr fun c hc => ?_
          exact isNameChar_of_belongs (hfront c (by simp [hc])) (hseparators c hc)
        by_cases hclosed : ')' ∈ inner
        · rw [if_pos hclosed, if_neg fun h => h.inner hclosed]
          rfl
        · rw [if_neg hclosed, if_pos ⟨⟨howned, hchars⟩, ⟨hnonempty, hletters⟩, hclosed⟩]
          rfl
  · have hno : ¬CanSpell owner name inner := fun h => hfront (h.belongs rfl)
    have hstray : ∃ c ∈ owner ++ '#' :: name, (isOwnerChar c || isSeparator c) = false := by
      simpa using hfront
    rw [if_neg hno, tail?_of_stray _ howner hname hstray]
    cases split? _ <;> rfl

end MethodSpec

end EntryPoints
