import SuiteScore.Path.Basic

/-! The path above a path has its steps without the last, however the path is written: dots and
doubled slashes are no steps. The paths above one another end with the empty path or the root.
-/

namespace SuiteScore.Path

open Text

-----------------------------------------------------------------------------------------
-- Steps between slashes
-----------------------------------------------------------------------------------------

/-- The steps of the parts between slashes, none of which is special as the first part. -/
def innerSteps (text : Text) : List Component :=
  (text.splitOn '/').filterMap Component.ofPart?

/-- Parts before and after a slash are steps for themselves. -/
theorem innerSteps_append (before after : Text)
    : innerSteps (before ++ '/' :: after) = innerSteps before ++ innerSteps after := by
  rw [innerSteps, List.splitOn_append_cons_self, List.filterMap_append]
  rfl

/-- A part without a slash that is not idle is one step. -/
theorem exists_innerSteps_of_part {part : Text} (h : '/' ∉ part) (hne : part ≠ [])
    (hdot : part ≠ ("." : Text))
    : ∃ step, innerSteps part = [step] ∧ step ≠ .root := by
  rw [innerSteps, List.splitOn_eq_singleton h]
  by_cases habove : part = (".." : Text)
  · exact ⟨.above, by simp [Component.ofPart?, habove], by simp⟩
  · exact ⟨.name part, by simp_all [Component.ofPart?], by simp⟩

/-- What is dropped from the end of a path is no step. -/
theorem innerSteps_dropIdle (reversed : Text)
    : innerSteps (dropIdle reversed).reverse = innerSteps reversed.reverse := by
  fun_induction dropIdle reversed with
  | case1 rest ih =>
      rw [ih, List.reverse_cons, innerSteps_append]
      exact (List.append_nil _).symm
  | case2 rest ih =>
      rw [ih, List.reverse_cons, List.reverse_cons, List.append_assoc, List.singleton_append,
        innerSteps_append]
      exact (List.append_nil _).symm
  | case3 => rfl
  | case4 => rfl

/-- No dot between slashes is left at the end. -/
theorem dropIdle_ne_dot (reversed : Text)
    : dropIdle reversed ≠ ['.'] ∧ ∀ rest, dropIdle reversed ≠ '.' :: '/' :: rest := by
  fun_induction dropIdle reversed with
  | case1 rest ih => exact ih
  | case2 rest ih => exact ih
  | case3 => simp
  | case4 other _ hdots hdot => exact ⟨hdot, fun rest => hdots rest⟩

-----------------------------------------------------------------------------------------
-- The start of a path
-----------------------------------------------------------------------------------------

/-- The steps that the start of a path stands for. -/
def startSteps : Text → List Component
  | ['/'] => [.root]
  | ['.'] => [.here]
  | _ => []

/-- A text whose first part is a dot is the dot or goes on with a slash. -/
theorem eq_of_splitOn_dot {text : Text} {parts : List Text}
    (h : text.splitOn '/' = ['.'] :: parts)
    : text = ['.'] ∨ ∃ rest, text = '.' :: '/' :: rest := by
  have htext : ['/'].intercalate (text.splitOn '/') = text := List.intercalate_splitOn '/'
  rw [h] at htext
  cases parts with
  | nil => exact .inl htext.symm
  | cons next more => exact .inr ⟨_, htext.symm⟩

/-- A path that starts neither with the root nor with a part that is a dot. -/
structure IsPlain (path : Text) : Prop where
  root : ∀ rest, path ≠ '/' :: rest
  dot : path ≠ ['.']
  dots : ∀ rest, path ≠ '.' :: '/' :: rest

theorem IsPlain.splitStart_eq {path : Text} (h : IsPlain path) : splitStart path = ([], path) := by
  unfold splitStart
  split
  · next rest => exact absurd rfl (h.root rest)
  · exact absurd rfl h.dot
  · next rest => exact absurd rfl (h.dots rest)
  · rfl

/-- The root, a leading dot, or neither is the start of a path. -/
theorem path_cases (path : Text)
    : (∃ rest, path = '/' :: rest) ∨ path = ['.'] ∨ (∃ rest, path = '.' :: '/' :: rest)
      ∨ IsPlain path := by
  by_cases hroot : ∃ rest, path = '/' :: rest
  · exact .inl hroot
  · by_cases hdot : path = ['.']
    · exact .inr (.inl hdot)
    · by_cases hdots : ∃ rest, path = '.' :: '/' :: rest
      · exact .inr (.inr (.inl hdots))
      · exact .inr (.inr (.inr ⟨not_exists.mp hroot, hdot, not_exists.mp hdots⟩))

/-- The steps of a path are those of its start and of the parts behind it. -/
theorem components_eq (path : Text)
    : components path = startSteps (splitStart path).1 ++ innerSteps (splitStart path).2 := by
  rcases path_cases path with ⟨rest, rfl⟩ | rfl | ⟨rest, rfl⟩ | hplain
  · rfl
  · rfl
  · have hsplit : ('.' :: '/' :: rest).splitOn '/' = ['.'] :: rest.splitOn '/' :=
      List.splitOn_append_cons_self ['.'] rest
    have hrest : innerSteps ('/' :: rest) = innerSteps rest := innerSteps_append [] rest
    rw [splitStart, hrest]
    unfold components
    split
    · next he => cases he
    · rw [hsplit]
      rfl
  · rw [hplain.splitStart_eq]
    unfold components
    split
    · next rest => exact absurd rfl (hplain.root rest)
    · cases hsplit : path.splitOn '/' with
      | nil => simp [innerSteps, hsplit, startSteps]
      | cons first rest =>
          have hfirst : first ≠ ("." : Text) := by
            rintro rfl
            rcases eq_of_splitOn_dot hsplit with he | ⟨more, he⟩
            · exact hplain.dot he
            · exact hplain.dots more he
          simp only [innerSteps, hsplit, startSteps, if_neg hfirst, List.nil_append,
            List.filterMap_cons]
          cases Component.ofPart? first <;> rfl

-----------------------------------------------------------------------------------------
-- What is left of a path
-----------------------------------------------------------------------------------------

/-- A text, which is given from its last character on, is left of a whole when nothing or whole
parts between slashes are missing at the end.
-/
def IsLeft (left whole : Text) : Prop :=
  left = [] ∨ left = whole ∨ ∃ parts, whole = parts ++ '/' :: left

theorem IsLeft.trans {left mid whole : Text} (h : IsLeft left mid) (hmid : IsLeft mid whole)
    : IsLeft left whole := by
  rcases h with rfl | rfl | ⟨parts, rfl⟩
  · exact .inl rfl
  · exact hmid
  · rcases hmid with he | rfl | ⟨more, rfl⟩
    · simp at he
    · exact .inr (.inr ⟨parts, rfl⟩)
    · exact .inr (.inr ⟨more ++ '/' :: parts, by simp⟩)

theorem isLeft_cons (part left : Text) : IsLeft left (part ++ '/' :: left) :=
  .inr (.inr ⟨part, rfl⟩)

/-- Only whole parts are dropped from the end of a path. -/
theorem isLeft_dropIdle (reversed : Text) : IsLeft (dropIdle reversed) reversed := by
  fun_induction dropIdle reversed with
  | case1 rest ih => exact ih.trans (isLeft_cons [] rest)
  | case2 rest ih => exact ih.trans (isLeft_cons ['.'] rest)
  | case3 => exact .inl rfl
  | case4 => exact .inr (.inl rfl)

/-- What is left of a plain path is plain. -/
theorem IsPlain.of_append {front parts : Text} (h : IsPlain (front ++ '/' :: parts))
    : IsPlain front := by
  refine ⟨?_, ?_, ?_⟩
  · rintro rest rfl
    exact h.root _ rfl
  · rintro rfl
    exact h.dots _ rfl
  · rintro rest rfl
    exact h.dots _ rfl

/-- What is left of a path has the same start. -/
theorem splitStart_of_isLeft {path left : Text} (h : IsLeft left (splitStart path).2.reverse)
    : splitStart ((splitStart path).1 ++ left.reverse) = ((splitStart path).1, left.reverse) := by
  rcases h with rfl | rfl | ⟨parts, hparts⟩
  · rw [List.reverse_nil, List.append_nil, splitStart.eq_def path]
    split <;> rfl
  · rw [List.reverse_reverse, splitStart_append]
  · have hfront := congrArg List.reverse hparts
    rw [List.reverse_reverse, List.reverse_append, List.reverse_cons, List.append_assoc] at hfront
    rcases path_cases path with ⟨rest, rfl⟩ | rfl | ⟨rest, rfl⟩ | hplain
    · rfl
    · simp [splitStart] at hfront
    · generalize left.reverse = front at hfront
      cases front with
      | nil => rfl
      | cons c more =>
          obtain ⟨rfl, _⟩ := List.cons.inj hfront
          rfl
    · rw [hplain.splitStart_eq] at hfront ⊢
      have hleft : IsPlain (left.reverse ++ '/' :: parts.reverse) := hfront ▸ hplain
      exact hleft.of_append.splitStart_eq

-----------------------------------------------------------------------------------------
-- The path above
-----------------------------------------------------------------------------------------

/-- Of a path, which is given from its last character on, the part before the first slash and what
comes with that slash.
-/
theorem exists_part (reversed : Text)
    : ∃ part, '/' ∉ part
        ∧ (reversed = part ∧ reversed.dropWhile (· != '/') = []
          ∨ ∃ more, reversed = part ++ '/' :: more
              ∧ reversed.dropWhile (· != '/') = '/' :: more) := by
  have hsplit := List.takeWhile_append_dropWhile (p := (· != '/')) (l := reversed)
  have hhead := List.head?_dropWhile_not (· != '/') reversed
  refine ⟨reversed.takeWhile (· != '/'), fun hin => ?_, ?_⟩
  · simpa using List.all_eq_true.mp List.all_takeWhile _ hin
  · generalize reversed.dropWhile (· != '/') = left at hsplit hhead ⊢
    cases left with
    | nil => exact .inl ⟨hsplit.symm.trans (List.append_nil _), rfl⟩
    | cons c more =>
        have hc : c = '/' := by simpa using hhead
        subst hc
        exact .inr ⟨more, hsplit.symm, rfl⟩

/-- What is left above the last step is left of the path. -/
theorem isLeft_above (reversed : Text)
    : IsLeft (dropIdle (reversed.dropWhile (· != '/'))) reversed := by
  obtain ⟨part, _, ⟨_, hleft⟩ | ⟨more, hreversed, hleft⟩⟩ := exists_part reversed
  · rw [hleft]
    exact .inl rfl
  · rw [hleft, hreversed]
    exact (isLeft_dropIdle more).trans (isLeft_cons part more)

/-- The part at the end of a path that does not end idly is one step. -/
theorem exists_innerSteps_of_end {rest : Text} (hne : dropIdle rest ≠ [])
    : ∃ last,
        innerSteps (dropIdle rest).reverse
            = innerSteps ((dropIdle rest).dropWhile (· != '/')).reverse ++ [last]
          ∧ last ≠ .root := by
  have hslash := dropIdle_ne_slash rest
  obtain ⟨hdot, hdots⟩ := dropIdle_ne_dot rest
  obtain ⟨part, hpart, ⟨hend, hleft⟩ | ⟨more, hend, hleft⟩⟩ := exists_part (dropIdle rest)
  · rw [hend] at hne hdot
    have hpart : '/' ∉ part.reverse := by simpa using hpart
    obtain ⟨last, hlast, hroot⟩ := exists_innerSteps_of_part hpart (by simpa using hne)
      fun he => hdot (by simpa using congrArg List.reverse he)
    exact ⟨last, by rw [hleft, hend, hlast]; rfl, hroot⟩
  · have hpartne : part ≠ [] := fun he => hslash more (by rw [hend, he]; rfl)
    have hpartdot : part ≠ ['.'] := fun he => hdots more (by rw [hend, he]; rfl)
    have hpart : '/' ∉ part.reverse := by simpa using hpart
    obtain ⟨last, hlast, hroot⟩ := exists_innerSteps_of_part hpart (by simpa using hpartne)
      fun he => hpartdot (by simpa using congrArg List.reverse he)
    have hmore : innerSteps ('/' :: more).reverse = innerSteps more.reverse := by
      rw [List.reverse_cons, innerSteps_append]
      exact List.append_nil _
    refine ⟨last, ?_, hroot⟩
    rw [hleft, hend, hmore, ← hlast, List.reverse_append, List.reverse_cons, List.append_assoc]
    exact innerSteps_append _ _

/-- The path above a path has its steps without the last, which is not the root. -/
theorem exists_components_of_parent? {path above : Text} (h : parent? path = some above)
    : ∃ last, components path = components above ++ [last] ∧ last ≠ .root := by
  have hpath := components_eq path
  have hstart := @splitStart_of_isLeft path
  unfold parent? at h
  generalize splitStart path = parts at h hpath hstart
  obtain ⟨start, rest⟩ := parts
  dsimp only at h hpath hstart
  have hsteps := innerSteps_dropIdle rest.reverse
  rw [List.reverse_reverse] at hsteps
  split at h
  · next hidle =>
      split at h
      · next hdot =>
          cases h
          rw [hidle] at hsteps
          exact ⟨.here, by rw [hpath, hdot, ← hsteps]; rfl, by simp⟩
      · cases h
  · next hne =>
      cases h
      have hleft := (isLeft_above _).trans (isLeft_dropIdle rest.reverse)
      obtain ⟨last, hlast, hroot⟩ := exists_innerSteps_of_end hne
      refine ⟨last, ?_, hroot⟩
      rw [hpath, components_eq, hstart hleft, innerSteps_dropIdle, ← hsteps, hlast,
        List.append_assoc]

/-- Nothing is above a path without steps, and above the root. -/
theorem components_of_parent?_eq_none {path : Text} (h : parent? path = none)
    : components path = [] ∨ components path = [.root] := by
  rw [components_eq]
  unfold parent? at h
  generalize splitStart path = parts at h ⊢
  obtain ⟨start, rest⟩ := parts
  dsimp only at h ⊢
  have hsteps := innerSteps_dropIdle rest.reverse
  rw [List.reverse_reverse] at hsteps
  split at h
  · next hidle =>
      rw [hidle] at hsteps
      split at h
      · cases h
      · next hdot =>
          rw [← hsteps]
          unfold startSteps
          split
          · exact .inr rfl
          · exact absurd rfl hdot
          · exact .inl rfl
  · cases h

-----------------------------------------------------------------------------------------
-- Paths above one another
-----------------------------------------------------------------------------------------

/-- The path that is a number of steps above another. -/
def above? : Nat → Text → Option Text
  | 0, path => some path
  | n + 1, path => (parent? path).bind (above? n)

/-- The path above another lacks as many steps, by induction on their number. -/
theorem components_of_above? {n : Nat} {path above : Text} (h : above? n path = some above)
    : components above = (components path).take ((components path).length - n) := by
  induction n generalizing path with
  | zero =>
      cases h
      rw [Nat.sub_zero, List.take_length]
  | succ n ih =>
      obtain ⟨next, hnext, hrest⟩ := Option.bind_eq_some_iff.mp h
      obtain ⟨last, hlast, _⟩ := exists_components_of_parent? hnext
      rw [ih hrest, hlast, List.length_append, List.length_singleton, Nat.add_sub_add_right,
        List.take_append_of_le_length (Nat.sub_le _ _)]

/-- There are as many paths above a path as it has steps, the root being no step up, by induction on
the number of steps.
-/
theorem exists_above?_iff {n : Nat} {path : Text}
    : (∃ above, above? n path = some above)
      ↔ n ≤ (components path).length
        ∧ ((components path).head? = some .root → n < (components path).length) := by
  induction n generalizing path with
  | zero =>
      refine ⟨fun _ => ⟨Nat.zero_le _, fun hroot => ?_⟩, fun _ => ⟨path, rfl⟩⟩
      exact List.length_pos_of_mem (List.mem_of_mem_head? hroot)
  | succ n ih =>
      cases hparent : parent? path with
      | none =>
          simp only [above?, hparent, Option.bind_none]
          rcases components_of_parent?_eq_none hparent with hnone | hroot
          · simp [hnone]
          · simp [hroot]
      | some next =>
          obtain ⟨last, hlast, hroot⟩ := exists_components_of_parent? hparent
          have hhead : (components path).head? = some .root
              ↔ (components next).head? = some .root := by
            rw [hlast]
            cases components next with
            | nil => simpa using hroot
            | cons first rest => simp
          simp only [above?, hparent, Option.bind_some, ih, hhead]
          simp [hlast]

end SuiteScore.Path
