import SuiteScore.Proofs.Support.DefinitionTail

/-! The patterns of step definitions. A string ends at its first quote that is not escaped, and a
regular expression at the last slash that the rest of a header can follow.
-/

namespace SuiteScore.Support

open Text

-----------------------------------------------------------------------------------------
-- Literals
-----------------------------------------------------------------------------------------

/-- The delimiter stands in the text only behind a backslash. A backslash takes one character with
it.
-/
inductive IsEscaped (delimiter : Char) : Text → Prop
  | nil : IsEscaped delimiter []
  | plain {c rest} (hd : c ≠ delimiter) (hb : c ≠ '\\') (hr : IsEscaped delimiter rest)
    : IsEscaped delimiter (c :: rest)
  | pair {c rest} (hr : IsEscaped delimiter rest) : IsEscaped delimiter ('\\' :: c :: rest)

/-- A literal for a pattern: a regular expression with flags, or a string. -/
inductive IsPattern : Text → Prop
  | expression {body flags} (hb : IsEscaped '/' body) (hf : AreFlags flags)
    : IsPattern ('/' :: (body ++ '/' :: flags))
  | string {quote body} (hq : quote = '\x27' ∨ quote = '\x22') (hb : IsEscaped quote body)
    : IsPattern (quote :: (body ++ [quote]))

/-- A header can end with this text behind a slash: it has flags and a tail, in the same line. -/
def EndsHeader (text : Text) : Prop :=
  ∃ flags tail parameters, text = flags ++ tail ∧ AreFlags flags ∧ WritesTail parameters tail

namespace DefinitionHeader

variable {quote : Char} {body flags tail text front after pattern : Text} {parameters : List Text}

-----------------------------------------------------------------------------------------
-- Strings
-----------------------------------------------------------------------------------------

/-- A string is cut behind its escaped text, by induction on how the text is escaped. -/
theorem cutString?_append (hb : IsEscaped quote body) (hq : quote ≠ '\\') (hn : '\n' ∉ body)
    (rest : Text)
    : cutString? quote (body ++ quote :: rest) = some (body, rest) := by
  induction hb with
  | nil =>
      rw [List.nil_append, cutString?, if_pos rfl]
      · exact fun h => absurd h hq
      · exact fun _ _ h => absurd h hq
  | @plain c more hd hback _ ih =>
      rw [List.cons_append, cutString?, if_neg hd, ih fun hin => hn (List.mem_cons_of_mem _ hin)]
      · rfl
      · exact fun h => absurd h hback
      · exact fun _ _ h => absurd h hback
  | @pair c more _ ih =>
      have hc : c ≠ '\n' := fun h => hn (by simp [h])
      have hmore : '\n' ∉ more := fun hin =>
        hn (List.mem_cons_of_mem _ (List.mem_cons_of_mem _ hin))
      rw [List.cons_append, List.cons_append, cutString?, if_neg hc, ih hmore]
      rfl

/-- A string and a tail behind it are read as they are written. -/
theorem readString_append (hb : IsEscaped quote body) (hq : quote ≠ '\\') (hn : '\n' ∉ body)
    (ht : WritesTail parameters tail)
    : readString quote (body ++ quote :: tail) = some (quote :: body ++ [quote], parameters) := by
  simp only [readString, cutString?_append hb hq hn, Option.bind_some,
    readTail_eq_some_iff.mpr ht, Option.map_some]

-----------------------------------------------------------------------------------------
-- Regular expressions
-----------------------------------------------------------------------------------------

/-- The slashes in two texts are those of the first behind those of the second, by induction on the
first, which holds no line feed.
-/
theorem slashSplits_append (hn : '\n' ∉ front) (back : Text)
    : slashSplits (front ++ back)
      = (slashSplits back).map (fun (body, after) => (front ++ body, after))
        ++ (slashSplits front).map (fun (body, after) => (body, after ++ back)) := by
  induction front with
  | nil => simp [slashSplits]
  | cons c more ih =>
      rw [List.mem_cons, not_or] at hn
      rw [List.cons_append, slashSplits, slashSplits, if_neg (Ne.symm hn.1), if_neg (Ne.symm hn.1),
        ih hn.2]
      by_cases hc : c = '/' <;> simp [hc, Function.comp_def]

/-- The ways to end a regular expression in one line are the ways to split it at a slash, by
induction on the line.
-/
theorem mem_slashSplits (hn : '\n' ∉ text)
    : (body, after) ∈ slashSplits text ↔ text = body ++ '/' :: after := by
  induction text generalizing body with
  | nil => simp [slashSplits]
  | cons c more ih =>
      rw [List.mem_cons, not_or] at hn
      cases body with
      | nil => by_cases hc : c = '/' <;> simp [slashSplits, hc, Ne.symm hn.1, eq_comm]
      | cons d rest =>
          have hmore : (rest, after) ∈ slashSplits more ↔ more = rest ++ '/' :: after := ih hn.2
          by_cases hc : c = '/' <;> simp [slashSplits, hc, Ne.symm hn.1, ← hmore, and_comm]

/-- What is read behind one slash of a regular expression: flags and the parameters of a tail. -/
def readFlags (body after : Text) : Option (Text × List Text) :=
  (flagSplits after).findSome? fun (flags, rest) =>
    (readTail rest).map (("/" ++ body ++ "/" ++ flags : Text), ·)

/-- Flags and a tail are read behind a slash exactly if they are written there. They can be written
in one way only, so it does not matter how many letters are tried first.
-/
theorem readFlags_eq_some_iff
    : readFlags body after = some (pattern, parameters)
      ↔ ∃ flags tail, after = flags ++ tail ∧ AreFlags flags ∧ WritesTail parameters tail
          ∧ pattern = '/' :: (body ++ '/' :: flags) := by
  have hfound : ∀ {found}, readFlags body after = some found →
      ∃ flags tail, after = flags ++ tail ∧ AreFlags flags ∧ WritesTail found.2 tail
        ∧ found.1 = '/' :: (body ++ '/' :: flags) := by
    intro found h
    obtain ⟨⟨flags, tail⟩, hin, hread⟩ := List.exists_of_findSome?_eq_some h
    obtain ⟨hafter, hflags⟩ := mem_flagSplits.mp hin
    obtain ⟨parameters, htail, rfl⟩ := Option.map_eq_some_iff.mp hread
    exact ⟨flags, tail, hafter, hflags, readTail_eq_some_iff.mp htail, by simp⟩
  refine ⟨fun h => hfound h, ?_⟩
  rintro ⟨flags, tail, rfl, hf, ht, rfl⟩
  cases hread : readFlags body (flags ++ tail) with
  | none =>
      have hnone := List.findSome?_eq_none_iff.mp hread (flags, tail) (mem_flagSplits.mpr ⟨rfl, hf⟩)
      simp [readTail_eq_some_iff.mpr ht] at hnone
  | some found =>
      obtain ⟨letters, rest, he, hl, hr, hpattern⟩ := hfound hread
      obtain ⟨rfl, rfl⟩ := WritesTail.flags_unique he hf hl ht hr
      have hsame := (readTail_eq_some_iff.mpr hr).symm.trans (readTail_eq_some_iff.mpr ht)
      exact congrArg some (Prod.ext hpattern (Option.some.inj hsame))

/-- Something is read behind a slash exactly if a header can end there. -/
theorem readFlags_isSome_iff : (∃ found, readFlags body after = some found) ↔ EndsHeader after := by
  constructor
  · rintro ⟨found, h⟩
    obtain ⟨flags, tail, hafter, hf, ht, _⟩ := readFlags_eq_some_iff.mp h
    exact ⟨flags, tail, _, hafter, hf, ht⟩
  · rintro ⟨flags, tail, parameters, hafter, hf, ht⟩
    exact ⟨_, readFlags_eq_some_iff.mpr ⟨flags, tail, hafter, hf, ht, rfl⟩⟩

/-- A slash behind flags stands in the text that follows them. -/
theorem exists_of_slash {part : Text} (hf : AreFlags flags)
    (h : flags ++ tail = part ++ '/' :: after)
    : ∃ front, part = flags ++ front ∧ tail = front ++ '/' :: after := by
  rcases List.append_eq_append_iff.mp h with ⟨front, hpart, htail⟩ | ⟨more, hflags, hafter⟩
  · exact ⟨front, hpart, htail⟩
  · cases more with
    | nil => exact ⟨[], by simpa using hflags.symm, hafter.symm⟩
    | cons c rest =>
        obtain ⟨rfl, _⟩ := List.cons_eq_cons.mp hafter
        have hslash := hf '/' (by simp [hflags])
        cases hslash

/-- A regular expression with its flags and a tail is read in any case, and as it is written exactly
if no header can end behind a slash of the tail. Otherwise what is read goes on to such a slash.
-/
theorem readExpression_append (hn : '\n' ∉ body ++ '/' :: (flags ++ tail)) (hf : AreFlags flags)
    (ht : WritesTail parameters tail)
    : ∃ found, readExpression (body ++ '/' :: (flags ++ tail)) = some found
        ∧ (found = ('/' :: (body ++ '/' :: flags), parameters)
          ↔ ∀ front back, tail = front ++ '/' :: back → ¬EndsHeader back) := by
  have hbody : '\n' ∉ body ++ ['/'] := fun hin => hn (by
    rw [List.append_cons]
    exact List.mem_append_left _ hin)
  have hrest : '\n' ∉ flags ++ tail := fun hin => hn (by simp [List.mem_append.mp hin])
  -- The slashes behind the expression come first, then its own one.
  have hsplits : readExpression (body ++ '/' :: (flags ++ tail))
      = ((slashSplits (flags ++ tail)).findSome? fun (part, after) =>
          readFlags (body ++ '/' :: part) after).or
        (some ('/' :: (body ++ '/' :: flags), parameters)) := by
    have hown : readFlags body (flags ++ tail)
        = some ('/' :: (body ++ '/' :: flags), parameters) :=
      readFlags_eq_some_iff.mpr ⟨flags, tail, rfl, hf, ht, rfl⟩
    have hfirst : slashSplits (body ++ ['/'])
        = (body, []) :: (slashSplits body).map (fun (part, after) => (part, after ++ ['/'])) := by
      rw [slashSplits_append fun hin => hbody (List.mem_append_left _ hin)]
      simp [slashSplits]
    change (slashSplits _).findSome? (fun (part, after) => readFlags part after) = _
    rw [List.append_cons, slashSplits_append hbody, hfirst, List.map_cons, List.findSome?_append,
      List.findSome?_map, List.findSome?_cons]
    simp [hown, Function.comp_def]
  cases hlater : (slashSplits (flags ++ tail)).findSome? fun (part, after) =>
      readFlags (body ++ '/' :: part) after with
  | none =>
      refine ⟨_, by rw [hsplits, hlater]; rfl, iff_of_true rfl fun front back he hends => ?_⟩
      obtain ⟨found, hfound⟩ := readFlags_isSome_iff.mpr hends
      have hin : (flags ++ front, back) ∈ slashSplits (flags ++ tail) :=
        (mem_slashSplits hrest).mpr (by rw [he, List.append_assoc])
      have hnone := List.findSome?_eq_none_iff.mp hlater _ hin
      cases hnone.symm.trans hfound
  | some found =>
      refine ⟨found, by rw [hsplits, hlater]; rfl, ?_⟩
      obtain ⟨⟨part, after⟩, hin, hread⟩ := List.exists_of_findSome?_eq_some hlater
      obtain ⟨letters, rest, hafter, hl, hr, hpattern⟩ := readFlags_eq_some_iff.mp hread
      obtain ⟨front, rfl, htail⟩ := exists_of_slash hf ((mem_slashSplits hrest).mp hin)
      refine iff_of_false (fun he => ?_) fun hall => hall front after htail ⟨letters, rest, _,
        hafter, hl, hr⟩
      have hlength := congrArg List.length (hpattern.symm.trans (congrArg Prod.fst he))
      simp only [List.length_cons, List.length_append] at hlength
      omega

end DefinitionHeader

end SuiteScore.Support
