import SuiteScore.Proofs.Gherkin.Knowledge

/-! A text is accepted exactly when its lines keep the rules of feature files. -/

namespace SuiteScore.Gherkin

open Text

/-- Whether a line may stand before the feature line, is the first one, or comes after it. -/
def Line.InOrder (said : List (Option Line)) (line : Line) : Prop :=
  line.isPreface = true ∨ line.isFeature = !mentions Line.isFeature said

namespace Reader

variable {reader next : Reader} {n : Nat} {said : List (Option Line)} {lines : List Text}

-----------------------------------------------------------------------------------------
-- Guards
-----------------------------------------------------------------------------------------

/-! Every way to take a line has a guard, which looks at the reader alone. -/

section Guards

variable {name text : Text}

theorem exists_addTags_iff {tokens : List Text}
    : (∃ next, reader.addTags n tokens = .ok next) ↔ ∀ token ∈ tokens, isTag token = true := by
  unfold addTags
  split
  · next token hf =>
      have hbad : isTag token = false := by simpa using List.find?_some hf
      refine ⟨nofun, fun h => ?_⟩
      rw [h token (List.mem_of_find?_eq_some hf)] at hbad
      cases hbad
  · next hf => exact ⟨fun _ => by simpa using hf, fun _ => ⟨_, rfl⟩⟩

theorem exists_openFeature_iff
    : (∃ next, reader.openFeature n name = .ok next) ↔ reader.feature = none := by
  unfold openFeature
  split
  · next hf => simp [hf]
  · next hf => simp [hf]

theorem exists_openElement_iff {keyword : ElementKeyword}
    : (∃ next, reader.openElement n keyword name = .ok next)
      ↔ ∃ feature, reader.closeElement.feature = some feature
          ∧ (keyword.kind = .background → feature.isBare = true) := by
  simp only [openElement]
  split
  · next hf => simp [hf]
  · next feature hf =>
      split
      · next hb => simp_all
      · next hb => simpa [hf] using hb

theorem exists_openExamples_iff {keyword : ExamplesKeyword}
    : (∃ next, reader.openExamples n keyword name = .ok next)
      ↔ ∃ element, reader.current = some element ∧ element.kind = .outline := by
  simp only [openExamples]
  split
  · next element hc => split <;> simp_all
  · next hc => simp [hc]

theorem exists_addStep_iff {keyword : StepKeyword}
    : (∃ next, reader.addStep n keyword text = .ok next)
      ↔ reader.tags = [] ∧ ∃ element, reader.current = some element ∧ element.examples = [] := by
  simp only [addStep]
  split
  · next ht => simp_all
  · next ht =>
      split
      · next hc => simp [hc]
      · next element hc => split <;> simp_all

theorem exists_addRow_iff
    : (∃ next, reader.addRow n text = .ok next)
      ↔ isRow text = true
        ∧ ∃ element, reader.current = some element
          ∧ ∃ grown, element.addRow { cells := cells text, line := n, comments := reader.comments }
              = .ok grown := by
  simp only [addRow]
  split
  · next hr => simp_all
  · next hr =>
      split
      · next hc => simp [hc]
      · next element hc => split <;> simp_all

theorem exists_openDocString_iff {fence : Fence}
    : (∃ next, reader.openDocString n fence = .ok next)
      ↔ ∃ element, reader.current = some element ∧ element.awaitsArgument = true := by
  rw [← Option.any_eq_true]
  simp only [openDocString]
  split <;> simp_all

theorem exists_addProse_iff
    : (∃ next, reader.addProse n text = .ok next)
      ↔ reader.tags = []
        ∧ ((∃ element, reader.current = some element ∧ (element.describe? text).isSome = true)
          ∨ reader.current = none
            ∧ ∃ feature, reader.feature = some feature ∧ feature.isBare = true) := by
  simp only [addProse]
  split
  · next ht => simp_all
  · next ht =>
      split
      · next element _ hc => split <;> simp_all
      · next feature hc hf => split <;> simp_all
      · next hc hf => simp_all

end Guards

/-- The element that a reader grows stands at the place, if there is one. -/
theorem Knows.exists_current_iff (hk : reader.Knows said) (hd : reader.docString = none)
    {p : Element → Prop} {q : Place → Prop}
    (h : ∀ element place, element.Stands false place → (p element ↔ q place))
    : (∃ element, reader.current = some element ∧ p element)
      ↔ ∃ place, placeOf said = some place ∧ q place := by
  cases hc : reader.current with
  | none => simp [hk.nowhere hc]
  | some element =>
      obtain ⟨keyword, below, hp, hs⟩ := hk.current element hc
      rw [hd] at hs
      simp [hp, h element _ hs]

/-- An element stands in a feature. -/
theorem Knows.mentions_of_place (hk : reader.Knows said)
    (ho : reader.current.isSome → reader.feature.isSome) {place : Place}
    (hp : placeOf said = some place)
    : mentions Line.isFeature said = true := by
  rw [← hk.feature]
  refine ho ?_
  cases hc : reader.current with
  | none => rw [hk.nowhere hc] at hp; cases hp
  | some element => rfl

/-- The feature is bare after its element is closed exactly when there is no place in an element. -/
theorem Knows.isBare_iff (hk : reader.Knows said) {feature : FeatureTree}
    (hf : reader.closeElement.feature = some feature)
    : feature.isBare = true ↔ placeOf said = none := by
  unfold closeElement at hf
  split at hf
  · next before element _ hc =>
      obtain ⟨keyword, below, hp, _⟩ := hk.current element hc
      cases hf
      simp [hp, FeatureTree.not_isBare_add]
  · next hnone =>
      have hcurrent : reader.current = none := by
        cases hc : reader.current with
        | none => rfl
        | some element => exact absurd hc (hnone feature element hf)
      simp [hk.bare hcurrent feature hf, hk.nowhere hcurrent]

/-- An element line is accepted where it may follow and a feature is open. -/
theorem Knows.exists_openElement_iff (hk : reader.Knows said) {keyword : ElementKeyword}
    {name : Text}
    : (∃ next, reader.openElement n keyword name = .ok next)
      ↔ (keyword.kind = .background → placeOf said = none)
        ∧ mentions Line.isFeature said = true := by
  rw [Reader.exists_openElement_iff, ← hk.feature, ← closeElement_feature_isSome,
    Option.isSome_iff_exists]
  constructor
  · rintro ⟨feature, hf, hb⟩
    exact ⟨fun hkind => (hk.isBare_iff hf).mp (hb hkind), feature, hf⟩
  · rintro ⟨hb, feature, hf⟩
    exact ⟨feature, hf, fun hkind => (hk.isBare_iff hf).mpr (hb hkind)⟩

/-- Prose is accepted in a feature where no tags wait and a description can take it. -/
theorem Knows.exists_addProse_iff (hk : reader.Knows said) (hd : reader.docString = none)
    (ho : reader.current.isSome → reader.feature.isSome) {text : Text}
    : (∃ next, reader.addProse n text = .ok next)
      ↔ reader.tags = [] ∧ (∀ place, placeOf said = some place → place.awaitsProse = true)
        ∧ mentions Line.isFeature said = true := by
  rw [Reader.exists_addProse_iff, ← hk.feature, and_congr_right_iff]
  rintro _
  cases hc : reader.current with
  | none =>
      rw [hk.nowhere hc, Option.isSome_iff_exists]
      constructor
      · rintro (⟨_, hcurrent, _⟩ | ⟨_, feature, hf, _⟩)
        · cases hcurrent
        · exact ⟨nofun, feature, hf⟩
      · rintro ⟨_, feature, hf⟩
        exact Or.inr ⟨rfl, feature, hf, hk.bare hc feature hf⟩
  | some element =>
      obtain ⟨keyword, below, hp, hs⟩ := hk.current element hc
      rw [hd] at hs
      simp [hp, hs.describe?_isSome, ho (by rw [hc]; rfl)]

/-- Outside doc strings a line is accepted exactly when it may follow what is said before it and
comes in the right order with the feature line.
-/
theorem Knows.exists_take_iff (hk : reader.Knows said) (hd : reader.docString = none)
    (ht : reader.tags.isEmpty = !tagsWait said)
    (ho : reader.current.isSome → reader.feature.isSome) {line : Line}
    : (∃ next, reader.take n line = .ok next) ↔ line.Follows said ∧ line.InOrder said := by
  have htags : reader.tags = [] ↔ tagsWait said = false := by
    rw [← List.isEmpty_iff, ht, Bool.not_eq_true']
  -- What needs a place comes in order, since every place is in a feature.
  have hplaced : ∀ place, placeOf said = some place → mentions Line.isFeature said = true :=
    fun place hp => hk.mentions_of_place ho hp
  cases line with
  | blank | comment => simp [take, Line.Follows, Line.InOrder, Line.isPreface]
  | tags tokens =>
      simp [take, exists_addTags_iff, Line.Follows, Line.InOrder, Line.isPreface]
  | feature name =>
      simp [take, exists_openFeature_iff, Line.Follows, Line.InOrder, Line.isPreface,
        Line.isFeature, ← hk.feature]
  | element keyword name =>
      simp [take, hk.exists_openElement_iff, Line.Follows, Line.InOrder, Line.isPreface,
        Line.isFeature]
  | examples keyword name =>
      have hplace := hk.exists_current_iff hd (p := fun element => element.kind = .outline)
        (q := fun place => place.keyword.kind = .outline)
        fun element place hs => by rw [Element.kind, hs.keyword]
      simpa [take, exists_openExamples_iff, hplace, Line.Follows, Line.InOrder, Line.isPreface,
        Line.isFeature] using fun place hp _ => hplaced place hp
  | step keyword text =>
      have hplace := hk.exists_current_iff hd (p := fun element => element.examples = [])
        (q := fun place => place.hasExamples = false) fun element place hs => hs.examples
      simpa [take, exists_addStep_iff, htags, hplace, Line.Follows, Line.InOrder, Line.isPreface,
        Line.isFeature] using fun _ place hp _ => hplaced place hp
  | row text =>
      have hplace := hk.exists_current_iff hd
        (p := fun element => ∃ grown,
          element.addRow { cells := cells text, line := n, comments := reader.comments }
            = .ok grown)
        (q := fun place => place.awaitsRow = true) fun element place hs => hs.exists_addRow_iff _
      simpa [take, exists_addRow_iff, hplace, Line.Follows, Line.InOrder, Line.isPreface,
        Line.isFeature] using fun _ place hp _ => hplaced place hp
  | fence fence =>
      have hplace := hk.exists_current_iff hd (p := fun element => element.awaitsArgument = true)
        (q := fun place => place.awaitsDocString = true)
        fun element place hs => by rw [hs.awaitsArgument_eq]
      simpa [take, exists_openDocString_iff, hplace, Line.Follows, Line.InOrder, Line.isPreface,
        Line.isFeature] using fun place hp _ => hplaced place hp
  | prose text =>
      simp [take, hk.exists_addProse_iff hd ho, htags, Line.Follows, Line.InOrder, Line.isPreface,
        Line.isFeature, and_assoc]

-----------------------------------------------------------------------------------------
-- Many lines
-----------------------------------------------------------------------------------------

/-- What holds at every line of a list with one more entry holds at the lines before and at that
entry.
-/
theorem forall_split_concat {good : List (Option Line) → Line → Prop} {entry : Option Line}
    : (∀ before line after, said ++ [entry] = before ++ some line :: after → good before line)
      ↔ (∀ before line after, said = before ++ some line :: after → good before line)
        ∧ ∀ line, entry = some line → good said line := by
  constructor
  · refine fun h => ⟨fun before line after hs => ?_, fun line he => ?_⟩
    · exact h before line (after ++ [entry]) (by simp [hs])
    · exact h said line [] (by rw [he])
  · rintro ⟨hfront, hlast⟩ before line after hs
    rcases List.eq_nil_or_concat' after with rfl | ⟨rest, last, rfl⟩
    · obtain ⟨rfl, he⟩ := List.append_inj' hs rfl
      exact hlast line (List.singleton_inj.mp he)
    · rw [← List.cons_append, ← List.append_assoc] at hs
      exact hfront before line rest (List.append_inj' hs rfl).1

/-- A line after accepted lines is accepted exactly when it says nothing, or may follow them and
comes in order.
-/
theorem exists_takeRaw_iff {raw : Text} (h : start.takeAll 1 lines = .ok reader)
    : (∃ next, reader.takeRaw n raw = .ok next)
      ↔ ∀ line, reading (lines.foldl fenceAfter none) raw = some line →
          line.Follows (readings none lines) ∧ line.InOrder (readings none lines) := by
  rw [← openFence_of_takeAll_outside h rfl]
  unfold takeRaw
  cases hd : reader.docString with
  | some opened =>
      simp only [openFence, hd, Option.map_some, reading]
      refine ⟨fun _ _ hnone => (by cases hnone), fun _ => ?_⟩
      split
      · exact ⟨_, rfl⟩
      · exact ⟨_, rfl⟩
  | none =>
      have htags : reader.tags.isEmpty = !tagsWait (readings none lines) :=
        tags_isEmpty_of_takeAll rfl h
      have hline : (∃ next, reader.take n (Line.of raw) = .ok next)
          ↔ (Line.of raw).Follows (readings none lines)
            ∧ (Line.of raw).InOrder (readings none lines) :=
        (knows_of_takeAll h).exists_take_iff hd htags (feature_isSome_of_current h)
      simpa [reading_of_outside hd] using hline

/-- All lines are accepted exactly when each may follow what is said before it and comes in order,
by induction on the lines from the end.
-/
theorem exists_takeAll_iff
    : (∃ reader, start.takeAll 1 lines = .ok reader)
      ↔ ∀ before line after, readings none lines = before ++ some line :: after →
          line.Follows before ∧ line.InOrder before := by
  induction lines using List.reverseRecOn with
  | nil => exact ⟨fun _ before line after h => by simp [readings] at h, fun _ => ⟨start, rfl⟩⟩
  | append_singleton front raw ih =>
      rw [readings_append, readings, readings, forall_split_concat, ← ih]
      constructor
      · rintro ⟨last, hall⟩
        obtain ⟨middle, hm, hlast⟩ := exists_of_takeAll_append hall
        obtain ⟨next, hnext, _⟩ := exists_of_takeAll_cons hlast
        exact ⟨⟨middle, hm⟩, (exists_takeRaw_iff hm).mp ⟨next, hnext⟩⟩
      · rintro ⟨⟨middle, hm⟩, hlast⟩
        obtain ⟨next, hnext⟩ := (exists_takeRaw_iff hm).mpr hlast
        exact ⟨next, takeAll_append_of hm (takeAll_cons_of hnext)⟩

end Reader

-----------------------------------------------------------------------------------------
-- Rules for whole files
-----------------------------------------------------------------------------------------

/-- Around the only feature line, with a preface before it, every line comes in order. -/
theorem inOrder_of_split {before after front back : List (Option Line)} {name : Text} {line : Line}
    (hbefore : ∀ line, some line ∈ before → line.isPreface = true)
    (hafter : ∀ line, some line ∈ after → line.isFeature = false)
    (h : before ++ some (.feature name) :: after = front ++ some line :: back)
    : line.InOrder front := by
  have hfeature : (Line.feature name).isFeature = true := rfl
  have hnone : mentions Line.isFeature before = false := by
    rw [mentions, List.any_eq_false]
    rintro (_ | line) hin
    · simp
    · have hpreface := hbefore line hin
      cases line <;> simp_all [Line.isPreface, Line.isFeature]
  rcases List.append_eq_append_iff.mp h with ⟨more, rfl, hmore⟩ | ⟨more, rfl, hmore⟩
  · cases more with
    | nil =>
        obtain ⟨he, _⟩ := List.cons.inj hmore
        cases he
        exact Or.inr (by simp [hfeature, hnone])
    | cons first rest =>
        obtain ⟨rfl, rfl⟩ := List.cons.inj hmore
        have hplain : line.isFeature = false := hafter line (by simp)
        exact Or.inr (by simp [hfeature, hplain])
  · cases more with
    | nil =>
        obtain ⟨he, _⟩ := List.cons.inj hmore
        cases he
        exact Or.inr (by simpa [hfeature] using hnone)
    | cons first rest =>
        obtain ⟨rfl, _⟩ := List.cons.inj hmore
        exact Or.inl (hbefore line (by simp))

/-- There is one feature line after a preface exactly when there is one and every line comes in
order. Witness: the lines before the first feature line and those after it.
-/
theorem exists_feature_iff {said : List (Option Line)}
    : (∃ before name after,
        said = before ++ some (.feature name) :: after
        ∧ (∀ line, some line ∈ before → line.isPreface = true)
        ∧ ∀ line, some line ∈ after → line.isFeature = false)
      ↔ mentions Line.isFeature said = true
        ∧ ∀ before line after, said = before ++ some line :: after → line.InOrder before := by
  constructor
  · rintro ⟨before, name, after, rfl, hbefore, hafter⟩
    exact ⟨by simp [Line.isFeature], fun front line back hs => inOrder_of_split hbefore hafter hs⟩
  · rintro ⟨hsome, horder⟩
    obtain ⟨entry, hfound⟩ := Option.isSome_iff_exists.mp
      (List.find?_isSome.mpr (List.any_eq_true.mp hsome))
    obtain ⟨hkind, before, after, rfl, hfirst⟩ := List.find?_eq_some_iff_append.mp hfound
    obtain ⟨line, rfl, hfeature⟩ := (Option.any_eq_true _ _).mp hkind
    obtain ⟨name, rfl⟩ : ∃ name, line = .feature name := by
      cases line <;> first | exact ⟨_, rfl⟩ | cases hfeature
    refine ⟨before, name, after, rfl, fun line hin => ?_, fun line hin => ?_⟩
    · obtain ⟨front, back, rfl⟩ := List.append_of_mem hin
      have hnone : mentions Line.isFeature front = false :=
        List.any_eq_false.mpr fun entry he => by
          simpa using hfirst entry (List.mem_append_left _ he)
      have hplain : line.isFeature = false := by simpa using hfirst (some line) (by simp)
      rcases horder front line (back ++ some (.feature name) :: after) (by simp) with h | h
      · exact h
      · rw [hplain, hnone] at h
        cases h
    · obtain ⟨front, back, rfl⟩ := List.append_of_mem hin
      rcases horder (before ++ some (.feature name) :: front) line back (by simp) with h | h
      · cases line <;> first | rfl | cases h
      · simpa [hfeature] using h

/-- A doc string that is open is closed by the first line that is its delimiter, by induction on the
lines.
-/
theorem foldl_fenceAfter_some {fence : Fence} {lines : List Text}
    (h : ∀ last ∈ lines, trim last ≠ fence.text)
    : lines.foldl fenceAfter (some fence) = some fence := by
  induction lines with
  | nil => rfl
  | cons raw rest ih =>
      have hraw : fenceAfter (some fence) raw = some fence :=
        if_neg (h raw List.mem_cons_self)
      rw [List.foldl_cons, hraw]
      exact ih fun last hin => h last (List.mem_cons_of_mem _ hin)

/-- A doc string that is open at the end was opened by a line after which none is its delimiter, by
induction on the lines from the end.
-/
theorem exists_opening {fence : Fence} {lines : List Text}
    (h : lines.foldl fenceAfter none = some fence)
    : ∃ before raw after,
        lines = before ++ raw :: after
        ∧ reading (before.foldl fenceAfter none) raw = some (.fence fence)
        ∧ ∀ last ∈ after, trim last ≠ fence.text := by
  induction lines using List.reverseRecOn with
  | nil => cases h
  | append_singleton front raw ih =>
      rw [List.foldl_append, List.foldl_cons, List.foldl_nil] at h
      cases hfront : front.foldl fenceAfter none with
      | none =>
          rw [hfront, fenceAfter] at h
          split at h
          · next opened hl =>
              cases h
              exact ⟨front, raw, [], rfl, by rw [hfront, reading, hl], by simp⟩
          · cases h
      | some opened =>
          rw [hfront, fenceAfter] at h
          split at h
          · cases h
          · next hraw =>
              cases h
              obtain ⟨before, opening, after, rfl, hopening, hafter⟩ := ih hfront
              refine ⟨before, opening, after ++ [raw], by simp, hopening, fun last hin => ?_⟩
              rcases List.mem_append.mp hin with hin | hin
              · exact hafter last hin
              · rw [List.mem_singleton.mp hin]
                exact hraw

/-- No doc string is open at the end exactly when every one that is opened is closed. -/
theorem foldl_fenceAfter_eq_none_iff {lines : List Text}
    : lines.foldl fenceAfter none = none
      ↔ ∀ before raw after fence,
          lines = before ++ raw :: after
          → reading (before.foldl fenceAfter none) raw = some (.fence fence)
          → ∃ last ∈ after, trim last = fence.text := by
  constructor
  · rintro hnone before raw after fence rfl hopening
    by_contra hopen
    have hafter : fenceAfter (before.foldl fenceAfter none) raw = some fence := by
      cases hbefore : before.foldl fenceAfter none with
      | some _ => rw [hbefore] at hopening; cases hopening
      | none =>
          rw [hbefore, reading, Option.some.injEq] at hopening
          rw [fenceAfter, hopening]
    rw [List.foldl_append, List.foldl_cons, hafter,
      foldl_fenceAfter_some (by simpa using hopen)] at hnone
    cases hnone
  · intro hclosed
    cases hend : lines.foldl fenceAfter none with
    | none => rfl
    | some fence =>
        obtain ⟨before, raw, after, hlines, hopening, hopen⟩ := exists_opening hend
        obtain ⟨last, hin, hlast⟩ := hclosed before raw after fence hlines hopening
        exact absurd hlast (hopen last hin)

/-- A text is accepted exactly when its lines are, and neither a doc string nor tags are left open
in a feature.
-/
theorem FeatureTree.exists_ofText_iff_reader {source : Text}
    : (∃ tree, ofText source = .ok tree)
      ↔ ∃ reader, Reader.start.takeAll 1 (lines source) = .ok reader
          ∧ reader.docString = none ∧ reader.tags = [] ∧ reader.feature.isSome = true := by
  constructor
  · rintro ⟨tree, h⟩
    obtain ⟨reader, hr, hd, ht, hf⟩ := exists_reader_of_ofText h
    refine ⟨reader, hr, hd, ht, ?_⟩
    rw [← Reader.closeElement_feature_isSome, hf]
    rfl
  · rintro ⟨reader, hr, hd, ht, hf⟩
    rw [← Reader.closeElement_feature_isSome, Option.isSome_iff_exists] at hf
    obtain ⟨tree, hf⟩ := hf
    exact ⟨tree, by simp [ofText, hr, Reader.finish, hd, ht, hf]⟩

/-- A text is accepted exactly when its lines keep the rules of feature files. -/
theorem FeatureTree.exists_ofText_iff (source : Text)
    : (∃ tree, ofText source = .ok tree) ↔ IsFeatureFile (lines source) := by
  rw [exists_ofText_iff_reader]
  constructor
  · rintro ⟨reader, hr, hd, ht, hf⟩
    have hrules := Reader.exists_takeAll_iff.mp ⟨reader, hr⟩
    have hopen := Reader.openFence_of_takeAll_outside hr rfl
    have htags : reader.tags.isEmpty = !tagsWait (readings none (lines source)) :=
      Reader.tags_isEmpty_of_takeAll rfl hr
    exact {
      feature := by
        rw [exists_feature_iff, ← (Reader.knows_of_takeAll hr).feature]
        exact ⟨hf, fun before line after h => (hrules before line after h).2⟩
      rules := fun before line after h => (hrules before line after h).1
      closed := by
        rw [← foldl_fenceAfter_eq_none_iff, ← hopen, Reader.openFence, hd]
        rfl
      settled := by simpa [ht] using htags
    }
  · intro h
    obtain ⟨hsome, horder⟩ := exists_feature_iff.mp h.feature
    obtain ⟨reader, hr⟩ := Reader.exists_takeAll_iff.mpr fun before line after hs =>
      ⟨h.rules before line after hs, horder before line after hs⟩
    have hopen := Reader.openFence_of_takeAll_outside hr rfl
    have htags : reader.tags.isEmpty = !tagsWait (readings none (lines source)) :=
      Reader.tags_isEmpty_of_takeAll rfl hr
    refine ⟨reader, hr, ?_, ?_, ?_⟩
    · rw [foldl_fenceAfter_eq_none_iff.mpr h.closed] at hopen
      exact Option.map_eq_none_iff.mp hopen
    · simpa [h.settled] using htags
    · rw [(Reader.knows_of_takeAll hr).feature]
      exact hsome

end SuiteScore.Gherkin
