import SuiteScore.Feature
import SuiteScore.Proofs.Feature.Isolation

/-! The elements of a feature. An accepted file always gives a feature, whose background and
scenarios are read one by one from the elements of its tree.
-/

namespace SuiteScore

open Text Gherkin

/-- Lines as a scenario keeps them, without the rest of a line end. -/
def keptLines (lines : List Text) : List Text :=
  lines.map (dropEndWhile fun c => c == '\r' || c == '\n')

/-- What the lines of a source say. -/
def saidIn (source : Text) : List (Option Line) :=
  readings none (lines source)

variable {source : Text} {tree : FeatureTree} {element : Element}

-----------------------------------------------------------------------------------------
-- Isolated texts
-----------------------------------------------------------------------------------------

theorem isBlank_of_lineEnd {c : Char} (h : (c == '\r' || c == '\n') = true) : isBlank c = true := by
  simp only [Bool.or_eq_true, beq_iff_eq] at h
  rcases h with rfl | rfl <;> rfl

/-- Kept lines are the same lines but for blanks. -/
theorem map_trim_keptLines (block : List Text) : (keptLines block).map trim = block.map trim := by
  rw [keptLines, List.map_map]
  exact List.map_congr_left fun line _ => trim_dropEndWhile line fun _ => isBlank_of_lineEnd

/-- Kept lines hold no line feed if none stood inside the lines. -/
theorem not_mem_keptLines {block : List Text} (h : ∀ line ∈ block, '\n' ∉ line)
    : ∀ line ∈ keptLines block, '\n' ∉ line := by
  intro line hin
  obtain ⟨raw, hraw, rfl⟩ := List.mem_map.mp hin
  exact fun hmem => h raw hraw (mem_of_mem_dropEndWhile hmem)

/-- The lines of an isolated block are its header and its lines, but for an empty last one. -/
theorem lines_isolated {block : List Text} (h : ∀ line ∈ keptLines block, '\n' ∉ line)
    : lines (Scenario.isolated (keptLines block))
      = withoutEmptyLast (Scenario.header :: keptLines block) := by
  refine lines_joined (fun line hin => ?_) (fun line hin hlast => ?_)
  · rcases List.mem_cons.mp hin with rfl | hin
    · decide
    · exact h line hin
  · rcases List.mem_cons.mp hin with rfl | hin
    · cases hlast
    · obtain ⟨raw, _, rfl⟩ := List.mem_map.mp hin
      have hdropped := getLast?_dropEndWhile _ raw _ hlast
      cases hdropped

/-- An isolated block is read as its header and its lines. -/
theorem ofText_isolated {block : List Text} (h : ∀ line ∈ block, '\n' ∉ line)
    : FeatureTree.ofText (Scenario.isolated (keptLines block))
      = FeatureTree.ofLines (Scenario.header :: keptLines block) :=
  calc FeatureTree.ofText (Scenario.isolated (keptLines block))
      = FeatureTree.ofLines (lines (Scenario.isolated (keptLines block))) := rfl
    _ = FeatureTree.ofLines (Scenario.header :: keptLines block) := by
      rw [lines_isolated (not_mem_keptLines h), FeatureTree.ofLines_withoutEmptyLast]

/-- A block that is refused behind its header is marked. -/
theorem ofBlock_of_error {location : Text} {block : List Text} {error : GrammarError}
    (h : ∀ line ∈ block, '\n' ∉ line)
    (he : FeatureTree.ofLines (Scenario.header :: keptLines block) = .error error)
    : Scenario.ofBlock FeatureTree.ofText location block
      = { Scenario.unread location (keptLines block) with syntaxError := true } := by
  have htext := (ofText_isolated h).trans he
  rw [keptLines] at htext ⊢
  simp only [Scenario.ofBlock, htext]

/-- A block that is read behind its header fills the scenario. -/
theorem ofBlock_of_ok {location : Text} {block : List Text} {alone : FeatureTree} {one : Element}
    (h : ∀ line ∈ block, '\n' ∉ line)
    (ht : FeatureTree.ofLines (Scenario.header :: keptLines block) = .ok alone)
    (ha : alone.allElements = [one])
    : Scenario.ofBlock FeatureTree.ofText location block
      = (Scenario.unread location (keptLines block)).fill one := by
  have htext := (ofText_isolated h).trans ht
  rw [keptLines] at htext ⊢
  simp only [Scenario.ofBlock, htext, ha]

-----------------------------------------------------------------------------------------
-- Scenarios of elements
-----------------------------------------------------------------------------------------

/-- The lines that the scenario of an element keeps. -/
def spanLines (source : Text) (element : Element) : List Text :=
  keptLines ((Span.of element).cut (lines source))

/-- The scenario of an element before anything is read from its lines. -/
def unreadOf (path source : Text) (element : Element) : Scenario :=
  Scenario.unread (Location.ofLine path element.line) (spanLines source element)

/-- The scenario of an element is filled from a copy of it, or it is marked and takes what it can
from the element of the whole file.
-/
theorem scenarioOf_cases (path : Text) (h : FeatureTree.ofText source = .ok tree)
    (he : element ∈ tree.allElements)
    : (element.isDisturbed (saidIn source) || element.leavesTags (saidIn source)) = true
        ∧ Feature.scenarioOf FeatureTree.ofText path (lines source) element
          = { unreadOf path source element with syntaxError := true }.adopt element
      ∨ (element.isDisturbed (saidIn source) || element.leavesTags (saidIn source)) = false
        ∧ ∃ one, element.IsCopyOf (saidIn source) (Span.firstOf element - 2) one
          ∧ Feature.scenarioOf FeatureTree.ofText path (lines source) element
            = (unreadOf path source element).fill one := by
  obtain ⟨layout⟩ := FeatureTree.nonempty_layout h he
  have hnewline : ∀ line ∈ (Span.of element).cut (lines source), '\n' ∉ line := fun line hin =>
    not_mem_of_mem_lines (List.mem_of_mem_take (List.mem_of_mem_drop hin))
  rcases layout.ofLines_isolated (map_trim_keptLines _) with
    ⟨hrefused, error, herror⟩ | ⟨hread, alone, one, hone, hall, hcopy⟩
  · refine Or.inl ⟨hrefused, ?_⟩
    rw [Feature.scenarioOf, ofBlock_of_error hnewline herror]
    rfl
  · refine Or.inr ⟨hread, one, hcopy, ?_⟩
    rw [Feature.scenarioOf, ofBlock_of_ok hnewline hone hall]
    rfl

/-- A copy has the keyword of its element. -/
theorem keyword_of_isCopyOf {said : List (Option Line)} {down : Nat} {one : Element}
    (h : element.IsCopyOf said down one)
    : one.keyword = element.keyword := by
  have hsame := congrArg Element.keyword h.same
  exact hsame

/-- The scenario of an element is a background if the element is one. -/
theorem isBackground_scenarioOf (path : Text) (h : FeatureTree.ofText source = .ok tree)
    (he : element ∈ tree.allElements)
    : (Feature.scenarioOf FeatureTree.ofText path (lines source) element).isBackground = true
      ↔ element.kind = .background := by
  rcases scenarioOf_cases path h he with ⟨_, hscenario⟩ | ⟨_, one, hcopy, hscenario⟩
  · rw [hscenario]
    simp only [Scenario.adopt, Scenario.isBackground]
    cases element.kind <;> simp [ScenarioKind.ofElement]
  · have hkind : one.kind = element.kind := by
      rw [Element.kind, keyword_of_isCopyOf hcopy]
      rfl
    rw [hscenario, ← hkind]
    simp only [Scenario.fill, Scenario.isBackground]
    cases one.kind <;> simp [ScenarioKind.ofElement]

-----------------------------------------------------------------------------------------
-- Features
-----------------------------------------------------------------------------------------

/-- A background takes its own place. -/
theorem add_of_background {scenario : Scenario} (feature : Feature)
    (h : scenario.isBackground = true)
    : feature.add scenario = { feature with background := some scenario } := by
  unfold Feature.add
  split
  · rfl
  · next hk =>
      unfold Scenario.isBackground at h
      split at h
      · next hb => exact absurd hb hk
      · cases h

/-- Scenarios that are no backgrounds are added in their order, by induction on them. -/
theorem foldl_add_of_not_background {scenarios : List Scenario} (feature : Feature)
    (h : ∀ scenario ∈ scenarios, ¬scenario.isBackground = true)
    : scenarios.foldl Feature.add feature
      = { feature with scenarios := feature.scenarios ++ scenarios } := by
  induction scenarios generalizing feature with
  | nil => simp
  | cons first rest ih =>
      have hfirst := h first List.mem_cons_self
      have hadd : feature.add first
          = { feature with scenarios := feature.scenarios ++ [first] } := by
        unfold Feature.add
        split
        · next hk => simp [Scenario.isBackground, hk] at hfirst
        · rfl
      rw [List.foldl_cons, ih _ fun scenario hin => h scenario (List.mem_cons_of_mem _ hin), hadd]
      simp

/-- A source in which nothing but blanks stand is not accepted. -/
theorem not_all_blank (h : FeatureTree.ofText source = .ok tree)
    : ¬(lines source).all (fun line => (trim line).isEmpty) = true := by
  intro hall
  have hblank : ∀ {pieces : List Text} (n : Nat),
      pieces.all (fun line => (trim line).isEmpty) = true
      → Reader.start.takeAll n pieces = .ok .start := by
    intro pieces
    induction pieces with
    | nil => exact fun _ _ => rfl
    | cons first rest ih =>
        intro n hall
        simp only [List.all_cons, Bool.and_eq_true, List.isEmpty_iff] at hall
        have hfirst : Reader.start.takeRaw n first = .ok .start := by
          rw [Reader.takeRaw, Line.of, hall.1]
          rfl
        rw [Reader.takeAll_cons_of hfirst]
        exact ih (n + 1) hall.2
  rw [FeatureTree.ofText, hblank 1 hall] at h
  cases h

/-- The background of a tree is one of its elements. -/
theorem mem_allElements_of_background (h : tree.background = some element)
    : element ∈ tree.allElements := by
  rw [FeatureTree.allElements, h]
  exact List.mem_append_left _ List.mem_cons_self

/-- Where backgrounds are apart, scenarios that are backgrounds with their elements come to the
places of their elements.
-/
theorem foldl_add_ofTree {path : Text} {pieces : List Text} {read : Element → Scenario}
    (ha : tree.KindsApart)
    (hr
      : ∀ element ∈ tree.allElements,
          (read element).isBackground = true ↔ element.kind = .background)
    : (tree.allElements.map read).foldl Feature.add (Feature.ofTree path pieces tree)
      = { Feature.ofTree path pieces tree with
          background := tree.background.map read
          scenarios := tree.elements.map read } := by
  have hothers : ∀ scenario ∈ tree.elements.map read, ¬scenario.isBackground = true := by
    intro scenario hin
    obtain ⟨element, hmem, rfl⟩ := List.mem_map.mp hin
    rw [hr element (List.mem_append_right _ hmem)]
    exact ha.elements element hmem
  rw [FeatureTree.allElements, List.map_append, List.foldl_append]
  cases hb : tree.background with
  | none =>
      rw [Option.toList_none, List.map_nil, List.foldl_nil, foldl_add_of_not_background _ hothers]
      rfl
  | some element =>
      have hmem : element ∈ tree.allElements := mem_allElements_of_background hb
      have hkind := (hr element hmem).mpr (ha.background element hb)
      rw [Option.toList_some, List.map_singleton, List.foldl_cons, List.foldl_nil,
        foldl_add_of_not_background _ hothers, add_of_background _ hkind]
      rfl

/-- A file that a grammar reads as an accepted tree gives a feature with the scenarios that the
grammar reads for its elements.
-/
theorem ofText_of_tree {grammar : Grammar} (path : Text) (h : FeatureTree.ofText source = .ok tree)
    (hg : grammar source = .ok tree)
    (hr
      : ∀ element ∈ tree.allElements,
          (Feature.scenarioOf grammar path (lines source) element).isBackground = true
            ↔ element.kind = .background)
    : Feature.ofText grammar path source
      = .ok { Feature.ofTree path (lines source) tree with
          background := tree.background.map (Feature.scenarioOf grammar path (lines source))
          scenarios := tree.elements.map (Feature.scenarioOf grammar path (lines source)) } := by
  rw [Feature.ofText, if_neg (not_all_blank h), hg]
  exact congrArg Except.ok (foldl_add_ofTree (FeatureTree.kindsApart_of_ofText h) hr)

/-- An accepted file gives a feature with the scenarios of its elements. -/
theorem exists_feature (path : Text) (h : FeatureTree.ofText source = .ok tree)
    : ∃ feature, Feature.ofText FeatureTree.ofText path source = .ok feature
        ∧ feature.background
          = tree.background.map (Feature.scenarioOf FeatureTree.ofText path (lines source))
        ∧ feature.scenarios
          = tree.elements.map (Feature.scenarioOf FeatureTree.ofText path (lines source)) :=
  ⟨_, ofText_of_tree path h h fun _ he => isBackground_scenarioOf path h he, rfl, rfl⟩

/-- The elements of such a feature are read from the elements of the tree in their order. -/
theorem elements_of_parts {feature : Feature} {read : Element → Scenario}
    (hb : feature.background = tree.background.map read)
    (hs : feature.scenarios = tree.elements.map read)
    : feature.elements = tree.allElements.map read := by
  rw [Feature.elements, hb, hs, FeatureTree.allElements, List.map_append, Option.toList_map]

end SuiteScore
