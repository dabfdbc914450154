import SuiteScore.Proofs.Feature.Resemblance
import SuiteScore.Proofs.Gherkin.Acceptance
import SuiteScore.Proofs.Gherkin.DocumentOrder
import SuiteScore.Proofs.Score.Congruence

/-! The content of doc strings is opaque. Other lines in their place, as many and none of them the
delimiter, leave a feature as it was but for its lines, and its scores too.
-/

namespace SuiteScore

open Text Gherkin

variable {source other : Text} {tree : FeatureTree} {element : Element}

-----------------------------------------------------------------------------------------
-- Lines of steps and rows
-----------------------------------------------------------------------------------------

/-- A node of a file is seen the same where the lines say the same. -/
theorem seen_of_node {view : Text → Text} {node : Node} (h : FeatureTree.ofText source = .ok tree)
    (hs : SayAlike view none (lines source) (lines other)) (hn : node ∈ tree.nodes)
    (hm : (node.line, .node node.kind) ∈ node.marks)
    : (lines source)[node.line - 1]?.map view = (lines other)[node.line - 1]?.map view := by
  obtain ⟨line, hline⟩ := FeatureTree.exists_reading_of_node h hn hm
  exact hs.seen_of_reading hline

/-- The nodes of an element are nodes of its tree. -/
theorem mem_nodes_of_element {node : Node} (he : element ∈ tree.allElements)
    (hn : node ∈ element.steps.flatMap Step.nodes ++ element.examples.flatMap Examples.nodes)
    : node ∈ tree.nodes :=
  List.mem_cons_of_mem _ (List.mem_flatMap.mpr ⟨element, he, List.mem_cons_of_mem _ hn⟩)

section Opaque

variable (h : FeatureTree.ofText source = .ok tree) (he : element ∈ tree.allElements)
  (hs : SayAlike id none (lines source) (lines other))

include h he hs

/-- The line of a step is the same in both sources. -/
theorem fileLine_eq_of_sayAlike {step : Step} (hin : step ∈ element.steps)
    : fileLine source step.line = fileLine other step.line := by
  have hnode : ({ Node.bare step.line (.step step.keyword step.text) with
      comments := step.comments } : Node) ∈ tree.nodes :=
    mem_nodes_of_element he
      (List.mem_append_left _ (List.mem_flatMap.mpr ⟨step, hin, List.mem_cons_self⟩))
  have hline := seen_of_node h hs hnode List.mem_cons_self
  simp only [Option.map_id, id_eq, Node.bare] at hline
  rw [fileLine, fileLine, keptLines, keptLines, List.getElem?_map, List.getElem?_map, hline]

/-- The line of an example row is the same in both sources. -/
theorem spanLine?_eq_of_sayAlike {row : Row} (hin : row ∈ Scenario.exampleRows element.examples)
    : spanLine? source element row.line = spanLine? other element row.line := by
  obtain ⟨examples, hexamples, hrow⟩ := List.mem_flatMap.mp (Scenario.exampleRows_subset _ hin)
  have hnode : row.node ∈ tree.nodes :=
    mem_nodes_of_element he
      (List.mem_append_right _ (List.mem_flatMap.mpr
        ⟨examples, hexamples, List.mem_cons_of_mem _ (List.mem_map_of_mem hrow)⟩))
  have hline := seen_of_node h hs hnode List.mem_cons_self
  simp only [Option.map_id, id_eq, Row.node, Node.bare] at hline
  rw [spanLine?, spanLine?, keptLines, keptLines, List.getElem?_map, List.getElem?_map, hline]

theorem toldSteps_eq_of_sayAlike : toldSteps source element = toldSteps other element :=
  List.flatMap_congr fun step hin => by rw [fileLine_eq_of_sayAlike h he hs hin]

theorem toldRows_eq_of_sayAlike : toldRows source element = toldRows other element := by
  rw [toldRows, toldRows, Scenario.rowLines, Scenario.rowLines]
  refine congrArg (List.filter isExampleRow) (List.flatMap_congr fun row hin => ?_)
  rw [spanLine?_eq_of_sayAlike h he hs hin]

theorem tableEntries_eq_of_sayAlike : tableEntries source element = tableEntries other element :=
  List.filterMap_congr fun step hin => by rw [fileLine_eq_of_sayAlike h he hs hin]

end Opaque

-----------------------------------------------------------------------------------------
-- Features without their lines
-----------------------------------------------------------------------------------------

/-- A scenario without the lines that it was read from. -/
def Scenario.withoutLines (scenario : Scenario) : Scenario :=
  { scenario with lines := [] }

/-- A feature without the lines that it and its elements were read from. -/
def Feature.withoutLines (feature : Feature) : Feature :=
  { feature with
    background := feature.background.map Scenario.withoutLines
    scenarios := feature.scenarios.map Scenario.withoutLines
    lines := [] }

/-- Sources that are the same outside doc strings tell the same scenarios but for their lines. -/
theorem withoutLines_of_toldAlike {path : Text} {scenario twin : Scenario}
    (hs : SayAlike id none (lines source) (lines other))
    (h : ToldAlike path source other scenario twin)
    : scenario.withoutLines = twin.withoutLines := by
  obtain ⟨tree, element, htree, he, rfl, rfl⟩ := h
  have hsaid : saidIn source = saidIn other := hs.readings_eq
  rw [scenarioIn, scenarioIn, hsaid]
  split
  · rfl
  · simp only [toldOf, Scenario.withoutLines, toldName, toldKind, hsaid,
      toldSteps_eq_of_sayAlike htree he hs, toldRows_eq_of_sayAlike htree he hs,
      tableEntries_eq_of_sayAlike htree he hs]

/-- Features are the same without their lines when their scenarios are. -/
theorem Feature.Related.withoutLines_eq {feature twin : Feature}
    (h : Feature.Related (fun scenario other => scenario.withoutLines = other.withoutLines)
      feature twin)
    : feature.withoutLines = twin.withoutLines := by
  rw [withoutLines, withoutLines, h.background_map_eq fun _ _ hsame => hsame,
    h.scenarios_map_eq fun _ _ hsame => hsame, h.target, h.comments]

/-- What a scenario was read from has no say in its scores. -/
theorem Scenario.resemblesFor_of_withoutLines {rules : List Rule} {scenario twin : Scenario}
    (h : scenario.withoutLines = twin.withoutLines)
    : scenario.ResemblesFor rules twin := by
  have hsteps : scenario.steps = twin.steps := (congrArg steps h :)
  refine ⟨{
    target := (congrArg toTarget h :)
    kind := (congrArg (fun scenario => scenario.kind.trimmed) h :)
    comments := (congrArg comments h :)
    syntaxError := (congrArg syntaxError h :)
    steps := hsteps ▸ List.forall₂_same.mpr fun line _ => .inl rfl
  }, fun rule _ => .inr ?_⟩
  exact (congrArg largeTables h :)

-----------------------------------------------------------------------------------------
-- Other contents
-----------------------------------------------------------------------------------------

/-- A file is read up to a line that opens a doc string. -/
def Gherkin.OpensDocString (front : List Text) (opener : Text) (fence : Fence) : Prop :=
  ∃ reader, Reader.start.takeAll 1 (front ++ [opener]) = .ok reader
    ∧ reader.docString = some { fence, line := front.length + 1, content := [] }

/-- Sources say the same with other lines in a doc string. Witness: the doc string is open before
these lines, and none of them closes it.
-/
theorem sayAlike_of_docString {front content replaced back : List Text} {opener : Text}
    {fence : Fence} (h : OpensDocString front opener fence)
    (hlength : content.length = replaced.length)
    (hc : ∀ line ∈ content, trim line ≠ fence.text)
    (hr : ∀ line ∈ replaced, trim line ≠ fence.text)
    : SayAlike id none (front ++ opener :: (content ++ back))
        (front ++ opener :: (replaced ++ back)) := by
  obtain ⟨reader, htaken, hopen⟩ := h
  have hfence : (front ++ [opener]).foldl fenceAfter none = some fence := by
    rw [← Reader.openFence_of_takeAll_outside htaken rfl, Reader.openFence, hopen]
    rfl
  have hinside : content.foldl fenceAfter (some fence) = some fence := foldl_fenceAfter_some hc
  have hcontent : SayAlike id (some fence) (content ++ back) (replaced ++ back) :=
    (SayAlike.of_content hlength hc hr).append (hinside ▸ .refl _ back)
  rw [List.append_cons, List.append_cons front opener (replaced ++ back)]
  refine (SayAlike.refl none (front ++ [opener])).append ?_
  rw [hfence]
  exact hcontent

/-- The content of doc strings is opaque. Other lines in its place, as many and none of them the
delimiter, give the same error, or the same feature but for its lines, with the same scores by all
rules that are made from the catalog.
-/
theorem ofText_of_docString (path : Text) (overrides : Overrides) {opener : Text} {fence : Fence}
    {front content replaced back : List Text}
    (hs : lines source = front ++ opener :: (content ++ back))
    (ho : lines other = front ++ opener :: (replaced ++ back))
    (h : OpensDocString front opener fence) (hlength : content.length = replaced.length)
    (hc : ∀ line ∈ content, trim line ≠ fence.text)
    (hr : ∀ line ∈ replaced, trim line ≠ fence.text)
    : (Feature.ofText FeatureTree.ofText path source).map Feature.withoutLines
        = (Feature.ofText FeatureTree.ofText path other).map Feature.withoutLines
      ∧ (Feature.ofText FeatureTree.ofText path source).map
            (FeatureScore.of (applyOverrides overrides catalog))
          = (Feature.ofText FeatureTree.ofText path other).map
              (FeatureScore.of (applyOverrides overrides catalog)) := by
  have hsay : SayAlike id none (lines source) (lines other) := by
    rw [hs, ho]
    exact sayAlike_of_docString h hlength hc hr
  have houtcome := sameOutcome_ofText path hsay
  have hsame : ∀ feature twin, Feature.Related (ToldAlike path source other) feature twin →
      Feature.Related (fun scenario other => scenario.withoutLines = other.withoutLines)
        feature twin := fun feature twin hrelated =>
    hrelated.imp fun _ _ => withoutLines_of_toldAlike hsay
  refine ⟨houtcome.map_eq fun feature twin hrelated => ?_,
    houtcome.map_eq fun feature twin hrelated => ?_⟩
  · exact (hsame feature twin hrelated).withoutLines_eq
  · exact FeatureScore.of_congr (isBuiltIn_of_mem_applyOverrides overrides)
      ((hsame feature twin hrelated).imp fun _ _ => Scenario.resemblesFor_of_withoutLines)

/-- The lines before the doc string that holds a letter. -/
def letterFront : List Text := ["Feature: f", "  Scenario: s", "    Given a letter"]

/-- The delimiter of a letter. -/
def letterFence : Text := "      \"\"\""

/-- A file with a letter in a doc string. -/
def letter (content : List Text) : Text :=
  joined "\n" (letterFront ++ letterFence :: (content ++ [letterFence, "    Then I read"]))

/-- A letter with what elsewhere would be a tag and a comment. -/
def usualLetter : List Text := ["Dear @you,", "# soon"]

/-- A letter that looks like another feature. -/
def featureLetter : List Text := ["Feature: g", "```"]

theorem ofText_of_letters
    : (∃ tree, FeatureTree.ofText (letter usualLetter) = .ok tree)
      ∧ (Feature.ofText FeatureTree.ofText "f" (letter usualLetter)).map Feature.withoutLines
          = (Feature.ofText FeatureTree.ofText "f" (letter featureLetter)).map Feature.withoutLines
      ∧ (Feature.ofText FeatureTree.ofText "f" (letter usualLetter)).map
            (FeatureScore.of (applyOverrides [] catalog))
          = (Feature.ofText FeatureTree.ofText "f" (letter featureLetter)).map
              (FeatureScore.of (applyOverrides [] catalog)) := by
  have hopens : OpensDocString letterFront letterFence .quotes := ⟨_, rfl, rfl⟩
  have husual : lines (letter usualLetter)
      = letterFront ++ letterFence :: (usualLetter ++ [letterFence, "    Then I read"]) := by
    decide
  have hfeature : lines (letter featureLetter)
      = letterFront ++ letterFence :: (featureLetter ++ [letterFence, "    Then I read"]) := by
    decide
  exact ⟨⟨_, rfl⟩, ofText_of_docString "f" [] husual hfeature hopens (by decide) (by decide)
    (by decide)⟩

end SuiteScore
