import SuiteScore.Proofs.Feature.LiveSteps
import SuiteScore.Proofs.Rule.BuiltIn

/-! Steps that are written with an asterisk. The grammar and the scenario take any blank behind the
asterisk for the end of the keyword; the rule about asterisks sees only the steps that have a space
there.
-/

namespace SuiteScore

open Text Gherkin

-----------------------------------------------------------------------------------------
-- Asterisks in lines
-----------------------------------------------------------------------------------------

/-- Whether a line is a step with an asterisk and not commented out. -/
def isAsteriskStep (line : Text) : Bool :=
  !isCommented line && stepKeyword? line == some .asterisk

/-- Whether the second character of a line, without the blanks before it, is a space. -/
def isSpaced (line : Text) : Bool :=
  (trimStart line)[1]? == some ' '

/-- A line is a step with an asterisk when it starts with one and a blank. -/
theorem isAsteriskStep_iff {line : Text}
    : isAsteriskStep line = true
      ↔ ∃ c rest, trimStart line = '*' :: c :: rest ∧ isBlank c = true := by
  rw [isAsteriskStep, Bool.and_eq_true, Bool.not_eq_true', beq_iff_eq]
  constructor
  · rintro ⟨hlive, hkeyword⟩
    exact (stepKeyword?_eq_some_iff hlive).mp hkeyword
  · rintro ⟨c, rest, hstart, hc⟩
    have hlive : isCommented line = false := by
      rw [isCommented, hstart]
      rfl
    exact ⟨hlive, (stepKeyword?_eq_some_iff hlive).mpr ⟨c, rest, hstart, hc⟩⟩

/-- The rule about asterisks sees the steps with an asterisk and a space behind it. -/
theorem Rule.usesAsterisk_eq (line : Text)
    : usesAsterisk line = (isAsteriskStep line && isSpaced line) := by
  rw [Bool.eq_iff_iff, Bool.and_eq_true, isAsteriskStep_iff, usesAsterisk,
    List.isPrefixOf_iff_prefix]
  constructor
  · rintro ⟨rest, hstart⟩
    have hline : trimStart line = '*' :: ' ' :: rest := hstart.symm
    refine ⟨⟨' ', rest, hline, by decide⟩, ?_⟩
    rw [isSpaced, hline]
    rfl
  · rintro ⟨⟨c, rest, hline, _⟩, hspaced⟩
    have hspace : c = ' ' := by
      rw [isSpaced, hline] at hspaced
      simpa using hspaced
    rw [hline, hspace]
    exact ⟨rest, rfl⟩

/-- The rule about asterisks counts these steps. -/
theorem Rule.IsBuiltIn.count_stepAsterisk {rule : Rule} (h : rule.IsBuiltIn)
    (hid : rule.id = "step_asterisk") (scenario : Scenario)
    : rule.trigger.count (.scenario scenario) = scenario.steps.countP usesAsterisk :=
  h.count_step (List.mem_cons_of_mem _ List.mem_cons_self) hid scenario

-----------------------------------------------------------------------------------------
-- Asterisks in elements
-----------------------------------------------------------------------------------------

namespace Scenario

/-- The lines that a scenario has for the steps of an element with an asterisk. -/
def asteriskLines (scenario : Scenario) (element : Element) : List Text :=
  (element.steps.filter fun step => step.keyword = .asterisk).filterMap fun step =>
    literal? scenario.lines step.line

/-- The scenario has every step of the element with an asterisk under this keyword and as a step
line. Among its steps the rule sees those of them, and nothing else, that have a space behind the
asterisk. So the rule counts all of them exactly when all have a space there.
-/
structure FlagsAsterisks (rule : Rule) (scenario : Scenario) (element : Element) : Prop where
  order
    : scenario.stepOrder.count .asterisk
      = element.steps.countP fun step => step.keyword = .asterisk
  listed : scenario.steps.filter isAsteriskStep = scenario.asteriskLines element
  complete : (scenario.asteriskLines element).length = scenario.stepOrder.count .asterisk
  flagged
    : scenario.steps.filter Rule.usesAsterisk = (scenario.asteriskLines element).filter isSpaced
  counted
    : rule.trigger.count (.scenario scenario) = (scenario.asteriskLines element).countP isSpaced
  whole
    : rule.trigger.count (.scenario scenario) = scenario.stepOrder.count .asterisk
      ↔ ∀ line ∈ scenario.asteriskLines element, isSpaced line = true

end Scenario

/-- The lines of the steps with one keyword are the lines with this keyword among those of all
steps.
-/
theorem filterMap_filter_keyword {literal : Step → Option Text} {steps : List Step}
    (hl : HaveLines literal steps) (keyword : StepKeyword)
    : (steps.filter fun step => step.keyword = keyword).filterMap literal
      = (steps.filterMap literal).filter fun line => stepKeyword? line == some keyword := by
  rw [List.filterMap_filter, List.filter_filterMap]
  refine List.filterMap_congr fun step hs => ?_
  obtain ⟨raw, hraw, hreads⟩ := hl step hs
  rw [hraw, Option.filter_some, stepKeyword?_of_step hreads]
  simp

/-- The steps with an asterisk are as many as the asterisks in the order of the steps. -/
theorem Scenario.length_filter_isAsteriskStep (scenario : Scenario)
    : (scenario.steps.filter isAsteriskStep).length = scenario.stepOrder.count .asterisk := by
  rw [stepOrder, List.count_filterMap, List.countP_filter, ← List.countP_eq_length_filter]
  exact List.countP_congr fun line _ => by rw [isAsteriskStep, Bool.and_comm]

section Elements

variable {scenario : Scenario} {element : Element}

/-- A scenario that has the steps of an element has the lines of those with an asterisk: apart from
commented-out steps it has the lines of all of them, and these have the keywords of the steps.
-/
theorem Scenario.ReadsSteps.filter_isAsteriskStep (h : scenario.ReadsSteps element)
    (hl : HaveLines (fun step => literal? scenario.lines step.line) element.steps)
    : scenario.steps.filter isAsteriskStep = scenario.asteriskLines element :=
  calc scenario.steps.filter isAsteriskStep
      = (scenario.steps.filter fun line => !isCommented line).filter fun line =>
          stepKeyword? line == some .asterisk := by
        rw [List.filter_filter]
        exact List.filter_congr fun line _ => by rw [isAsteriskStep, Bool.and_comm]
    _ = (element.steps.filterMap fun step => literal? scenario.lines step.line).filter fun line =>
          stepKeyword? line == some .asterisk := by
        rw [h.live]
    _ = scenario.asteriskLines element := (filterMap_filter_keyword hl .asterisk).symm

/-- A scenario that has the steps of an element has those with an asterisk flagged that have a space
behind it.
-/
theorem Scenario.ReadsSteps.flagsAsterisks (h : scenario.ReadsSteps element)
    (hl : HaveLines (fun step => literal? scenario.lines step.line) element.steps)
    {rule : Rule} (hrule : rule.IsBuiltIn) (hid : rule.id = "step_asterisk")
    : scenario.FlagsAsterisks rule element := by
  have horder : scenario.stepOrder.count .asterisk
      = element.steps.countP fun step => step.keyword = .asterisk := by
    rw [h.order, List.count, List.countP_map]
    exact List.countP_congr fun step _ => by simp
  have hlisted := h.filter_isAsteriskStep hl
  have hcomplete : (scenario.asteriskLines element).length
      = scenario.stepOrder.count .asterisk := by
    rw [← hlisted, scenario.length_filter_isAsteriskStep]
  have hflagged : scenario.steps.filter Rule.usesAsterisk
      = (scenario.asteriskLines element).filter isSpaced := by
    rw [← hlisted, List.filter_filter]
    exact List.filter_congr fun line _ => by rw [Rule.usesAsterisk_eq, Bool.and_comm]
  have hcounted : rule.trigger.count (.scenario scenario)
      = (scenario.asteriskLines element).countP isSpaced := by
    rw [hrule.count_stepAsterisk hid, List.countP_eq_length_filter, hflagged,
      ← List.countP_eq_length_filter]
  have hwhole : rule.trigger.count (.scenario scenario) = scenario.stepOrder.count .asterisk
      ↔ ∀ line ∈ scenario.asteriskLines element, isSpaced line = true := by
    rw [hcounted, ← hcomplete, List.countP_eq_length]
  exact
    { order := horder, listed := hlisted, complete := hcomplete, flagged := hflagged,
      counted := hcounted, whole := hwhole }

end Elements

/-- Of the steps with an asterisk that the grammar reads in a block, the rule about asterisks counts
those that have a space behind it, and nothing else.
-/
theorem flagsAsterisks_ofBlock {location : Text} {block : List Text}
    (hn : ∀ line ∈ keptLines block, '\n' ∉ line)
    (hread : (Scenario.ofBlock FeatureTree.ofText location block).syntaxError = false)
    {rule : Rule} (hrule : rule.IsBuiltIn) (hid : rule.id = "step_asterisk")
    : ∃ tree element,
        FeatureTree.ofText (Scenario.isolated (keptLines block)) = .ok tree
        ∧ tree.allElements.head? = some element
        ∧ (Scenario.ofBlock FeatureTree.ofText location block).FlagsAsterisks rule element := by
  obtain ⟨tree, element, htext, hhead, hfill⟩ := exists_fill_of_ofBlock hread
  have he : element ∈ tree.allElements := List.mem_of_mem_head? hhead
  have hreads : (Scenario.ofBlock FeatureTree.ofText location block).ReadsSteps element :=
    hfill ▸ readsSteps_fill hn htext he
  have hlines : HaveLines (fun step => Scenario.literal?
      (Scenario.ofBlock FeatureTree.ofText location block).lines step.line) element.steps := by
    rw [hfill]
    exact fun step hs => exists_literal_of_step hn htext he hs
  exact ⟨tree, element, htext, hhead, hreads.flagsAsterisks hlines hrule hid⟩

/-- Three steps with an asterisk, one of them commented out and one with a tab behind it. -/
def tabbedBlock : List Text :=
  ["  Scenario: s", "    * w", "    # * x", "    *\ty"]

theorem flagsAsterisks_of_tabbedBlock
    : (∀ line ∈ keptLines tabbedBlock, '\n' ∉ line)
      ∧ (Scenario.ofBlock FeatureTree.ofText "f:2" tabbedBlock).syntaxError = false
      ∧ (Scenario.ofBlock FeatureTree.ofText "f:2" tabbedBlock).stepOrder = [.asterisk, .asterisk]
      ∧ ∃ rule ∈ catalog, rule.id = "step_asterisk"
        ∧ rule.trigger.count (.scenario (Scenario.ofBlock FeatureTree.ofText "f:2" tabbedBlock))
          = 1 := by
  have hn : ∀ line ∈ keptLines tabbedBlock, '\n' ∉ line := by decide
  have hread : (Scenario.ofBlock FeatureTree.ofText "f:2" tabbedBlock).syntaxError = false := rfl
  have hin := Rule.mem_catalog .step (List.mem_cons_of_mem _ List.mem_cons_self)
  obtain ⟨tree, element, htext, hhead, hflags⟩ :=
    flagsAsterisks_ofBlock hn hread (isBuiltIn_of_mem_catalog _ hin) rfl
  cases htext
  cases hhead
  exact ⟨hn, hread, rfl, _, hin, rfl, hflags.counted⟩

/-- A step with an asterisk can be left out by the rule about them. -/
theorem not_forall_asterisks_counted
    : ¬∀ (location : Text) (block : List Text),
        (∀ line ∈ block, '\n' ∉ line)
        → (Scenario.ofBlock FeatureTree.ofText location block).syntaxError = false
        → ∀ rule ∈ catalog, rule.id = "step_asterisk"
          → rule.trigger.count (.scenario (Scenario.ofBlock FeatureTree.ofText location block))
            = (Scenario.ofBlock FeatureTree.ofText location block).stepOrder.count .asterisk := by
  intro h
  have hin := Rule.mem_catalog .step (List.mem_cons_of_mem _ List.mem_cons_self)
  have hcount := h "f:2" tabbedBlock (by decide) rfl _ hin rfl
  revert hcount
  decide

end SuiteScore
