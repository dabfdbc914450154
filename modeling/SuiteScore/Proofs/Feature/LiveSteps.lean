import SuiteScore.Proofs.Feature.Steps
import SuiteScore.Proofs.Gherkin.Ownership

/-! Live steps of a scenario. Steps are told apart twice, by the grammar when it reads the isolated
block and by the scenario in the lines that it takes from the block, and the two agree.
-/

namespace SuiteScore

open Text Gherkin

-----------------------------------------------------------------------------------------
-- Comments and steps
-----------------------------------------------------------------------------------------

/-- Every comment in an accepted tree starts with a comment sign: it is what a line says, and the
line reads as a comment.
-/
theorem Gherkin.FeatureTree.head?_of_mem_comments {source : Text} {tree : FeatureTree} {node : Node}
    {comment : Comment} (h : ofText source = .ok tree) (hin : node ∈ tree.nodes)
    (hc : comment ∈ node.comments)
    : comment.text.head? = some '#' := by
  obtain ⟨reader, hr, _, _, hf⟩ := exists_reader_of_ofText h
  have hnodes : tree.nodes = reader.nodes :=
    Reader.nodes_of_closeElement (Reader.isOrdered_of_takeAll hr) hf
  obtain ⟨_, hcomments⟩ := Reader.owned_of_takeAll rfl Reader.Takes.comments_eq
    Reader.Grows.heldComments_eq hr
  have hheld : (node.line, comment) ∈ reader.nodes.flatMap Node.heldComments :=
    List.mem_flatMap.mpr ⟨node, hnodes ▸ hin, List.mem_map.mpr ⟨comment, hc, rfl⟩⟩
  rw [hcomments] at hheld
  obtain ⟨n, line, hsaid, hbrought⟩ := exists_of_mem_owned _ _ hheld
  obtain ⟨raw, _, hline⟩ := exists_of_readings (mem_numbered.mp hsaid).2
  cases line with
  | comment text =>
      cases List.mem_singleton.mp hbrought
      have hfits := Line.fits_ofTrimmed (trim raw)
      rw [← Line.of, hline] at hfits
      exact hfits.1 ▸ hfits.2
  | blank | tags | feature | element | examples | step | row | fence | prose => cases hbrought

/-- The comments before the steps of an accepted tree are comments in the lines of a scenario too.
-/
theorem isCommented_of_mem_steps {source : Text} {tree : FeatureTree} {element : Element}
    {step : Step} {comment : Comment} (h : FeatureTree.ofText source = .ok tree)
    (he : element ∈ tree.allElements) (hs : step ∈ element.steps) (hc : comment ∈ step.comments)
    : isCommented comment.text = true := by
  have hnode : { Node.bare step.line (.step step.keyword step.text) with comments := step.comments }
      ∈ tree.nodes := by
    refine List.mem_cons_of_mem _ (List.mem_flatMap.mpr ⟨element, he, ?_⟩)
    refine List.mem_cons_of_mem _ (List.mem_append_left _ (List.mem_flatMap.mpr ⟨step, hs, ?_⟩))
    exact List.mem_cons_self
  have hhead := FeatureTree.head?_of_mem_comments h hnode hc
  cases htext : comment.text with
  | nil =>
      rw [htext] at hhead
      cases hhead
  | cons c rest =>
      rw [htext] at hhead
      cases hhead
      rw [isCommented, trimStart_cons rest (by decide)]
      rfl

-----------------------------------------------------------------------------------------
-- Lines of isolated blocks
-----------------------------------------------------------------------------------------

variable {location : Text} {block : List Text} {tree : FeatureTree} {element : Element}

/-- A line of an isolated block below its first is the line that the scenario has under its number.
-/
theorem literal?_of_isolated (hn : ∀ line ∈ keptLines block, '\n' ∉ line) {number : Nat}
    {raw : Text} (hthree : 2 < number)
    (h : (lines (Scenario.isolated (keptLines block)))[number - 1]? = some raw)
    : Scenario.literal? (keptLines block) number = some raw := by
  have hall : (Scenario.header :: keptLines block)[number - 1]? = some raw := by
    obtain ⟨dropped, hdropped⟩ := withoutEmptyLast_prefix (Scenario.header :: keptLines block)
    rw [lines_isolated hn] at h
    rw [← hdropped, List.getElem?_append_left (List.getElem?_eq_some_iff.mp h).1]
    exact h
  have hindex : number - 1 = number - 2 + 1 := by omega
  rw [hindex, List.getElem?_cons_succ] at hall
  rw [Scenario.literal?, if_neg (by omega)]
  exact hall

/-- A step of an isolated block reads as itself in the line that the scenario has for it. -/
theorem exists_literal_of_step (hn : ∀ line ∈ keptLines block, '\n' ∉ line)
    (h : FeatureTree.ofText (Scenario.isolated (keptLines block)) = .ok tree)
    (he : element ∈ tree.allElements) {step : Step} (hs : step ∈ element.steps)
    : ∃ raw, Scenario.literal? (keptLines block) step.line = some raw
        ∧ Line.of raw = .step step.keyword step.text := by
  obtain ⟨layout⟩ := FeatureTree.nonempty_layout h he
  obtain ⟨raw, hfirst, hfile, _, hreads⟩ := step_stands h he step hs
  have htwo := layout.two_le_firstOf
  exact ⟨raw, literal?_of_isolated hn (by omega) hfile, hreads⟩

-----------------------------------------------------------------------------------------
-- Live steps
-----------------------------------------------------------------------------------------

/-- Each of some steps has a line, and the line reads as the step. -/
def HaveLines (literal : Step → Option Text) (steps : List Step) : Prop :=
  ∀ step ∈ steps, ∃ raw, literal step = some raw ∧ Line.of raw = .step step.keyword step.text

/-- Of lines that steps leave in a scenario, those that are not commented out are the lines of the
steps, by induction on the steps.
-/
theorem live_linesOf {literal : Step → Option Text} {steps : List Step}
    (hc : ∀ step ∈ steps, ∀ comment ∈ step.comments, isCommented comment.text = true)
    (hl : HaveLines literal steps)
    : (stepLines (Scenario.linesOf literal steps)).filter (fun line => !isCommented line)
      = steps.filterMap literal := by
  induction steps with
  | nil => rfl
  | cons step rest ih =>
      obtain ⟨raw, hraw, hreads⟩ := hl step List.mem_cons_self
      have hcomments : (stepLines (step.comments.map (·.text))).filter
          (fun line => !isCommented line) = [] := by
        refine List.filter_eq_nil_iff.mpr fun text hin => ?_
        obtain ⟨comment, hcomment, rfl⟩ := List.mem_map.mp (List.mem_filter.mp hin).1
        simp [hc step List.mem_cons_self comment hcomment]
      have hstep : isStepLine raw = true := isStepLine_of_step hreads
      have hrest := ih (fun other hin => hc other (List.mem_cons_of_mem _ hin))
        (fun other hin => hl other (List.mem_cons_of_mem _ hin))
      have hsplit : stepLines (Scenario.linesOf literal (step :: rest))
          = stepLines (step.comments.map (·.text))
            ++ raw :: stepLines (Scenario.linesOf literal rest) := by
        simp [Scenario.linesOf, stepLines, hraw, hstep]
      rw [hsplit, List.filter_append, hcomments, List.nil_append, List.filter_cons,
        isCommented_of_step hreads, Bool.not_false, if_pos rfl, hrest,
        List.filterMap_cons_some hraw]

/-- The lines of steps have the keywords of the steps, by induction on the steps. -/
theorem filterMap_stepKeyword? {literal : Step → Option Text} {steps : List Step}
    (hl : HaveLines literal steps)
    : (steps.filterMap literal).filterMap stepKeyword? = steps.map (·.keyword) := by
  induction steps with
  | nil => rfl
  | cons step rest ih =>
      obtain ⟨raw, hraw, hreads⟩ := hl step List.mem_cons_self
      rw [List.filterMap_cons_some hraw, List.filterMap_cons_some (stepKeyword?_of_step hreads),
        ih fun other hin => hl other (List.mem_cons_of_mem _ hin), List.map_cons]

/-- A scenario has the steps of an element. Apart from commented-out steps its lines are those of
the steps, in their order and with their keywords; each of them is a step line, and to drop all
other lines once more changes nothing.
-/
structure Scenario.ReadsSteps (scenario : Scenario) (element : Element) : Prop where
  order : scenario.stepOrder = element.steps.map (·.keyword)
  live
    : scenario.steps.filter (fun line => !isCommented line)
      = element.steps.filterMap fun step => literal? scenario.lines step.line
  recognized
    : ∀ step ∈ element.steps, ∃ line ∈ scenario.steps,
        literal? scenario.lines step.line = some line ∧ isStepLine line = true
        ∧ isCommented line = false
  idempotent : stepLines scenario.steps = scenario.steps

/-- A scenario that is filled from an element of its isolated block has the steps of the element. -/
theorem readsSteps_fill (hn : ∀ line ∈ keptLines block, '\n' ∉ line)
    (h : FeatureTree.ofText (Scenario.isolated (keptLines block)) = .ok tree)
    (he : element ∈ tree.allElements)
    : ((Scenario.unread location (keptLines block)).fill element).ReadsSteps element := by
  have hcomments : ∀ step ∈ element.steps, ∀ comment ∈ step.comments,
      isCommented comment.text = true :=
    fun step hs comment hc => isCommented_of_mem_steps h he hs hc
  have hliteral : HaveLines (fun step => Scenario.literal? (keptLines block) step.line)
      element.steps :=
    fun step hs => exists_literal_of_step hn h he hs
  have hlive : ((Scenario.unread location (keptLines block)).fill element).steps.filter
      (fun line => !isCommented line)
        = element.steps.filterMap fun step => Scenario.literal? (keptLines block) step.line :=
    live_linesOf hcomments hliteral
  refine { order := ?_, live := hlive, recognized := ?_, idempotent := ?_ }
  · rw [Scenario.stepOrder, hlive]
    exact filterMap_stepKeyword? hliteral
  · intro step hs
    obtain ⟨raw, hraw, hreads⟩ := hliteral step hs
    have hin : raw ∈ element.steps.filterMap fun step =>
        Scenario.literal? (keptLines block) step.line :=
      List.mem_filterMap.mpr ⟨step, hs, hraw⟩
    rw [← hlive, List.mem_filter] at hin
    exact ⟨raw, hin.1, hraw, isStepLine_of_step hreads, isCommented_of_step hreads⟩
  · exact List.filter_eq_self.mpr fun line hin => (List.mem_filter.mp hin).2

/-- A scenario that is not marked is filled from the first element of its isolated block. -/
theorem exists_fill_of_ofBlock {grammar : Grammar}
    (h : (Scenario.ofBlock grammar location block).syntaxError = false)
    : ∃ tree element,
        grammar (Scenario.isolated (keptLines block)) = .ok tree
        ∧ tree.allElements.head? = some element
        ∧ Scenario.ofBlock grammar location block
          = (Scenario.unread location (keptLines block)).fill element := by
  rw [keptLines]
  unfold Scenario.ofBlock at h ⊢
  dsimp only at h ⊢
  split at h
  · cases h
  · next tree htext =>
      split at h
      · cases h
      · next element rest hall => exact ⟨tree, element, htext, by rw [hall]; rfl, rfl⟩

/-- A scenario that is not marked has the steps of the first element of its isolated block. -/
theorem readsSteps_ofBlock (hn : ∀ line ∈ keptLines block, '\n' ∉ line)
    (hread : (Scenario.ofBlock FeatureTree.ofText location block).syntaxError = false)
    : ∃ tree element,
        FeatureTree.ofText (Scenario.isolated (keptLines block)) = .ok tree
        ∧ tree.allElements.head? = some element
        ∧ (Scenario.ofBlock FeatureTree.ofText location block).ReadsSteps element := by
  obtain ⟨tree, element, htext, hhead, hfill⟩ := exists_fill_of_ofBlock hread
  refine ⟨tree, element, htext, hhead, ?_⟩
  rw [hfill]
  exact readsSteps_fill hn htext (List.mem_of_mem_head? hhead)

/-- The comment before the first step is a commented-out step, the second step has a doc string, and
the last is a bullet.
-/
def bulletedBlock : List Text :=
  ["  Scenario: s", "    # Given w", "    Given x", "", "    And y", "      \"\"\"", "      Then z",
    "      \"\"\"", "    * t"]

theorem readsSteps_of_bulletedBlock
    : (∀ line ∈ keptLines bulletedBlock, '\n' ∉ line)
      ∧ (Scenario.ofBlock FeatureTree.ofText "f:2" bulletedBlock).syntaxError = false
      ∧ (Scenario.ofBlock FeatureTree.ofText "f:2" bulletedBlock).stepOrder
        = [.context, .conjunction, .asterisk]
      ∧ (Scenario.ofBlock FeatureTree.ofText "f:2" bulletedBlock).steps
        = ["# Given w", "    Given x", "    And y", "    * t"] := by
  have hn : ∀ line ∈ keptLines bulletedBlock, '\n' ∉ line := by decide
  have hread : (Scenario.ofBlock FeatureTree.ofText "f:2" bulletedBlock).syntaxError = false := rfl
  obtain ⟨tree, element, htext, hhead, hreads⟩ := readsSteps_ofBlock hn hread
  cases htext
  cases hhead
  exact ⟨hn, hread, hreads.order, rfl⟩

end SuiteScore
