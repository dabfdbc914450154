import SuiteScore.CommandLine
import SuiteScore.Proofs.Text.Decimal
import SuiteScore.Proofs.Text.Replace

/-! Colours in reports. Every style puts control sequences of the terminal around a piece of text,
so that the report without them is the one without colours.
-/

namespace SuiteScore

open Text Report

-----------------------------------------------------------------------------------------
-- Control sequences
-----------------------------------------------------------------------------------------

namespace Report

/-- The character that every control sequence starts with. -/
abbrev escape : Char := '\x1b'

def isParameter (c : Char) : Bool :=
  decide ('0' ≤ c) && decide (c ≤ '?')

def isIntermediate (c : Char) : Bool :=
  decide (' ' ≤ c) && decide (c ≤ '/')

def isFinal (c : Char) : Bool :=
  decide ('@' ≤ c) && decide (c ≤ '~')

/-- The text after the control sequence at its start, when there is one: an escape character with a
bracket, parameters, intermediate characters, and a final one.
-/
def afterSequence? (text : Text) : Option Text :=
  match text with
  | first :: '[' :: rest =>
      if first = escape then
        match (rest.dropWhile isParameter).dropWhile isIntermediate with
        | c :: after => if isFinal c then some after else none
        | [] => none
      else none
  | _ => none

/-- A control sequence is not empty. -/
theorem length_of_afterSequence? {text after : Text} (h : afterSequence? text = some after)
    : after.length < text.length := by
  unfold afterSequence? at h
  split at h
  · next first rest =>
      split at h
      · split at h
        · next c left hleft =>
            split at h
            · cases h
              have hdrop := congrArg List.length hleft
              have hparameters := (List.dropWhile_sublist (l := rest) isParameter).length_le
              have hintermediate :=
                (List.dropWhile_sublist (l := rest.dropWhile isParameter) isIntermediate).length_le
              simp only [List.length_cons] at hdrop ⊢
              omega
            · cases h
        · cases h
      · cases h
  · cases h

/-- A text without its control sequences. -/
def withoutSequences (text : Text) : Text :=
  match h : afterSequence? text with
  | some after =>
      have : after.length < text.length := length_of_afterSequence? h
      withoutSequences after
  | none =>
      match text with
      | [] => []
      | c :: rest => c :: withoutSequences rest
termination_by text.length

/-- A control sequence at the start is left out. -/
theorem withoutSequences_of_after {text after : Text} (h : afterSequence? text = some after)
    : withoutSequences text = withoutSequences after := by
  rw [withoutSequences]
  split
  · next found hfound =>
      cases hfound.symm.trans h
      rfl
  · next hnone => cases hnone.symm.trans h

theorem withoutSequences_nil : withoutSequences [] = [] := by
  rw [withoutSequences]
  rfl

/-- A character that starts no control sequence stays. -/
theorem withoutSequences_cons {c : Char} (hc : c ≠ escape) (rest : Text)
    : withoutSequences (c :: rest) = c :: withoutSequences rest := by
  have hnone : afterSequence? (c :: rest) = none := by
    unfold afterSequence?
    split
    · next first after he =>
        have hfirst : first ≠ escape := (List.cons.inj he).1 ▸ hc
        rw [if_neg hfirst]
    · rfl
  rw [withoutSequences]
  split
  · next found hfound => cases hfound.symm.trans hnone
  · rfl

/-- Text without escape characters stays, by induction on it. -/
theorem withoutSequences_append {text : Text} (h : escape ∉ text) (rest : Text)
    : withoutSequences (text ++ rest) = text ++ withoutSequences rest := by
  induction text with
  | nil => rfl
  | cons c more ih =>
      rw [List.mem_cons, not_or] at h
      rw [List.cons_append, withoutSequences_cons fun he => h.1 he.symm, ih h.2, List.cons_append]

-----------------------------------------------------------------------------------------
-- Styles
-----------------------------------------------------------------------------------------

/-- A text of which nothing is left without control sequences, whatever follows it. -/
def Vanishes (text : Text) : Prop :=
  ∀ rest, withoutSequences (text ++ rest) = withoutSequences rest

theorem vanishes_nil : Vanishes [] := fun _ => rfl

theorem Vanishes.append {text more : Text} (h : Vanishes text) (hmore : Vanishes more)
    : Vanishes (text ++ more) := by
  intro rest
  rw [List.append_assoc, h, hmore]

/-- A sequence that changes how text is shown is a control sequence with its number as parameter. -/
theorem vanishes_sequence {code : Text} (h : code.all isParameter = true)
    : Vanishes (sequence code) := by
  intro rest
  have hcode : (code ++ 'm' :: rest).dropWhile isParameter = 'm' :: rest := by
    rw [List.dropWhile_append_of_pos (List.all_eq_true.mp h)]
    exact List.dropWhile_cons_of_neg (by decide)
  have hsequence : sequence code ++ rest = escape :: '[' :: (code ++ 'm' :: rest) := by
    simp [sequence, escape]
  rw [hsequence]
  apply withoutSequences_of_after
  rw [afterSequence?, if_pos rfl, hcode, List.dropWhile_cons_of_neg (by decide)]
  rfl

/-- Every style puts only control sequences around a text. -/
theorem vanishes_around (style : Style) : Vanishes style.around.1 ∧ Vanishes style.around.2 := by
  cases style with
  | plain => exact ⟨vanishes_nil, vanishes_nil⟩
  | boldRed =>
      exact ⟨.append (vanishes_sequence (by decide)) (vanishes_sequence (by decide)),
        .append (vanishes_sequence (by decide)) (vanishes_sequence (by decide))⟩
  | bold | red | green | yellow | gray =>
      exact ⟨vanishes_sequence (by decide), vanishes_sequence (by decide)⟩

/-- What a style is put around stays. -/
theorem withoutSequences_render {piece : Piece} (h : escape ∉ piece.text) (rest : Text)
    : withoutSequences (piece.render true ++ rest)
      = piece.render false ++ withoutSequences rest := by
  obtain ⟨hbefore, hafter⟩ := vanishes_around piece.style
  calc withoutSequences (piece.render true ++ rest)
      = withoutSequences (piece.style.around.1
          ++ (piece.text ++ (piece.style.around.2 ++ rest))) := by
          simp only [Piece.render, Style.paint, if_true, List.append_assoc]
    _ = piece.text ++ withoutSequences (piece.style.around.2 ++ rest) := by
          rw [hbefore, withoutSequences_append h]
    _ = piece.render false ++ withoutSequences rest := by
          rw [hafter]
          rfl

/-- A piece that holds no escape character. -/
def Piece.IsClean (piece : Piece) : Prop :=
  escape ∉ piece.text

/-- A line keeps the text of its pieces, by induction on them. -/
theorem withoutSequences_renderLine {pieces : List Piece} (h : ∀ piece ∈ pieces, piece.IsClean)
    (rest : Text)
    : withoutSequences (renderLine true pieces ++ rest)
      = renderLine false pieces ++ withoutSequences rest := by
  induction pieces with
  | nil => exact withoutSequences_append (show escape ∉ ("\n" : Text) by decide) rest
  | cons piece more ih =>
      obtain ⟨hpiece, hmore⟩ := List.forall_mem_cons.mp h
      have hline := ih hmore
      simp only [renderLine, List.append_assoc, List.flatMap_cons] at hline ⊢
      rw [withoutSequences_render hpiece, hline]

/-- Lines keep the text of their pieces, by induction on the lines. -/
theorem withoutSequences_renderLines {lines : List (List Piece)}
    (h : ∀ pieces ∈ lines, ∀ piece ∈ pieces, piece.IsClean)
    : withoutSequences (renderLines true lines) = renderLines false lines := by
  induction lines with
  | nil => exact withoutSequences_nil
  | cons pieces more ih =>
      obtain ⟨hpieces, hmore⟩ := List.forall_mem_cons.mp h
      have hlines := ih hmore
      simp only [renderLines, List.flatMap_cons] at hlines ⊢
      rw [withoutSequences_renderLine hpieces, hlines]

end Report

-----------------------------------------------------------------------------------------
-- Texts of results and rules
-----------------------------------------------------------------------------------------

/-- The texts of a target that a report shows. -/
def TargetScore.texts (target : TargetScore) : List Text :=
  target.location :: target.name :: target.hits.map (·.phrase)

def FeatureScore.texts (feature : FeatureScore) : List Text :=
  feature.own.texts ++ (feature.background.toList ++ feature.scenarios).flatMap (·.texts)

def FileError.texts (error : FileError) : List Text :=
  [error.file, error.error.message]

/-- The texts of a result that a report shows; all else in it are numbers. -/
def ScanResult.texts (result : ScanResult) : List Text :=
  result.features.flatMap (·.texts) ++ (result.hooks ++ result.stepDefinitions).flatMap (·.texts)
    ++ result.errors.flatMap (·.texts)

/-- The texts of a rule that a list of rules shows. -/
def Rule.texts (rule : Rule) : List Text :=
  [rule.id, rule.phrase]

namespace Report

/-- The texts of what a line is about. -/
def Line.texts : Line → List Text
  | score _ _ _ location name => [location, name]
  | hit _ own => [own.phrase]
  | error own => own.texts
  | summary _ => []

/-- Digits and signs are no escape characters. -/
theorem escape_not_mem_ofNat (n : Nat) : escape ∉ ofNat n :=
  not_mem_ofNat (by decide) n

theorem escape_not_mem_ofInt (n : Int) : escape ∉ ofInt n :=
  not_mem_ofInt (by decide) (by decide) n

theorem escape_not_mem_ofSignedInt (n : Int) : escape ∉ ofSignedInt n :=
  not_mem_ofSignedInt (by decide) (by decide) (by decide) n

theorem escape_not_mem_timesText (count : Nat) : escape ∉ timesText count := by
  unfold timesText
  split
  · simp [escape_not_mem_ofNat, escape]
  · simp

theorem escape_not_mem_summaryText (result : ScanResult) : escape ∉ summaryText result := by
  unfold summaryText thresholdText
  cases result.threshold with
  | none => simp [escape_not_mem_ofNat, escape_not_mem_ofInt, escape]
  | some limit => simp [escape_not_mem_ofNat, escape_not_mem_ofInt, escape]

/-- The pieces of a line are clean when the texts are that it is about, by the kinds of lines. -/
theorem Line.isClean_of_mem_pieces {line : Line} (h : ∀ text ∈ line.texts, escape ∉ text)
    : ∀ piece ∈ line.pieces, piece.IsClean := by
  cases line with
  | score indent points exceeds location name =>
      simp only [texts, List.forall_mem_cons] at h
      simp [pieces, Piece.IsClean, indentation, Piece.plain, h, escape_not_mem_ofInt, escape]
  | hit indent own =>
      simp only [texts, List.forall_mem_cons] at h
      simp [pieces, Piece.IsClean, indentation, Piece.plain, h, escape_not_mem_ofSignedInt,
        escape_not_mem_timesText, escape]
  | error own =>
      simp only [texts, FileError.texts, List.forall_mem_cons] at h
      simp [pieces, Piece.IsClean, Piece.plain, h, escape]
  | summary result =>
      simpa [pieces, Piece.IsClean] using escape_not_mem_summaryText result

/-- The lines of a target are about its texts. -/
theorem texts_subset_of_mem_targetLines {indent : Nat} {target : TargetScore} {line : Line}
    (h : line ∈ targetLines indent target)
    : line.texts ⊆ target.texts := by
  unfold targetLines at h
  split at h
  · cases h
  · rcases List.mem_cons.mp h with rfl | h
    · simp [Line.texts, TargetScore.texts]
    · obtain ⟨hit, hin, rfl⟩ := List.mem_map.mp h
      simpa [Line.texts, TargetScore.texts] using .inr (.inr ⟨hit, hin, rfl⟩)

/-- The lines of a feature are about its texts. -/
theorem texts_subset_of_mem_featureLines {threshold : Option Int} {feature : FeatureScore}
    {line : Line} (h : line ∈ featureLines threshold feature)
    : line.texts ⊆ feature.texts := by
  unfold featureLines at h
  rcases List.mem_cons.mp h with rfl | h
  · simp [Line.texts, FeatureScore.texts, TargetScore.texts]
  · rcases List.mem_append.mp h with h | h
    · obtain ⟨hit, hin, rfl⟩ := List.mem_map.mp h
      simpa [Line.texts, FeatureScore.texts, TargetScore.texts]
        using .inr (.inr (.inl ⟨hit, hin, rfl⟩))
    · obtain ⟨target, hin, hline⟩ := List.mem_flatMap.mp h
      exact List.subset_append_of_subset_right _ fun text htext =>
        List.mem_flatMap.mpr ⟨target, hin, texts_subset_of_mem_targetLines hline htext⟩

/-- The lines of a report are about the texts of the result. -/
theorem texts_subset_of_mem_scanLines {result : ScanResult} {line : Line}
    (h : line ∈ scanLines result)
    : line.texts ⊆ result.texts := by
  intro text htext
  simp only [scanLines, List.mem_append, List.mem_flatMap, List.mem_map, List.mem_singleton] at h
  simp only [ScanResult.texts, List.mem_append, List.mem_flatMap]
  rcases h with ((⟨feature, hin, hline⟩ | ⟨target, hin, hline⟩) | ⟨error, hin, rfl⟩) | rfl
  · exact .inl (.inl ⟨feature, hin, texts_subset_of_mem_featureLines hline htext⟩)
  · exact .inl (.inr ⟨target, hin, texts_subset_of_mem_targetLines hline htext⟩)
  · exact .inr ⟨error, hin, htext⟩
  · cases htext

/-- The pieces of a rule are clean when its texts are; the word for its targets is put into the
phrase.
-/
theorem isClean_of_mem_rulePieces {rule : Rule} (h : ∀ text ∈ rule.texts, escape ∉ text)
    : ∀ piece ∈ rulePieces rule, piece.IsClean := by
  have hkind : escape ∉ rule.kind.text := by cases rule.kind <;> decide
  simp only [Rule.texts, List.forall_mem_cons] at h
  have hphrase : escape ∉ rule.phraseFor rule.kind.text := fun hin =>
    (mem_of_mem_replace hin).elim h.2.1 hkind
  have hstate : escape ∉ stateText rule := by
    unfold stateText
    split <;> decide
  simp [rulePieces, Piece.IsClean, Piece.plain, padStart, h, hkind, hphrase, hstate,
    escape_not_mem_ofInt, escape]

end Report

/-- Colours change nothing but how a report looks. Without its control sequences a coloured report
on a scan, or list of rules, is the one without colours, for every output but the one for programs
and for all texts that hold no escape character.
-/
theorem withoutSequences_of_colored {output : Text} (houtput : output ≠ jsonOutput)
    {result : ScanResult} (hresult : ∀ text ∈ result.texts, escape ∉ text) {rules : List Rule}
    (hrules : ∀ rule ∈ rules, ∀ text ∈ rule.texts, escape ∉ text)
    : withoutSequences (writeScan output false result) = writeScan output true result
      ∧ withoutSequences (writeRules output false rules) = writeRules output true rules := by
  have hcolored : isColored output false = true := by simpa [isColored] using houtput
  have hplain : isColored output true = false := by simp [isColored]
  constructor
  · rw [writeScan, writeScan, if_neg houtput, if_neg houtput, hcolored, hplain]
    refine withoutSequences_renderLines (List.forall_mem_map.mpr fun line hline => ?_)
    exact Line.isClean_of_mem_pieces fun text htext =>
      hresult text (texts_subset_of_mem_scanLines hline htext)
  · rw [writeRules, writeRules, if_neg houtput, if_neg houtput, hcolored, hplain]
    exact withoutSequences_renderLines (List.forall_mem_map.mpr fun rule hrule =>
      isClean_of_mem_rulePieces (hrules rule hrule))

/-- A feature over the threshold with a hit that counts twice and a bonus, and a file that cannot be
read.
-/
def overResult : ScanResult where
  files := 2
  features := [
    {
      own := ⟨"a:1", "A", [⟨"long", "Feature is long.", 2, 30⟩]⟩
      background := some ⟨"a:2", "", []⟩
      scenarios := [⟨"a:5", "s", [⟨"short", "Scenario is short.", 1, -4⟩]⟩]
    }
  ]
  hooks := [⟨"h.rb:1", "", [⟨"late", "Hook is late.", 1, 5⟩]⟩]
  stepDefinitions := []
  errors := [⟨"b", .unreadable "./b" .isDirectory⟩]
  threshold := some 20

/-- A rule with the word for its targets in its phrase, which does not count. -/
def unusedRule : Rule where
  id := "hook_late"
  phrase := "\x7bclass\x7d is late."
  weight := 5
  enabled := false
  trigger := .hook fun _ _ => 1

theorem withoutSequences_of_overResult
    : ("human" : Text) ≠ jsonOutput
      ∧ (∀ text ∈ overResult.texts, escape ∉ text)
      ∧ (∀ rule ∈ [unusedRule], ∀ text ∈ rule.texts, escape ∉ text)
      ∧ escape ∈ writeScan "human" false overResult
      ∧ withoutSequences (writeScan "human" false overResult)
        = "[26] a:1 A\n    +30 Feature is long. (x2)\n  [-4] a:5 s\n      -4 Scenario is short.\n"
          ++ "[5] h.rb:1 \n    +5 Hook is late.\n✖ b — failed to read ./b: Is a directory "
          ++ "(os error 21)\n— Summary — score=31 files=2 features=1 scenarios=1 hooks=1 "
          ++ "step_definitions=0 errors=1 over_threshold=1 (threshold=20)\n"
      ∧ withoutSequences (writeRules "human" false [unusedRule])
        = "   5 hook_late [Hook] Hook is late. (disabled)\n" := by
  have houtput : ("human" : Text) ≠ jsonOutput := by decide
  have hresult : ∀ text ∈ overResult.texts, escape ∉ text := by decide
  have hrules : ∀ rule ∈ [unusedRule], ∀ text ∈ rule.texts, escape ∉ text := by decide
  obtain ⟨hscan, hlist⟩ := withoutSequences_of_colored houtput hresult hrules
  exact ⟨houtput, hresult, hrules, by decide, hscan.trans (by decide +kernel),
    hlist.trans (by decide)⟩

end SuiteScore
