import SuiteScore.Proofs.Files.Tree
import SuiteScore.Proofs.Support.Selection
import SuiteScore.Proofs.Support.WrittenBlock
import SuiteScore.Rule.Catalog
import SuiteScore.Scan

/-! Blocks that are still open where their file ends. They are read like all others, so that they
are reported only if they do not look whole: the nesting is not known any more where a block is
read.
-/

namespace SuiteScore.Support

open Text Gherkin

-----------------------------------------------------------------------------------------
-- Lines with text
-----------------------------------------------------------------------------------------

/-- Blank lines do not change the nesting, by induction on the lines. -/
theorem depthOf_eq_total_contentLines (lines : List Text)
    : depthOf lines = total nestingDelta (contentLines lines) := by
  induction lines with
  | nil => rfl
  | cons raw rest ih =>
      rw [depthOf_cons, ih]
      by_cases hblank : trim raw = []
      · have hcontent : contentLines (raw :: rest) = contentLines rest := by
          simp [contentLines, hblank]
        have hdelta : nestingDelta [] = 0 := by decide
        rw [hcontent, hblank, hdelta, Int.zero_add]
      · have hcontent : contentLines (raw :: rest) = trim raw :: contentLines rest := by
          simp [contentLines, hblank]
        rw [hcontent, total]

/-- A header has text in it. -/
theorem BlockKind.IsHeader.trim_ne_nil {raw : Text} {kind : BlockKind} (h : kind.IsHeader raw)
    : trim raw ≠ [] := by
  intro hblank
  have hnone : headerKind? [] = none := by decide
  rw [← headerKind?_eq_some_iff, hblank, hnone] at h
  cases h

-----------------------------------------------------------------------------------------
-- Blocks that look whole
-----------------------------------------------------------------------------------------

namespace Block

variable {block : Block}

/-- The header of the block is accepted, and the last line with text behind it is an `end`. That
`end` can be one of a block inside.
-/
structure LooksWhole (block : Block) : Prop where
  accepted : ∃ header, block.lines.head? = some header ∧ block.kind.Accepts (trim header)
  ends : ∃ last, (contentLines block.lines.tail).getLast? = some last ∧ IsEnd last

/-- A block with a header declares something exactly if it looks whole. -/
theorem IsHeaded.exists_read_iff (h : block.IsHeaded) (path : Text)
    : (∃ declaration, block.read path = .ok declaration) ↔ block.LooksWhole := by
  obtain ⟨header, rest, hl, hheader⟩ := h
  have hparts := BlockParts.ofLines_cons rest hheader.trim_ne_nil
  rw [Block.exists_read_iff, hl]
  constructor
  · rintro ⟨parts, hok, haccepts⟩
    rw [hparts.2 hok] at haccepts
    exact ⟨⟨header, by simp [hl], haccepts⟩, by simpa [hl] using hparts.1.mp ⟨parts, hok⟩⟩
  · rintro ⟨⟨first, hfirst, haccepts⟩, hends⟩
    rw [hl, List.head?_cons, Option.some.injEq] at hfirst
    rw [hl, List.tail_cons] at hends
    obtain ⟨parts, hok⟩ := hparts.1.mpr hends
    exact ⟨parts, hok, hparts.2 hok ▸ hfirst ▸ haccepts⟩

/-- A block that is open behind a bare `end` had two levels open before it, so that the `end` is one
of a block inside.
-/
theorem two_le_of_open {front : List Text} (ho : 0 < depthOf block.lines)
    (hl : contentLines block.lines = front ++ [("end" : Text)])
    : 2 ≤ total nestingDelta front := by
  have hend : total nestingDelta [("end" : Text)] = -1 := by decide
  rw [depthOf_eq_total_contentLines, hl, total_append, hend] at ho
  omega

end Block

-----------------------------------------------------------------------------------------
-- Reports
-----------------------------------------------------------------------------------------

section Reports

variable {tree : FileTree} {path source : Text} {block : Block}

/-- The last block of a file gives the last outcome of the file. -/
theorem getLast?_scanSupport (hread : tree.read path = .ok source)
    (hlast : (blocks source).getLast? = some block) (root : Text)
    : (scanSupport tree root path).getLast?
      = some ((block.read (Path.relativeTo root path)).mapError
          (⟨Path.relativeTo root path, ·⟩)) := by
  simp only [scanSupport, hread, declarations, List.map_map, List.getLast?_map, hlast]
  rfl

/-- The errors of a file are among those of the whole suite. -/
theorem mem_errors_of_mem_scanSupport {settings : Settings.Effective} {supportFiles : List Text}
    {error : FileError} (hpath : path ∈ supportFiles)
    (h : Except.error error ∈ scanSupport tree settings.root path) (rules : List Rule)
    (grammar : Grammar) (featureFiles : List Text)
    : error ∈ (scanFiles tree settings rules grammar featureFiles supportFiles).errors := by
  refine List.mem_append_right _ (List.mem_filterMap.mpr ⟨.error error, ?_, rfl⟩)
  exact List.mem_flatMap.mpr ⟨path, hpath, h⟩

/-- A block that is still open at the end of its file is reported exactly if it does not look whole,
and what it declares is scored otherwise. To look whole with a bare `end`, it must have had two
levels open before it.
-/
theorem reported_iff_of_open (settings : Settings.Effective) {supportFiles : List Text}
    (hpath : path ∈ supportFiles) (hread : tree.read path = .ok source)
    (hlast : (blocks source).getLast? = some block) (ho : 0 < depthOf block.lines)
    (rules : List Rule) (grammar : Grammar) (featureFiles : List Text)
    : ((∃ error,
          block.read (Path.relativeTo settings.root path) = .error error
          ∧ (scanSupport tree settings.root path).getLast?
            = some (.error ⟨Path.relativeTo settings.root path, error⟩)
          ∧ ⟨Path.relativeTo settings.root path, error⟩
            ∈ (scanFiles tree settings rules grammar featureFiles supportFiles).errors)
        ↔ ¬block.LooksWhole)
      ∧ ((∃ declaration,
            block.read (Path.relativeTo settings.root path) = .ok declaration
            ∧ (scanSupport tree settings.root path).getLast? = some (.ok declaration))
          ↔ block.LooksWhole)
      ∧ ∀ front, contentLines block.lines = front ++ [("end" : Text)]
          → 2 ≤ total nestingDelta front := by
  have hin : block ∈ blocks source := List.mem_of_getLast? hlast
  have hreads := ((isSelection_blocks source).headed block hin).exists_read_iff
    (Path.relativeTo settings.root path)
  have houtcome := getLast?_scanSupport hread hlast settings.root
  refine ⟨?_, ?_, fun front hl => Block.two_le_of_open ho hl⟩
  · rw [← hreads]
    cases hr : block.read (Path.relativeTo settings.root path) with
    | ok declaration => simp
    | error error =>
        rw [hr] at houtcome
        have hmem := mem_errors_of_mem_scanSupport hpath (List.mem_of_getLast? houtcome) rules
          grammar featureFiles
        simpa using ⟨houtcome, hmem⟩
  · rw [← hreads]
    cases hr : block.read (Path.relativeTo settings.root path) with
    | ok declaration =>
        rw [hr] at houtcome
        simpa [Except.mapError] using houtcome
    | error error => simp

/-- A hook with all its lines, and one that is cut off in the middle. -/
def cutOffSource : Text :=
  "After do\nend\n\nBefore do\n  if ready\n    reset\n"

def cutOffBlock : Block :=
  ⟨.hook, 4, ["Before do", "  if ready", "    reset"]⟩

def cutOffTree : FileTree :=
  FileTree.put [] ["hooks.rb"] (.holding cutOffSource)

theorem cutOffBlock_reported
    : cutOffTree.read "hooks.rb" = .ok cutOffSource
      ∧ (blocks cutOffSource).getLast? = some cutOffBlock ∧ 0 < depthOf cutOffBlock.lines
      ∧ ∃ error, cutOffBlock.read "hooks.rb" = .error error
        ∧ ⟨"hooks.rb", error⟩
          ∈ (scanFiles cutOffTree ⟨"", [], [], "human", none, []⟩ catalog FeatureTree.ofText []
              ["hooks.rb"]).errors := by
  have hread : cutOffTree.read "hooks.rb" = .ok cutOffSource := FileTree.read_of_holding rfl
  have hlast : (blocks cutOffSource).getLast? = some cutOffBlock := by decide
  have ho : 0 < depthOf cutOffBlock.lines := by decide
  have hcut : ¬cutOffBlock.LooksWhole := by
    rintro ⟨_, last, hl, he⟩
    cases hl
    rw [← BlockParts.isEnd_iff] at he
    cases he
  obtain ⟨error, hr, _, hmem⟩ := (reported_iff_of_open
    ⟨"", [], [], "human", none, []⟩ (List.mem_singleton_self _) hread hlast ho
    catalog FeatureTree.ofText []).1.mpr hcut
  exact ⟨hread, hlast, ho, error, hr, hmem⟩

/-- An open block need not be reported: the `end` of a block inside is taken for its own. -/
theorem not_forall_open_reported
    : ¬∀ (source path : Text) (block : Block), (blocks source).getLast? = some block
        → 0 < depthOf block.lines → ∃ error, block.read path = .error error := by
  intro h
  obtain ⟨error, hr⟩ := h "Before do\n  if ready\n    reset\n  end\n" "hooks.rb"
    ⟨.hook, 1, ["Before do", "  if ready", "    reset", "  end"]⟩ (by decide) (by decide)
  cases hr

end Reports

end SuiteScore.Support
