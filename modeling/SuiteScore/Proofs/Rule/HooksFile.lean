import SuiteScore.Proofs.Feature.Refusal
import SuiteScore.Proofs.Path.FileName
import SuiteScore.Proofs.Scan.Accounting
import SuiteScore.Proofs.Target

/-! Where hooks are found. Locations give back the paths they were made of, so the rule about hooks
outside of their file goes by the last part of the path.
-/

namespace SuiteScore

open Text Gherkin Support

namespace Rule

/-- The rule about hooks that are not in the file for hooks. -/
def ofHooksFile : Rule :=
  builtIn "hook_not_in_hooks_file" info "found outside of the hooks.rb file."
    (.hook fun hook _ => once (Path.fileName? (Location.path hook.location) != some hooksFile))

theorem ofHooksFile_mem : ofHooksFile ∈ catalog :=
  mem_catalog .hook (List.mem_cons_of_mem _ List.mem_cons_self)

/-- A hook lies outside of the file for hooks when its path has another last part. -/
def IsOutside (path : Text) : Prop :=
  (Path.parts path).getLast? ≠ some hooksFile

/-- The rule is triggered by the hooks of a file that is not the file for hooks. -/
theorem IsBuiltIn.count_ofHooksFile_ne_zero_iff {rule : Rule} (h : rule.IsBuiltIn)
    (hid : rule.id = ofHooksFile.id) {hook : Hook} {path : Text} {line : Nat}
    (hlocation : hook.location = Location.ofLine path line) (peers : List Hook)
    : rule.trigger.count (.hook hook peers) ≠ 0 ↔ IsOutside path := by
  have hname : Path.fileName? path = some hooksFile
      ↔ (Path.parts path).getLast? = some hooksFile := by
    rw [Path.fileName?_eq_some_iff]
    exact and_iff_left (by decide)
  have hcount : rule.trigger.count (.hook hook peers)
      = once (Path.fileName? path != some hooksFile) := by
    rw [h.trigger_eq ofHooksFile_mem hid, ← Location.path_ofLine path line, ← hlocation]
    rfl
  rw [hcount, IsOutside, ne_eq ((Path.parts path).getLast?), ← hname]
  simp [once]

end Rule

/-- Some rule says with a hit that a hook is not in the file for hooks. -/
def Support.Hook.IsMisplaced (rules : List Rule) (hook : Hook) (peers : List Hook) : Prop :=
  ∃ hit ∈ evaluate rules (.hook hook peers), hit.rule = Rule.ofHooksFile.id

/-- Built-in rules say so of the hooks of other files as far as the rule about it is enabled. -/
theorem Support.Hook.isMisplaced_iff {rules : List Rule} (h : ∀ rule ∈ rules, rule.IsBuiltIn)
    {hook : Hook} {path : Text} {line : Nat} (hlocation : hook.location = Location.ofLine path line)
    (peers : List Hook)
    : hook.IsMisplaced rules peers
      ↔ (∃ rule ∈ rules, rule.id = Rule.ofHooksFile.id ∧ rule.enabled = true)
        ∧ Rule.IsOutside path := by
  constructor
  · rintro ⟨hit, hhit, hid⟩
    obtain ⟨rule, hin, henabled, hsays⟩ := mem_evaluate_iff.mp hhit
    have hrule : rule.id = Rule.ofHooksFile.id := (Rule.rule_of_hit? hsays).symm.trans hid
    refine ⟨⟨rule, hin, hrule, henabled⟩, ?_⟩
    apply ((h rule hin).count_ofHooksFile_ne_zero_iff hrule hlocation peers).mp
    exact (Rule.count_of_hit? hsays).2
  · rintro ⟨⟨rule, hin, hrule, henabled⟩, houtside⟩
    obtain ⟨hit, hhit⟩ := Rule.exists_hit?
      (((h rule hin).count_ofHooksFile_ne_zero_iff hrule hlocation peers).mpr houtside)
    exact ⟨hit, mem_evaluate_iff.mpr ⟨rule, hin, henabled, hhit⟩,
      (Rule.rule_of_hit? hhit).trans hrule⟩

/-- What the text of a support file declares is declared on a line of the file. -/
theorem Support.exists_location_of_mem_declarations {path source : Text} {declaration : Declaration}
    (h : .ok declaration ∈ declarations path source)
    : ∃ line, declaration.location = Location.ofLine path line := by
  obtain ⟨block, _, hread⟩ := List.mem_map.mp h
  exact ⟨block.line, location_of_read hread⟩

/-- A location of a line gives back the path, whatever stands in it, and the line, which scenarios
start on. So the hooks that are read from a file are said to be misplaced exactly if the last part
of its path that leads somewhere is not the name of the file for hooks; with overrides only as far
as they leave the rule enabled.
-/
theorem locations_of_lines (path : Text) (line : Nat)
    : Location.path (Location.ofLine path line) = path
      ∧ (line < wordBound → ∀ grammar block,
          (Scenario.ofBlock grammar (Location.ofLine path line) block).startLine = line)
      ∧ ∀ source hook, .ok (.hook hook) ∈ declarations path source → ∀ peers,
          (hook.IsMisplaced catalog peers ↔ (Path.parts path).getLast? ≠ some ("hooks.rb" : Text))
          ∧ ∀ overrides,
              hook.IsMisplaced (applyOverrides overrides catalog) peers
              ↔ (∃ rule ∈ applyOverrides overrides catalog,
                  rule.id = ("hook_not_in_hooks_file" : Text) ∧ rule.enabled = true)
                ∧ (Path.parts path).getLast? ≠ some ("hooks.rb" : Text) := by
  refine ⟨Location.path_ofLine path line, fun hline grammar block => ?_,
    fun source hook hdeclared peers => ?_⟩
  · rw [(ofBlock_frame (Location.ofLine path line)).2.2]
    exact Location.line_ofLine path hline
  · obtain ⟨number, hlocation⟩ := exists_location_of_mem_declarations hdeclared
    have hcatalog : ∃ rule ∈ catalog, rule.id = Rule.ofHooksFile.id ∧ rule.enabled = true :=
      ⟨_, Rule.ofHooksFile_mem, rfl, rfl⟩
    refine ⟨?_, fun overrides => ?_⟩
    · exact (hook.isMisplaced_iff isBuiltIn_of_mem_catalog hlocation peers).trans
        (and_iff_right hcatalog)
    · exact hook.isMisplaced_iff (isBuiltIn_of_mem_applyOverrides overrides) hlocation peers

/-- A hook in a directory that is named like the file for hooks, and in that file itself. -/
theorem locations_of_oddPaths
    : Location.path "a:1/hooks.rb/b:2:30" = ("a:1/hooks.rb/b:2" : Text)
      ∧ 30 < wordBound
      ∧ (Scenario.ofBlock FeatureTree.ofText "a:1/hooks.rb/b:2:30" ["Scenario: s"]).startLine = 30
      ∧ ∃ outside inside,
          .ok (.hook outside) ∈ declarations "a:1/hooks.rb/b:2" "Before do\nend\n"
          ∧ .ok (.hook inside) ∈ declarations "a:1//hooks.rb/." "Before do\nend\n"
          ∧ outside.IsMisplaced catalog [outside, inside]
          ∧ ¬inside.IsMisplaced catalog [outside, inside] := by
  have houtside : .ok (.hook _) ∈ declarations "a:1/hooks.rb/b:2" "Before do\nend\n" :=
    List.mem_singleton.mpr rfl
  have hinside : .ok (.hook _) ∈ declarations "a:1//hooks.rb/." "Before do\nend\n" :=
    List.mem_singleton.mpr rfl
  obtain ⟨hpath, hline, hmisplaced⟩ := locations_of_lines "a:1/hooks.rb/b:2" 30
  obtain ⟨-, -, hplaced⟩ := locations_of_lines "a:1//hooks.rb/." 30
  refine ⟨hpath, by decide, hline (by decide) FeatureTree.ofText ["Scenario: s"], _, _, houtside,
    hinside, ?_, ?_⟩
  · exact ((hmisplaced _ _ houtside _).1).mpr (by decide)
  · exact fun h => (((hplaced _ _ hinside _).1).mp h) (by decide)

end SuiteScore
