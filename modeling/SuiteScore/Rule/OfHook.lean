import SuiteScore.Path.Basic
import SuiteScore.Rule.Naming
import SuiteScore.Rule.Weight

/-! The built-in rules about hooks. -/

namespace SuiteScore.Rule

open Text Support

def hooksFile : Text := "hooks.rb"

def doubles (hook : Hook) (peers : List Hook) : Nat :=
  peers.countP fun peer => peer.sameDefinition hook

def ofHook : List Rule :=
  [
    builtIn "hook_empty" warning "with no content."
      (.hook fun hook _ => once (hook.code.isEmpty && hook.comments.isEmpty)),
    builtIn "hook_not_in_hooks_file" info "found outside of the hooks.rb file."
      (.hook fun hook _ => once (Path.fileName? (Location.path hook.location) != some hooksFile)),
    builtIn "around_hook_without_2_parameters" fatal
      "Around hook without 2 parameters for scenario and block."
      (.hook fun hook _ => once (hook.isAround && hook.parameters.length != 2)),
    builtIn "around_hook_no_block_call" fatal "Around hook does not call its block."
      (.hook fun hook _ => once (hook.isAround && !hook.callsBlock)),
    builtIn "hook_no_debugging" info "without a begin/rescue for debugging."
      (.hook fun hook _ =>
        once ((!hook.code.isEmpty || !hook.comments.isEmpty) && !hook.hasExceptionGuard)),
    builtIn "hook_all_comments" error "is only comments."
      (.hook fun hook _ => once (hook.code.isEmpty && !hook.comments.isEmpty)),
    builtIn "hook_conflicting_tags" error "has a tag and its negation."
      (.hook fun hook _ => once hook.hasConflictingTags),
    builtIn "hook_duplicate_tags" warning "has duplicate tags."
      (.hook fun hook _ => once hook.hasDuplicateTags),
    builtIn "hook_duplicate" warning "is defined more than once."
      (.hook fun hook peers => once (decide (1 < doubles hook peers)))
  ]

end SuiteScore.Rule
