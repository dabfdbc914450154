import Mathlib
import SuiteScore.Proofs.Path.Parent
import SuiteScore.Settings.Effective

/-! The settings in effect. They are looked for in the lowest marked directory from the start
upward, where one file decides together with the command line and the defaults; what other settings
files hold has no say.
-/

namespace SuiteScore.Settings

open Text

-----------------------------------------------------------------------------------------
-- The root of a repository
-----------------------------------------------------------------------------------------

/-- The names that mark a directory as the root of a repository. -/
def rootMarks : List Text :=
  ["bddscore.toml", "bddscore.yaml", "bddscore.yml", ".git"]

def IsMarked (tree : FileTree) (directory : Text) : Prop :=
  ∃ name ∈ rootMarks, tree.contains (Path.join directory name) = true

/-- A directory that the search for a root comes to: none below it is marked. -/
def IsSearched (tree : FileTree) (start directory : Text) : Prop :=
  ∃ n, Path.above? n start = some directory
    ∧ ∀ m < n, ∀ lower, Path.above? m start = some lower → ¬IsMarked tree lower

/-- The root that belongs to a start: the first marked directory upward, or the start itself when no
directory is marked.
-/
inductive IsNearestRoot (tree : FileTree) (start : Text) : Text → Prop
  | marked {root} (searched : IsSearched tree start root) (marked : IsMarked tree root)
    : IsNearestRoot tree start root
  | unmarked
    (unmarked : ∀ n directory, Path.above? n start = some directory → ¬IsMarked tree directory)
    : IsNearestRoot tree start start

theorem isRoot_iff (tree : FileTree) (directory : Text)
    : isRoot tree directory = true ↔ IsMarked tree directory := by
  simp [isRoot, IsMarked, rootMarks, configFiles, holds, or_assoc]

/-- The paths from a path upward are those above it by their number, by induction on it. -/
theorem getElem?_upward (n : Nat) (path : Text) : (upward path)[n]? = Path.above? n path := by
  induction n generalizing path with
  | zero => rw [upward]; rfl
  | succ n ih =>
      rw [upward, List.getElem?_cons_succ, Path.above?]
      split
      · next above hparent => rw [ih, hparent, Option.bind_some]
      · next hparent => rw [hparent]; rfl

/-- The search ends at the nearest root. -/
theorem isNearestRoot_rootFrom (tree : FileTree) (start : Text)
    : IsNearestRoot tree start (rootFrom tree start) := by
  unfold rootFrom
  cases hfind : (upward start).find? (isRoot tree) with
  | none =>
      refine .unmarked fun n directory habove hmarked => ?_
      rw [← getElem?_upward] at habove
      exact List.find?_eq_none.mp hfind directory (List.mem_of_getElem? habove)
        ((isRoot_iff tree directory).mpr hmarked)
  | some root =>
      obtain ⟨hroot, n, hn, hget, hlower⟩ := List.find?_eq_some_iff_getElem.mp hfind
      refine .marked ⟨n, ?_, fun m hm lower habove hmarked => ?_⟩ ((isRoot_iff tree root).mp hroot)
      · rw [← getElem?_upward, List.getElem?_eq_getElem hn, hget]
        rfl
      · rw [← getElem?_upward, List.getElem?_eq_getElem (Nat.lt_trans hm hn), Option.some_inj]
          at habove
        have hfalse := hlower m hm
        rw [habove, (isRoot_iff tree lower).mpr hmarked] at hfalse
        cases hfalse

/-- There is one nearest root: of two marked directories that are searched neither is above the
other.
-/
theorem IsNearestRoot.unique {tree : FileTree} {start root other : Text}
    (h : IsNearestRoot tree start root) (hother : IsNearestRoot tree start other)
    : root = other := by
  cases h with
  | marked searched hmarked =>
      obtain ⟨n, hroot, hbelow⟩ := searched
      cases hother with
      | marked searched hmarked' =>
          obtain ⟨m, hother, hbelow'⟩ := searched
          rcases Nat.lt_trichotomy n m with hlt | rfl | hgt
          · exact absurd hmarked (hbelow' n hlt _ hroot)
          · exact Option.some.inj (hroot.symm.trans hother)
          · exact absurd hmarked' (hbelow m hgt _ hother)
      | unmarked hnone => exact absurd hmarked (hnone n _ hroot)
  | unmarked hnone =>
      cases hother with
      | marked searched hmarked =>
          obtain ⟨m, hother, _⟩ := searched
          exact absurd hmarked (hnone m _ hother)
      | unmarked _ => rfl

-----------------------------------------------------------------------------------------
-- The file at the root
-----------------------------------------------------------------------------------------

/-- A settings file of a directory and its format: it is there, and none whose name comes before. -/
structure IsConfigFile (tree : FileTree) (root path : Text) (format : Format) : Prop where
  first
    : ∃ front name back,
        configFiles = front ++ (name, format) :: back
        ∧ path = Path.join root name
        ∧ ∀ entry ∈ front, tree.contains (Path.join root entry.1) = false
  here : tree.contains path = true

theorem configFile?_eq_some_iff {tree : FileTree} {root path : Text} {format : Format}
    : configFile? tree root = some (path, format) ↔ IsConfigFile tree root path format := by
  unfold configFile?
  rw [Option.map_eq_some_iff]
  constructor
  · rintro ⟨⟨name, own⟩, hfind, he⟩
    cases he
    obtain ⟨hhere, front, back, hfiles, hfront⟩ := List.find?_eq_some_iff_append.mp hfind
    exact ⟨⟨front, name, back, hfiles, rfl, by simpa [holds] using hfront⟩, hhere⟩
  · rintro ⟨⟨front, name, back, hfiles, rfl, hfront⟩, hhere⟩
    refine ⟨(name, format), List.find?_eq_some_iff_append.mpr ⟨hhere, front, back, hfiles, ?_⟩, rfl⟩
    simpa [holds] using hfront

theorem configFile?_eq_none_iff {tree : FileTree} {root : Text}
    : configFile? tree root = none
      ↔ ∀ entry ∈ configFiles, tree.contains (Path.join root entry.1) = false := by
  simp [configFile?, List.find?_eq_none, holds]

-----------------------------------------------------------------------------------------
-- Command line, file and defaults
-----------------------------------------------------------------------------------------

/-- A value is the one that is given, else the one of the file, else the default. -/
inductive IsChosen {α : Type} (given file : Option α) (default : α) : α → Prop
  | given {value} (h : given = some value) : IsChosen given file default value
  | file {value} (hgiven : given = none) (h : file = some value) : IsChosen given file default value
  | default (hgiven : given = none) (hfile : file = none) : IsChosen given file default default

theorem isChosen_iff {α : Type} {given file : Option α} {default value : α}
    : IsChosen given file default value ↔ (given <|> file).getD default = value := by
  constructor
  · rintro (hgiven | ⟨hgiven, hfile⟩ | ⟨hgiven, hfile⟩)
    · rw [hgiven]
      rfl
    · rw [hgiven, hfile]
      rfl
    · rw [hgiven, hfile]
      rfl
  · rintro rfl
    cases given with
    | some value => exact .given rfl
    | none =>
        cases file with
        | some value => exact .file rfl rfl
        | none => exact .default rfl rfl

/-- The features that a command line gives; to give none leaves them open. -/
def Request.features? (request : Request) : Option (List Text) :=
  if request.features = [] then none else some request.features

/-- Settings are made of what the command line and a settings file say. -/
structure Request.Settles (request : Request) (root : Text) (config : Config)
    (settings : Effective)
    : Prop where
  root : settings.root = root
  features : IsChosen request.features? config.features defaultFeatures settings.features
  support : IsChosen none config.support defaultSupport settings.support
  output : IsChosen request.output config.output defaultOutput settings.output
  threshold
    : IsChosen (request.threshold.map some) (config.threshold.map some) none settings.threshold
  overrides : settings.overrides = config.overrides

theorem Request.settles_iff {request : Request} {root : Text} {config : Config}
    {settings : Effective}
    : request.Settles root config settings ↔ request.complete root config = settings := by
  have hfeatures : (request.features? <|> config.features).getD defaultFeatures
      = (request.complete root config).features := by
    unfold features? complete
    cases request.features with
    | nil => rfl
    | cons first rest => rfl
  have hthreshold : (request.threshold.map some <|> config.threshold.map some).getD none
      = (request.complete root config).threshold := by
    unfold complete
    cases request.threshold <;> cases config.threshold <;> rfl
  constructor
  · rintro ⟨hroot, hf, hs, ho, ht, hoverrides⟩
    rw [isChosen_iff] at hf hs ho ht
    cases settings
    simp only at hroot hf hs ho ht hoverrides
    subst hroot hf hs ho ht hoverrides
    rw [hfeatures, hthreshold]
    rfl
  · rintro rfl
    exact ⟨rfl, isChosen_iff.mpr hfeatures, isChosen_iff.mpr rfl, isChosen_iff.mpr rfl,
      isChosen_iff.mpr hthreshold, rfl⟩

/-- Where the search for a root starts: in the directory that is named, or where one is. -/
def Request.start (request : Request) : Text :=
  request.root.getD "."

/-- What a request comes to at a root. Without a settings file the rest is left to the defaults; one
that is there must be readable and in order.
-/
inductive Request.ComesTo (request : Request) (tree : FileTree) (root : Text)
    : Except SuiteError Effective → Prop
  | unset {settings}
    (missing : ∀ entry ∈ configFiles, tree.contains (Path.join root entry.1) = false)
    (settles : request.Settles root .empty settings)
    : request.ComesTo tree root (.ok settings)
  | set {path format text config settings} (file : IsConfigFile tree root path format)
    (read : tree.read path = .ok text) (decode : Config.ofText? format text = some config)
    (settles : request.Settles root config settings)
    : request.ComesTo tree root (.ok settings)
  | unreadable {path format fault} (file : IsConfigFile tree root path format)
    (read : tree.read path = .error fault)
    : request.ComesTo tree root (.error (.unreadable path fault))
  | faulty {path format text} (file : IsConfigFile tree root path format)
    (read : tree.read path = .ok text) (decode : Config.ofText? format text = none)
    : request.ComesTo tree root (.error (.config path))

/-- What a request comes to at the root that is found is what it is resolved to. -/
theorem Request.comesTo_iff {request : Request} {tree : FileTree}
    {outcome : Except SuiteError Effective}
    : request.ComesTo tree (rootFrom tree request.start) outcome
      ↔ request.resolve tree = outcome := by
  unfold resolve start
  dsimp only
  generalize rootFrom tree (request.root.getD ".") = root
  unfold load
  constructor
  · rintro (⟨hmissing, hsettles⟩ | ⟨hfile, hread, hsays, hsettles⟩ | ⟨hfile, hread⟩
      | ⟨hfile, hread, hsays⟩)
    · rw [configFile?_eq_none_iff.mpr hmissing]
      exact congrArg Except.ok (settles_iff.mp hsettles)
    · rw [configFile?_eq_some_iff.mpr hfile]
      simp only [hread, hsays]
      exact congrArg Except.ok (settles_iff.mp hsettles)
    · rw [configFile?_eq_some_iff.mpr hfile]
      simp only [hread]
      rfl
    · rw [configFile?_eq_some_iff.mpr hfile]
      simp only [hread, hsays]
      rfl
  · rintro rfl
    cases hfile : configFile? tree root with
    | none => exact .unset (configFile?_eq_none_iff.mp hfile) (settles_iff.mpr rfl)
    | some file =>
        obtain ⟨path, format⟩ := file
        have hconfig := configFile?_eq_some_iff.mp hfile
        dsimp only
        cases hread : tree.read path with
        | error fault => exact .unreadable hconfig hread
        | ok text =>
            dsimp only
            cases hsays : Config.ofText? format text with
            | none => exact .faulty hconfig hread hsays
            | some config => exact .set hconfig hread hsays (settles_iff.mpr rfl)

-----------------------------------------------------------------------------------------
-- What the settings depend on
-----------------------------------------------------------------------------------------

/-- Two trees have the same marks in the directories that are searched from a start, and the
settings file that is read holds the same in both.
-/
structure LooksAlike (tree other : FileTree) (start : Text) : Prop where
  marks
    : ∀ directory, IsSearched tree start directory → ∀ name ∈ rootMarks,
        tree.contains (Path.join directory name) = other.contains (Path.join directory name)
  file
    : ∀ root path format, IsNearestRoot tree start root → IsConfigFile tree root path format →
        tree.read path = other.read path

/-- The nearest root is searched. -/
theorem IsNearestRoot.isSearched {tree : FileTree} {start root : Text}
    (h : IsNearestRoot tree start root)
    : IsSearched tree start root := by
  cases h with
  | marked searched _ => exact searched
  | unmarked _ => exact ⟨0, rfl, fun m hm => absurd hm (Nat.not_lt_zero m)⟩

/-- Every settings file is a mark. -/
theorem mem_rootMarks_of_mem_configFiles : ∀ entry ∈ configFiles, entry.1 ∈ rootMarks := by
  decide

namespace LooksAlike

variable {tree other : FileTree} {start root : Text} (h : LooksAlike tree other start)

include h

/-- A directory that is searched is marked in both trees or in neither. -/
theorem isMarked_iff {directory : Text} (hsearched : IsSearched tree start directory)
    : IsMarked tree directory ↔ IsMarked other directory := by
  have hmarks := h.marks directory hsearched
  constructor
  · rintro ⟨name, hname, hhere⟩
    exact ⟨name, hname, hmarks name hname ▸ hhere⟩
  · rintro ⟨name, hname, hthere⟩
    exact ⟨name, hname, hmarks name hname ▸ hthere⟩

/-- The directories below one that is searched are searched too, and no other tree has a mark there.
-/
theorem isSearched {directory : Text} (hsearched : IsSearched tree start directory)
    : IsSearched other start directory := by
  obtain ⟨n, habove, hbelow⟩ := hsearched
  refine ⟨n, habove, fun m hm lower hlower hmarked => ?_⟩
  have hsearched : IsSearched tree start lower :=
    ⟨m, hlower, fun k hk => hbelow k (Nat.lt_trans hk hm)⟩
  exact hbelow m hm lower hlower ((h.isMarked_iff hsearched).mpr hmarked)

/-- Both trees have the same nearest root. -/
theorem isNearestRoot (hroot : IsNearestRoot tree start root) : IsNearestRoot other start root := by
  cases hroot with
  | marked searched marked =>
      exact .marked (h.isSearched searched) ((h.isMarked_iff searched).mp marked)
  | unmarked hnone =>
      refine .unmarked fun n directory habove hmarked => ?_
      have hsearched : IsSearched tree start directory :=
        ⟨n, habove, fun m _ lower hlower => hnone m lower hlower⟩
      exact hnone n directory habove ((h.isMarked_iff hsearched).mpr hmarked)

theorem rootFrom_eq : rootFrom other start = rootFrom tree start :=
  (isNearestRoot_rootFrom other start).unique (h.isNearestRoot (isNearestRoot_rootFrom tree start))

/-- Both trees have the same settings file at the root. -/
theorem isConfigFile {path : Text} {format : Format} (hroot : IsNearestRoot tree start root)
    (hfile : IsConfigFile tree root path format)
    : IsConfigFile other root path format := by
  have hmarks := h.marks root hroot.isSearched
  obtain ⟨⟨front, name, back, hfiles, rfl, hfront⟩, hhere⟩ := hfile
  have hin : (name, format) ∈ configFiles := hfiles ▸ by simp
  refine ⟨⟨front, name, back, hfiles, rfl, fun entry hentry => ?_⟩, ?_⟩
  · have hentryIn : entry ∈ configFiles := hfiles ▸ List.mem_append_left _ hentry
    rw [← hmarks _ (mem_rootMarks_of_mem_configFiles entry hentryIn)]
    exact hfront entry hentry
  · rw [← hmarks _ (mem_rootMarks_of_mem_configFiles _ hin)]
    exact hhere

/-- A request comes to the same in both trees. -/
theorem comesTo {request : Request} {outcome : Except SuiteError Effective}
    (hroot : IsNearestRoot tree start root) (hcomes : request.ComesTo tree root outcome)
    : request.ComesTo other root outcome := by
  cases hcomes with
  | unset missing settles =>
      refine .unset (fun entry hentry => ?_) settles
      rw [← h.marks root hroot.isSearched _ (mem_rootMarks_of_mem_configFiles entry hentry)]
      exact missing entry hentry
  | set file read decode settles =>
      exact .set (h.isConfigFile hroot file) (h.file _ _ _ hroot file ▸ read) decode settles
  | unreadable file read =>
      exact .unreadable (h.isConfigFile hroot file) (h.file _ _ _ hroot file ▸ read)
  | faulty file read decode =>
      exact .faulty (h.isConfigFile hroot file) (h.file _ _ _ hroot file ▸ read) decode

end LooksAlike

/-- Settings are resolved at the first marked directory upward from the start, or at the start when
there is none; the paths upward lose one step after another until none is left but the root. The
first settings file there decides with the command line and the defaults, and a fault of it is the
error of every request from that start. Whatever else differs between two trees, the marks above the
root included, the settings are the same when the marks up to the root and the content of that file
are.
-/
theorem resolve_of_request (tree : FileTree) (request : Request)
    : (∀ root, IsNearestRoot tree request.start root ↔ root = rootFrom tree request.start)
      ∧ (∀ n directory, Path.above? n request.start = some directory →
          Path.components directory
            = (Path.components request.start).take ((Path.components request.start).length - n))
      ∧ (∀ n, (∃ directory, Path.above? n request.start = some directory)
          ↔ n ≤ (Path.components request.start).length
            ∧ ((Path.components request.start).head? = some .root →
                n < (Path.components request.start).length))
      ∧ (∀ outcome, request.resolve tree = outcome
          ↔ request.ComesTo tree (rootFrom tree request.start) outcome)
      ∧ (∀ (other : Request) (error : SuiteError), other.root = request.root →
          request.resolve tree = .error error → other.resolve tree = .error error)
      ∧ ∀ other : FileTree, LooksAlike tree other request.start →
          request.resolve other = request.resolve tree := by
  have hnearest := isNearestRoot_rootFrom tree request.start
  refine ⟨fun root => ⟨fun h => h.unique hnearest, fun h => h ▸ hnearest⟩,
    fun n directory => Path.components_of_above?, fun n => Path.exists_above?_iff,
    fun outcome => Request.comesTo_iff.symm, fun other error hsame herror => ?_,
    fun other halike => ?_⟩
  · have hstart : other.start = request.start := by rw [Request.start, hsame, Request.start]
    rw [← Request.comesTo_iff] at herror ⊢
    rw [hstart]
    cases herror with
    | unreadable file read => exact .unreadable file read
    | faulty file read decode => exact .faulty file read decode
  · rw [← Request.comesTo_iff, halike.rootFrom_eq]
    exact halike.comesTo hnearest (Request.comesTo_iff.mpr rfl)

/-- A tree with a marked directory next to the one where one is. It has two settings files, with an
entry next to it.
-/
def layeredTree (first second : ByteArray) (above : Text) : FileTree where
  here := ["work"]
  entries :=
    [
      (["a", "b"], .directory),
      (["a", "bddscore.toml"], .file first),
      (["a", "bddscore.yml"], .file second),
      ([above], .directory)
    ]

def layeredSettings : ByteArray :=
  (String.ofList "threshold = 3\n").toUTF8

def notText : ByteArray :=
  ⟨#[0xFF]⟩

def layeredRequest (start : Text) : Request :=
  { root := some start, output := none, features := ["x/*.feature"], threshold := none }

/-- The second file and what is next to the marked directory make no difference. -/
theorem looksAlike_layeredTree
    : LooksAlike (layeredTree layeredSettings notText "bddscore.toml")
        (layeredTree layeredSettings .empty ".git") (layeredRequest "../a//b/.").start := by
  have hupper : Path.above? 1 (layeredRequest "../a//b/.").start = some ("../a" : Text) := by cbv
  have hroot : rootFrom (layeredTree layeredSettings notText "bddscore.toml")
      (layeredRequest "../a//b/.").start = "../a" := by cbv
  refine ⟨?_, ?_⟩
  · rintro directory ⟨n, habove, hbelow⟩
    rcases n with _ | _ | n
    · cases habove
      decide
    · cases hupper.symm.trans habove
      decide
    · exact absurd ⟨"bddscore.toml", by decide, by decide⟩ (hbelow 1 (by omega) "../a" hupper)
  · intro root path format hnearest hfile
    have he := hnearest.unique (isNearestRoot_rootFrom _ _)
    rw [hroot] at he
    subst he
    have hfirst : configFile? (layeredTree layeredSettings notText "bddscore.toml") "../a"
        = some (("../a/bddscore.toml" : Text), .toml) := by decide
    cases (configFile?_eq_some_iff.mpr hfile).symm.trans hfirst
    rfl

/-- The search can start above where one is, and it can start at an absolute path. -/
theorem resolve_of_layeredTree
    : (layeredRequest "../a//b/.").resolve (layeredTree layeredSettings notText "bddscore.toml")
          = .ok ⟨"../a", ["x/*.feature"], ["features/**/*.rb"], "human", some 3, []⟩
        ∧ (layeredRequest "/a/b").resolve (layeredTree layeredSettings notText "bddscore.toml")
          = .ok ⟨"/a", ["x/*.feature"], ["features/**/*.rb"], "human", some 3, []⟩
        ∧ (layeredRequest "../a//b/.").resolve (layeredTree layeredSettings .empty ".git")
          = (layeredRequest "../a//b/.").resolve
              (layeredTree layeredSettings notText "bddscore.toml")
        ∧ (layeredRequest "../a//b/.").resolve (layeredTree notText layeredSettings ".git")
          = .error (.unreadable "../a/bddscore.toml" .notUtf8)
        ∧ { layeredRequest "../a//b/." with output := some "json", threshold := some 7 }.resolve
            (layeredTree notText layeredSettings ".git")
          = .error (.unreadable "../a/bddscore.toml" .notUtf8) := by
  have hbroken : (layeredRequest "../a//b/.").resolve (layeredTree notText layeredSettings ".git")
      = .error (.unreadable "../a/bddscore.toml" .notUtf8) := by cbv
  obtain ⟨_, _, _, _, _, hsame⟩ := resolve_of_request
    (layeredTree layeredSettings notText "bddscore.toml") (layeredRequest "../a//b/.")
  obtain ⟨_, _, _, _, herror, _⟩ :=
    resolve_of_request (layeredTree notText layeredSettings ".git") (layeredRequest "../a//b/.")
  exact ⟨by cbv, by cbv, hsame _ looksAlike_layeredTree, hbroken, herror _ _ rfl hbroken⟩

end SuiteScore.Settings
