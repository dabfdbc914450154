import SuiteScore.Proofs.Gherkin.Node

/-! The tree of an accepted file tells its lines in their order: every line that opens a node or
delimits a doc string comes once, doc strings hold the lines between their delimiters, and prose
stands under the title before it.
-/

namespace SuiteScore.Gherkin

open Text

-----------------------------------------------------------------------------------------
-- Numbered lines
-----------------------------------------------------------------------------------------

/-- The entries of a list that are there, each with its place; the first place has number one. -/
def numbered (entries : List (Option α)) : List (Nat × α) :=
  (entries.zipIdx 1).filterMap fun (entry, n) => entry.map (n, ·)

theorem numbered_concat (entries : List (Option α)) (entry : Option α)
    : numbered (entries ++ [entry])
      = numbered entries ++ (entry.map (1 + entries.length, ·)).toList := by
  simp only [numbered, List.zipIdx_append, List.zipIdx_singleton, List.filterMap_append]
  cases entry <;> rfl

/-- An entry has the number of its place. -/
theorem mem_numbered {entries : List (Option α)} {n : Nat} {entry : α}
    : (n, entry) ∈ numbered entries ↔ 1 ≤ n ∧ entries[n - 1]? = some (some entry) := by
  simp only [numbered, List.mem_filterMap, Prod.exists, Option.map_eq_some_iff, Prod.mk.injEq]
  constructor
  · rintro ⟨_, _, hin, _, rfl, rfl, rfl⟩
    obtain ⟨hle, hlt, he⟩ := List.mem_zipIdx hin
    exact ⟨hle, by rw [he]; exact List.getElem?_eq_getElem _⟩
  · rintro ⟨hle, he⟩
    refine ⟨some entry, n, ?_, entry, rfl, rfl, rfl⟩
    rw [List.mem_zipIdx_iff_le_and_getElem?_sub]
    exact ⟨hle, he⟩

/-- The numbers of the entries increase, by induction on the entries from the end. -/
theorem pairwise_numbered (entries : List (Option α))
    : ((numbered entries).map (·.1)).Pairwise (· < ·) := by
  induction entries using List.reverseRecOn with
  | nil => exact .nil
  | append_singleton front entry ih =>
      rw [numbered_concat, List.map_append, List.pairwise_append]
      refine ⟨ih, by cases entry <;> simp, fun n hn m hm => ?_⟩
      obtain ⟨⟨_, found⟩, hin, rfl⟩ := List.mem_map.mp hn
      have hlt := (List.getElem?_eq_some_iff.mp (mem_numbered.mp hin).2).1
      cases entry with
      | none => cases hm
      | some _ =>
          simp only [Option.map_some, Option.toList_some, List.map_singleton,
            List.mem_singleton] at hm
          omega

-----------------------------------------------------------------------------------------
-- Marks
-----------------------------------------------------------------------------------------

/-- What a line stands for in a tree: a node with what the line says of it, or one of the two
delimiters of a doc string.
-/
inductive Mark where
  | node (kind : NodeKind)
  | opening
  | closing

def Line.mark? : Line → Option Mark
  | .fence _ => some .opening
  | line => line.node?.map .node

/-- What a line stands for when the given doc string is open before it. -/
def marking : Option Fence → Text → Option Mark
  | some fence, raw => if trim raw = fence.text then some .closing else none
  | none, raw => (Line.of raw).mark?

/-- What the lines stand for one after another. -/
def markings : Option Fence → List Text → List (Option Mark)
  | _, [] => []
  | fence, raw :: rest => marking fence raw :: markings (fenceAfter fence raw) rest

theorem length_markings (fence : Option Fence) (lines : List Text)
    : (markings fence lines).length = lines.length := by
  induction lines generalizing fence with
  | nil => rfl
  | cons raw rest ih => simp only [markings, List.length_cons, ih]

theorem markings_concat (fence : Option Fence) (front : List Text) (raw : Text)
    : markings fence (front ++ [raw])
      = markings fence front ++ [marking (front.foldl fenceAfter fence) raw] := by
  induction front generalizing fence with
  | nil => rfl
  | cons first rest ih => simp only [List.cons_append, markings, List.foldl_cons, ih]

/-- The lines that a node stands for, with what they stand for. -/
def Node.marks (node : Node) : List (Nat × Mark) :=
  match node.kind with
  | .docString _ last => [(node.line, .opening), (last, .closing)]
  | kind => [(node.line, .node kind)]

def FeatureTree.marks (tree : FeatureTree) : List (Nat × Mark) :=
  tree.nodes.flatMap Node.marks

/-- The node of a line stands for that line, by the kinds of lines. -/
theorem Line.marks_of_node? {line : Line} {kind : NodeKind} {node : Node}
    (h : line.node? = some kind) (hk : node.kind = kind)
    : node.marks = (line.mark?.map (node.line, ·)).toList := by
  subst hk
  cases line <;> simp only [node?, Option.some.injEq, reduceCtorEq] at h <;>
    simp [Node.marks, mark?, node?, ← h]

/-- A line that leaves the nodes as they are stands for none. -/
theorem Line.mark?_of_isIdle {line : Line} (h : line.isIdle = true) : line.mark? = none := by
  cases line <;> first | rfl | cases h

namespace Reader

variable {reader next : Reader} {n : Nat} {raw : Text} {lines : List Text}

/-- What has been read so far and the opening of the doc string that is open. -/
def marks (reader : Reader) : List (Nat × Mark) :=
  reader.nodes.flatMap Node.marks
    ++ (reader.docString.map fun opened => (opened.line, Mark.opening)).toList

/-- A line adds the mark for itself, by the ways in which nodes grow. -/
theorem Grows.marks_eq (h : reader.Grows n raw next)
    : next.marks = reader.marks ++ ((marking reader.openFence raw).map (n, ·)).toList := by
  cases h with
  | content hd hr hn ho => simp [marks, hn, ho, hd, openFence, marking, hr]
  | close hd hr hn ho => simp [marks, hn, ho, hd, openFence, marking, hr, Node.marks, Node.bare]
  | idle hd hi hp hn ho =>
      simp [marks, hn, ho, hd, openFence, marking, Line.mark?_of_isIdle hi]
  | node hd hk hn ho =>
      simp [marks, hn, ho, hd, openFence, marking, Line.marks_of_node? hk]
  | fence hd hl hn ho => simp [marks, hn, ho, hd, openFence, marking, hl, Line.mark?]
  | prose front owner hd hl hr ht hn ho =>
      simp [marks, hn, hr, ho, hd, openFence, marking, hl, Line.mark?, Line.node?, Node.marks,
        Node.describe]

/-- The marks of a reader are those of the lines it has taken, by the run lemma. -/
theorem marks_of_takeAll (h : start.takeAll 1 lines = .ok reader)
    : reader.marks = numbered (markings none lines) := by
  refine takeAll_keeps (fun done middle => middle.marks = numbered (markings none done))
    (by simp [marks, nodes, start, markings, numbered]) ?_ h
  intro done middle raw after hd hm ht
  rw [(grows_of_takeRaw hd ht).marks_eq, hm, markings_concat, numbered_concat, length_markings,
    openFence_of_takeAll_outside hd rfl]

end Reader

-----------------------------------------------------------------------------------------
-- Contents
-----------------------------------------------------------------------------------------

/-- A doc string holds the lines between its delimiters. -/
def Node.IsVerbatim (lines : List Text) (node : Node) : Prop :=
  ∀ content last, node.kind = .docString content last →
    last ≤ lines.length ∧ content = (lines.take (last - 1)).drop node.line

/-- A doc string holds the same lines when more lines follow. -/
theorem Node.IsVerbatim.append {lines : List Text} {node : Node} (h : node.IsVerbatim lines)
    (more : List Text)
    : node.IsVerbatim (lines ++ more) := by
  intro content last hk
  obtain ⟨hlast, hcontent⟩ := h content last hk
  refine ⟨by rw [List.length_append]; omega, ?_⟩
  rw [List.take_append_of_le_length (by omega)]
  exact hcontent

/-- Nodes that are no doc strings hold nothing. -/
theorem Node.isVerbatim_of_node? {lines : List Text} {node : Node} {line : Line}
    (h : line.node? = some node.kind)
    : node.IsVerbatim lines := by
  intro content last hk
  rw [hk] at h
  cases line <;> cases h

/-- The doc string of a step is a node. -/
theorem FeatureTree.mem_nodes_of_docString {tree : FeatureTree} {element : Element} {step : Step}
    {content : List Text} {first last : Nat} (he : element ∈ tree.allElements)
    (hs : step ∈ element.steps) (ha : step.argument = some (.docString content first last))
    : .bare first (.docString content last) ∈ tree.nodes := by
  have hstep : .bare first (.docString content last) ∈ step.nodes := by
    simp [Step.nodes, ha, Argument.nodes]
  have helement : .bare first (.docString content last) ∈ element.nodes :=
    List.mem_cons_of_mem _ (List.mem_append_left _ (List.mem_flatMap.mpr ⟨step, hs, hstep⟩))
  exact List.mem_cons_of_mem _ (List.mem_flatMap.mpr ⟨element, he, helement⟩)

namespace Reader

variable {reader : Reader} {lines : List Text}

/-- Doc strings hold the lines between their delimiters, also the one that is still open, by the run
lemma.
-/
theorem isVerbatim_of_takeAll (h : start.takeAll 1 lines = .ok reader)
    : (∀ node ∈ reader.nodes, node.IsVerbatim lines)
      ∧ ∀ opened, reader.docString = some opened →
          opened.line ≤ lines.length ∧ opened.content = lines.drop opened.line := by
  refine takeAll_keeps
    (fun done middle =>
      (∀ node ∈ middle.nodes, node.IsVerbatim done)
      ∧ ∀ opened, middle.docString = some opened →
          opened.line ≤ done.length ∧ opened.content = done.drop opened.line)
    (by simp [nodes, start]) ?_ h
  intro done middle raw after hd hm ht
  have hold : ∀ node ∈ middle.nodes, node.IsVerbatim (done ++ [raw]) := fun node hin =>
    (hm.1 node hin).append [raw]
  cases grows_of_takeRaw hd ht with
  | content hopen hr hn ho =>
      obtain ⟨hline, hcontent⟩ := hm.2 _ hopen
      refine ⟨fun node hin => hold node (hn ▸ hin), fun opened hopened => ?_⟩
      rw [ho] at hopened
      cases hopened
      refine ⟨by rw [List.length_append]; exact Nat.le_add_right_of_le hline, ?_⟩
      simp only [List.drop_append_of_le_length hline, hcontent]
  | close hopen hr hn ho =>
      obtain ⟨hline, hcontent⟩ := hm.2 _ hopen
      refine ⟨fun node hin => ?_, by simp [ho]⟩
      rw [hn, List.mem_append, List.mem_singleton] at hin
      rcases hin with hin | rfl
      · exact hold node hin
      · intro content last hk
        cases hk
        refine ⟨by rw [List.length_append, List.length_singleton]; omega, ?_⟩
        rw [Nat.add_sub_cancel_left, List.take_left' rfl]
        exact hcontent
  | idle hout hi hp hn ho => exact ⟨fun node hin => hold node (hn ▸ hin), by simp [ho]⟩
  | node hout hk hn ho =>
      refine ⟨fun node hin => ?_, by simp [ho]⟩
      rw [hn, List.mem_append, List.mem_singleton] at hin
      rcases hin with hin | rfl
      · exact hold node hin
      · exact Node.isVerbatim_of_node? hk
  | fence hout hl hn ho =>
      refine ⟨fun node hin => hold node (hn ▸ hin), fun opened hopened => ?_⟩
      rw [ho] at hopened
      cases hopened
      have hlength : (done ++ [raw]).length = 1 + done.length := by
        rw [List.length_append, List.length_singleton, Nat.add_comm]
      exact ⟨hlength.ge, (List.drop_of_length_le hlength.le).symm⟩
  | prose front owner hout hl hr ht hn ho =>
      refine ⟨fun node hin => ?_, by simp [ho]⟩
      rw [hr] at hold
      rw [hn, List.mem_append, List.mem_singleton] at hin
      rcases hin with hin | rfl
      · exact hold node (List.mem_append_left _ hin)
      · exact hold owner (List.mem_append_right _ List.mem_cons_self)

end Reader

-----------------------------------------------------------------------------------------
-- Prose
-----------------------------------------------------------------------------------------

/-- Whether a line has a title, under which prose and above which tags can stand. -/
def Line.isTitled : Line → Bool
  | .feature _ => true
  | .element .. => true
  | .examples .. => true
  | _ => false

/-- The prose among numbered lines, each under the last line with a title before it. The given line
is the last one before all of them.
-/
def proseUnder : Option Nat → List (Nat × Line) → List (Option Nat × Text)
  | _, [] => []
  | title, (n, line) :: rest =>
    ((Line.prose? (some line)).map (title, ·)).toList
      ++ proseUnder (if line.isTitled then some n else title) rest

/-- The last line with a title. -/
def titleAfter : Option Nat → List (Nat × Line) → Option Nat
  | title, [] => title
  | title, (n, line) :: rest => titleAfter (if line.isTitled then some n else title) rest

theorem titleAfter_append (title : Option Nat) (front back : List (Nat × Line))
    : titleAfter title (front ++ back) = titleAfter (titleAfter title front) back := by
  induction front generalizing title with
  | nil => rfl
  | cons first rest ih => simp only [List.cons_append, titleAfter, ih]

theorem proseUnder_append (title : Option Nat) (front back : List (Nat × Line))
    : proseUnder title (front ++ back)
      = proseUnder title front ++ proseUnder (titleAfter title front) back := by
  induction front generalizing title with
  | nil => rfl
  | cons first rest ih =>
      simp only [List.cons_append, proseUnder, ih, List.append_assoc, titleAfter]

/-- The prose of a node under its line. -/
def Node.prose (node : Node) : List (Option Nat × Text) :=
  node.description.map (some node.line, ·)

def FeatureTree.prose (tree : FeatureTree) : List (Option Nat × Text) :=
  tree.nodes.flatMap Node.prose

/-- The node of a line has a title if the line has one, by the kinds of lines. -/
theorem Line.isTitled_of_node? {line : Line} {kind : NodeKind} (h : line.node? = some kind)
    : line.isTitled = kind.isTitled := by
  cases line <;> cases h <;> rfl

/-- A line that opens a node is no prose. -/
theorem Line.prose?_of_node? {line : Line} {kind : NodeKind} (h : line.node? = some kind)
    : prose? (some line) = none := by
  cases line <;> first | rfl | cases h

namespace Reader

variable {reader : Reader} {lines : List Text}

/-- What is said up to a line outside doc strings ends with what that line says. -/
theorem numbered_readings_concat (h : start.takeAll 1 lines = .ok reader) (raw : Text)
    : numbered (readings none (lines ++ [raw]))
      = numbered (readings none lines)
        ++ ((reading reader.openFence raw).map (1 + lines.length, ·)).toList := by
  rw [readings_append, ← openFence_of_takeAll_outside h rfl, readings, readings, numbered_concat,
    length_readings]

/-- The last node with a title stands in the last line with one, and prose under its title, by the
run lemma.
-/
theorem prose_of_takeAll (h : start.takeAll 1 lines = .ok reader)
    : (reader.nodes.filter (·.kind.isTitled)).getLast?.map (·.line)
        = titleAfter none (numbered (readings none lines))
      ∧ reader.nodes.flatMap Node.prose = proseUnder none (numbered (readings none lines)) := by
  refine takeAll_keeps
    (fun done middle =>
      (middle.nodes.filter (·.kind.isTitled)).getLast?.map (·.line)
          = titleAfter none (numbered (readings none done))
        ∧ middle.nodes.flatMap Node.prose = proseUnder none (numbered (readings none done)))
    (by simp [nodes, start, readings, numbered, titleAfter, proseUnder]) ?_ h
  intro done middle raw after hd hm ht
  obtain ⟨htitle, hprose⟩ := hm
  rw [numbered_readings_concat hd, proseUnder_append, titleAfter_append, ← htitle, ← hprose]
  cases grows_of_takeRaw hd ht with
  | content hopen hr hn ho => simp [hn, openFence, hopen, reading, titleAfter, proseUnder]
  | close hopen hr hn ho =>
      simp [hn, openFence, hopen, reading, titleAfter, proseUnder, Node.bare, NodeKind.isTitled,
        Node.prose]
  | idle hout hi hp hn ho =>
      rw [reading_of_outside hout]
      cases hl : Line.of raw with
      | blank | comment | tags => simp [hn, titleAfter, proseUnder, Line.prose?, Line.isTitled]
      | prose text => exact absurd hl (hp text)
      | feature | element | examples | step | row | fence =>
          rw [hl] at hi
          cases hi
  | node hout hk hn ho =>
      rw [reading_of_outside hout]
      simp only [Option.map_some, Option.toList_some, titleAfter, proseUnder,
        Line.isTitled_of_node? hk, Line.prose?_of_node? hk]
      split
      · next hkind => simp [hn, hkind, Node.prose]
      · next hkind => simp [hn, hkind, Node.prose]
  | fence hout hl hn ho =>
      simp [hn, reading_of_outside hout, hl, titleAfter, proseUnder, Line.prose?, Line.isTitled]
  | prose front owner hout hl hr ht hn ho =>
      simp [hn, hr, ht, reading_of_outside hout, hl, titleAfter, proseUnder, Line.prose?,
        Line.isTitled, Node.prose, Node.describe]

end Reader

-----------------------------------------------------------------------------------------
-- Accepted files
-----------------------------------------------------------------------------------------

/-- The marks of an accepted file are those of its lines. -/
theorem FeatureTree.marks_of_ofText {source : Text} {tree : FeatureTree}
    (h : ofText source = .ok tree)
    : tree.marks = numbered (markings none (lines source)) := by
  obtain ⟨reader, hr, hd, _, hf⟩ := exists_reader_of_ofText h
  have hnodes : tree.nodes = reader.nodes :=
    Reader.nodes_of_closeElement (Reader.isOrdered_of_takeAll hr) hf
  rw [← Reader.marks_of_takeAll hr, FeatureTree.marks, Reader.marks, hnodes, hd]
  simp

/-- What stands for a node says something, by induction on the lines before it. -/
theorem exists_reading_of_marking {fence : Option Fence} {lines : List Text} {i : Nat}
    {kind : NodeKind} (h : (markings fence lines)[i]? = some (some (.node kind)))
    : ∃ line, (readings fence lines)[i]? = some (some line) := by
  induction lines generalizing fence i with
  | nil => cases h
  | cons raw rest ih =>
      cases i with
      | zero =>
          cases fence with
          | none => exact ⟨Line.of raw, rfl⟩
          | some delimiter =>
              simp only [markings, marking, List.getElem?_cons_zero, Option.some.injEq] at h
              split at h <;> cases h
      | succ i => exact ih h

/-- A node of an accepted file that is no doc string stands in a line that says something. -/
theorem FeatureTree.exists_reading_of_node {source : Text} {tree : FeatureTree} {node : Node}
    (h : ofText source = .ok tree) (hn : node ∈ tree.nodes)
    (hm : (node.line, .node node.kind) ∈ node.marks)
    : ∃ line, (readings none (lines source))[node.line - 1]? = some (some line) := by
  have hin : (node.line, Mark.node node.kind) ∈ tree.marks := List.mem_flatMap.mpr ⟨node, hn, hm⟩
  rw [marks_of_ofText h] at hin
  exact exists_reading_of_marking (mem_numbered.mp hin).2

/-- A tree tells the lines of its file: its marks are those of the lines, once and in order, each
doc string holds the lines between its delimiters, and all prose stands under its title.
-/
structure FeatureTree.Tells (lines : List Text) (tree : FeatureTree) : Prop where
  marks : tree.marks = numbered (markings none lines)
  increasing : (tree.marks.map (·.1)).Pairwise (· < ·)
  within : ∀ n ∈ tree.marks.map (·.1), 1 ≤ n ∧ n ≤ lines.length
  complete
    : ∀ n mark,
        (n, mark) ∈ tree.marks ↔ 1 ≤ n ∧ (markings none lines)[n - 1]? = some (some mark)
  contents
    : ∀ element ∈ tree.allElements, ∀ step ∈ element.steps, ∀ content first last,
        step.argument = some (.docString content first last)
        → content = (lines.take (last - 1)).drop first
  prose : tree.prose = proseUnder none (numbered (readings none lines))

/-- The tree of an accepted file tells its lines. -/
theorem FeatureTree.tells_of_ofText {source : Text} {tree : FeatureTree}
    (h : ofText source = .ok tree)
    : tree.Tells (lines source) := by
  obtain ⟨reader, hr, hd, _, hf⟩ := exists_reader_of_ofText h
  have hnodes : tree.nodes = reader.nodes :=
    Reader.nodes_of_closeElement (Reader.isOrdered_of_takeAll hr) hf
  have hmarks : tree.marks = numbered (markings none (lines source)) := by
    rw [← Reader.marks_of_takeAll hr, FeatureTree.marks, Reader.marks, hnodes, hd]
    simp
  refine {
    marks := hmarks
    increasing := hmarks ▸ pairwise_numbered _
    within := ?_
    complete := ?_
    contents := ?_
    prose := ?_
  }
  · intro n hn
    rw [hmarks] at hn
    obtain ⟨⟨_, mark⟩, hin, rfl⟩ := List.mem_map.mp hn
    obtain ⟨hle, hfound⟩ := mem_numbered.mp hin
    have hlt := (List.getElem?_eq_some_iff.mp hfound).1
    rw [length_markings] at hlt
    exact ⟨hle, by omega⟩
  · intro n mark
    rw [hmarks]
    exact mem_numbered
  · intro element he step hs content first last ha
    have hin := mem_nodes_of_docString he hs ha
    rw [hnodes] at hin
    exact ((Reader.isVerbatim_of_takeAll hr).1 _ hin content last rfl).2
  · rw [FeatureTree.prose, hnodes]
    exact (Reader.prose_of_takeAll hr).2

/-- A file with nodes of every kind and a doc string whose content reads like an element. -/
def quotingSource : Text :=
  "# about\n@suite\nFeature: f\n  words\n  Background:\n    Given x\n      \"\"\"\n  Scenario: q\n"
    ++ "      \"\"\"\n\n  @t\n  Scenario Outline: o\n    more words\n    When <n>\n      | k |\n"
    ++ "    Examples: e\n      last words\n\n      | n |\n"

theorem FeatureTree.tells_of_quotingSource
    : ∃ tree, ofText quotingSource = .ok tree
        ∧ tree.Tells (lines quotingSource)
        ∧ tree.marks.map (·.1) = [3, 5, 6, 7, 9, 12, 14, 15, 16, 19]
        ∧ tree.prose
          = [⟨some 3, "words"⟩, ⟨some 12, "more words"⟩, ⟨some 16, "last words"⟩] := by
  have haccepted : ofText quotingSource = .ok _ := rfl
  exact ⟨_, haccepted, tells_of_ofText haccepted, rfl, rfl⟩

end SuiteScore.Gherkin
