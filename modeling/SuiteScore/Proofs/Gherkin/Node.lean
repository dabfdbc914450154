import SuiteScore.Proofs.Gherkin.Extent

/-! A tree as the list of its nodes in the order of the file. An accepted line leaves the nodes as
they are, adds a node at the end, or adds prose to the last one.
-/

namespace SuiteScore.Gherkin

open Text

-----------------------------------------------------------------------------------------
-- Nodes
-----------------------------------------------------------------------------------------

/-- What a node is, with what its own line says. A doc string has its content and the line of its
closing delimiter instead.
-/
inductive NodeKind where
  | feature (name : Text)
  | element (keyword : ElementKeyword) (name : Text)
  | examples (keyword : ExamplesKeyword) (name : Text)
  | step (keyword : StepKeyword) (text : Text)
  | row (cells : List Text)
  | docString (content : List Text) (last : Nat)

/-- A node of a tree without the nodes below it. -/
structure Node where
  line : Nat
  kind : NodeKind
  tags : List Tag
  comments : List Comment
  description : List Text

/-- Whether a node can have tags and a description. -/
def NodeKind.isTitled : NodeKind → Bool
  | feature _ => true
  | element .. => true
  | examples .. => true
  | _ => false

def Node.describe (text : Text) (node : Node) : Node :=
  { node with description := node.description ++ [text] }

/-- The node that a line opens by itself. -/
def Line.node? : Line → Option NodeKind
  | .feature name => some (.feature name)
  | .element keyword name => some (.element keyword name)
  | .examples keyword name => some (.examples keyword name)
  | .step keyword text => some (.step keyword text)
  | .row text => some (.row (cells text))
  | _ => none

/-- A node that owns nothing, such as a doc string. -/
def Node.bare (line : Nat) (kind : NodeKind) : Node where
  line
  kind
  tags := []
  comments := []
  description := []

def Row.node (row : Row) : Node :=
  { Node.bare row.line (.row row.cells) with comments := row.comments }

def Argument.nodes : Argument → List Node
  | table rows => rows.map Row.node
  | docString content first last => [.bare first (.docString content last)]

def Step.nodes (step : Step) : List Node :=
  { Node.bare step.line (.step step.keyword step.text) with comments := step.comments }
    :: step.argument.toList.flatMap Argument.nodes

def Examples.title (examples : Examples) : Node where
  line := examples.line
  kind := .examples examples.keyword examples.name
  tags := examples.tags
  comments := examples.comments
  description := examples.description

def Examples.nodes (examples : Examples) : List Node :=
  examples.title :: examples.rows.map Row.node

def Element.title (element : Element) : Node where
  line := element.line
  kind := .element element.keyword element.name
  tags := element.tags
  comments := element.comments
  description := element.description

def Element.nodes (element : Element) : List Node :=
  element.title :: (element.steps.flatMap Step.nodes ++ element.examples.flatMap Examples.nodes)

def FeatureTree.title (tree : FeatureTree) : Node where
  line := tree.line
  kind := .feature tree.name
  tags := tree.tags
  comments := tree.comments
  description := tree.description

/-- All nodes of a tree, each before the nodes below it, the background first. -/
def FeatureTree.nodes (tree : FeatureTree) : List Node :=
  tree.title :: tree.allElements.flatMap Element.nodes

-----------------------------------------------------------------------------------------
-- Growing trees
-----------------------------------------------------------------------------------------

/-- A row comes after the other nodes of its step. -/
theorem Step.nodes_addRow {step : Step} (row : Row)
    (h : ∀ content first last, step.argument ≠ some (.docString content first last))
    : (step.addRow row).nodes = step.nodes ++ [row.node] := by
  unfold addRow
  split
  · next hn => simp [nodes, hn, Argument.nodes]
  · next rows hr => simp [nodes, hr, Argument.nodes]
  · next hd => exact absurd hd (h _ _ _)

namespace Element

/-- A row comes after the other nodes of its element, by the places where rows go. -/
theorem nodes_addRow {element grown : Element} {row : Row} (h : element.addRow row = .ok grown)
    : grown.nodes = element.nodes ++ [row.node] := by
  rcases addRow_cases h with ⟨front, last, hl, rfl⟩ | ⟨he, front, last, hl, hd, rfl⟩
  · simp [nodes, title, hl, Examples.nodes, Examples.title, Examples.addRow]
  · simp [nodes, title, he, hl, last.nodes_addRow row hd]

/-- The argument of the last step comes after the other nodes of the element. -/
theorem nodes_attach {element : Element} (argument : Argument)
    (h : element.awaitsArgument = true)
    : (element.attach argument).nodes = element.nodes ++ argument.nodes := by
  obtain ⟨he, front, last, hl, hn, hattach⟩ := attach_of_awaitsArgument argument h
  rw [hattach]
  simp [nodes, title, he, hl, Step.nodes, hn]

/-- Prose goes to the last node of the element, which has a title: the element itself or the
examples opened last.
-/
theorem nodes_describe? {element described : Element} {text : Text}
    (h : element.describe? text = some described)
    : ∃ front owner, element.nodes = front ++ [owner] ∧ owner.kind.isTitled = true
        ∧ described.nodes = front ++ [owner.describe text] := by
  rcases describe?_cases h with ⟨hs, he, rfl⟩ | ⟨front, last, hl, hr, rfl⟩
  · exact ⟨[], element.title, by simp [nodes, hs, he], rfl, by simp [nodes, hs, he]; rfl⟩
  · refine ⟨{ element with examples := front }.nodes, last.title, ?_, rfl, ?_⟩
    · simp [nodes, hl, Examples.nodes, hr]
      rfl
    · simp [nodes, Examples.nodes, hr]
      exact ⟨rfl, rfl⟩

end Element

/-- An element comes after the other nodes of its feature, where a background is the first element.
-/
theorem FeatureTree.nodes_add {tree : FeatureTree} {element : Element}
    (h : element.kind = .background → tree.isBare = true)
    : (tree.add element).nodes = tree.nodes ++ element.nodes := by
  unfold add
  split
  · next hk =>
      have hbare := h hk
      simp only [isBare, Bool.and_eq_true, Option.isNone_iff_eq_none, List.isEmpty_iff] at hbare
      simp [nodes, title, allElements, hbare]
  · simp [nodes, title, allElements]

-----------------------------------------------------------------------------------------
-- Readers
-----------------------------------------------------------------------------------------

namespace Reader

variable {reader next : Reader} {n : Nat} {raw : Text} {feature : FeatureTree}

/-- The nodes of what has been read so far. -/
def nodes (reader : Reader) : List Node :=
  reader.feature.toList.flatMap FeatureTree.nodes ++ reader.current.toList.flatMap Element.nodes

/-- An element grows in a feature only, and a background in one without elements. -/
def IsOrdered (reader : Reader) : Prop :=
  ∀ element, reader.current = some element →
    ∃ feature, reader.feature = some feature
      ∧ (element.kind = .background → feature.isBare = true)

/-- A reader stays ordered as long as the head of its element is the same. -/
theorem IsOrdered.of_head (h : reader.IsOrdered) (hf : next.feature = reader.feature)
    (hh : next.current.map Element.head = reader.current.map Element.head)
    : next.IsOrdered := by
  intro element hc
  rw [hc, Option.map_some] at hh
  obtain ⟨before, hb, hhead⟩ := Option.map_eq_some_iff.mp hh.symm
  have hkind : before.kind = element.kind := congrArg (fun one => one.keyword.kind) hhead
  rw [hf, ← hkind]
  exact h before hb

/-- Every line keeps readers ordered, by the cases of the line. -/
theorem Takes.isOrdered (h : reader.Takes n raw next) (ho : reader.IsOrdered)
    : next.IsOrdered := by
  cases h with
  | content | blank | comment | tags | fence => exact ho
  | close hd hr =>
      intro element hc
      obtain ⟨before, hb, rfl⟩ := Option.map_eq_some_iff.mp hc
      exact ho before hb
  | feature hd hl hf =>
      intro element hc
      obtain ⟨feature, hsome, _⟩ := ho element hc
      rw [hf] at hsome
      cases hsome
  | element hd hl hf hb =>
      intro element hc
      cases hc
      exact ⟨_, hf, hb⟩
  | examples hd hl hc hk => exact ho.of_head rfl (by rw [hc]; rfl)
  | step hd hl ht hc he => exact ho.of_head rfl (by rw [hc]; rfl)
  | row hd hl hr hc hg =>
      exact ho.of_head rfl (by rw [hc]; exact congrArg some (Element.head_of_addRow hg))
  | elementProse hd hl ht hc hg =>
      exact ho.of_head rfl (by rw [hc]; exact congrArg some (Element.head_of_describe? hg))
  | featureProse hd hl ht hc hf hb =>
      intro element hn
      rw [hc] at hn
      cases hn

/-- Every reader of a file is ordered, by the run lemma. -/
theorem isOrdered_of_takeAll {lines : List Text} (h : start.takeAll 1 lines = .ok reader)
    : reader.IsOrdered := by
  refine takeAll_keeps (fun _ middle => middle.IsOrdered) (by simp [IsOrdered, start]) ?_ h
  intro done middle raw after _ hm ht
  exact (takes_of_takeRaw ht).isOrdered hm

/-- Closing an element leaves the nodes as they are. -/
theorem nodes_closeElement (h : reader.IsOrdered) : reader.closeElement.nodes = reader.nodes := by
  unfold closeElement
  split
  · next feature element hf hc =>
      obtain ⟨same, hs, hb⟩ := h element hc
      rw [hf] at hs
      cases hs
      simp [nodes, hf, hc, FeatureTree.nodes_add hb]
  · next hnone =>
      have hcurrent : reader.current = none := by
        cases hc : reader.current with
        | none => rfl
        | some element =>
            obtain ⟨feature, hf, _⟩ := h element hc
            exact absurd hc (hnone feature element hf)
      simp [nodes, hcurrent]

/-- The nodes of the tree that a reader leaves are its own nodes. -/
theorem nodes_of_closeElement {tree : FeatureTree} (h : reader.IsOrdered)
    (hf : reader.closeElement.feature = some tree)
    : tree.nodes = reader.nodes := by
  rw [← nodes_closeElement h]
  simp [nodes, hf]

-----------------------------------------------------------------------------------------
-- Lines
-----------------------------------------------------------------------------------------

/-- What an accepted line does to the nodes and to the open doc string. -/
inductive Grows (reader : Reader) (n : Nat) (raw : Text) (next : Reader) : Prop
  | content {opened} (hd : reader.docString = some opened) (hr : trim raw ≠ opened.fence.text)
    (hn : next.nodes = reader.nodes)
    (ho : next.docString = some { opened with content := opened.content ++ [raw] })
  | close {opened} (hd : reader.docString = some opened) (hr : trim raw = opened.fence.text)
    (hn : next.nodes = reader.nodes ++ [.bare opened.line (.docString opened.content n)])
    (ho : next.docString = none)
  | idle (hd : reader.docString = none) (hi : (Line.of raw).isIdle = true)
    (hp : ∀ text, Line.of raw ≠ .prose text) (hn : next.nodes = reader.nodes)
    (ho : next.docString = none)
  | node {kind} (hd : reader.docString = none) (hk : (Line.of raw).node? = some kind)
    (hn : next.nodes = reader.nodes ++ [{
      line := n
      kind
      tags := if kind.isTitled then reader.tags else []
      comments := reader.comments
      description := [] }])
    (ho : next.docString = none)
  | fence {fence} (hd : reader.docString = none) (hl : Line.of raw = .fence fence)
    (hn : next.nodes = reader.nodes)
    (ho : next.docString = some { fence, line := n, content := [] })
  | prose {text} (front : List Node) (owner : Node) (hd : reader.docString = none)
    (hl : Line.of raw = .prose text)
    (hr : reader.nodes = front ++ [owner]) (ht : owner.kind.isTitled = true)
    (hn : next.nodes = front ++ [owner.describe text]) (ho : next.docString = none)

/-- An accepted line does one of these things, by the cases of the line. -/
theorem Takes.grows (h : reader.Takes n raw next) (ho : reader.IsOrdered)
    (ha : reader.docString.isSome →
      ∃ element, reader.current = some element ∧ element.awaitsArgument = true)
    : reader.Grows n raw next := by
  cases h with
  | content hd hr => exact .content hd hr rfl rfl
  | @close opened hd hr =>
      obtain ⟨element, hc, hawaits⟩ := ha (by rw [hd]; rfl)
      refine .close hd hr ?_ rfl
      have hnodes := element.nodes_attach
        (.docString opened.content opened.line n) hawaits
      simp [nodes, closeDocString, hc, hnodes, Argument.nodes]
  | blank hd hl => exact .idle hd (by rw [hl]; rfl) (by simp [hl]) rfl hd
  | comment hd hl => exact .idle hd (by rw [hl]; rfl) (by simp [hl]) rfl hd
  | tags hd hl => exact .idle hd (by rw [hl]; rfl) (by simp [hl]) rfl hd
  | @feature name hd hl hf =>
      have hcurrent : reader.current = none := by
        cases hc : reader.current with
        | none => rfl
        | some element =>
            obtain ⟨feature, hsome, _⟩ := ho element hc
            rw [hf] at hsome
            cases hsome
      refine .node hd (by rw [hl]; rfl) ?_ hd
      simp [nodes, hf, hcurrent, FeatureTree.nodes, FeatureTree.title, FeatureTree.allElements,
        NodeKind.isTitled]
  | element hd hl hf hb =>
      refine .node hd (by rw [hl]; rfl) ?_ (closeElement_docString.trans hd)
      rw [← nodes_closeElement ho]
      simp [nodes, Element.nodes, Element.title, NodeKind.isTitled]
  | examples hd hl hc hk =>
      refine .node hd (by rw [hl]; rfl) ?_ hd
      simp [nodes, hc, Element.nodes, Element.title, Examples.nodes, Examples.title,
        NodeKind.isTitled]
  | step hd hl ht hc he =>
      refine .node hd (by rw [hl]; rfl) ?_ hd
      simp [nodes, hc, Element.nodes, Element.title, Step.nodes, he, NodeKind.isTitled, Node.bare]
  | row hd hl hr hc hg =>
      refine .node hd (by rw [hl]; rfl) ?_ hd
      simp [nodes, hc, Element.nodes_addRow hg, Row.node, Node.bare, NodeKind.isTitled]
  | fence hd hl => exact .fence hd hl rfl rfl
  | elementProse hd hl ht hc hg =>
      obtain ⟨front, owner, hnodes, htitled, hdescribed⟩ := Element.nodes_describe? hg
      refine .prose (reader.feature.toList.flatMap FeatureTree.nodes ++ front) owner hd hl ?_
        htitled ?_ hd
      · simp [nodes, hc, hnodes]
      · simp [nodes, hdescribed]
  | @featureProse text feature hd hl ht hc hf hb =>
      simp only [FeatureTree.isBare, Bool.and_eq_true, Option.isNone_iff_eq_none,
        List.isEmpty_iff] at hb
      refine .prose [] feature.title hd hl ?_ rfl ?_ hd
      · simp [nodes, hc, hf, FeatureTree.nodes, FeatureTree.allElements, hb]
      · simp [nodes, hc, FeatureTree.nodes, FeatureTree.allElements, hb]
        rfl

/-- An accepted line of a file does one of these things. -/
theorem grows_of_takeRaw {done : List Text} (hd : start.takeAll 1 done = .ok reader)
    (h : reader.takeRaw n raw = .ok next)
    : reader.Grows n raw next := by
  refine (takes_of_takeRaw h).grows (isOrdered_of_takeAll hd) fun hopen => ?_
  obtain ⟨opened, ho⟩ := Option.isSome_iff_exists.mp hopen
  exact awaitsArgument_of_docString hd ho

end Reader

end SuiteScore.Gherkin
