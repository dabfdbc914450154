import SuiteScore.Proofs.Gherkin.DocumentOrder

/-! Comments and tags come to their owners. What a line brings waits for the first later line that
can own it, and is left out only when there is none.
-/

namespace SuiteScore.Gherkin

open Text

-----------------------------------------------------------------------------------------
-- Owners
-----------------------------------------------------------------------------------------

section Owners

variable (brings : Nat → Line → List α) (takes : Line → Bool)

/-- What numbered lines bring, each with the number of its owner: the first later line that takes
such things.
-/
def owned : List (Nat × Line) → List (Nat × α)
  | [] => []
  | (n, line) :: rest =>
    ((rest.find? fun later => takes later.2).toList.flatMap fun owner =>
      (brings n line).map (owner.1, ·)) ++ owned rest

/-- What numbered lines bring and no later line takes. -/
def unowned : List (Nat × Line) → List α
  | [] => []
  | (n, line) :: rest =>
    (if rest.any fun later => takes later.2 then [] else brings n line) ++ unowned rest

/-- Without lines that take anything nothing is owned, by induction on the lines. -/
theorem owned_eq_nil {said : List (Nat × Line)} (h : said.any (fun later => takes later.2) = false)
    : owned brings takes said = [] := by
  induction said with
  | nil => rfl
  | cons first rest ih =>
      simp only [List.any_cons, Bool.or_eq_false_iff] at h
      have hnone : rest.find? (fun later => takes later.2) = none := by
        simpa using h.2
      simp [owned, hnone, ih h.2]

/-- A last line that takes things owns all that is unowned before it, by induction on the lines
before.
-/
theorem owned_concat (said : List (Nat × Line)) (n : Nat) (line : Line)
    : owned brings takes (said ++ [(n, line)])
      = owned brings takes said
        ++ if takes line then (unowned brings takes said).map (n, ·) else [] := by
  induction said with
  | nil => simp [owned, unowned]
  | cons first rest ih =>
      simp only [List.cons_append, owned, unowned, ih, List.find?_append]
      cases hf : rest.find? fun later => takes later.2 with
      | some owner =>
          have htakes := List.find?_some hf
          have hany : rest.any (fun later => takes later.2) = true :=
            List.any_eq_true.mpr ⟨owner, List.mem_of_find?_eq_some hf, htakes⟩
          simp [hany]
      | none =>
          have hany : rest.any (fun later => takes later.2) = false := by
            simpa using hf
          cases ht : takes line <;> simp [hany, ht, owned_eq_nil brings takes hany]

/-- A last line leaves unowned what it does not take and what it brings itself, by induction on the
lines before.
-/
theorem unowned_concat (said : List (Nat × Line)) (n : Nat) (line : Line)
    : unowned brings takes (said ++ [(n, line)])
      = (if takes line then [] else unowned brings takes said) ++ brings n line := by
  induction said with
  | nil => simp [unowned]
  | cons first rest ih =>
      simp only [List.cons_append, unowned, ih, List.any_append, List.any_cons, List.any_nil]
      cases rest.any fun later => takes later.2 <;> cases takes line <;> simp

/-- What is owned was brought by a line. -/
theorem exists_of_mem_owned {said : List (Nat × Line)} {owner : Nat} {entry : α}
    (h : (owner, entry) ∈ owned brings takes said)
    : ∃ n line, (n, line) ∈ said ∧ entry ∈ brings n line := by
  induction said with
  | nil => cases h
  | cons first rest ih =>
      rcases List.mem_append.mp h with h | h
      · obtain ⟨_, _, hin⟩ := List.mem_flatMap.mp h
        obtain ⟨_, hbrought, he⟩ := List.mem_map.mp hin
        cases he
        exact ⟨first.1, first.2, List.mem_cons_self, hbrought⟩
      · obtain ⟨n, line, hin, hbrought⟩ := ih h
        exact ⟨n, line, List.mem_cons_of_mem _ hin, hbrought⟩

end Owners

-----------------------------------------------------------------------------------------
-- Comments and tags
-----------------------------------------------------------------------------------------

/-- The comment that a line is. -/
def Line.commentsAt (n : Nat) : Line → List Comment
  | .comment text => [⟨text, n⟩]
  | _ => []

/-- The tags that a line holds. -/
def Line.tagsAt (n : Nat) : Line → List Tag
  | .tags tokens => tokens.map fun name => ⟨name, n⟩
  | _ => []

/-- The comments of a node with its line. -/
def Node.heldComments (node : Node) : List (Nat × Comment) :=
  node.comments.map (node.line, ·)

/-- The tags of a node with its line. -/
def Node.heldTags (node : Node) : List (Nat × Tag) :=
  node.tags.map (node.line, ·)

/-- A line that opens a node takes comments and is none itself, by the kinds of lines. -/
theorem Line.comments_of_node? {line : Line} {kind : NodeKind} (h : line.node? = some kind)
    : line.takesComments = true := by
  cases line <;> first | rfl | cases h

/-- A line that leaves the nodes as they are takes no comments, by the kinds of lines. -/
theorem Line.takesComments_of_isIdle {line : Line} (h : line.isIdle = true)
    : line.takesComments = false ∧ line.isTitled = false := by
  cases line <;> first | exact ⟨rfl, rfl⟩ | cases h

namespace Reader

variable {reader next : Reader} {n : Nat} {raw : Text} {lines : List Text}

/-- What waits after a line, when some things wait in the reader before. -/
def leftWaiting (brings : Nat → Line → List α) (takes : Line → Bool) (waiting : List α) (n : Nat)
    : Option Line → List α
  | none => waiting
  | some line => (if takes line then [] else waiting) ++ brings n line

/-- What a line takes of the things that wait. -/
def taken (takes : Line → Bool) (waiting : List α) (n : Nat) : Option Line → List (Nat × α)
  | none => []
  | some line => if takes line then waiting.map (n, ·) else []

/-- Comments wait until a line takes comments, by the cases of the line. -/
theorem Takes.comments_eq (h : reader.Takes n raw next)
    : next.comments
      = leftWaiting Line.commentsAt Line.takesComments reader.comments n
          (reading reader.openFence raw) := by
  cases h with
  | content hd | close hd => simp [openFence, hd, reading, leftWaiting, closeDocString]
  | blank hd hl | comment hd hl | tags hd hl | feature hd hl | element hd hl | examples hd hl
  | step hd hl | row hd hl | fence hd hl | elementProse hd hl | featureProse hd hl =>
      simp [reading_of_outside hd, hl, leftWaiting, Line.takesComments, Line.commentsAt]

/-- Tags wait until a line with a title comes, by the cases of the line. -/
theorem Takes.tags_eq (h : reader.Takes n raw next)
    : next.tags
      = leftWaiting Line.tagsAt Line.isTitled reader.tags n (reading reader.openFence raw) := by
  cases h with
  | content hd | close hd => simp [openFence, hd, reading, leftWaiting, closeDocString]
  | element hd hl hf =>
      simp [reading_of_outside hd, hl, leftWaiting, Line.isTitled, Line.tagsAt]
  | blank hd hl | comment hd hl | tags hd hl | feature hd hl | examples hd hl
  | step hd hl | row hd hl | fence hd hl | elementProse hd hl | featureProse hd hl =>
      simp [reading_of_outside hd, hl, leftWaiting, Line.isTitled, Line.tagsAt]

/-- The comments that a line takes come to its node, by the ways in which nodes grow. -/
theorem Grows.heldComments_eq (h : reader.Grows n raw next)
    : next.nodes.flatMap Node.heldComments
      = reader.nodes.flatMap Node.heldComments
        ++ taken Line.takesComments reader.comments n (reading reader.openFence raw) := by
  cases h with
  | content hd hr hn => simp [hn, openFence, hd, reading, taken]
  | close hd hr hn => simp [hn, openFence, hd, reading, taken, Node.heldComments, Node.bare]
  | idle hd hi hp hn =>
      simp [hn, reading_of_outside hd, taken, (Line.takesComments_of_isIdle hi).1]
  | node hd hk hn =>
      simp [hn, reading_of_outside hd, taken, Line.comments_of_node? hk, Node.heldComments]
  | fence hd hl hn => simp [hn, reading_of_outside hd, hl, taken, Line.takesComments]
  | prose front owner hd hl hr ht hn =>
      simp [hn, hr, reading_of_outside hd, hl, taken, Line.takesComments, Node.heldComments,
        Node.describe]

/-- The tags that a line takes come to its node, by the ways in which nodes grow. -/
theorem Grows.heldTags_eq (h : reader.Grows n raw next)
    : next.nodes.flatMap Node.heldTags
      = reader.nodes.flatMap Node.heldTags
        ++ taken Line.isTitled reader.tags n (reading reader.openFence raw) := by
  cases h with
  | content hd hr hn => simp [hn, openFence, hd, reading, taken]
  | close hd hr hn => simp [hn, openFence, hd, reading, taken, Node.heldTags, Node.bare]
  | idle hd hi hp hn =>
      simp [hn, reading_of_outside hd, taken, (Line.takesComments_of_isIdle hi).2]
  | node hd hk hn =>
      rw [reading_of_outside hd, taken, Line.isTitled_of_node? hk]
      split
      · next ht => simp [hn, ht, Node.heldTags]
      · next ht => simp [hn, ht, Node.heldTags]
  | fence hd hl hn => simp [hn, reading_of_outside hd, hl, taken, Line.isTitled]
  | prose front owner hd hl hr ht hn =>
      simp [hn, hr, reading_of_outside hd, hl, taken, Line.isTitled, Node.heldTags, Node.describe]

/-- What is held by nodes is owned in the lines, and what waits is not, for everything that comes
and is taken line by line, by the run lemma.
-/
theorem owned_of_takeAll {waiting : Reader → List α} {held : Node → List (Nat × α)}
    {brings : Nat → Line → List α} {takes : Line → Bool} (initial : waiting start = [])
    (waits
      : ∀ {reader n raw next},
          Takes reader n raw next
          → waiting next
            = leftWaiting brings takes (waiting reader) n (reading reader.openFence raw))
    (holds
      : ∀ {reader n raw next},
          Grows reader n raw next
          → next.nodes.flatMap held
            = reader.nodes.flatMap held
              ++ taken takes (waiting reader) n (reading reader.openFence raw))
    (h : start.takeAll 1 lines = .ok reader)
    : waiting reader = unowned brings takes (numbered (readings none lines))
      ∧ reader.nodes.flatMap held = owned brings takes (numbered (readings none lines)) := by
  refine takeAll_keeps
    (fun done middle =>
      waiting middle = unowned brings takes (numbered (readings none done))
      ∧ middle.nodes.flatMap held = owned brings takes (numbered (readings none done)))
    ⟨initial, rfl⟩ ?_ h
  intro done middle raw after hd hm ht
  rw [waits (takes_of_takeRaw ht), holds (grows_of_takeRaw hd ht), hm.1, hm.2,
    numbered_readings_concat hd]
  cases reading middle.openFence raw with
  | none => simp [leftWaiting, taken]
  | some line => simp [leftWaiting, taken, owned_concat, unowned_concat]

end Reader

-----------------------------------------------------------------------------------------
-- Accepted files
-----------------------------------------------------------------------------------------

/-- What a line is read as is what it says alone, by induction on the lines before it. -/
theorem exists_of_readings {fence : Option Fence} {lines : List Text} {i : Nat} {line : Line}
    (h : (readings fence lines)[i]? = some (some line))
    : ∃ raw, lines[i]? = some raw ∧ Line.of raw = line := by
  induction lines generalizing fence i with
  | nil => cases h
  | cons raw rest ih =>
      cases i with
      | zero =>
          refine ⟨raw, rfl, ?_⟩
          simp only [readings, List.getElem?_cons_zero, Option.some.injEq] at h
          cases fence with
          | none => exact Option.some.inj h
          | some _ => cases h
      | succ i => exact ih h

/-- The comments and tags of a tree stand at their owners: each comment at the first line after it
that takes comments, each tag at the first line with a title after it, in the order of the file.
Every tag has an owner, and all of them are what their own lines say.
-/
structure FeatureTree.Attaches (lines : List Text) (tree : FeatureTree) : Prop where
  comments
    : tree.nodes.flatMap Node.heldComments
      = owned Line.commentsAt Line.takesComments (numbered (readings none lines))
  tags
    : tree.nodes.flatMap Node.heldTags
      = owned Line.tagsAt Line.isTitled (numbered (readings none lines))
  allTags : unowned Line.tagsAt Line.isTitled (numbered (readings none lines)) = []
  commentTexts
    : ∀ node ∈ tree.nodes, ∀ comment ∈ node.comments,
        lines[comment.line - 1]?.map trim = some comment.text
  tagNames
    : ∀ node ∈ tree.nodes, ∀ tag ∈ node.tags,
        ∃ raw, lines[tag.line - 1]? = some raw ∧ tag.name ∈ tokens (trim raw)

/-- The comments and tags of an accepted file stand at their owners. -/
theorem FeatureTree.attaches_of_ofText {source : Text} {tree : FeatureTree}
    (h : ofText source = .ok tree)
    : tree.Attaches (lines source) := by
  obtain ⟨reader, hr, _, hnone, hf⟩ := exists_reader_of_ofText h
  have hnodes : tree.nodes = reader.nodes :=
    Reader.nodes_of_closeElement (Reader.isOrdered_of_takeAll hr) hf
  obtain ⟨_, hcomments⟩ := Reader.owned_of_takeAll rfl Reader.Takes.comments_eq
    Reader.Grows.heldComments_eq hr
  obtain ⟨hwaiting, htags⟩ := Reader.owned_of_takeAll rfl Reader.Takes.tags_eq
    Reader.Grows.heldTags_eq hr
  rw [← hnodes] at hcomments htags
  refine {
    comments := hcomments
    tags := htags
    allTags := hwaiting.symm.trans hnone
    commentTexts := ?_
    tagNames := ?_
  }
  · intro node hin comment hc
    have hheld : (node.line, comment) ∈ tree.nodes.flatMap Node.heldComments :=
      List.mem_flatMap.mpr ⟨node, hin, List.mem_map.mpr ⟨comment, hc, rfl⟩⟩
    rw [hcomments] at hheld
    obtain ⟨n, line, hsaid, hbrought⟩ := exists_of_mem_owned _ _ hheld
    obtain ⟨raw, hraw, hline⟩ := exists_of_readings (mem_numbered.mp hsaid).2
    cases line with
    | comment text =>
        cases List.mem_singleton.mp hbrought
        have hfits := Line.fits_ofTrimmed (trim raw)
        rw [← Line.of, hline] at hfits
        rw [hraw, Option.map_some, hfits.1]
    | blank | tags | feature | element | examples | step | row | fence | prose => cases hbrought
  · intro node hin tag ht
    have hheld : (node.line, tag) ∈ tree.nodes.flatMap Node.heldTags :=
      List.mem_flatMap.mpr ⟨node, hin, List.mem_map.mpr ⟨tag, ht, rfl⟩⟩
    rw [htags] at hheld
    obtain ⟨n, line, hsaid, hbrought⟩ := exists_of_mem_owned _ _ hheld
    obtain ⟨raw, hraw, hline⟩ := exists_of_readings (mem_numbered.mp hsaid).2
    cases line with
    | tags found =>
        obtain ⟨name, hname, rfl⟩ := List.mem_map.mp hbrought
        have hfits := Line.fits_ofTrimmed (trim raw)
        rw [← Line.of, hline] at hfits
        refine ⟨raw, hraw, ?_⟩
        rw [hfits.2] at hname
        exact (List.takeWhile_sublist _).subset hname
    | blank | comment | feature | element | examples | step | row | fence | prose => cases hbrought

/-- The second comment stands before a doc string, which takes none, and the last has no owner. -/
def passedComment : Text :=
  "Feature: f\n  @a\n  # one\n\n  @b @c\n  Scenario: s\n    Given x\n    # two\n    \"\"\"\n"
    ++ "    # text\n    \"\"\"\n    And y\n  # three\n"

theorem FeatureTree.attaches_of_passedComment
    : ∃ tree, ofText passedComment = .ok tree
        ∧ tree.Attaches (lines passedComment)
        ∧ tree.nodes.flatMap Node.heldComments = [(6, ⟨"# one", 3⟩), (12, ⟨"# two", 8⟩)]
        ∧ tree.nodes.flatMap Node.heldTags
          = [(6, ⟨"@a", 2⟩), (6, ⟨"@b", 5⟩), (6, ⟨"@c", 5⟩)] := by
  have haccepted : ofText passedComment = .ok _ := rfl
  exact ⟨_, haccepted, attaches_of_ofText haccepted, rfl, rfl⟩

end SuiteScore.Gherkin
