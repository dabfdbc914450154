import SuiteScore.Proofs.Gherkin.Line
import SuiteScore.Proofs.Support.Pattern
import SuiteScore.Proofs.Text.Pieces

/-! Step definitions as they are written: a keyword, a pattern that can stand in parentheses, `do`
with names of parameters, and perhaps a comment, then the lines of a body, then an `end`.
-/

namespace SuiteScore.Support

open Text Gherkin HookHeader

-----------------------------------------------------------------------------------------
-- Names of parameters
-----------------------------------------------------------------------------------------

/-- A name of a parameter is a text without blanks around it. -/
structure IsName (name : Text) : Prop where
  ne : name ≠ []
  trimmed : trim name = name
  comma : ',' ∉ name
  bar : '|' ∉ name

/-- One name or more, with commas between them and blanks anywhere around the commas. -/
inductive WritesNames : List Text → Text → Prop
  | one {name before after} (hn : IsName name) (hb : AreBlank before) (ha : AreBlank after)
    : WritesNames [name] (before ++ (name ++ after))
  | more {name before after names others} (hn : IsName name) (hb : AreBlank before)
    (ha : AreBlank after) (ho : WritesNames names others)
    : WritesNames (name :: names) (before ++ (name ++ after) ++ ',' :: others)

/-- A character that is no blank is in a name with blanks around it only if it is in the name. -/
theorem not_mem_between {c : Char} {before name after : Text} (hc : isBlank c = false)
    (hn : c ∉ name) (hb : AreBlank before) (ha : AreBlank after)
    : c ∉ before ++ (name ++ after) := by
  simp only [List.mem_append, not_or]
  exact ⟨fun hin => Bool.false_ne_true (hc.symm.trans (hb c hin)), hn,
    fun hin => Bool.false_ne_true (hc.symm.trans (ha c hin))⟩

/-- The pieces between the commas are the names, by induction on the names. -/
theorem WritesNames.facts {names : List Text} {written : Text} (h : WritesNames names written)
    : commaPieces written = names ∧ '|' ∉ written := by
  have hone : ∀ {name before after : Text}, IsName name → AreBlank before → AreBlank after →
      commaPieces (before ++ (name ++ after)) = [name] := by
    intro name before after hn hb ha
    rw [commaPieces_blanks_append _ hb, commaPieces_append_blanks _ ha,
      commaPieces_of_not_mem hn.comma]
    simp [withoutBlanks, hn.trimmed, hn.ne]
  induction h with
  | one hn hb ha => exact ⟨hone hn hb ha, not_mem_between (by decide) hn.bar hb ha⟩
  | more hn hb ha _ ih =>
      obtain ⟨hpieces, hbar⟩ := ih
      refine ⟨?_, ?_⟩
      · rw [commaPieces_append, hone hn hb ha, hpieces]
        rfl
      · have hfirst := not_mem_between (by decide) hn.bar hb ha
        simp only [List.mem_append, List.mem_cons, not_or] at hfirst ⊢
        exact ⟨hfirst, by decide, hbar⟩

/-- Names between bars with blanks behind them, or nothing. -/
inductive WritesBars : List Text → Text → Prop
  | absent : WritesBars [] []
  | present {names written after} (hn : WritesNames names written) (ha : AreBlank after)
    : WritesBars names ('|' :: (written ++ '|' :: after))

/-- Names between bars stand for the parameters that they name. -/
theorem WritesBars.writesParameters {names : List Text} {bars : Text} (h : WritesBars names bars)
    : WritesParameters names bars := by
  cases h with
  | absent => exact .absent
  | present hn ha =>
      obtain ⟨rfl, hbar⟩ := hn.facts
      exact .present hbar ha

-----------------------------------------------------------------------------------------
-- Headers
-----------------------------------------------------------------------------------------

/-- What stands before and behind a pattern: blanks and nothing, or parentheses with blanks around
the pattern.
-/
inductive Surrounds : Text → Text → Prop
  | blanks {before} (hb : AreBlank before) : Surrounds before []
  | parentheses {before inside after} (hb : AreBlank before) (hi : AreBlank inside)
    (ha : AreBlank after)
    : Surrounds (before ++ '(' :: inside) (after ++ [')'])

namespace DefinitionHeader

/-- A line is written as a header with the text `tail` behind the pattern. -/
inductive Writes (header : DefinitionHeader) (tail : Text) : Text → Prop
  | parts {opening closing gap after bars comment} (hk : header.keyword ∈ definitionKeywords)
    (hp : IsPattern header.pattern) (hs : Surrounds opening closing) (hg : AreBlank gap)
    (ha : AreBlank after) (hb : WritesBars header.parameters bars) (hc : WritesComment comment)
    (ht : tail = closing ++ (gap ++ (("do" : Text) ++ (after ++ (bars ++ comment)))))
    : Writes header tail (header.keyword.text ++ (opening ++ (header.pattern ++ tail)))

variable {header : DefinitionHeader} {opening closing gap tail line pattern : Text}
  {parameters : List Text}

/-- What stands around a pattern can be skipped, with blanks behind it. -/
theorem writesParenthesis_of_surrounds (hs : Surrounds opening closing) (hg : AreBlank gap)
    : WritesParenthesis '(' opening ∧ WritesParenthesis ')' (closing ++ gap) := by
  cases hs with
  | blanks hb => exact ⟨.absent hb, .absent hg⟩
  | @parentheses before inside after hb hi ha =>
      refine ⟨.present hb hi, ?_⟩
      rw [List.append_assoc]
      exact .present ha hg

/-- No slash behind a regular expression can be taken for its end. Strings always end where they are
written to.
-/
def EndsAsWritten (pattern tail : Text) : Prop :=
  pattern.head? = some '/' → ∀ front back, tail = front ++ '/' :: back → ¬EndsHeader back

/-- A pattern and a tail are read in any case, and as they are written exactly if the pattern ends
as written, by the two kinds of patterns.
-/
theorem readPattern_append (ho : WritesParenthesis '(' opening) (hp : IsPattern pattern)
    (ht : WritesTail parameters tail) (hn : '\n' ∉ pattern ++ tail)
    : ∃ found, readPattern (opening ++ (pattern ++ tail)) = some found
        ∧ (found = (pattern, parameters) ↔ EndsAsWritten pattern tail) := by
  cases hp with
  | @expression body flags hb hf =>
      have htext : '/' :: (body ++ '/' :: flags) ++ tail
          = '/' :: (body ++ '/' :: (flags ++ tail)) := by simp
      rw [htext] at hn ⊢
      obtain ⟨found, hread, hwhole⟩ := readExpression_append
        (fun hin => hn (List.mem_cons_of_mem _ hin)) hf ht
      refine ⟨found, ?_, by simpa [EndsAsWritten] using hwhole⟩
      rw [readPattern, skipParenthesis_append ho (by decide) (by decide) (by decide)]
      exact hread
  | @string quote body hq hb =>
      have htext : quote :: (body ++ [quote]) ++ tail = quote :: (body ++ quote :: tail) := by simp
      rw [htext] at hn ⊢
      have hbody : '\n' ∉ body := fun hin => hn (by simp [hin])
      have hends : EndsAsWritten (quote :: (body ++ [quote])) tail := by
        intro hslash
        rcases hq with rfl | rfl <;> cases hslash
      refine ⟨(quote :: (body ++ [quote]), parameters), ?_, iff_of_true rfl hends⟩
      rcases hq with rfl | rfl
      · rw [readPattern, skipParenthesis_append ho (by decide) (by decide) (by decide)]
        exact readString_append hb (by decide) hbody ht
      · rw [readPattern, skipParenthesis_append ho (by decide) (by decide) (by decide)]
        exact readString_append hb (by decide) hbody ht

/-- A written header is read in any case, with its keyword, and as it is written exactly if its
pattern ends as written.
-/
theorem ofLine_of_writes (hw : Writes header tail line) (hn : '\n' ∉ line)
    : ∃ found, ofLine line = some found ∧ found.keyword = header.keyword
        ∧ (found = header ↔ EndsAsWritten header.pattern tail) := by
  obtain @⟨opening, closing, gap, after, bars, comment, hk, hp, hs, hg, ha, hb, hc, rfl⟩ := hw
  obtain ⟨hopening, hclosing⟩ := writesParenthesis_of_surrounds hs hg
  have hcomment : '\n' ∉ comment := fun hin => hn (by simp [hin])
  have htail : WritesTail header.parameters
      (closing ++ (gap ++ (("do" : Text) ++ (after ++ (bars ++ comment))))) := by
    rw [← List.append_assoc]
    exact .parts hclosing ha hb.writesParameters hc hcomment
  obtain ⟨found, hread, hwhole⟩ := readPattern_append hopening hp htail fun hin =>
    hn (List.mem_append_right _ (List.mem_append_right _ hin))
  refine ⟨⟨header.keyword, found.1, found.2⟩, ?_, rfl, ?_⟩
  · rw [ofLine, definitionKeyword?, StepKeyword.findSome?_of_mem hk, Option.bind_some]
    simp only [hread, Option.map_some]
  · rw [← hwhole]
    obtain ⟨keyword, pattern, parameters⟩ := header
    simp [Prod.ext_iff]

end DefinitionHeader

-----------------------------------------------------------------------------------------
-- Blocks
-----------------------------------------------------------------------------------------

namespace StepDefinition

variable {header : DefinitionHeader} {tail line footer : Text}

/-- The step definition that a header and the lines of a body stand for: the lines with text, in
their order, comments apart from code.
-/
def declared (location : Text) (header : DefinitionHeader) (body : List Text) : StepDefinition where
  location
  name := header.pattern
  tags := []
  keyword := header.keyword
  pattern := header.pattern
  parameters := header.parameters
  code := codeOf (contentLines body)
  comments := commentsOf (contentLines body)

/-- A line with a header that is read, the lines of a body, and an `end` are read as the step
definition that they stand for.
-/
theorem ofBlock_eq_declared (location : Text) (body : List Text) (hne : trim line ≠ [])
    (hf : trim footer = "end") (hread : DefinitionHeader.ofLine (trim line) = some header)
    : ofBlock location (line :: (body ++ [footer])) = .ok (declared location header body) := by
  have hcontent : contentLines (line :: (body ++ [footer]))
      = trim line :: (contentLines body ++ [("end" : Text)]) := by
    simp [contentLines, hne, hf]
  have hparts : BlockParts.ofLines (line :: (body ++ [footer]))
      = .ok ⟨trim line, (contentLines body).map BodyLine.of⟩ :=
    BlockParts.ofLines_eq_ok_iff.mpr ⟨contentLines body, "end", hcontent, Or.inl rfl, rfl⟩
  obtain ⟨hcomments, hcode⟩ : _ ∧ _ :=
    @BlockParts.split_eq (contentLines body) ⟨trim line, (contentLines body).map BodyLine.of⟩ rfl
  simp only [ofBlock, hparts, hread, declared, hcomments, hcode]

/-- A block that is written with a header, any body and an `end` is always read as a step definition
with the keyword and the body as they are written. It has the pattern and the parameters as they are
written exactly if the pattern is a string, or a regular expression with no slash behind it that the
rest of a header could follow.
-/
theorem ofBlock_of_writes (location : Text) (body : List Text)
    (hw : DefinitionHeader.Writes header tail (trim line)) (hn : '\n' ∉ line)
    (hf : trim footer = "end")
    : (∃ found, found.keyword = header.keyword
        ∧ ofBlock location (line :: (body ++ [footer])) = .ok (declared location found body))
      ∧ (ofBlock location (line :: (body ++ [footer])) = .ok (declared location header body)
        ↔ DefinitionHeader.EndsAsWritten header.pattern tail) := by
  obtain ⟨found, hread, hkeyword, hwhole⟩ :=
    DefinitionHeader.ofLine_of_writes hw fun hin => hn (mem_of_mem_trim hin)
  have hne : trim line ≠ [] := by
    intro hnil
    rw [hnil] at hread
    cases hread
  have hblock := ofBlock_eq_declared location body hne hf hread
  refine ⟨⟨found, hkeyword, hblock⟩, ?_⟩
  rw [hblock, ← hwhole]
  constructor
  · intro h
    have hsame := Except.ok.inj h
    obtain ⟨keyword, pattern, parameters⟩ := header
    obtain rfl := congrArg StepDefinition.keyword hsame
    obtain rfl := congrArg StepDefinition.pattern hsame
    obtain rfl := congrArg StepDefinition.parameters hsame
    rfl
  · rintro rfl
    rfl

/-- A header with an expression in parentheses, in which a slash is escaped. -/
def escapedSlash : Text :=
  "  When(/a\\/b/i) do |left, right| # ends"

theorem ofBlock_of_escapedSlash
    : DefinitionHeader.Writes ⟨.action, "/a\\/b/i", ["left", "right"]⟩ ") do |left, right| # ends"
        (trim escapedSlash)
      ∧ '\n' ∉ escapedSlash
      ∧ trim "  end" = "end"
      ∧ ofBlock "s.rb:3"
          (escapedSlash :: ([("    # note" : Text), "", "    check left"] ++ [("  end" : Text)]))
        = .ok {
            location := "s.rb:3"
            name := "/a\\/b/i"
            tags := []
            keyword := .action
            pattern := "/a\\/b/i"
            parameters := ["left", "right"]
            code := ["check left"]
            comments := ["# note"] } := by
  have hleft : IsName "left" := ⟨by decide, by decide, by decide, by decide⟩
  have hright : IsName "right" := ⟨by decide, by decide, by decide, by decide⟩
  have hnil : AreBlank [] := by decide
  have hblank : AreBlank " " := by decide
  have hnames : WritesNames ["left", "right"] "left, right" :=
    @WritesNames.more "left" [] [] _ " right" hleft hnil hnil
      (@WritesNames.one "right" " " [] hright hblank hnil)
  have hbars : WritesBars ["left", "right"] "|left, right| " :=
    @WritesBars.present _ _ " " hnames hblank
  have hpattern : IsPattern "/a\\/b/i" :=
    @IsPattern.expression "a\\/b" "i"
      (.plain (by decide) (by decide) (.pair (.plain (by decide) (by decide) .nil))) (by decide)
  have hsurrounds : Surrounds "(" ")" :=
    @Surrounds.parentheses [] [] [] hnil hnil hnil
  have hwrites : DefinitionHeader.Writes ⟨.action, "/a\\/b/i", ["left", "right"]⟩
      ") do |left, right| # ends" (trim escapedSlash) :=
    .parts (by decide) hpattern hsurrounds hblank hblank hbars (.present " ends") rfl
  have hends : DefinitionHeader.EndsAsWritten "/a\\/b/i" ") do |left, right| # ends" := by
    intro _ front back he
    have hslash : '/' ∉ (") do |left, right| # ends" : Text) := by decide
    exact absurd (he ▸ by simp) hslash
  exact ⟨hwrites, by decide, by decide,
    (ofBlock_of_writes "s.rb:3" _ hwrites (by decide) (by decide)).2.mpr hends⟩

/-- Not every header is read as it is written: here the comment holds a slash with `do` behind it.
-/
theorem not_forall_ofBlock_eq_declared
    : ¬∀ (location : Text) (header : DefinitionHeader) (tail line footer : Text)
        (body : List Text),
        DefinitionHeader.Writes header tail (trim line) → '\n' ∉ line → trim footer = "end" →
        ofBlock location (line :: (body ++ [footer])) = .ok (declared location header body) := by
  intro hall
  have hblank : AreBlank " " := by decide
  have hpattern : IsPattern "/x/" :=
    @IsPattern.expression "x" [] (.plain (by decide) (by decide) .nil) (by decide)
  have hwrites : DefinitionHeader.Writes ⟨.context, "/x/", []⟩ " do # see a/do"
      (trim "Given /x/ do # see a/do") :=
    .parts (by decide) hpattern (.blanks hblank) hblank hblank .absent (.present " see a/do") rfl
  have hread := hall "s.rb:1" _ _ "Given /x/ do # see a/do" "end" [] hwrites (by decide) rfl
  revert hread
  decide

end StepDefinition

end SuiteScore.Support
