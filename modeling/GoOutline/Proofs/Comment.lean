import GoOutline.Comment
import GoOutline.Proofs.Grammar.Fresh
import GoOutline.Proofs.TypeRef.Forms
import Mathlib.Data.List.Chain

/-!
# Normal comment texts: `comment_text`

Among the lines of a comment text no two empty ones follow each other, and neither the first line nor the last is empty
(`Comment.IsNormal`). The other lines are those of the comments, and where empty ones stood between two of them one is
left (`Comment.normalize_between`). Of any node of a parsed tree it can be said what its comment text is
(`commentText_normal`).
-/
namespace GoOutline.Comment

/-! ## Blank lines -/

/-- The lines that are not empty. -/
def filled (ls : List (List Char)) : List (List Char) := ls.filter fun line => !line.isEmpty

/-- Empty lines stand only between others, one at a time. -/
structure IsNormal (ls : List (List Char)) : Prop where
  first : ∀ line ∈ ls.head?, line ≠ []
  last : ∀ line ∈ ls.getLast?, line ≠ []
  single : ls.IsChain fun line next => line ≠ [] ∨ next ≠ []

variable {ls before after gap : List (List Char)} {line next : List Char} {blank : Bool}

@[simp] theorem filled_cons_nil (ls : List (List Char)) : filled ([] :: ls) = filled ls := rfl

theorem filled_cons (h : line ≠ []) (ls : List (List Char)) : filled (line :: ls) = line :: filled ls := by
  simp [filled, h]

theorem filled_append (ls ms : List (List Char)) : filled (ls ++ ms) = filled ls ++ filled ms :=
  List.filter_append ..

theorem squeeze_cons (h : line ≠ []) (blank : Bool) (ls : List (List Char)) :
    squeeze blank (line :: ls) = line :: squeeze false ls := by
  simp [squeeze, h]

theorem squeeze_append (h : line ≠ []) (blank : Bool) (before after : List (List Char)) :
    squeeze blank (before ++ line :: after) = squeeze blank before ++ line :: squeeze false after := by
  induction before generalizing blank with
  | nil => exact squeeze_cons h blank after
  | cons first before ih =>
    rw [List.cons_append, squeeze, squeeze]
    split
    · split
      · exact ih true
      · rw [ih true]
        rfl
    · rw [ih false]
      rfl

/-- Of empty lines behind another line one is kept, if there are any. -/
theorem squeeze_gap (hgap : ∀ line ∈ gap, line = []) (h : next ≠ []) (after : List (List Char)) :
    squeeze false (gap ++ next :: after) = (if gap = [] then [] else [[]]) ++ next :: squeeze false after := by
  have hblank : ∀ gap : List (List Char), (∀ line ∈ gap, line = []) →
      squeeze true (gap ++ next :: after) = next :: squeeze false after := by
    intro gap hgap
    induction gap with
    | nil => exact squeeze_cons h true after
    | cons line gap ih =>
      rw [List.forall_mem_cons] at hgap
      rw [hgap.1]
      exact ih hgap.2
  cases gap with
  | nil => exact squeeze_cons h false after
  | cons line gap =>
    rw [List.forall_mem_cons] at hgap
    have hrest := hblank gap hgap.2
    simp [hgap.1, squeeze, hrest]

theorem squeeze_sublist (blank : Bool) (ls : List (List Char)) : (squeeze blank ls).Sublist ls := by
  induction ls generalizing blank with
  | nil => exact .slnil
  | cons line ls ih =>
    rw [squeeze]
    split
    · split
      · exact (ih true).cons line
      · exact (ih true).cons_cons line
    · exact (ih false).cons_cons line

theorem filled_squeeze (blank : Bool) (ls : List (List Char)) : filled (squeeze blank ls) = filled ls := by
  induction ls generalizing blank with
  | nil => rfl
  | cons line ls ih =>
    by_cases h : line = []
    · subst h
      cases blank <;> simp [squeeze, ih]
    · rw [squeeze_cons h, filled_cons h, filled_cons h, ih]

theorem squeeze_isChain (blank : Bool) (ls : List (List Char)) :
    (squeeze blank ls).IsChain (fun line next => line ≠ [] ∨ next ≠ []) ∧
      (blank = true → ∀ line ∈ (squeeze blank ls).head?, line ≠ []) := by
  induction ls generalizing blank with
  | nil => exact ⟨.nil, by simp [squeeze]⟩
  | cons line ls ih =>
    by_cases h : line = []
    · subst h
      cases blank with
      | true => exact ih true
      | false =>
        obtain ⟨hchain, hhead⟩ := ih true
        exact ⟨hchain.cons fun next hnext => .inr (hhead rfl next hnext), by simp⟩
    · rw [squeeze_cons h]
      exact ⟨(ih false).1.cons fun _ _ => .inl h, by simpa using fun _ => h⟩

/-- What is dropped at the end is empty lines, and no more of them are left there. -/
theorem exists_dropBlankEnd (ls : List (List Char)) : ∃ after, ls = dropBlankEnd ls ++ after ∧
    (∀ line ∈ after, line = []) ∧ ∀ line ∈ (dropBlankEnd ls).getLast?, line ≠ [] := by
  induction ls with
  | nil => exact ⟨[], rfl, by simp, by simp [dropBlankEnd]⟩
  | cons line ls ih =>
    obtain ⟨after, hls, hafter, hlast⟩ := ih
    rw [dropBlankEnd]
    cases hend : dropBlankEnd ls with
    | nil =>
      rw [hend, List.nil_append] at hls
      subst hls
      by_cases h : line = []
      · exact ⟨line :: ls, by simp [h], List.forall_mem_cons.2 ⟨h, hafter⟩, by simp [h]⟩
      · exact ⟨ls, by simp [h], hafter, by simp [h]⟩
    | cons kept rest =>
      rw [hend] at hls hlast
      exact ⟨after, by rw [List.cons_append, ← hls], hafter, by rwa [List.getLast?_cons_cons]⟩

theorem filled_dropBlankEnd (ls : List (List Char)) : filled (dropBlankEnd ls) = filled ls := by
  obtain ⟨after, hls, hafter, -⟩ := exists_dropBlankEnd ls
  have hnone : filled after = [] := by
    simpa [filled] using hafter
  conv_rhs => rw [hls, filled_append, hnone, List.append_nil]

theorem dropBlankEnd_cons (h : line ≠ []) (ls : List (List Char)) :
    dropBlankEnd (line :: ls) = line :: dropBlankEnd ls := by
  rw [dropBlankEnd]
  split
  · rename_i hnone
    simp [h, hnone]
  · rfl

theorem dropBlankEnd_append (h : line ≠ []) (before after : List (List Char)) :
    dropBlankEnd (before ++ line :: after) = before ++ line :: dropBlankEnd after := by
  induction before with
  | nil => exact dropBlankEnd_cons h after
  | cons first before ih =>
    rw [List.cons_append, dropBlankEnd, ih]
    cases before <;> rfl

/-! ## Normal lines -/

theorem isNormal_normalize (ls : List (List Char)) : IsNormal (normalize ls) := by
  obtain ⟨after, hls, -, hlast⟩ := exists_dropBlankEnd (squeeze true ls)
  obtain ⟨hchain, hhead⟩ := squeeze_isChain true ls
  refine ⟨fun line hline => hhead rfl line ?_, hlast, hchain.prefix ⟨after, hls.symm⟩⟩
  rw [hls, List.head?_append, Option.mem_def]
  rw [normalize, Option.mem_def] at hline
  rw [hline]
  rfl

theorem squeeze_of_isChain (h : ls.IsChain fun line next => line ≠ [] ∨ next ≠ [])
    (hhead : blank = true → ∀ line ∈ ls.head?, line ≠ []) : squeeze blank ls = ls := by
  induction ls generalizing blank with
  | nil => rfl
  | cons line ls ih =>
    rw [List.isChain_cons] at h
    obtain ⟨hnext, hchain⟩ := h
    by_cases hline : line = []
    · subst hline
      cases blank with
      | true => exact absurd rfl (hhead rfl [] rfl)
      | false =>
        have hrest : squeeze true ls = ls := ih hchain fun _ next hmem => (hnext next hmem).resolve_left (by simp)
        simp [squeeze, hrest]
    · rw [squeeze_cons hline, ih hchain (by simp)]

theorem dropBlankEnd_of_getLast (h : ∀ line ∈ ls.getLast?, line ≠ []) : dropBlankEnd ls = ls := by
  rcases List.eq_nil_or_concat ls with rfl | ⟨front, line, rfl⟩
  · rfl
  · have hline : line ≠ [] := h line (by simp)
    rw [List.concat_eq_append, dropBlankEnd_append hline]
    rfl

theorem IsNormal.normalize_eq (h : IsNormal ls) : normalize ls = ls := by
  rw [normalize, squeeze_of_isChain h.single fun _ => h.first, dropBlankEnd_of_getLast h.last]

theorem filled_normalize (ls : List (List Char)) : filled (normalize ls) = filled ls := by
  rw [normalize, filled_dropBlankEnd, filled_squeeze]

theorem mem_of_mem_normalize (h : line ∈ normalize ls) : line ∈ ls := by
  obtain ⟨after, hls, -, -⟩ := exists_dropBlankEnd (squeeze true ls)
  refine (squeeze_sublist true ls).subset ?_
  rw [hls]
  exact List.mem_append_left _ h

/-- Two lines with only empty ones between them, or none, stay together with one between them, or none. -/
theorem normalize_between (hline : line ≠ []) (hnext : next ≠ []) (hgap : ∀ line ∈ gap, line = []) :
    ∃ before' after', normalize (before ++ line :: (gap ++ next :: after)) =
        before' ++ line :: ((if gap = [] then [] else [[]]) ++ next :: after') ∧
      filled before' = filled before ∧ filled after' = filled after := by
  refine ⟨squeeze true before, dropBlankEnd (squeeze false after), ?_, filled_squeeze true before, ?_⟩
  · rw [normalize, squeeze_append hline, squeeze_gap hgap hnext, dropBlankEnd_append hline]
    cases gap with
    | nil => simp [dropBlankEnd_cons hnext]
    | cons _ _ => simpa using dropBlankEnd_append hnext [[]] (squeeze false after)
  · rw [filled_dropBlankEnd, filled_squeeze]

/-! ## Cleaned lines -/

/-- The comment is one for the compiler. -/
def isForCompiler (raw : List Char) : Bool := (dropLead? "//" raw).any isDirective

/-- The line is without a line feed and does not end in white space. -/
structure IsClean (line : List Char) : Prop where
  single : '\n' ∉ line
  trimmed : ∀ c ∈ line.getLast?, Text.isBlank c = false

variable {raw cs : List Char}

theorem lines_of_isForCompiler (h : isForCompiler raw = true) : lines raw = [] := by
  obtain ⟨body, hbody, hdirective⟩ := Option.any_eq_true .. |>.1 h
  simp [lines, hbody, hdirective]

theorem isClean_trimEnd (h : '\n' ∉ cs) : IsClean (Text.trimEnd cs) := by
  obtain ⟨after, hcs, -, hlast⟩ := Text.exists_trimEnd cs
  refine ⟨fun hmem => h ?_, hlast⟩
  rw [hcs]
  exact List.mem_append_left _ hmem

theorem single_splitLines_go (cs line : List Char) (h : '\n' ∉ line) : ∀ l ∈ splitLines.go line cs, '\n' ∉ l := by
  fun_induction splitLines.go line cs with
  | case1 => simp
  | case2 line => simpa using h
  | case3 line cs ih =>
    refine List.forall_mem_cons.2 ⟨?_, ih (by simp)⟩
    split
    · simpa using fun hmem => h (List.mem_cons_of_mem _ hmem)
    · simpa using h
  | case4 line c cs hc ih => exact ih (by simpa using ⟨fun heq => hc heq.symm, h⟩)

theorem isClean_of_mem_lines (hraw : IsRemark raw) (hline : line ∈ lines raw) : IsClean line := by
  cases hraw with
  | @row rest hrest =>
    have hbody : dropLead? "//" ('/' :: '/' :: rest) = some rest := by
      simp [dropLead?, show "//".length = 2 from rfl]
    simp only [lines, hbody] at hline
    split at hline
    · cases hline
    · rw [List.mem_singleton.1 hline]
      refine isClean_trimEnd fun hmem => hrest ?_
      unfold dropLead? at hmem
      split at hmem
      · exact List.mem_of_mem_drop hmem
      · exact hmem
  | block rest =>
    have hbody : dropLead? "//" ('/' :: '*' :: rest) = none := by simp [dropLead?]
    simp only [lines, hbody] at hline
    obtain ⟨cs, hcs, rfl⟩ := List.mem_map.1 hline
    exact isClean_trimEnd (single_splitLines_go _ [] (by simp) cs hcs)

/-- The cleaned lines of comments are those of all that are not for the compiler. -/
theorem flatMap_lines_eq (raws : List (List Char)) :
    raws.flatMap lines = (raws.filter fun raw => !isForCompiler raw).flatMap lines := by
  induction raws with
  | nil => rfl
  | cons raw raws ih =>
    cases hraw : isForCompiler raw with
    | true => simp [hraw, lines_of_isForCompiler hraw, ih]
    | false => simp [hraw, ih]

end GoOutline.Comment

namespace GoOutline

/-! ## Comment texts -/

/-- The cleaned lines of the comments of a node, without those for the compiler. -/
def Node.cleanedLines (source : String) (n : Node) : List (List Char) :=
  ((n.comments.map fun span => (span.text source).toList).filter fun raw => !Comment.isForCompiler raw).flatMap
    Comment.lines

theorem Node.commentText_eq (source : String) (n : Node) :
    n.commentText source = String.ofList (Comment.joinLines (Comment.normalize (n.cleanedLines source))) := by
  rw [commentText, Comment.text, cleanedLines, ← Comment.flatMap_lines_eq, List.flatMap_map]

/-- What the comment text of a node is made of: normal, clean lines, which are the cleaned lines of its comments as far
as they are not empty, with one empty line wherever there were some between two of them. Lines that are normal already
stay as they are. -/
theorem commentText_normal :
    (∀ (source : String) (root n : Node) (a : Address), parse source = .ok root → root.at? a = some n →
      ∃ kept, n.commentText source = String.ofList (Comment.joinLines kept) ∧
        Comment.IsNormal kept ∧ (∀ line ∈ kept, Comment.IsClean line) ∧
        Comment.filled kept = Comment.filled (n.cleanedLines source) ∧
        ∀ before line gap next after, n.cleanedLines source = before ++ line :: (gap ++ next :: after) →
          line ≠ [] → next ≠ [] → (∀ blank ∈ gap, blank = []) →
          ∃ before' after', kept = before' ++ line :: ((if gap = [] then [] else [[]]) ++ next :: after') ∧
            Comment.filled before' = Comment.filled before ∧ Comment.filled after' = Comment.filled after) ∧
    ∀ ls, Comment.normalize (Comment.normalize ls) = Comment.normalize ls := by
  refine ⟨fun source root n a hparse hat => ?_, fun ls => (Comment.isNormal_normalize ls).normalize_eq⟩
  refine ⟨Comment.normalize (n.cleanedLines source), n.commentText_eq source, Comment.isNormal_normalize _, ?_,
    Comment.filled_normalize _, ?_⟩
  · intro line hline
    obtain ⟨raw, hraw, hline⟩ := List.mem_flatMap.1 (Comment.mem_of_mem_normalize hline)
    obtain ⟨span, hspan, rfl⟩ := List.mem_map.1 (List.mem_filter.1 hraw).1
    exact Comment.isClean_of_mem_lines (isRemark_of_mem_comments hparse hat hspan) hline
  · intro before line gap next after hcleaned hline hnext hgap
    rw [hcleaned]
    exact Comment.normalize_between hline hnext hgap

/-- A file with a directive, row comments and a block comment before a type. -/
def describedSource : String :=
  "package p\n\n//go:generate x\n// A  \n//\n/*\n\n b\t\n\n*/\n// C\ntype T struct\x7b\x7d\n"

/-- The empty lines around the border of the row comments and the block are one. -/
theorem commentText_normal_describedSource : ∃ root n kept before after, parse describedSource = .ok root ∧
    root.at? [7] = some n ∧ n.cleanedLines describedSource = [['A'], [], [], [], [' ', 'b'], [], ['C']] ∧
    n.commentText describedSource = String.ofList (Comment.joinLines kept) ∧ Comment.IsNormal kept ∧
    kept = before ++ ['A'] :: ([[]] ++ [' ', 'b'] :: after) ∧ Comment.filled before = [] ∧
    Comment.filled after = [['C']] := by
  obtain ⟨root, hparse, hfacts⟩ := exists_of_any (x := parse describedSource)
    (p := fun root => (root.at? [7]).any fun n =>
      n.cleanedLines describedSource == [['A'], [], [], [], [' ', 'b'], [], ['C']])
    (by decide +kernel)
  simp only [Option.any_eq_true, beq_iff_eq] at hfacts
  obtain ⟨n, hat, hcleaned⟩ := hfacts
  obtain ⟨kept, htext, hnormal, -, -, hbetween⟩ := commentText_normal.1 describedSource root n [7] hparse hat
  obtain ⟨before, after, hkept, hbefore, hafter⟩ :=
    hbetween [] ['A'] [[], [], []] [' ', 'b'] [[], ['C']] hcleaned (by decide) (by decide) (by decide)
  exact ⟨root, n, kept, before, after, hparse, hat, hcleaned, htext, hnormal, hkept, hbefore, hafter⟩

end GoOutline
