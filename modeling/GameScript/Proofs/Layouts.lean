import GameScript.Proofs.Formatted
import GameScript.Proofs.Reread

namespace GameScript

/-- The significant tokens, each with a mark that says whether trivia stands before it. -/
def Token.gaps : Bool → List Token → List (Bool × TokenKind × String)
  | _, [] => []
  | apart, t :: ts =>
    if t.isTrivia then gaps true ts
    else if t.isEof then gaps apart ts
    else (apart, t.kind, t.text) :: gaps false ts

open Scan Token

theorem gaps_same {ts us : List Token} (h : List.Forall₂ Same ts us) (apart : Bool) :
    gaps apart ts = gaps apart us := by
  induction h generalizing apart with
  | nil => rfl
  | cons hs _ ih => simp only [gaps, hs.isTrivia, hs.isEof, hs.1, hs.2, ih]

theorem Spread.gaps {apart : Bool} {ts : List Token} {ps : List Piece} (h : Spread apart ts ps) (loc : Location)
    (hp : ∀ p ∈ ps, p.2.isEof = false) :
    Token.gaps apart (ts ++ [endAt loc]) = ps.map fun p => (p.1, p.2.kind, p.2.text) := by
  induction h with
  | nil => rfl
  | trivia ht _ ih =>
    rw [List.cons_append, Token.gaps, if_pos ht]
    exact ih hp
  | token ht _ ih =>
    obtain ⟨he, hps⟩ := List.forall_mem_cons.1 hp
    rw [List.cons_append, Token.gaps, if_neg (by simp [ht]), if_neg (by simp [he]), ih hps]
    rfl

section Texts

variable {d : Dialect} {afterValue apart : Bool} {cs : List Char} {text : String} {ps : List Piece}

theorem Spaced.not_eof (h : Spaced d afterValue apart cs ps) : ∀ p ∈ ps, p.2.isEof = false := by
  induction h with
  | nil => simp
  | blank _ _ ih => exact ih
  | token hs _ _ ih =>
    refine List.forall_mem_cons.2 ⟨?_, ih⟩
    simpa [isEof] using head_not_eof hs

theorem Spaced.no_comment {ts : List Token} {left : Bool} (h : Spaced d afterValue apart cs ps)
    (hr : Reads d afterValue cs ts left []) : ∀ t ∈ ts, t.kind ≠ .comment := by
  induction h generalizing ts with
  | nil =>
    cases hr
    simp
  | @blank _ _ c cs _ hc _ ih =>
    obtain _ | ⟨hs, hr⟩ := hr
    rename_i t ts
    rw [head_blank hc, Scan.token.injEq] at hs
    obtain ⟨hk, -, rfl⟩ := hs
    rw [leaves, if_pos (by simp [isTrivia, ← hk])] at hr
    refine List.forall_mem_cons.2 ⟨by simp [← hk], ?_⟩
    by_cases hcs : cs.dropWhile isBlank = cs
    · rw [hcs] at hr
      exact ih hr
    · -- The blanks behind this one are a token of the shorter text.
      obtain _ | ⟨c', cs⟩ := cs
      · exact absurd rfl hcs
      have hc' : isBlank c' = true := by
        by_contra hc'
        exact hcs (by simp [hc'])
      rw [List.dropWhile_cons_of_pos hc'] at hr
      have hall : ∀ u ∈ ⟨.whitespace, String.ofList (c' :: cs.takeWhile isBlank), .zero⟩ :: ts, u.kind ≠ .comment :=
        ih (.token (by simp [head_blank hc']) hr)
      exact (List.forall_mem_cons.1 hall).2
  | token hs ht _ ih =>
    obtain _ | ⟨hs', hr⟩ := hr
    rename_i u ts
    rw [hs, Scan.token.injEq] at hs'
    obtain ⟨hk, htext, rfl⟩ := hs'
    have hsame : Same u _ := ⟨hk.symm, String.toList_inj.1 htext.symm⟩
    have hu : u.isTrivia = false := by rw [hsame.isTrivia, ht]
    refine List.forall_mem_cons.2 ⟨fun hcomment => ?_, ih ?_⟩
    · simp [isTrivia, hcomment] at hu
    · rwa [leaves, hu, hsame.endsValue] at hr

theorem no_comment_same {ts us : List Token} (h : List.Forall₂ Same ts us) (hu : ∀ u ∈ us, u.kind ≠ .comment) :
    ∀ t ∈ ts, t.kind ≠ .comment := by
  induction h with
  | nil => simp
  | cons hs _ ih =>
    obtain ⟨hk, hus⟩ := List.forall_mem_cons.1 hu
    exact List.forall_mem_cons.2 ⟨hs.1 ▸ hk, ih hus⟩

theorem lex_gaps (h : Spaced d false apart text.toList ps) :
    ∃ toks, lex text d = .ok toks ∧ gaps apart toks = (ps.map fun p => (p.1, p.2.kind, p.2.text)) ∧
      ∀ t ∈ toks, t.kind ≠ .comment := by
  obtain ⟨ts, left, hr, hs⟩ := h.reads
  obtain ⟨toks, hok, hsame⟩ := Lexer.tokens_of_reads (x := Lexer.ofText text d) rfl hr .zero
  refine ⟨toks, hok, ?_, no_comment_same hsame ?_⟩
  · rw [gaps_same hsame apart]
    exact hs.gaps .zero h.not_eof
  · exact List.forall_mem_append.2 ⟨h.no_comment hr, by simp [endAt]⟩

end Texts

section Graphs

variable {source : String} {config : ParserConfig} {tokens : List Token} {g : Graph}

theorem parse_readable (ht : config.target = .expression) (hl : lex source config.dialect = .ok tokens)
    (hs : (parse tokens config).isSuccess = true) (hg : (parse tokens config).graph = some g) :
    ∃ e, g = .expression e ∧ e.Readable config.dialect false := by
  obtain ⟨ts, loc, rfl, hlexed⟩ := lexed_of_lex hl
  obtain ⟨hclosed, honce⟩ := endsOnce_ofList loc fun t ht => (hlexed t ht).isEof
  obtain ⟨e, block, tail, hgraph, hspells, -, hall⟩ := parse_whole ht honce hs
  have hblock : ∀ t ∈ block, t.Lexed config.dialect := by
    intro t hmem
    have hsource : t ∈ (TokenStream.closed (ts ++ [endAt loc])).filter Pack.isSignificant := by
      rw [hall]
      exact List.mem_append_left _ hmem
    rw [hclosed, List.mem_filter, List.mem_append] at hsource
    obtain ⟨hmem | hmem, hsignificant⟩ := hsource
    · exact hlexed t hmem
    · obtain rfl := List.mem_singleton.1 hmem
      cases hsignificant
  obtain rfl : g = .expression e := Option.some.inj (hg.symm.trans hgraph)
  exact ⟨e, rfl, block, hspells, hblock, fun t ht => (hblock t (List.mem_of_mem_head? ht)).readable⟩

theorem Expr.Readable.spaced_line {d : Dialect} {e : Expr} (h : e.Readable d false) (layout : FormatConfig) :
    Spaced d false true (formatGraph layout (.expression e)).toList (e.pieces true) := by
  have hline : (formatGraph layout (.expression e)).toList = e.text.toList ++ ['\n'] := by
    simp [formatGraph, Layout.graphLines, Line.render, String.join]
  have hspaced : Spaced d false true (e.text.toList ++ ['\n']) (e.pieces true ++ []) :=
    h.spaced (clear_of_isBlank (by decide)) fun _ => .newline .nil
  rwa [hline, ← List.append_nil (e.pieces true)]

theorem parse_spaced (hl : lex source config.dialect = .ok tokens) (hs : (parse tokens config).isSuccess = true)
    (hg : (parse tokens config).graph = some g) (layout : FormatConfig) :
    Spaced config.dialect false true (formatGraph layout g).toList g.pieces := by
  by_cases ht : config.target = .expression
  · obtain ⟨e, rfl, hr⟩ := parse_readable ht hl hs hg
    exact hr.spaced_line layout
  · apply (parse_inOrder ht hl hs hg).spaced
    rintro e rfl
    exact ht (parse_target hs hg).symm

end Graphs

/-- Layouts of a tree that was read without an error have the same significant tokens, and trivia between the
same of them, whatever the indents, the braces and the blank lines are. All trivia are blanks. -/
theorem formatGraph_gaps {source : String} {layout layout' : FormatConfig} {o : ParseOutput} {g : Graph}
    (hp : layout'.parser = layout.parser) (h : parseSource source layout.parser = .ok o)
    (hs : o.isSuccess = true) (hg : o.graph = some g) :
    ∃ toks toks', lex (formatGraph layout g) layout.parser.dialect = .ok toks ∧
      lex (formatGraph layout' g) layout'.parser.dialect = .ok toks' ∧ gaps true toks = gaps true toks' ∧
      (∀ t ∈ toks, t.isTrivia = true → t.kind = .whitespace) ∧
      ∀ t ∈ toks', t.isTrivia = true → t.kind = .whitespace := by
  obtain ⟨tokens, hl, rfl⟩ := parseSource_ok h
  obtain ⟨toks, hok, htoks, hblank⟩ := lex_gaps (parse_spaced hl hs hg layout)
  obtain ⟨toks', hok', htoks', hblank'⟩ := lex_gaps (parse_spaced hl hs hg layout')
  have htrivia : ∀ t : Token, t.kind ≠ .comment → t.isTrivia = true → t.kind = .whitespace := by
    intro t hk ht
    simpa [isTrivia, hk] using ht
  rw [hp]
  exact ⟨toks, toks', hok, hok', htoks.trans htoks'.symm, fun t ht => htrivia t (hblank t ht),
    fun t ht => htrivia t (hblank' t ht)⟩

theorem formatGraph_gaps_tight :
    let source := "f(a)\x7bif(a)\x7bb();\x7delse return a;\x7dg()\x7b\x7d"
    let tight : FormatConfig := { indentWidth := 0, braceStyle := .sameLine, blankLinesBetweenFunctions := 0 }
    let text := "f(a)\n\x7b\n    if (a)\n    \x7b\n        b();\n    \x7d\n" ++
      "    else\n        return a;\n\x7d\n\ng()\n\x7b\n\x7d\n"
    let text' := "f(a) \x7b\nif (a) \x7b\nb();\n\x7d else\nreturn a;\n\x7d\ng() \x7b\n\x7d\n"
    ∃ o g, parseSource source {} = .ok o ∧ o.isSuccess = true ∧ o.graph = some g ∧
      formatGraph {} g = text ∧ formatGraph tight g = text' ∧
      ∃ toks toks', lex text {} = .ok toks ∧ lex text' {} = .ok toks' ∧ gaps true toks = gaps true toks' := by
  intro source tight text text'
  have hrun : (parseSource source {}).map (fun o => (o.isSuccess, o.graph.map fun g =>
      (formatGraph {} g, formatGraph tight g))) = .ok (true, some (text, text')) := by
    decide +kernel
  cases ho : parseSource source {} with
  | error => simp [ho, Except.map] at hrun
  | ok o =>
    simp only [ho, Except.map, Except.ok.injEq, Prod.mk.injEq, Option.map_eq_some_iff] at hrun
    obtain ⟨hs, g, hg, htext, htext'⟩ := hrun
    have hparser : tight.parser = ({} : FormatConfig).parser := rfl
    obtain ⟨toks, toks', hok, hok', hgaps, -⟩ := formatGraph_gaps hparser ho hs hg
    rw [htext] at hok
    rw [htext'] at hok'
    exact ⟨o, g, rfl, hs, hg, htext, htext', toks, toks', hok, hok', hgaps⟩

end GameScript
