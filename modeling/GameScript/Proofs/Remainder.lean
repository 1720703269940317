import GameScript.Proofs.Continued
import GameScript.Proofs.Packed
import GameScript.Proofs.Reread
import GameScript.Proofs.Sentences
import GameScript.Proofs.Steady

/-!
A percent sign behind an expression. The lexer looks at the last token alone to tell an operator from the mark of a
resource, and the parser knows whether it has an operand. They agree behind every expression but those that end with an
increment or with a reserved word as the name of a member.
-/

namespace GameScript

/-- The expression ends with a token that ends no operand elsewhere: an increment, or a reserved word behind a point. -/
def Expr.endsOpen (mode : GameMode) : Expr → Bool
  | suffix .. => true
  | member _ _ name => (Keyword.ofWord? name.name mode).any fun k => k.category != .literal
  | binary _ _ _ e | unary _ _ e | assign _ _ _ e => e.endsOpen mode
  | _ => false

namespace Token

variable {mode : GameMode} {t : Token}

theorem endsValue_of_isPlain (h : t.IsPlain mode) : t.endsValue mode = true := by
  simp [endsValue, h.kind, h.keyword]

theorem endsValue_of_literalKind {kind : LiteralKind} (h : t.literalKind? mode = some kind) : t.endsValue mode = true := by
  unfold literalKind? at h
  unfold endsValue
  cases hk : t.kind <;> simp only [hk, reduceCtorEq] at h ⊢
  split at h <;> simp_all [Keyword.category]

theorem endsValue_of_closing (h : t.isSymbol ')' = true ∨ t.isSymbol ']' = true) : t.endsValue mode = true := by
  have hk : t.kind = .symbol := by
    by_contra hk
    simp [isSymbol, symbol?_eq_none_of_kind hk] at h
  simpa [endsValue, hk] using h

end Token

theorem Spells.endsValue {mode : GameMode} {e : Expr} {ts : List Token} (h : Spells mode e ts)
    (ho : e.endsOpen mode = false) : ∃ t ∈ ts.getLast?, t.endsValue mode = true := by
  have hlast {ts : List Token} {t : Token} (ht : t.endsValue mode = true) : ∃ u ∈ (ts ++ [t]).getLast?, u.endsValue mode = true :=
    ⟨t, by simp, ht⟩
  have hbehind (ts : List Token) {us : List Token} (h : ∃ t ∈ us.getLast?, t.endsValue mode = true) :
      ∃ t ∈ (ts ++ us).getLast?, t.endsValue mode = true := by
    obtain ⟨t, ht, hv⟩ := h
    exact ⟨t, by simp [List.getLast?_append, Option.mem_def.1 ht], hv⟩
  induction h with
  | var ht => exact ⟨_, rfl, Token.endsValue_of_isPlain ht⟩
  | literal ht => exact ⟨_, rfl, Token.endsValue_of_literalKind ht⟩
  | func _ _ ht => exact hlast (Token.endsValue_of_isPlain ht)
  | index _ _ _ _ hc | array _ _ _ _ hc => exact hlast (Token.endsValue_of_closing (.inr hc))
  | group _ _ _ hq | truple _ _ _ _ _ _ _ hq | call _ _ _ _ _ _ _ _ hq | pointerCall _ _ _ _ _ _ _ _ _ _ hq =>
    exact hlast (Token.endsValue_of_closing (.inl hq))
  | suffix => cases ho
  | binary _ _ _ _ _ _ ih | assign _ _ _ _ _ _ ih => exact hbehind _ (ih ho)
  | @unary _ _ _ o ts _ _ _ _ ih => exact hbehind [o] (ih ho)
  | @member _ _ ts p t _ _ _ ht =>
    refine ⟨t, by simp [List.getLast?_append], ?_⟩
    unfold Expr.endsOpen at ho
    cases hk : Keyword.ofWord? t.text mode <;> simp_all [Token.endsValue, Token.keyword?]

theorem spaced_remainder {d : Dialect} {n : Ident} (hn : n.IsWord d) (apart : Bool) :
    Spaced d true true ('%' :: ((if apart = true then [' '] else []) ++ n.name.toList))
      [symbolPiece true '%', wordPiece apart n.name] := by
  obtain ⟨t, ht, hplain, hlexed⟩ := hn
  have hword : Spaced d false apart (n.name.toList ++ []) [wordPiece apart n.name] :=
    ht ▸ .word hlexed.readable hplain.kind clear_nil fun _ => .nil
  rw [List.append_nil] at hword
  exact .symbol (by decide) (fun x _ => ⟨by simp, by simp, fun _ => .inl rfl, by simp⟩) hword.gap

theorem Ident.IsWord.newline {d : Dialect} {n : Ident} (hn : n.IsWord d) : '\n' ∉ n.name.toList := by
  obtain ⟨t, ht, hplain, hlexed⟩ := hn
  have hidentifier := hplain.kind
  obtain ⟨c, cs, rest, -, hfound⟩ := hlexed.found (by simp [hidentifier])
  rw [hidentifier] at hfound
  rw [← ht]
  generalize t.text.toList = text at hfound
  cases hfound with
  | identifier hs =>
    have hnewline : d.isWordChar '\n' = false := Scan.isWordChar_of_isBlank (by decide)
    intro hmem
    obtain rfl | hmem := List.mem_cons.1 hmem
    · rw [Dialect.isWordChar_of_isWordStart hs] at hnewline
      cases hnewline
    · rw [List.mem_takeWhile_imp hmem] at hnewline
      cases hnewline

theorem Reads.Followed.lex {d : Dialect} {left left' : Bool} {source text : String} {ts us : List Token} {more rest : List Char}
    (h : Reads.Followed d false left source.toList ts more rest) (hr : Reads d left rest us left' [])
    (htext : text.toList = source.toList ++ ' ' :: more) : ∃ toks, GameScript.lex text d = .ok toks ∧
      List.Forall₂ Piece.Like (significant false (TokenStream.closed toks))
        (significant false ts ++ significant true (us ++ [Token.endAt .zero])) := by
  obtain ⟨ts', hr', hsig⟩ := h
  have hreads : Reads d false text.toList (ts' ++ us) left' [] := by
    rw [htext]
    exact hr'.append hr
  obtain ⟨toks, hok, hsame⟩ := Lexer.tokens_of_reads (x := Lexer.ofText text d) rfl hreads .zero
  refine ⟨toks, hok, ?_⟩
  obtain ⟨ts₁, loc, rfl, -⟩ := lexed_of_lex hok
  rw [TokenStream.closed_endAt, ← hsig, ← List.append_assoc]
  exact like_significant hsame false

theorem Reads.text_subset {d : Dialect} {afterValue left : Bool} {cs rest : List Char} {ts : List Token}
    (h : Reads d afterValue cs ts left rest) : ∀ t ∈ ts, t.text.toList ⊆ cs := by
  induction h with
  | done => simp
  | token hs _ ih =>
    obtain ⟨happend, -⟩ := Scan.head_token hs
    rw [← happend]
    refine List.forall_mem_cons.2 ⟨List.subset_append_left _ _, fun t ht => ?_⟩
    exact fun c hc => List.mem_append_right _ (ih t ht hc)

theorem lex_remainder {d : Dialect} {source : String} {ts : List Token} {n : Ident}
    (hr : Reads d false source.toList ts true []) (hn : n.IsWord d) : ∃ close apart,
      lex (source ++ " %" ++ n.name) d = .ok close ∧ lex (source ++ " % " ++ n.name) d = .ok apart ∧
        List.Forall₂ Piece.Like (significant false (TokenStream.closed close)) (significant false (TokenStream.closed apart)) := by
  have htext (apart : Bool) : (source ++ (if apart = true then " % " else " %") ++ n.name).toList =
      source.toList ++ ' ' :: ('%' :: ((if apart = true then [' '] else []) ++ n.name.toList)) := by
    cases apart <;> simp
  obtain hfollowed | hfollowed := hr.followed
  · have hlex (apart : Bool) : ∃ toks a, lex (source ++ (if apart = true then " % " else " %") ++ n.name) d = .ok toks ∧
        List.Forall₂ Piece.Like (significant false (TokenStream.closed toks)) (significant false ts ++
          ([symbolPiece true '%', wordPiece apart n.name] ++ [(a, Token.endAt .zero)])) := by
      obtain ⟨us, left, hus, hspread⟩ := (spaced_remainder hn apart).reads
      obtain ⟨a, hspread⟩ := hspread.snoc (Token.isTrivia_endAt .zero)
      have hblank : ∀ x ∈ ('%' :: ((if apart = true then [' '] else []) ++ n.name.toList)).head?, isBlank x = false := by
        rintro _ ⟨⟩
        decide
      obtain ⟨toks, hok, hlike⟩ := (hfollowed _ hblank).lex hus (htext apart)
      rw [hspread.significant_eq] at hlike
      exact ⟨toks, a, hok, hlike⟩
    obtain ⟨close, a, hclose, hlike⟩ := hlex false
    obtain ⟨apart, b, hapart, hlike'⟩ := hlex true
    refine ⟨close, apart, hclose, hapart, likes_trans hlike (likes_trans ?_ (likes_symm hlike'))⟩
    refine List.rel_append (List.forall₂_same.2 fun p _ => .refl p) ?_
    exact .cons (.refl _) (.cons ⟨.refl _, .inr rfl⟩ (.cons ⟨.refl _, .inr rfl⟩ .nil))
  · -- The comment at the end of the text has both as a part of it.
    have hlex (apart : Bool) : ∃ toks, lex (source ++ (if apart = true then " % " else " %") ++ n.name) d = .ok toks ∧
        List.Forall₂ Piece.Like (significant false (TokenStream.closed toks))
          (significant false ts ++ significant true [Token.endAt .zero]) := by
      have hline : '\n' ∉ '%' :: ((if apart = true then [' '] else []) ++ n.name.toList) := by
        cases apart <;> simpa using hn.newline
      exact (hfollowed _ hline).lex .done (htext apart)
    obtain ⟨close, hclose, hlike⟩ := hlex false
    obtain ⟨apart, hapart, hlike'⟩ := hlex true
    exact ⟨close, apart, hclose, hapart, likes_trans hlike (likes_symm hlike')⟩

theorem left_of_parse {source : String} {d : Dialect} {config : ParserConfig} {ts : List Token} {loc : Location} {left : Bool}
    {e : Expr} (ht : config.target = .expression) (hd : config.dialect = d) (hr : Reads d false source.toList ts left [])
    (hs : (parse (ts ++ [Token.endAt loc]) config).isSuccess = true)
    (hg : (parse (ts ++ [Token.endAt loc]) config).graph = some (.expression e)) (hsemi : ';' ∉ source.toList)
    (ho : e.endsOpen d.mode = false) : left = true := by
  obtain ⟨hclosed, honce⟩ := endsOnce_ofList loc fun t ht => (hr.lexed t ht).isEof
  obtain ⟨e', block, tail, hgraph, hspells, htail, hall⟩ := parse_whole ht honce hs
  obtain rfl : e' = e := by simpa [hg] using hgraph.symm
  have hfilter : (ts.filter fun t => !t.isTrivia) = block ++ tail := by
    rw [← hall, hclosed, List.filter_append]
    have hsig : ∀ t ∈ ts, (!t.isTrivia) = Pack.isSignificant t := fun t ht => by
      simp [Pack.isSignificant, (hr.lexed t ht).isEof]
    rw [List.filter_congr hsig]
    simp [Pack.isSignificant, Token.isEof_endAt]
  have hnil : tail = [] := by
    refine htail.resolve_right ?_
    rintro ⟨t, hsymbol, rfl⟩
    have hmem : t ∈ ts := by
      have : t ∈ ts.filter fun t => !t.isTrivia := hfilter ▸ by simp
      exact List.mem_of_mem_filter this
    have hc := Token.isSymbol_iff.1 hsymbol
    unfold Token.symbol? at hc
    split at hc
    · exact hsemi (hr.text_subset t hmem (List.mem_of_mem_head? hc))
    · cases hc
  subst hd hnil
  obtain ⟨t, hlast, hvalue⟩ := hspells.endsValue ho
  rw [hr.left_eq, hfilter, List.append_nil, Option.mem_def.1 hlast]
  exact hvalue

/-- Both fail, or both succeed with expressions in which nothing differs. -/
def ParseOutput.SameOutcome (o o' : ParseOutput) : Prop :=
  o.isSuccess = false ∧ o'.isSuccess = false ∨
    o.isSuccess = true ∧ o'.isSuccess = true ∧ ∃ e e', o.graph = some (.expression e) ∧ o'.graph = some (.expression e') ∧
      compareGraphs (.expression e) (.expression e') = []

theorem ParseOutput.isSuccess_unplaced {o o' : ParseOutput} (h : o.unplaced = o'.unplaced) : o.isSuccess = o'.isSuccess := by
  obtain ⟨hg, -, he, -⟩ := Unplaced.mk.inj h
  have hsome := congrArg Option.isSome hg
  have hempty := congrArg List.isEmpty he
  simp only [Option.isSome_map, List.isEmpty_map] at hsome hempty
  rw [isSuccess, isSuccess, hsome, hempty]

theorem sameOutcome_of_unplaced {source : String} {config : ParserConfig} {tokens tokens' : List Token}
    (ht : config.target = .expression) (hl : lex source config.dialect = .ok tokens)
    (h : (parse tokens config).unplaced = (parse tokens' config).unplaced) :
    (parse tokens config).SameOutcome (parse tokens' config) := by
  have hsuccess := ParseOutput.isSuccess_unplaced h
  cases hs : (parse tokens config).isSuccess with
  | false => exact .inl ⟨hs, hsuccess ▸ hs⟩
  | true =>
    obtain ⟨ts, loc, rfl, hlexed⟩ := lexed_of_lex hl
    obtain ⟨-, honce⟩ := endsOnce_ofList loc fun t ht => (hlexed t ht).isEof
    obtain ⟨e, -, -, hg, -⟩ := parse_whole ht honce hs
    have hgraph : (parse (ts ++ [Token.endAt loc]) config).graph.map Relabel.unplaced.graph =
        (parse tokens' config).graph.map Relabel.unplaced.graph := (ParseOutput.Unplaced.mk.inj h).1
    rw [hg, Option.map_some] at hgraph
    obtain ⟨g, hg', hrelabel⟩ := Option.map_eq_some_iff.1 hgraph.symm
    cases g with
    | expression e' =>
      have hexpr : Relabel.unplaced.expr e' = Relabel.unplaced.expr e := Graph.expression.inj hrelabel
      exact .inr ⟨hs, hsuccess ▸ hs, e, e', hg, hg', compareGraphs_relabel hl hg hg' _ hexpr.symm⟩
    | script | function => cases hrelabel

/-- The lexer and the parser agree on a percent sign behind an expression that does not end open: in front of a name,
the sign is read alike with a blank behind it and without one. -/
theorem remainder_spacing {source : String} {config : ParserConfig} {o : ParseOutput} {e : Expr} {n : Ident}
    (ht : config.target = .expression) (ho : parseSource source config = .ok o) (hs : o.isSuccess = true)
    (hg : o.graph = some (.expression e)) (hsemi : ';' ∉ source.toList) (hopen : e.endsOpen config.dialect.mode = false)
    (hn : n.IsWord config.dialect) :
    ∃ close apart, parseSource (source ++ " %" ++ n.name) config = .ok close ∧
      parseSource (source ++ " % " ++ n.name) config = .ok apart ∧ close.SameOutcome apart := by
  obtain ⟨tokens, hl, rfl⟩ := parseSource_ok ho
  obtain ⟨ts, loc, left, rfl, hr, -⟩ := Lexer.reads_of_tokens (x := Lexer.ofText source config.dialect) rfl hl
  have hr : Reads config.dialect false source.toList ts left [] := hr
  obtain rfl := left_of_parse ht rfl hr hs hg hsemi hopen
  obtain ⟨close, apart, hclose, hapart, hlike⟩ := lex_remainder hr hn
  have hparse {text : String} {tokens : List Token} (h : lex text config.dialect = .ok tokens) :
      parseSource text config = .ok (parse tokens config) := by
    rw [parseSource, h]
    rfl
  exact ⟨_, _, hparse hclose, hparse hapart, sameOutcome_of_unplaced ht hclose (unplaced_parse_like hapart hlike config)⟩

theorem remainder_spacing_literal :
    let config : ParserConfig := { target := .expression }
    let tokens : List Token := [⟨.identifier, "a", .start⟩, ⟨.symbol, ".", ⟨1, 2, 1⟩⟩, ⟨.identifier, "true", ⟨1, 3, 2⟩⟩,
      Token.endAt ⟨1, 7, 6⟩]
    let e : Expr := .member ⟨1, .start⟩ (.var ⟨0, .start⟩ ⟨"a", .start⟩) ⟨"true", ⟨1, 3, 2⟩⟩
    (parseSource "a.true" config = .ok (parse tokens config) ∧ (parse tokens config).isSuccess = true ∧
      (parse tokens config).graph = some (.expression e) ∧ e.endsOpen config.dialect.mode = false) ∧
      ∃ close apart, parseSource "a.true %n" config = .ok close ∧ parseSource "a.true % n" config = .ok apart ∧
        close.SameOutcome apart := by
  intro config tokens e
  have hl : lex "a.true" config.dialect = .ok tokens := by decide +kernel
  have ho : parseSource "a.true" config = .ok (parse tokens config) := congrArg (Except.map fun tokens => parse tokens config) hl
  have hs : (parse tokens config).isSuccess = true := by decide +kernel
  have hg : (parse tokens config).graph = some (.expression e) := by
    subst tokens config e
    rfl
  have hopen : e.endsOpen config.dialect.mode = false := by decide +kernel
  have hn : Ident.IsWord config.dialect ⟨"n", .start⟩ := by
    refine ⟨⟨.identifier, "n", .start⟩, rfl, ⟨rfl, by decide +kernel⟩, fun _ => ⟨'n', [], [], rfl, ?_⟩, (fun h => nomatch h), rfl⟩
    exact Scan.head_letters (by simp)
  have h := remainder_spacing rfl ho hs hg (by decide) hopen hn
  have hclose : "a.true" ++ " %" ++ (⟨"n", .start⟩ : Ident).name = "a.true %n" := by decide
  have hapart : "a.true" ++ " % " ++ (⟨"n", .start⟩ : Ident).name = "a.true % n" := by decide
  rw [hclose, hapart] at h
  exact ⟨⟨ho, hs, hg, hopen⟩, h⟩

theorem remainder_spacing_open :
    let succeeds (source : String) : Option Bool :=
      (parseSource source { target := .expression }).toOption.map ParseOutput.isSuccess
    (succeeds "a++" = some true ∧ succeeds "a++ %n" = some false ∧ succeeds "a++ % n" = some true) ∧
      succeeds "a.if" = some true ∧ succeeds "a.if %n" = some false ∧ succeeds "a.if % n" = some true := by
  intro succeeds
  refine ⟨⟨?_, ?_, ?_⟩, ?_, ?_, ?_⟩ <;> decide +kernel

end GameScript
