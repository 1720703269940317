import GameScript.Proofs.Laying

namespace GameScript

open Layout Scan

structure TextReads (d : Dialect) (text : String) (f : Bool → List Piece) : Prop where
  spaced : ∀ {apart : Bool} {rest : List Char} {ps : List Piece}, Clear d rest →
    (∀ afterValue, Spaced d afterValue false rest ps) → Spaced d false apart (text.toList ++ rest) (f apart ++ ps)

section Texts

variable {d : Dialect} {afterValue apart : Bool} {rest : List Char} {ps : List Piece}

theorem Expr.Readable.textReads {e : Expr} (h : e.Readable d false) : TextReads d e.text e.pieces :=
  ⟨h.spaced⟩

theorem Ident.IsWord.textReads {n : Ident} (h : n.IsWord d) : TextReads d n.name fun apart => [wordPiece apart n.name] :=
  ⟨h.spaced⟩

section Commas

variable {α : Type} {f : α → String} {g : Bool → α → List Piece} {as : List α}

theorem spaced_furtherCommas (h : ∀ a ∈ as, TextReads d (f a) (g · a)) (hc : Clear d rest)
    (hr : ∀ afterValue, Spaced d afterValue false rest ps) (afterValue : Bool) :
    Clear d (as.flatMap (fun a => ", ".toList ++ (f a).toList) ++ rest) ∧ Spaced d afterValue false
      (as.flatMap (fun a => ", ".toList ++ (f a).toList) ++ rest)
      (as.flatMap (fun a => symbolPiece false ',' :: g true a) ++ ps) := by
  induction as generalizing afterValue with
  | nil => exact ⟨hc, hr afterValue⟩
  | cons a as ih =>
    obtain ⟨ha, has⟩ := List.forall_mem_cons.1 h
    refine ⟨clear_symbol (by decide) (by decide), ?_⟩
    have hitem : Spaced d false true _ _ := ha.spaced (ih has false).1 fun afterValue => (ih has afterValue).2
    have hcomma : Spaced d afterValue false _ _ := .opening (.inr (.inr rfl)) hitem.space
    simpa using hcomma

theorem spaced_commas (h : ∀ a ∈ as, TextReads d (f a) (g · a)) (ha : as = [] → apart = false) (hc : Clear d rest)
    (hr : ∀ afterValue, Spaced d afterValue false rest ps) :
    Spaced d false apart ((commaList (as.map f)).toList ++ rest) (commaPieces g apart as ++ ps) := by
  cases as with
  | nil =>
    rw [ha rfl]
    simpa [commaList, commaPieces] using hr false
  | cons a as =>
    obtain ⟨ha, has⟩ := List.forall_mem_cons.1 h
    have hall : Spaced d false apart _ _ := ha.spaced (spaced_furtherCommas has hc hr false).1
      fun afterValue => (spaced_furtherCommas has hc hr afterValue).2
    rw [commaList, List.map_cons, intercalate_toList]
    simpa [commaPieces, List.flatMap_map] using hall

end Commas

theorem exprPieces_eq (apart : Bool) (es : List Expr) : exprPieces apart es = commaPieces Expr.pieces apart es := by
  have hfurther (es : List Expr) : furtherPieces es = es.flatMap fun e => symbolPiece false ',' :: e.pieces true := by
    induction es with
    | nil => rfl
    | cons e es ih => simp [furtherPieces, ih]
  cases es with
  | nil => rfl
  | cons e es => simp [exprPieces, commaPieces, hfurther]

theorem spaced_path {path : ModulePath} (hn : path ≠ []) (h : ∀ n ∈ path, n.IsWord d) (hc : Clear d rest)
    (hr : ∀ afterValue, Spaced d afterValue false rest ps) :
    Spaced d afterValue apart ((pathText path).toList ++ rest) (pathPieces apart path ++ ps) := by
  have hfurther {path : ModulePath} (h : ∀ n ∈ path, n.IsWord d) (afterValue : Bool) :
      Clear d (path.flatMap (fun n => "\\".toList ++ n.name.toList) ++ rest) ∧ Spaced d afterValue false
        (path.flatMap (fun n => "\\".toList ++ n.name.toList) ++ rest)
        (path.flatMap (fun n => [symbolPiece false '\\', wordPiece false n.name]) ++ ps) := by
    induction path generalizing afterValue with
    | nil => exact ⟨hc, hr afterValue⟩
    | cons n path ih =>
      obtain ⟨hn, hpath⟩ := List.forall_mem_cons.1 h
      refine ⟨clear_symbol (by decide) (by decide), ?_⟩
      have hback : Spaced d afterValue false _ _ := .plainSymbol (c := '\\') (by decide) (by simp [opens])
        (hn.spaced (ih hpath false).1 fun afterValue => (ih hpath afterValue).2)
      simpa using hback
  obtain ⟨n, path, rfl⟩ := List.exists_cons_of_ne_nil hn
  obtain ⟨hn, hpath⟩ := List.forall_mem_cons.1 h
  have hall : Spaced d afterValue apart _ _ := hn.spaced (hfurther hpath false).1
    fun afterValue => (hfurther hpath afterValue).2
  rw [pathText, List.map_cons, intercalate_toList]
  simpa [pathPieces, List.flatMap_map] using hall

theorem Ident.IsWord.first {n : Ident} (h : n.IsWord d) :
    ∃ c cs, n.name.toList = c :: cs ∧ c.isDigit = false ∧ c ≠ '\x22' := by
  obtain ⟨t, ht, hp, hl⟩ := h
  obtain ⟨c, cs, more, hc, hr⟩ := hl.readable (by simp [hp.kind])
  rw [hp.kind] at hr
  have hstart := (head_identifier hr).1
  refine ⟨c, cs, ht ▸ hc, isDigit_of_isWordStart hstart, ?_⟩
  rintro rfl
  have hquote : ('\x22' : Char).isAlpha = false := by decide
  simp [Dialect.isWordStart, Dialect.isUnknown, hquote] at hstart

theorem spaced_marks {cs : List Char} (hcs : ∀ c ∈ cs, c = '&' ∨ c = '?' ∨ c = '.')
    (hrest : ∀ x ∈ rest.head?, x.isDigit = false ∧ x ≠ '\x22') (hr : Spaced d false (apart && cs.isEmpty) rest ps) :
    Spaced d false apart (cs ++ rest) (symbolPieces apart cs ++ ps) := by
  induction cs generalizing apart with
  | nil => simpa [symbolPieces] using hr
  | cons c cs ih =>
    obtain ⟨hc, hcs⟩ := List.forall_mem_cons.1 hcs
    have hhead : ∀ x ∈ (cs ++ rest).head?, x.isDigit = false ∧ x ≠ '\x22' := by
      cases cs with
      | nil => exact hrest
      | cons c' cs =>
        obtain rfl | rfl | rfl := (List.forall_mem_cons.1 hcs).1 <;> simp
    have hmem : c ∈ symbolChars ∧ c ≠ '/' ∧ c ≠ '%' ∧ (c == ')' || c == ']') = false := by
      obtain rfl | rfl | rfl := hc <;> decide
    refine .symbol hmem.1 ?_ ?_
    · intro x hx
      obtain ⟨hdigit, hquote⟩ := hhead x hx
      simp [hmem.2.1, hmem.2.2.1, hdigit, hquote]
    · rw [hmem.2.2.2]
      exact ih hcs (by simpa using hr)

theorem Param.text_toList (p : Param) : p.text.toList = p.marks ++ ((p.name.map Ident.name).getD "").toList := by
  obtain ⟨loc, name, byRef, variadic, optional⟩ := p
  cases byRef <;> cases variadic <;> cases optional <;> simp [text, marks]

theorem Param.marks_chars (p : Param) : ∀ c ∈ p.marks, c = '&' ∨ c = '?' ∨ c = '.' := by
  obtain ⟨loc, name, byRef, variadic, optional⟩ := p
  cases byRef <;> cases variadic <;> cases optional <;> simp [marks]

theorem ParamsComposed.mem {params : List Param} (h : ParamsComposed d params) :
    ∀ p ∈ params, (∀ n ∈ p.name, n.IsWord d) ∧ (p.name = none → p.modifiers = { variadic := true }) := by
  induction h with
  | nil => simp
  | snoc _ hn hd _ ih => exact List.forall_mem_append.2 ⟨ih, List.forall_mem_singleton.2 ⟨hn, hd⟩⟩

theorem Param.textReads {p : Param} (hn : ∀ n ∈ p.name, n.IsWord d)
    (hd : p.name = none → p.modifiers = { variadic := true }) : TextReads d p.text p.pieces := by
  refine ⟨fun {apart rest ps} hc hr => ?_⟩
  rw [p.text_toList, List.append_assoc, Param.pieces, List.append_assoc]
  cases hname : p.name with
  | some n =>
    have hword := hn n hname
    obtain ⟨c, cs, hfirst, hdigit, hquote⟩ := hword.first
    refine spaced_marks p.marks_chars ?_ (hword.spaced hc hr)
    simpa [hfirst] using ⟨hdigit, hquote⟩
  | none =>
    have hmarks : p.marks = ['.', '.', '.'] := by simp [marks, hd hname]
    rw [hmarks]
    -- Only points stand in front, so a quote behind them is no part of them.
    have hlast : Spaced d false false ('.' :: rest) (symbolPiece false '.' :: ps) := by
      refine .symbol (by decide) ?_ (hr false)
      intro x hx
      have hdigit : x.isDigit = false :=
        Bool.eq_false_iff.2 fun h => by simpa [isWordChar_of_isDigit h] using (hc x hx).1
      simp [hdigit]
    have hpoint {apart : Bool} {rest : List Char} {ps : List Piece} (h : Spaced d false false ('.' :: rest) ps) :
        Spaced d false apart ('.' :: '.' :: rest) (symbolPiece apart '.' :: ps) :=
      .symbol (by decide) (by simp [Stops]) h
    exact hpoint (hpoint hlast)

end Texts

section Declarations

variable {config : ParserConfig} {cs : Constants} {declared afterValue : Bool} {d : Dialect} {width : Nat}
  {rest : List Char} {ps : List Piece}

def FunctionDef.headerPieces (f : FunctionDef) : List Piece :=
  wordPiece true f.name.name :: symbolPiece false '(' :: commaPieces Param.pieces false f.params ++ [symbolPiece false ')']

theorem FunctionDef.spaced_header {f : FunctionDef} (hn : f.name.IsWord d) (hp : ParamsComposed d f.params)
    (hr : Spaced d true false rest ps) :
    Spaced d afterValue true ((f.name.name ++ "(" ++ commaList (f.params.map Param.text) ++ ")").toList ++ rest)
      (f.headerPieces ++ ps) := by
  have hall : Spaced d afterValue true _ _ := hn.spaced (clear_symbol (by decide) (by decide)) fun _ =>
    .opening (.inl rfl) (spaced_commas (fun p hm => Param.textReads (hp.mem p hm).1 (hp.mem p hm).2) (fun _ => rfl)
      (clear_mark (.inr (.inr rfl))) fun _ => .closeParen hr)
  simpa [headerPieces] using hall

theorem FunctionDef.Composed.readsAs {f : FunctionDef} (h : f.Composed config cs declared) (style : BraceStyle) :
    ReadsAs config.dialect width false (functionLines style f) f.pieces := by
  obtain ⟨-, hn, hp, -, hs⟩ := h
  cases hb : f.body with
  | some b =>
    have hheader : Heading config.dialect true (f.name.name ++ "(" ++ commaList (f.params.map Param.text) ++ ")")
        f.headerPieces := ⟨fun hblank hr => spaced_header hn hp (.blank hblank hr)⟩
    have hstatements : ∀ s ∈ b.statements, s.Laid config.dialect style width false := by
      intro s hm
      exact (hs s (by simpa [FunctionDef.statements, hb] using hm)).laid style width
    have hall : ReadsAs config.dialect width false _ _ := hheader.braced 0 style (readsAs_group hstatements 1)
    simpa [functionLines, hb, pieces, FunctionDef.headerPieces] using hall
  | none =>
    have hall : ReadsAs config.dialect width false
        [⟨0, f.name.name ++ "(" ++ commaList (f.params.map Param.text) ++ ")" ++ ";"⟩]
        (f.headerPieces ++ [symbolPiece false ';']) := .ended (.inl rfl) fun hrest => spaced_header hn hp (hrest true)
    simpa [functionLines, hb, pieces, FunctionDef.headerPieces] using hall

theorem Spaced.hash (h : Spaced d false false rest ps) :
    Spaced d afterValue true ('#' :: rest) (symbolPiece true '#' :: ps) :=
  .plainSymbol (by decide) (by simp [opens]) h

theorem spaced_args {args : List Expr} {context : ExprContext} (h : ∀ e ∈ args, e.Composed config context)
    (hr : ∀ afterValue, Spaced config.dialect afterValue false (')' :: rest) ps) :
    Spaced config.dialect false false ((commaList (exprTexts args)).toList ++ ')' :: rest)
      (exprPieces false args ++ ps) := by
  rw [exprTexts_eq_map, exprPieces_eq]
  exact spaced_commas (fun e he => (h e he).readable.textReads) (fun _ => rfl) (clear_mark (.inr (.inr rfl))) hr

theorem readsAs_directive {node : Node} {kind : DirectiveKind}
    (h : kind.IsImport config.dialect ∨ kind.Composed config ∨ ∃ name, kind = .bare name ∧ name.IsWord config.dialect) :
    ReadsAs config.dialect width false [⟨0, (⟨node, kind⟩ : Directive).text⟩] kind.pieces := by
  have hbare {name : Ident} (hn : name.IsWord config.dialect) :
      ReadsAs config.dialect width false [⟨0, "#" ++ name.name ++ ";"⟩]
        ([symbolPiece true '#', wordPiece false name.name] ++ [symbolPiece false ';']) := by
    refine .ended (c := ';') (.inl rfl) fun {rest qs} hrest => ?_
    have hall : Spaced config.dialect false true _ _ := .hash (hn.spaced (clear_mark (.inl rfl)) hrest)
    simpa using hall
  obtain ⟨path, rfl, hne, hpath⟩ | h | ⟨name, rfl, hn⟩ := h
  · have hall : ReadsAs config.dialect width false [⟨0, "#include " ++ pathText path ++ ";"⟩]
        (symbolPiece true '#' :: wordPiece false "include" :: pathPieces true path ++ [symbolPiece false ';']) := by
      refine .ended (c := ';') (.inl rfl) fun {rest qs} hrest => ?_
      have hinclude : Token.Readable config.dialect false (wordPiece false "include").2 := readable_letters (by decide)
      have hword : Spaced config.dialect false false _ _ :=
        hinclude.spaced (by simp [wordPiece]) rfl (fun x hx => (clear_blank x hx).1)
          (.space (spaced_path hne hpath (clear_mark (.inl rfl)) hrest))
      have hall : Spaced config.dialect false true _ _ := .hash hword
      simpa [wordPiece] using hall
    exact hall
  · cases kind with
    | importScript => cases h
    | bare name => exact hbare h.1
    | withArgs name args =>
      obtain ⟨hn, -, hargs⟩ := h
      have hall : ReadsAs config.dialect width false
          [⟨0, "#" ++ name.name ++ "(" ++ commaList (exprTexts args) ++ ")" ++ ";"⟩]
          (symbolPiece true '#' :: wordPiece false name.name :: symbolPiece false '(' :: exprPieces false args ++
            [symbolPiece false ')'] ++ [symbolPiece false ';']) := by
        refine .ended (c := ';') (.inl rfl) fun {rest qs} hrest => ?_
        have hall : Spaced config.dialect false true _ _ :=
          .hash (hn.spaced (clear_symbol (by decide) (by decide)) fun _ =>
            .opening (.inl rfl) (spaced_args hargs fun _ => .closeParen (hrest true)))
        simpa using hall
      simpa [Directive.text, DirectiveKind.pieces, String.append_assoc] using hall
  · exact hbare hn

theorem readsAs_declaration {x : Declaration}
    (h : x.Composed config cs declared ∨ x.IsMark config.dialect) (style : BraceStyle) :
    ReadsAs config.dialect width false (declarationItem style x).lines x.pieces := by
  obtain h | ⟨node, name, rfl, hn, -⟩ := h
  · cases x with
    | function f =>
      obtain ⟨before, -, hf⟩ := h
      exact hf.readsAs style
    | directive d => exact readsAs_directive (.inr (.inl h))
  · exact readsAs_directive (.inr (.inr ⟨name, rfl, hn⟩))

theorem readsAs_globals {globals : List Ident} (h : ∀ n ∈ globals, n.IsWord d) (hn : globals ≠ []) :
    ReadsAs d width false [⟨0, "global " ++ commaList (globals.map Ident.name) ++ ";"⟩] (globalPieces globals) := by
  have hall : ReadsAs d width false [⟨0, "global " ++ commaList (globals.map Ident.name) ++ ";"⟩]
      (keywordPiece true .globalKw :: commaPieces (fun apart n => [wordPiece apart n.name]) true globals ++
        [symbolPiece false ';']) := by
    refine .ended (c := ';') (.inl rfl) fun {rest qs} hrest => ?_
    have hall : Spaced d false true _ _ := .keywordBlank (k := .globalKw) (Keyword.leads (by decide))
      (spaced_commas (fun n hm => (h n hm).textReads) (fun he => absurd he hn) (clear_mark (.inl rfl)) hrest)
    simpa [Keyword.spelling] using hall
  simpa [globalPieces, hn] using hall

theorem readsAs_constant {c : ConstantDecl} (hn : c.name.IsWord d) (he : c.value.Readable d false) :
    ReadsAs d width false (constantItem c).lines c.pieces := by
  have hall : ReadsAs d width false [⟨0, "const " ++ c.name.name ++ " = " ++ c.value.text ++ ";"⟩]
      (keywordPiece true .constKw :: wordPiece true c.name.name :: symbolPiece true '=' :: c.value.pieces true ++
        [symbolPiece false ';']) := by
    refine .ended (c := ';') (.inl rfl) fun {rest qs} hrest => ?_
    have hall : Spaced d false true _ _ := .keywordBlank (k := .constKw) (Keyword.leads (by decide))
      (hn.spaced clear_blank fun _ => .space (.plainSymbol (c := '=') (by decide) (by simp [opens])
        (.space (he.spaced (clear_mark (.inl rfl)) hrest))))
    simpa [Keyword.spelling] using hall
  exact hall

theorem ConstantsComposed.mem {constants : List ConstantDecl} (h : ConstantsComposed config constants) :
    ∀ c ∈ constants, c.name.IsWord config.dialect ∧ c.value.Readable config.dialect false := by
  induction h with
  | nil => simp
  | snoc _ hn _ he _ ih =>
    exact List.forall_mem_append.2 ⟨ih, List.forall_mem_singleton.2 ⟨hn, he.readable.noteRead _⟩⟩

theorem readsAs_blankLines (n : Nat) : ReadsAs d width false (List.replicate n ⟨0, ""⟩) [] := by
  induction n with
  | zero => exact .nil
  | succ n ih => exact ⟨fun hr => .line (.newline (ih.spaced hr))⟩

theorem readsAs_separated {between : Nat} {items : List Item} {pss : List (List Piece)}
    (h : List.Forall₂ (fun item ps => ReadsAs d width false item.lines ps) items pss) :
    ReadsAs d width false (separated between items) pss.flatten := by
  induction h with
  | nil => exact .nil
  | @cons item ps items pss hitem hitems ih =>
    cases hitems with
    | nil => simpa [separated] using hitem
    | cons =>
      have hblank (n : Nat) : ReadsAs d width false (List.replicate n ⟨0, ""⟩) [] := readsAs_blankLines n
      simpa [separated] using (hitem.append (hblank _)).append ih

theorem forall₂_map {α : Type} {f : α → Item} {g : α → List Piece} {as : List α}
    (h : ∀ a ∈ as, ReadsAs d width false (f a).lines (g a)) :
    List.Forall₂ (fun item ps => ReadsAs d width false item.lines ps) (as.map f) (as.map g) := by
  induction as with
  | nil => exact .nil
  | cons a as ih =>
    obtain ⟨ha, has⟩ := List.forall_mem_cons.1 h
    exact .cons ha (ih has)

theorem Script.Composed.readsAs {s : Script} (h : s.Composed config) (between : Nat) (style : BraceStyle) :
    ReadsAs config.dialect width false (separated between (items style s)) s.pieces := by
  obtain ⟨marks, ds, hds, hmarks, hdeclarations⟩ := h.declarations
  have hdecl : ∀ x ∈ s.declarations,
      x.Composed config (foldedConstants s.constants) s.declarative ∨ x.IsMark config.dialect := by
    rw [hds]
    refine List.forall_mem_append.2 ⟨?_, fun x hx => .inl (hdeclarations x hx)⟩
    obtain ⟨-, rfl⟩ | ⟨-, mark, hmark, rfl⟩ := hmarks
    · simp
    · exact List.forall_mem_singleton.2 (.inr hmark)
  have hglobals : List.Forall₂ (fun item ps => ReadsAs config.dialect width false item.lines ps)
      (globalItems s.globals) (if s.globals.isEmpty then [] else [globalPieces s.globals]) := by
    unfold globalItems
    split
    · exact .nil
    · next hn => exact .cons (readsAs_globals h.globals (by simpa using hn)) .nil
  have hitems : List.Forall₂ (fun item ps => ReadsAs config.dialect width false item.lines ps) (items style s)
      ((s.declarations.take (leading s)).map Declaration.pieces ++ s.imports.map (fun d => d.kind.pieces) ++
        (if s.globals.isEmpty then [] else [globalPieces s.globals]) ++ s.constants.map ConstantDecl.pieces ++
        (s.declarations.drop (leading s)).map Declaration.pieces) := by
    refine List.rel_append (List.rel_append (List.rel_append (List.rel_append ?_ ?_) hglobals) ?_) ?_
    · exact forall₂_map fun x hx => readsAs_declaration (hdecl x (List.mem_of_mem_take hx)) style
    · exact forall₂_map fun d hd => readsAs_directive (.inl (h.imports d hd))
    · exact forall₂_map fun c hc => readsAs_constant (h.constants.mem c hc).1 (h.constants.mem c hc).2
    · exact forall₂_map fun x hx => readsAs_declaration (hdecl x (List.mem_of_mem_drop hx)) style
  have hflat : (if s.globals.isEmpty then [] else [globalPieces s.globals]).flatten = globalPieces s.globals := by
    unfold globalPieces
    split <;> simp
  have hall : ReadsAs config.dialect width false (separated between (items style s)) _ := readsAs_separated hitems
  simpa only [Script.pieces, List.flatten_append, ← List.flatMap_def, hflat] using hall

end Declarations

theorem Graph.Composed.spaced {config : ParserConfig} {g : Graph} (h : g.Composed config)
    (ht : ∀ e, g ≠ .expression e) (layout : FormatConfig) :
    Spaced config.dialect false true (formatGraph layout g).toList g.pieces := by
  have hlines {lines : List Line} {ps : List Piece} (hl : ReadsAs config.dialect layout.indentWidth false lines ps) :
      Spaced config.dialect false true (linesChars layout.indentWidth lines) ps := by
    have hall : Spaced config.dialect false true (linesChars layout.indentWidth lines ++ []) (ps ++ []) := hl.spaced .nil
    simpa using hall
  have htext : (formatGraph layout g).toList = linesChars layout.indentWidth (graphLines layout g) := by
    rw [formatGraph, String.toList_join, List.flatMap_map, linesChars]
  rw [htext]
  cases g with
  | script s => exact hlines (Script.Composed.readsAs h _ _)
  | function f => exact hlines (FunctionDef.Composed.readsAs h _)
  | expression e => exact absurd rfl (ht e)

end GameScript
