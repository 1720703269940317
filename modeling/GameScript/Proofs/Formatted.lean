import GameScript.Proofs.Accepted
import GameScript.Proofs.Headed
import GameScript.Proofs.Printing
import GameScript.Proofs.Unlabelled

namespace GameScript

def FunctionDef.Legible (f : FunctionDef) : Prop :=
  (∃ allow cs, ∀ stmt ∈ f.statements, stmt.Built allow cs []) ∧
    ∀ stmt ∈ f.statements, (View.stmt stmt).Stmts Stmt.Matched

namespace Session

variable {b s : Session} {script S : Script} {ps : List Piece}

theorem Rooted.imports {ds : List Directive} (hb : b.Vacant) (ht : b.config.target ≠ .function)
    (hd : ∀ d ∈ ds, d.kind.IsImport b.config.dialect) (hs : Relabel.blank.script script = Relabel.blank.script S)
    (h : b.Rooted s .idle script (ds.flatMap (fun d => d.kind.pieces) ++ ps)) :
    b.Settles s ps { S with imports := S.imports ++ ds } := by
  induction ds generalizing s script S with
  | nil => exact h.settles (by simpa using hs)
  | cons d ds ih =>
    obtain ⟨⟨path, hkind, hne, hpath⟩, hds⟩ := List.forall_mem_cons.1 hd
    obtain ⟨node, kind⟩ := d
    obtain rfl : kind = .importScript path := hkind
    rw [List.flatMap_cons, List.append_assoc] at h
    refine (h.importDirective node hb ht hne hpath hs).trans fun s' script' hs' h' => ?_
    simpa using ih hds hs' h'

theorem Rooted.constants {cs : List ConstantDecl} (hb : b.Vacant) (ht : b.config.target ≠ .function)
    (hc : ConstantsComposed b.config cs) (ha : ∀ c ∈ cs, (View.expr c.value).Exprs Expr.NotArray)
    (hnone : S.constants = []) (hs : Relabel.blank.script script = Relabel.blank.script S)
    (h : b.Rooted s .idle script (cs.flatMap ConstantDecl.pieces ++ ps)) :
    b.Settles s ps { S with constants := cs } := by
  induction hc generalizing ps with
  | nil => exact h.settles (by rw [hs, ← hnone])
  | snoc _ hn hd he hv ih =>
    obtain ⟨hold, hnew⟩ := List.forall_mem_append.1 ha
    rw [List.flatMap_append, List.append_assoc, List.flatMap_singleton] at h
    refine (ih hold h).trans fun s' script' hs' h' => ?_
    have htold : Expr.Told b.config .constValue _ :=
      ⟨he, Expr.setsApart_of_notArray (Fold.exprs_of_noteRead (hnew _ List.mem_cons_self))⟩
    exact Rooted.constant (S := { S with constants := _ }) hb ht hn hd htold hv hs' h'

theorem Rooted.declaration {d : Declaration} (hb : b.Vacant) (ht : b.config.target = .script)
    (hd : d.Composed b.config (foldedConstants S.constants) S.declarative) (ha : d.view.Exprs Expr.NotArray)
    (hf : ∀ f, d = .function f → f.Legible ∧ S.findFunction? f.name.name = none)
    (hs : Relabel.blank.script script = Relabel.blank.script S) (h : b.Rooted s .idle script (d.pieces ++ ps)) :
    b.Settles s ps { S with declarations := S.declarations ++ [d] } := by
  have ht' : b.config.target ≠ .function := by simp [ht]
  cases d with
  | function f =>
    obtain ⟨before, hbefore, hcomposed⟩ := hd
    obtain ⟨⟨⟨allow, cs, hbuilt⟩, hmatched⟩, hnew⟩ := hf f rfl
    exact h.function hb ht hcomposed hbefore hbuilt hmatched (View.exprs_function.1 ha) hnew hs
  | directive d =>
    obtain ⟨node, kind⟩ := d
    cases kind with
    | importScript => cases hd
    | bare name => exact Rooted.bareDirective hb ht' hd.1 hd.2 hs h
    | withArgs name args =>
      obtain ⟨hn, hi, hargs⟩ := hd
      refine Rooted.argsDirective hb ht' hn hi (fun e he => ⟨hargs e he, ?_⟩) hs h
      exact Expr.setsApart_of_notArray (View.exprs_directive.1 ha e he)

theorem findFunction?_none {f : FunctionDef} {ds : List Declaration}
    (h : Script.functions { S with declarations := S.declarations ++ .function f :: ds } |>.Pairwise
      fun f g => f.name.same g.name = false) : S.findFunction? f.name.name = none := by
  refine List.find?_eq_none.2 fun g hg => ?_
  simp only [Script.functions, List.filterMap_append, List.pairwise_append] at h
  have hsame := h.2.2 g hg f (by simp)
  simpa [Ident.same] using hsame

theorem Rooted.declarations {ds : List Declaration} (hb : b.Vacant) (ht : b.config.target = .script)
    (hd : ∀ d ∈ ds, d.Composed b.config (foldedConstants S.constants) S.declarative)
    (ha : ∀ d ∈ ds, d.view.Exprs Expr.NotArray) (hl : ∀ f, .function f ∈ ds → f.Legible)
    (hf : Script.functions { S with declarations := S.declarations ++ ds } |>.Pairwise
      fun f g => f.name.same g.name = false)
    (hs : Relabel.blank.script script = Relabel.blank.script S)
    (h : b.Rooted s .idle script (ds.flatMap Declaration.pieces ++ ps)) :
    b.Settles s ps { S with declarations := S.declarations ++ ds } := by
  induction ds generalizing s script S with
  | nil => exact h.settles (by simpa using hs)
  | cons d ds ih =>
    obtain ⟨hfirst, hds⟩ := List.forall_mem_cons.1 hd
    obtain ⟨hplain, hplains⟩ := List.forall_mem_cons.1 ha
    rw [List.flatMap_cons, List.append_assoc] at h
    have hone : b.Settles s (ds.flatMap Declaration.pieces ++ ps) { S with declarations := S.declarations ++ [d] } := by
      refine h.declaration hb ht hfirst hplain (fun f hdf => ?_) hs
      subst hdf
      exact ⟨hl f List.mem_cons_self, findFunction?_none hf⟩
    refine hone.trans fun s' script' hs' h' => ?_
    have hrest := ih (S := { S with declarations := S.declarations ++ [d] }) hds hplains
      (fun f hm => hl f (List.mem_cons_of_mem _ hm)) (by simpa using hf) hs' h'
    simpa using hrest

end Session

theorem Layout.leading_of_marks {config : ParserConfig} {s : Script} {marks ds : List Declaration}
    (hd : s.declarations = marks ++ ds)
    (hm : s.declarative = false ∧ marks = [] ∨
      s.declarative = true ∧ ∃ mark : Declaration, mark.IsMark config.dialect ∧ marks = [mark]) :
    Layout.leading s = marks.length := by
  obtain ⟨hs, rfl⟩ | ⟨hs, mark, ⟨node, name, rfl, -⟩, rfl⟩ := hm
  · unfold Layout.leading
    split <;> simp [hs]
  · simp [Layout.leading, hd, hs]

namespace Session

variable {b s : Session} {ps : List Piece}

theorem Rooted.script {script : Script} (hb : b.Vacant) (ht : b.config.target = .script)
    (hc : script.Composed b.config) (ha : (View.script script).Exprs Expr.NotArray)
    (hl : ∀ f ∈ script.functions, f.Legible) (h : b.Rooted s .idle {} (script.pieces ++ ps)) :
    b.Settles s ps script := by
  have ht' : b.config.target ≠ .function := by simp [ht]
  obtain ⟨imports, declarations, constants, globals, declarative⟩ := script
  obtain ⟨himports, hglobals, hconstants, ⟨marks, ds, hdeclarations, hmarks, hds⟩, hfunctions⟩ := hc
  have hleading := Layout.leading_of_marks hdeclarations hmarks
  obtain rfl : declarations = marks ++ ds := hdeclarations
  rw [View.exprs_script] at ha
  simp only [View.children, List.mem_append, List.mem_map] at ha
  simp only [Script.pieces, hleading, List.take_left, List.drop_left, List.append_assoc] at h
  -- The layout has the mark first, then imports, globals and constants, and the other declarations last.
  have hmark : b.Settles s (imports.flatMap (fun d => d.kind.pieces) ++ (globalPieces globals ++
      (constants.flatMap ConstantDecl.pieces ++ (ds.flatMap Declaration.pieces ++ ps))))
      { declarations := marks, declarative := declarative } := by
    obtain ⟨hs, rfl⟩ | ⟨hs, mark, ⟨node, name, rfl, hn, hname⟩, rfl⟩ := hmarks
    · obtain rfl : declarative = false := hs
      exact h.settles rfl
    · obtain rfl : declarative = true := hs
      exact Rooted.mark hb ht' hn hname rfl h
  refine hmark.trans fun s₁ script₁ hs₁ h₁ => ?_
  refine (h₁.imports hb ht' himports hs₁).trans fun s₂ script₂ hs₂ h₂ => ?_
  refine (h₂.globals hb ht' hglobals hs₂).trans fun s₃ script₃ hs₃ h₃ => ?_
  refine (h₃.constants hb ht' hconstants ?_ rfl hs₃).trans fun s₄ script₄ hs₄ h₄ => ?_
  · intro c hm
    exact View.exprs_constant.1 (ha _ (by grind))
  · refine Rooted.declarations (S := ⟨imports, marks, constants, globals, declarative⟩) hb ht hds ?_ ?_ hfunctions hs₄ h₄
    · intro d hm
      exact ha _ (by grind)
    · intro f hm
      exact hl f (List.mem_filterMap.2 ⟨_, List.mem_append_right _ hm, rfl⟩)

theorem vacant_ofTokens (toks : List Token) {config : ParserConfig} (ht : config.target ≠ .expression) :
    (ofTokens toks config).Vacant :=
  ⟨⟨by rw [isFinished, mode_ofTokens toks ht]; rfl, rfl⟩, rfl, rfl, rfl⟩

theorem rooted_ofTokens {toks : List Token} {config : ParserConfig} {apart : Bool} (ht : config.target ≠ .expression)
    (h : Shown apart (TokenStream.closed toks) ps) :
    (ofTokens toks config).Rooted (ofTokens toks config) .idle {} ps := by
  refine ⟨?_, closed_ofList toks, apart, ?_⟩
  · rw [← mode_ofTokens toks ht]
    rfl
  · exact h

theorem Reaches.parse_eq {toks : List Token} {config : ParserConfig} {g : Graph} (h : (ofTokens toks config).Reaches s)
    (hm : s.mode = .done) (hh : s.halted = false) (ho : s.output = some g) (hf : s.failed = #[]) :
    (parse toks config).isSuccess = true ∧ (parse toks config).graph = some g := by
  have hfin : s.isFinished = true := by simp [isFinished, hm]
  simp [parse, finish, h.run_eq hfin, hfin, hh, ho, hf, errors, ParseOutput.isSuccess]

theorem Rooted.end {script : Script} {apart : Bool} (hb : b.Vacant)
    (h : b.Rooted s .idle script [(apart, Token.endAt .zero)]) :
    ∃ s' t, t.isEof = true ∧ b.Facing s' .idle script t [] ∧ s.Reaches (s'.rootIdle t) := by
  obtain ⟨t, s', hsame, hfacing, hreach⟩ := h.meets hb
  refine ⟨s', t, hsame.isEof, hfacing, ?_⟩
  have hidle : s'.rootToken .idle t = s'.rootIdle t := by simp [rootToken, hfacing.inRoot_eq, isIdle]
  rwa [hidle] at hreach

theorem Settles.finish {toks : List Token} {config : ParserConfig} {script : Script} {apart : Bool}
    (ht : config.target = .script)
    (h : (ofTokens toks config).Settles (ofTokens toks config) [(apart, Token.endAt .zero)] script) :
    ∃ script', (parse toks config).isSuccess = true ∧ (parse toks config).graph = some (.script script') ∧
      Relabel.blank.script script' = Relabel.blank.script script := by
  obtain ⟨s, script', hreach, hrooted, halike⟩ := h
  obtain ⟨s', t, heof, hfacing, hreach'⟩ := hrooted.end (vacant_ofTokens toks (by simp [ht]))
  have htarget : s'.config.target = .script := hfacing.config_eq ▸ ht
  have hend : s'.rootIdle t = { s' with script := {}, output := some (.script script'), mode := .done } := by
    simp [rootIdle, htarget, heof, hfacing.script_eq]
  rw [hend] at hreach'
  obtain ⟨hok, hg⟩ := (hreach.trans hreach').parse_eq rfl (by rw [hfacing.same]; rfl) rfl (by rw [hfacing.same]; rfl)
  exact ⟨script', hok, hg, halike⟩

theorem Facing.finish {toks : List Token} {config : ParserConfig} {f : FunctionDef} {t : Token} {apart : Bool}
    (ht : config.target = .function) (h : (ofTokens toks config).Facing s .idle {} t [(apart, Token.endAt .zero)])
    (hreach : (ofTokens toks config).Reaches (s.defineFunction f)) :
    (parse toks config).isSuccess = true ∧ (parse toks config).graph = some (.function f) := by
  have htarget : s.config.target = .function := h.config_eq ▸ ht
  have hdefine : s.defineFunction f = { s with output := some (.function f) } := by simp [defineFunction, htarget]
  rw [hdefine] at hreach
  have hstate : s.halted = false ∧ s.recovery = none ∧ s.expr = none ∧ s.failed = #[] := by
    rw [h.same]
    exact ⟨rfl, rfl, rfl, rfl⟩
  obtain ⟨hh, hr, hx, hf⟩ := hstate
  obtain ⟨u, stream, hsame, -, hreach'⟩ := reaches_dispatch (s := { s with output := some (.function f) })
    (by simp [isFinished, hh, h.mode_eq]) h.delivers.closed h.delivers.shows
  have heof : u.isEof = true := hsame.isEof
  have hend : { s with output := some (.function f), stream := stream }.dispatch u =
      { s with output := some (.function f), stream := stream, mode := .done } := by
    simp [dispatch, hr, hx, h.mode_eq, rootToken, inRoot, isIdle, rootIdle, htarget, functionTarget, heof]
  rw [hend] at hreach'
  exact (hreach.trans hreach').parse_eq rfl hh rfl hf

end Session

theorem Graph.Composed.parse_format {config : ParserConfig} {g : Graph} (h : g.Composed config)
    (ht : config.target ≠ .expression) (hg : g.target = config.target) (ha : g.view.Exprs Expr.NotArray)
    (hl : ∀ f ∈ g.functions, f.Legible) (layout : FormatConfig) :
    ∃ toks g', lex (formatGraph layout g) config.dialect = .ok toks ∧ (parse toks config).isSuccess = true ∧
      (parse toks config).graph = some g' ∧ Relabel.blank.graph g' = Relabel.blank.graph g := by
  have hne : ∀ e, g ≠ .expression e := by
    rintro e rfl
    exact ht hg.symm
  obtain ⟨toks, last, hok, hshown⟩ := (h.spaced hne layout).shows
  have hb := Session.vacant_ofTokens toks ht
  have hrooted := Session.rooted_ofTokens ht hshown
  cases g with
  | expression e => exact absurd rfl (hne e)
  | script script =>
    obtain ⟨script', hsuccess, hgraph, halike⟩ :=
      (Session.Rooted.script hb hg.symm h ha hl hrooted).finish hg.symm
    exact ⟨toks, _, hok, hsuccess, hgraph, by rw [Relabel.graph, halike, Relabel.graph]⟩
  | function f =>
    obtain ⟨⟨allow, cs, hbuilt⟩, hmatched⟩ := hl f List.mem_cons_self
    obtain ⟨s, t, f', hfacing, hreach, halike⟩ := Session.Rooted.define hb h rfl (.refl _) hbuilt hmatched
      (View.exprs_function.1 ha) hrooted
    obtain ⟨hsuccess, hgraph⟩ := hfacing.finish hg.symm hreach
    exact ⟨toks, _, hok, hsuccess, hgraph, by rw [Relabel.graph, halike, Relabel.graph]⟩

theorem parse_target {tokens : List Token} {config : ParserConfig} {g : Graph}
    (hs : (parse tokens config).isSuccess = true) (hg : (parse tokens config).graph = some g) :
    g.target = config.target := by
  obtain ⟨g', hg', ho, -, -, hf⟩ := parse_finished hs
  obtain rfl : g' = g := Option.some.inj (hg'.symm.trans hg)
  obtain ⟨-, -, hc, hon⟩ := (Session.sound_ofTokens tokens config).steps_quiet rfl
    (Session.onTarget_ofTokens tokens config) (Session.ofTokens tokens config).stepBound hf
  have htarget := hon.output g' ho
  rwa [hc] at htarget

theorem parse_legible {tokens : List Token} {config : ParserConfig} {g : Graph}
    (hg : (parse tokens config).graph = some g) : ∀ f ∈ g.functions, f.Legible := by
  intro f hf
  have hmatched := (Session.run_matched tokens config).functions.output g (Session.finish_graph hg) f hf
  exact ⟨⟨_, _, (parse_built hg f hf).statements⟩, hmatched⟩

/-- What is accepted as a script or a function, and has no array in it, is accepted again when it has been
formatted in any style. The tree is the same up to numbers and locations, and its layout is the same text. -/
theorem parse_formatted {source : String} {layout : FormatConfig} {o : ParseOutput} {g : Graph}
    (ht : layout.parser.target ≠ .expression) (h : parseSource source layout.parser = .ok o)
    (hs : o.isSuccess = true) (hg : o.graph = some g) (ha : g.view.Exprs Expr.NotArray) :
    ∃ o' g', parseSource (formatGraph layout g) layout.parser = .ok o' ∧ o'.isSuccess = true ∧ o'.graph = some g' ∧
      Relabel.blank.graph g' = Relabel.blank.graph g ∧ formatGraph layout g' = formatGraph layout g := by
  obtain ⟨tokens, hl, rfl⟩ := parseSource_ok h
  obtain ⟨toks, g', hl', hs', hg', halike⟩ :=
    (parse_inOrder ht hl hs hg).parse_format ht (parse_target hs hg) ha (parse_legible hg) layout
  refine ⟨_, g', by rw [parseSource, hl', Except.map], hs', hg', halike, ?_⟩
  rw [← Relabel.formatGraph_graph (r := Relabel.blank), halike, Relabel.formatGraph_graph]

theorem parse_formatted_else :
    let source := "f(a)\x7bif(a)b();else;\x7d#include x\\y;"
    let tokens : List Token := [⟨.identifier, "f", .start⟩, ⟨.symbol, "(", ⟨1, 2, 1⟩⟩, ⟨.identifier, "a", ⟨1, 3, 2⟩⟩,
      ⟨.symbol, ")", ⟨1, 4, 3⟩⟩, ⟨.symbol, "\x7b", ⟨1, 5, 4⟩⟩, ⟨.identifier, "if", ⟨1, 6, 5⟩⟩, ⟨.symbol, "(", ⟨1, 8, 7⟩⟩,
      ⟨.identifier, "a", ⟨1, 9, 8⟩⟩, ⟨.symbol, ")", ⟨1, 10, 9⟩⟩, ⟨.identifier, "b", ⟨1, 11, 10⟩⟩,
      ⟨.symbol, "(", ⟨1, 12, 11⟩⟩, ⟨.symbol, ")", ⟨1, 13, 12⟩⟩, ⟨.symbol, ";", ⟨1, 14, 13⟩⟩,
      ⟨.identifier, "else", ⟨1, 15, 14⟩⟩, ⟨.symbol, ";", ⟨1, 19, 18⟩⟩, ⟨.symbol, "\x7d", ⟨1, 20, 19⟩⟩,
      ⟨.symbol, "#", ⟨1, 21, 20⟩⟩, ⟨.identifier, "include", ⟨1, 22, 21⟩⟩, ⟨.whitespace, " ", ⟨1, 29, 28⟩⟩,
      ⟨.identifier, "x", ⟨1, 30, 29⟩⟩, ⟨.symbol, "\\", ⟨1, 31, 30⟩⟩, ⟨.identifier, "y", ⟨1, 32, 31⟩⟩,
      ⟨.symbol, ";", ⟨1, 33, 32⟩⟩, Token.endAt ⟨1, 34, 33⟩]
    let branch : Stmt := .ifElse ⟨2, ⟨1, 6, 5⟩⟩ (.var ⟨3, ⟨1, 9, 8⟩⟩ ⟨"a", ⟨1, 9, 8⟩⟩)
      (.expr ⟨6, ⟨1, 11, 10⟩⟩ (.call ⟨5, ⟨1, 11, 10⟩⟩ none none ⟨⟨"b", ⟨1, 11, 10⟩⟩, .unqualified⟩ []))
      (.block ⟨7, ⟨1, 19, 18⟩⟩ [])
    let f : FunctionDef := ⟨⟨0, .start⟩, ⟨"f", .start⟩, [⟨⟨1, 3, 2⟩, some ⟨"a", ⟨1, 3, 2⟩⟩, {}⟩],
      some ⟨⟨1, ⟨1, 5, 4⟩⟩, [branch]⟩, false, 1⟩
    let g : Graph := .script {
      imports := [⟨⟨8, ⟨1, 21, 20⟩⟩, .importScript [⟨"x", ⟨1, 30, 29⟩⟩, ⟨"y", ⟨1, 32, 31⟩⟩]⟩],
      declarations := [.function f] }
    let text := "#include x\\y;\n\nf(a)\n\x7b\n    if (a)\n        b();\n    else\n    \x7b\n    \x7d\n\x7d\n"
    let o := parse tokens {}
    parseSource source {} = .ok o ∧ o.isSuccess = true ∧ o.graph = some g ∧ formatGraph {} g = text ∧
      ∃ o' g', parseSource text {} = .ok o' ∧ o'.isSuccess = true ∧ o'.graph = some g' ∧
        Relabel.blank.graph g' = Relabel.blank.graph g ∧ formatGraph {} g' = text := by
  intro source tokens branch f g text o
  have hl : lex source ({} : ParserConfig).dialect = .ok tokens := by decide +kernel
  have hok : parseSource source {} = .ok o := by rw [parseSource, hl, Except.map]
  have hs : o.isSuccess = true := by decide +kernel
  have hg : o.graph = some g := by
    subst o g f branch tokens
    rfl
  have htext : formatGraph {} g = text := by decide +kernel
  have ha : g.view.Exprs Expr.NotArray := by
    have hleaf {e : Expr} (he : e.children = []) (hn : e.NotArray) : (View.expr e).Exprs Expr.NotArray :=
      View.exprs_node.2 ⟨hn, by simp [he]⟩
    have hbranch : (View.stmt branch).Exprs Expr.NotArray := by
      refine View.exprs_stmt.2 (List.forall_mem_cons.2 ⟨hleaf rfl (by simp [Expr.NotArray]),
        List.forall_mem_cons.2 ⟨?_, List.forall_mem_singleton.2 ?_⟩⟩)
      · exact View.exprs_stmt.2 (List.forall_mem_singleton.2 (hleaf rfl (by simp [Expr.NotArray])))
      · exact View.exprs_stmt.2 (by simp [Stmt.children])
    refine View.exprs_script.2 (List.forall_mem_cons.2 ⟨View.exprs_directive.2 (by simp [DirectiveKind.args]),
      List.forall_mem_singleton.2 ?_⟩)
    exact View.exprs_function.2 (List.forall_mem_singleton.2 hbranch)
  have hagain : ∃ o' g', parseSource (formatGraph {} g) {} = .ok o' ∧ o'.isSuccess = true ∧ o'.graph = some g' ∧
      Relabel.blank.graph g' = Relabel.blank.graph g ∧ formatGraph {} g' = formatGraph {} g :=
    parse_formatted (by decide) hok hs hg ha
  rw [htext] at hagain
  exact ⟨hok, hs, hg, htext, hagain⟩

end GameScript
