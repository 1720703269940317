import GameScript.Proofs.Everywhere
import GameScript.Proofs.Formatted
import GameScript.Proofs.WellFormed

namespace GameScript

section Constants

variable {cs ds : List ConstantDecl} {name : String} {v : Value}

theorem exists_of_lookup? (h : (foldedConstants cs).lookup? name = some v) :
    ∃ c ∈ cs, lowerWord c.name.name = lowerWord name ∧ c.folded = some v := by
  obtain ⟨entry, hfind, rfl⟩ := Option.map_eq_some_iff.1 h
  have hname : entry.1 = lowerWord name := by simpa using List.find?_some hfind
  obtain ⟨c, hc, hentry⟩ := List.mem_filterMap.1 (List.mem_reverse.1 (List.mem_of_find?_eq_some hfind))
  obtain ⟨u, hu, rfl⟩ := Option.map_eq_some_iff.1 hentry
  exact ⟨c, hc, hname, hu⟩

theorem lookup?_of_mem {c : ConstantDecl} (hcs : cs.Pairwise fun c d => c.name.same d.name = false) (hc : c ∈ cs)
    (hname : lowerWord c.name.name = lowerWord name) (hv : c.folded = some v) :
    (foldedConstants cs).lookup? name = some v := by
  cases hlookup : (foldedConstants cs).lookup? name with
  | none =>
    have hmem : (lowerWord c.name.name, v) ∈ foldedConstants cs :=
      List.mem_reverse.2 (List.mem_filterMap.2 ⟨c, hc, by rw [hv]; rfl⟩)
    rw [Constants.lookup?, Option.map_eq_none_iff, List.find?_eq_none] at hlookup
    exact absurd (beq_iff_eq.2 hname) (hlookup _ hmem)
  | some u =>
    obtain ⟨d, hd, hname', hu⟩ := exists_of_lookup? hlookup
    -- Only another constant of this name could be found in its place.
    obtain rfl : c = d := by
      by_contra hne
      have hsymm : Std.Symm fun c d : ConstantDecl => c.name.same d.name = false :=
        ⟨fun a b h => by rwa [Ident.same, sameWord_comm]⟩
      have hdistinct : c.name.same d.name = false := hcs.forall hc hd hne
      simp [Ident.same, sameWord, hname, hname'] at hdistinct
    exact hu.symm.trans hv

theorem foldedConstants_extends (hcs : cs.Pairwise fun c d => c.name.same d.name = false) (hds : ds ⊆ cs) :
    (foldedConstants cs).Extends (foldedConstants ds) := by
  intro name v hv
  obtain ⟨c, hc, hname, hfolded⟩ := exists_of_lookup? hv
  exact lookup?_of_mem hcs (hds hc) hname hfolded

end Constants

def View.ownLabels : View → List Expr
  | stmt (.switch _ _ _ _ cases) => caseValues cases
  | _ => []

def FunctionDef.labels (f : FunctionDef) : List Expr :=
  (View.function f).walk.flatMap View.ownLabels

def Constants.Determine (cs : Constants) (es : List Expr) : Prop :=
  ∀ e ∈ es, ∃ v, Fold.evaluate cs.lookup? e = .ok v

section Labels

variable {config : ParserConfig} {cs : Constants}

theorem Constants.Determine.nil : cs.Determine [] := by
  intro e he
  cases he

theorem SwitchBody.folds {labels : SwitchLabels} {statements : List Stmt} (h : SwitchBody config cs labels statements) :
    ∀ label ∈ allLabels labels.groups.reverse, ∀ e ∈ label.expr?, ∃ v, Fold.evaluate cs.lookup? e = .ok v := by
  induction h with
  | start => simp [allLabels]
  | @value _ _ e v _ _ hv _ loc ih =>
    rw [SwitchLabels.all_add]
    refine List.forall_mem_append.2 ⟨ih, List.forall_mem_singleton.2 ?_⟩
    rintro _ ⟨⟩
    -- The label keeps the expression with notes, which have no effect on its value.
    have hnoted : Fold.evaluate cs.lookup? (Fold.noteRead cs.lookup? e) = .ok v := by rw [Fold.evaluate_noteRead, hv]
    exact ⟨v, hnoted⟩
  | default _ loc _ ih =>
    rw [SwitchLabels.all_add]
    exact List.forall_mem_append.2 ⟨ih, by simp [CaseLabel.expr?]⟩
  | statement _ _ _ ih => exact ih

theorem Stmt.Composed.folds {behind : Bool} {s : Stmt} (h : s.Composed config cs behind) :
    (View.stmt s).Everywhere fun u => cs.Determine u.ownLabels := by
  -- Nothing but a switch has labels of its own.
  have hnode {s : Stmt} (hs : cs.Determine (View.stmt s).ownLabels)
      (hc : ∀ c, View.stmt c ∈ s.children → (View.stmt c).Everywhere fun u => cs.Determine u.ownLabels) :
      (View.stmt s).Everywhere fun u => cs.Determine u.ownLabels := by
    refine View.everywhere_stmt.2 ⟨hs, fun c hmem => ?_⟩
    obtain ⟨e, rfl⟩ | ⟨b, rfl⟩ := Stmt.children_cases hmem
    · exact View.everywhere_of_expr (fun _ => Constants.Determine.nil) e
    · exact hc b hmem
  induction h with
  | expr | keywordCall | flow => exact hnode .nil (by simp [Stmt.children])
  | block _ ih => exact hnode .nil (by simpa [Stmt.children] using ih)
  | ifThen _ _ ih | whileLoop _ _ ih | forLoop _ _ _ _ ih | foreachLoop _ _ _ _ ih =>
    exact hnode .nil (by simpa [Stmt.children] using ih)
  | ifElse _ _ _ ih ih' => exact hnode .nil (by simpa [Stmt.children] using ⟨ih, ih'⟩)
  | switch _ hb _ ih =>
    refine hnode (fun e he => ?_) (by simpa [Stmt.children] using ih)
    rw [View.ownLabels, caseValues_eq, allLabels_closeGroups, List.mem_filterMap] at he
    obtain ⟨label, hlabel, he⟩ := he
    exact hb.folds label hlabel e he

theorem FunctionHeader.define_determines {stmts : List PendingStmt} (header : FunctionHeader) {body : Option Block}
    (h : ∀ p ∈ stmts, p.Composed config cs)
    (hb : ∀ b ∈ body, stmts = [.block ⟨b.node, .functionBody, b.statements.reverse⟩]) :
    cs.Determine (header.define body).labels := by
  suffices heverywhere : (View.function (header.define body)).Everywhere fun u => cs.Determine u.ownLabels by
    intro e he
    obtain ⟨u, hu, he⟩ := List.mem_flatMap.1 he
    exact heverywhere u hu e he
  refine View.everywhere_iff.2 ⟨.nil, fun c hc => ?_⟩
  obtain hc | hc := List.mem_append.1 hc
  · obtain ⟨p, -, rfl⟩ := List.mem_map.1 hc
    exact View.everywhere_iff.2 ⟨.nil, by simp [View.children]⟩
  · obtain ⟨stmt, hstmt, rfl⟩ := List.mem_map.1 hc
    cases body with
    | none => simp [FunctionHeader.define, FunctionDef.statements] at hstmt
    | some b =>
      -- The body has come from the only block on the stack.
      have hblock : PendingStmt.Composed config cs _ := h _ (hb b rfl ▸ List.mem_singleton_self _)
      have hcomposed : stmt.Composed config cs false := hblock stmt (List.mem_reverse.2 hstmt)
      exact hcomposed.folds

end Labels

/-- All constants of the script can stand in front of its functions: each initialiser, and each label of a switch, has
the value under all of them that it has under those in front of it. -/
structure Script.Regroups (s : Script) : Prop where
  initialisers : ∀ i c, s.constants[i]? = some c → ∃ v, c.folded = some v ∧
    Fold.evaluate (foldedConstants (s.constants.take i)).lookup? c.value = .ok v ∧
    Fold.evaluate (foldedConstants s.constants).lookup? c.value = .ok v
  labels : ∀ f ∈ s.functions, ∀ e ∈ f.labels, ∃ v, Fold.evaluate (s.constantsBefore f).lookup? e = .ok v ∧
    Fold.evaluate (foldedConstants s.constants).lookup? e = .ok v

theorem Script.WellFormed.regroups {s : Script} (h : s.WellFormed)
    (hl : ∀ f ∈ s.functions, (s.constantsBefore f).Determine f.labels) : s.Regroups where
  initialisers i c hc := by
    obtain ⟨v, hv, hfold⟩ := h.folded i c hc
    have hmore := foldedConstants_extends h.constants (List.take_subset i s.constants)
    exact ⟨v, hv, hfold, Fold.evaluate_extends hmore hfold⟩
  labels f hf e he := by
    obtain ⟨v, hfold⟩ := hl f hf e he
    have hmore : (foldedConstants s.constants).Extends (s.constantsBefore f) :=
      foldedConstants_extends h.constants (List.filter_subset_self _)
    exact ⟨v, hfold, Fold.evaluate_extends hmore hfold⟩

theorem Session.run_determines {source : String} {config : ParserConfig} {tokens : List Token}
    (hl : lex source config.dialect = .ok tokens) (ht : config.target ≠ .expression)
    (hf : (ofTokens tokens config).run.failed.size = 0) :
    (ofTokens tokens config).run.EachFunction fun cs f => cs.Determine f.labels := by
  refine (run_inOrder (P := EachFunction fun cs f => cs.Determine f.labels) ht (TokenStream.goesOn_ofList hl)
    (lexed_ofList_of_lex hl) ?_ ?_ ?_ hf).2.2
  · constructor <;> simp [ofTokens, Script.functions]
  · intro s h
    exact ⟨h.script, h.output⟩
  · intro s s' hfin hs heach hdeclares _
    apply hdeclares.eachFunction (hs.ordered.withStream _) (mode_of_isFinished hfin) ⟨heach.script, heach.output⟩
    intro header body hbody
    exact header.define_determines hs.stmts hbody

theorem parse_regroups {source : String} {config : ParserConfig} {o : ParseOutput} {s : Script}
    (h : parseSource source config = .ok o) (hs : o.isSuccess = true) (hg : o.graph = some (.script s)) : s.Regroups := by
  obtain ⟨tokens, hl, rfl⟩ := parseSource_ok h
  have ht : config.target = .script := (parse_target hs hg).symm
  obtain ⟨g, hg', ho, -, -, hf⟩ := parse_finished hs
  obtain rfl : g = .script s := Option.some.inj (hg'.symm.trans hg)
  have hwell : s.WellFormed := (Session.run_wellFormed ht hf).output s ho
  have hlabels := (Session.run_determines hl (by simp [ht]) hf).output _ ho
  exact hwell.regroups hlabels

/-- What has a value keeps it when more names are known. So an accepted script can have all its constants in front of its
functions: no initialiser and no label gets another value. -/
theorem evaluate_monotone :
    (∀ lookup lookup' : String → Option Value, (∀ name v, lookup name = some v → lookup' name = some v) →
      ∀ e v, Fold.evaluate lookup e = .ok v → Fold.evaluate lookup' e = .ok v) ∧
    ∀ source config o s, parseSource source config = .ok o → o.isSuccess = true → o.graph = some (.script s) →
      s.Regroups := by
  constructor
  · intro lookup lookup' hmore e v h
    exact Fold.evaluate_extends hmore h
  · intro source config o s h hs hg
    exact parse_regroups h hs hg

theorem evaluate_monotone_decided :
    let source := "const A=1;f(x)\x7bswitch(x)\x7bcase A||B:g();\x7d\x7dconst B=A+1;"
    let tokens : List Token := [⟨.identifier, "const", .start⟩, ⟨.whitespace, " ", ⟨1, 6, 5⟩⟩,
      ⟨.identifier, "A", ⟨1, 7, 6⟩⟩, ⟨.symbol, "=", ⟨1, 8, 7⟩⟩, ⟨.number, "1", ⟨1, 9, 8⟩⟩, ⟨.symbol, ";", ⟨1, 10, 9⟩⟩,
      ⟨.identifier, "f", ⟨1, 11, 10⟩⟩, ⟨.symbol, "(", ⟨1, 12, 11⟩⟩, ⟨.identifier, "x", ⟨1, 13, 12⟩⟩,
      ⟨.symbol, ")", ⟨1, 14, 13⟩⟩, ⟨.symbol, "\x7b", ⟨1, 15, 14⟩⟩, ⟨.identifier, "switch", ⟨1, 16, 15⟩⟩,
      ⟨.symbol, "(", ⟨1, 22, 21⟩⟩, ⟨.identifier, "x", ⟨1, 23, 22⟩⟩, ⟨.symbol, ")", ⟨1, 24, 23⟩⟩,
      ⟨.symbol, "\x7b", ⟨1, 25, 24⟩⟩, ⟨.identifier, "case", ⟨1, 26, 25⟩⟩, ⟨.whitespace, " ", ⟨1, 30, 29⟩⟩,
      ⟨.identifier, "A", ⟨1, 31, 30⟩⟩, ⟨.symbol, "|", ⟨1, 32, 31⟩⟩, ⟨.symbol, "|", ⟨1, 33, 32⟩⟩,
      ⟨.identifier, "B", ⟨1, 34, 33⟩⟩, ⟨.symbol, ":", ⟨1, 35, 34⟩⟩, ⟨.identifier, "g", ⟨1, 36, 35⟩⟩,
      ⟨.symbol, "(", ⟨1, 37, 36⟩⟩, ⟨.symbol, ")", ⟨1, 38, 37⟩⟩, ⟨.symbol, ";", ⟨1, 39, 38⟩⟩,
      ⟨.symbol, "\x7d", ⟨1, 40, 39⟩⟩, ⟨.symbol, "\x7d", ⟨1, 41, 40⟩⟩, ⟨.identifier, "const", ⟨1, 42, 41⟩⟩,
      ⟨.whitespace, " ", ⟨1, 47, 46⟩⟩, ⟨.identifier, "B", ⟨1, 48, 47⟩⟩, ⟨.symbol, "=", ⟨1, 49, 48⟩⟩,
      ⟨.identifier, "A", ⟨1, 50, 49⟩⟩, ⟨.symbol, "+", ⟨1, 51, 50⟩⟩, ⟨.number, "1", ⟨1, 52, 51⟩⟩,
      ⟨.symbol, ";", ⟨1, 53, 52⟩⟩, Token.endAt ⟨1, 54, 53⟩]
    let label : Expr := .binary ⟨9, ⟨1, 31, 30⟩⟩ .orOr (.var ⟨7, ⟨1, 31, 30⟩⟩ ⟨"A", ⟨1, 31, 30⟩⟩)
      (.var ⟨8, ⟨1, 34, 33⟩⟩ ⟨"B", ⟨1, 34, 33⟩⟩)
    let call : Stmt := .expr ⟨12, ⟨1, 36, 35⟩⟩
      (.call ⟨11, ⟨1, 36, 35⟩⟩ none none ⟨⟨"g", ⟨1, 36, 35⟩⟩, .unqualified⟩ [])
    let switch : Stmt := .switch ⟨4, ⟨1, 16, 15⟩⟩ (.var ⟨5, ⟨1, 23, 22⟩⟩ ⟨"x", ⟨1, 23, 22⟩⟩) ⟨6, ⟨1, 25, 24⟩⟩ [call]
      [⟨⟨1, 26, 25⟩, 0, [.value label], 0, 1⟩]
    let f : FunctionDef := ⟨⟨2, ⟨1, 11, 10⟩⟩, ⟨"f", ⟨1, 11, 10⟩⟩, [⟨⟨1, 13, 12⟩, some ⟨"x", ⟨1, 13, 12⟩⟩, {}⟩],
      some ⟨⟨3, ⟨1, 15, 14⟩⟩, [switch]⟩, false, 1⟩
    let s : Script := {
      declarations := [.function f]
      constants := [
        ⟨⟨1, .start⟩, ⟨"A", ⟨1, 7, 6⟩⟩, .literal ⟨0, ⟨1, 9, 8⟩⟩ ⟨.integer, "1", true⟩, some (.int 1)⟩,
        ⟨⟨16, ⟨1, 42, 41⟩⟩, ⟨"B", ⟨1, 48, 47⟩⟩, .binary ⟨15, ⟨1, 50, 49⟩⟩ .plus
          (.var ⟨13, ⟨1, 50, 49⟩⟩ ⟨"A", ⟨1, 50, 49⟩⟩) (.literal ⟨14, ⟨1, 52, 51⟩⟩ ⟨.integer, "1", true⟩),
          some (.int 2)⟩] }
    let o := parse tokens {}
    (Fold.evaluate (s.constantsBefore f).lookup? label = .ok (.bool true) ∧
      Fold.evaluate (foldedConstants s.constants).lookup? label = .ok (.bool true)) ∧
      parseSource source {} = .ok o ∧ o.isSuccess = true ∧ o.graph = some (.script s) ∧ s.Regroups := by
  intro source tokens label call switch f s o
  have hmore : ∀ name v, (s.constantsBefore f).lookup? name = some v → (foldedConstants s.constants).lookup? name = some v :=
    show Constants.Extends ((lowerWord "B", .int 2) :: [("a", .int 1)]) [("a", .int 1)] from .cons _ (by decide)
  have hlabel : Fold.evaluate (s.constantsBefore f).lookup? label = .ok (.bool true) := rfl
  have hl : lex source ({} : ParserConfig).dialect = .ok tokens := by decide +kernel
  have hok : parseSource source {} = .ok o := by rw [parseSource, hl, Except.map]
  have hs : o.isSuccess = true := by decide +kernel
  have hg : o.graph = some (.script s) := by
    subst o s f switch call label tokens
    rfl
  exact ⟨⟨hlabel, evaluate_monotone.1 _ _ hmore _ _ hlabel⟩, hok, hs, hg, evaluate_monotone.2 source {} o s hok hs hg⟩

def Script.constantValues (s : Script) : List (String × Option Value) :=
  s.constants.map fun c => (c.name.name, c.folded)

def Script.labelValues (s : Script) (known : FunctionDef → Constants) : List (String × List (Option Value)) :=
  s.functions.map fun f => (f.name.name, f.labels.map fun e => (Fold.evaluate (known f).lookup? e).toOption)

namespace Relabel

variable (r : Relabel)

theorem labels_function (f : FunctionDef) : (r.function f).labels = f.labels.map r.expr := by
  have hown (u : View) : (r.view u).ownLabels = u.ownLabels.map r.expr := by
    cases u with
    | stmt s =>
      cases s with
      | switch _ _ _ _ cases => exact r.caseValues_map cases
      | _ => rfl
    | _ => rfl
  rw [FunctionDef.labels, show View.function (r.function f) = r.view (.function f) from rfl, walk_view, List.flatMap_map,
    FunctionDef.labels, List.map_flatMap]
  exact List.flatMap_congr fun u _ => hown u

theorem functions_script (s : Script) : (r.script s).functions = s.functions.map r.function := by
  rw [Script.functions, script, List.filterMap_map, Script.functions, List.map_filterMap]
  refine List.filterMap_congr fun d _ => ?_
  cases d <;> rfl

theorem constantValues_script (s : Script) : (r.script s).constantValues = s.constantValues := by
  rw [Script.constantValues, script, List.map_map]
  rfl

theorem labelValues_script (s : Script) (cs : Constants) :
    ((r.script s).labelValues fun _ => cs) = s.labelValues fun _ => cs := by
  rw [Script.labelValues, functions_script, List.map_map]
  refine List.map_congr_left fun f _ => ?_
  simp only [Function.comp_apply, labels_function, List.map_map, Function.comp_def, evaluate_expr]
  rfl

end Relabel

namespace Script.Regroups

variable {s s' : Script}

theorem labelValues_eq (h : s.Regroups) :
    s.labelValues s.constantsBefore = s.labelValues fun _ => foldedConstants s.constants := by
  refine List.map_congr_left fun f hf => Prod.ext rfl (List.map_congr_left fun e he => ?_)
  obtain ⟨v, hbefore, hall⟩ := h.labels f hf e he
  rw [hbefore, hall]

theorem values_eq (h : s.Regroups) (h' : s'.Regroups) (hs : Relabel.blank.script s' = Relabel.blank.script s) :
    s'.constantValues = s.constantValues ∧
      s'.labelValues s'.constantsBefore = s.labelValues s.constantsBefore := by
  have hconstants : foldedConstants s'.constants = foldedConstants s.constants := by
    rw [← Session.foldedConstants_constants, ← Session.foldedConstants_constants s.constants]
    exact congrArg (fun s => foldedConstants s.constants) hs
  constructor
  · rw [← Relabel.blank.constantValues_script, hs, Relabel.constantValues_script]
  · -- Under all constants it does not matter where a function stands.
    rw [h'.labelValues_eq, h.labelValues_eq, hconstants, ← Relabel.blank.labelValues_script, hs,
      Relabel.labelValues_script]

end Script.Regroups

theorem parse_formatGraph_values {source : String} {layout : FormatConfig} {o : ParseOutput} {s : Script}
    (h : parseSource source layout.parser = .ok o) (hs : o.isSuccess = true) (hg : o.graph = some (.script s))
    (ha : (View.script s).Exprs Expr.NotArray) :
    ∃ o' s', parseSource (formatGraph layout (.script s)) layout.parser = .ok o' ∧ o'.isSuccess = true ∧
      o'.graph = some (.script s') ∧ s'.constantValues = s.constantValues ∧
      s'.labelValues s'.constantsBefore = s.labelValues s.constantsBefore := by
  have hregroups := parse_regroups h hs hg
  obtain ⟨tokens, hl, rfl⟩ := parseSource_ok h
  have ht : Graph.target (.script s) = layout.parser.target := parse_target hs hg
  have hne : layout.parser.target ≠ .expression := by simp [← ht, Graph.target]
  obtain ⟨toks, g', hl', hs', hg', halike⟩ :=
    (parse_inOrder hne hl hs hg).parse_format hne ht ha (parse_legible hg) layout
  have hok : parseSource (formatGraph layout (.script s)) layout.parser = .ok (parse toks layout.parser) := by
    rw [parseSource, hl', Except.map]
  cases g' with
  | script s' =>
    obtain ⟨hconstants, hlabels⟩ := hregroups.values_eq (parse_regroups hok hs' hg') (Graph.script.inj halike)
    exact ⟨_, s', hok, hs', hg', hconstants, hlabels⟩
  | function | expression => cases halike

end GameScript
