import GameScript.Proofs.Clean
import GameScript.Proofs.Like

namespace GameScript

namespace Session

def beginClause (s : Session) : ForClause → Session
  | .first => s.beginExpr (.forClause .condition)
  | .condition => s.beginExpr (.forClause .step)
  | .step => s

namespace Like

variable {g : Guise} {s r : Session} {t : Token} {loc : Location}

theorem stmts (h : Like g s r) : r.stmts = s.stmts.map g.pendingStmt := by
  obtain ⟨o, rfl, -⟩ := h
  rfl

theorem withStmts (h : Like g s r) (stmts : List PendingStmt) :
    Like g { s with stmts := stmts } { r with stmts := stmts.map g.pendingStmt } := by
  obtain ⟨o, rfl, ho⟩ := h
  exact ⟨o, rfl, ho.stream, ho.warned, ho.failed⟩

theorem byCases' {c : Prop} [Decidable c] {s₁ s₂ r₁ r₂ : Session} (hy : c → Like g s₁ r₁) (hn : ¬c → Like g s₂ r₂) :
    Like g (if c then s₁ else s₂) (if c then r₁ else r₂) := by
  split
  · next hc => exact hy hc
  · next hc => exact hn hc

theorem permitted {c : Prop} [Decidable c] {s₁ s₂ r₁ r₂ : Session} (hp : g.Permits t (if c then s₁ else s₂))
    (hy : c → g.Permits t s₁ → Like g s₁ r₁) (hn : ¬c → g.Permits t s₂ → Like g s₂ r₂) :
    Like g (if c then s₁ else s₂) (if c then r₁ else r₂) := by
  split at hp
  · next hc => simpa only [if_pos hc] using hy hc hp
  · next hc => simpa only [if_neg hc] using hn hc hp

theorem pushStmt (h : Like g s r) (p : PendingStmt) : Like g (s.pushStmt p) (r.pushStmt (g.pendingStmt p)) := by
  obtain ⟨o, rfl, ho⟩ := h
  exact ⟨o, rfl, ho.stream, ho.warned, ho.failed⟩

theorem popStmt (h : Like g s r) : Like g s.popStmt r.popStmt := by
  have := h.withStmts s.stmts.tail
  rwa [List.map_tail, ← h.stmts] at this

theorem replaceStmt (h : Like g s r) (p : PendingStmt) : Like g (s.replaceStmt p) (r.replaceStmt (g.pendingStmt p)) := by
  have := h.withStmts (p :: s.stmts.tail)
  rwa [List.map_cons, List.map_tail, ← h.stmts] at this

theorem beginExpr (h : Like g s r) (context : ExprContext) : Like g (s.beginExpr context) (r.beginExpr context) := by
  obtain ⟨o, rfl, ho⟩ := h
  exact ⟨o, rfl, ho.stream, ho.warned, ho.failed⟩

theorem addToBlock (h : Like g s r) (b : PendingBlock) (rest : List PendingStmt) (stmt : Stmt) :
    Like g (s.addToBlock b rest stmt)
      (r.addToBlock (g.pendingBlock b) (rest.map g.pendingStmt) (g.stmt stmt)) := by
  obtain ⟨node, role, statements⟩ := b
  have hadd := h.withStmts (.block ⟨node, role, stmt :: statements⟩ :: rest)
  cases role with
  | functionBody | nested => exact hadd
  | switchBody labels =>
    have hempty : (labels.groups.map g.switchCase).isEmpty = labels.groups.isEmpty := List.isEmpty_map
    simp only [Session.addToBlock, Recast.pendingBlock, Recast.role, Recast.labels, hempty, Recast.loc_stmt]
    refine byCases' (fun _ => ?_) fun _ => hadd
    exact (h.withStmts (.block ⟨node, .switchBody labels, statements⟩ :: rest)).report (.refl rfl) stmt.loc

theorem bind (h : Like g s r) (stmts : List PendingStmt) (stmt : Stmt) :
    Like g (s.bind stmts stmt) (r.bind (stmts.map g.pendingStmt) (g.stmt stmt)) := by
  -- By induction on the unfinished statements, which those that wait for a body leave one after another.
  induction stmts generalizing stmt with
  | nil => exact h.withStmts []
  | cons top rest ih =>
    cases top with
    | block b => exact h.addToBlock b rest stmt
    | ifStmt node phase =>
      cases phase with
      | elseBranch condition thenBranch => exact ih (.ifElse node condition thenBranch stmt)
      | thenBranch condition => exact h.withStmts (.ifStmt node (.awaitElse condition stmt) :: rest)
      | start => exact h.withStmts (.ifStmt node .start :: rest)
      | condition => exact h.withStmts (.ifStmt node .condition :: rest)
      | awaitElse condition thenBranch => exact h.withStmts (.ifStmt node (.awaitElse condition thenBranch) :: rest)
    | whileLoop node phase =>
      cases phase with
      | body condition => exact ih (.whileLoop node condition stmt)
      | start => exact h.withStmts (.whileLoop node .start :: rest)
      | condition => exact h.withStmts (.whileLoop node .condition :: rest)
    | forLoop node phase =>
      cases phase with
      | body first condition step => exact ih (.forLoop node first condition step stmt)
      | start => exact h.withStmts (.forLoop node .start :: rest)
      | clause clause first condition => exact h.withStmts (.forLoop node (.clause clause first condition) :: rest)
    | foreachLoop node phase =>
      cases phase with
      | body key value collection => exact ih (.foreachLoop node key value collection stmt)
      | start => exact h.withStmts (.foreachLoop node .start :: rest)
      | names names => exact h.withStmts (.foreachLoop node (.names names) :: rest)
      | collection key value => exact h.withStmts (.foreachLoop node (.collection key value) :: rest)
    | switch node phase => exact h.withStmts (.switch node phase :: rest)
    | keywordCall node keyword => exact h.withStmts (.keywordCall node keyword :: rest)
    | flow node kind target => exact h.withStmts (.flow node kind target :: rest)
    | caseLabel loc => exact h.withStmts (.caseLabel loc :: rest)
    | defaultLabel loc => exact h.withStmts (.defaultLabel loc :: rest)

theorem finishStmt (h : Like g s r) (stmt : Stmt) : Like g (s.finishStmt stmt) (r.finishStmt (g.stmt stmt)) := by
  rw [Session.finishStmt, Session.finishStmt, h.stmts]
  exact h.bind _ _

theorem bindEmptyBody (h : Like g s r) (loc : Location) : Like g (s.bindEmptyBody loc) (r.bindEmptyBody (g.loc loc)) := by
  have := (h.withNode loc).finishStmt (.block (s.withNode loc).1 [])
  rw [Recast.stmt, ← h.newNode] at this
  exact this

theorem labelProblem {allow : Bool} {labels : SwitchLabels} {group : List CaseLabel} {label : CaseLabel}
    {value : Option Value} {problem : Problem} (h : labelProblem? allow labels group label value = some problem) :
    g.Means problem problem := by
  refine .refl ?_
  unfold labelProblem? at h
  grind [Recast.problem]

theorem addLabel (h : Like g s r) (label : CaseLabel) (value : Option Value) (loc : Location) :
    Like g (s.addLabel label value loc) (r.addLabel (g.label label) value (g.loc loc)) := by
  have hstmts := h.stmts
  have hconfig := h.config
  rcases hs : s.stmts with _ | ⟨top, rest⟩ <;> rw [hs] at hstmts
  · simpa only [Session.addLabel, hs, hstmts, List.map_nil] using h
  cases top with
  | block b =>
    obtain ⟨node, role, statements⟩ := b
    cases role with
    | switchBody labels =>
      simp only [Session.addLabel, hs, hstmts, List.map_cons, Recast.pendingStmt, Recast.pendingBlock, Recast.role,
        Recast.stmts_eq_map, List.length_map, Recast.groupAt_labels, Recast.labelProblem?_label, Recast.add_labels, hconfig]
      cases hp : labelProblem? s.config.allowDefaultWithCase labels (labels.groupAt statements.length) label value with
      | some problem => exact h.report (labelProblem hp) loc
      | none =>
        have := h.withStmts (.block ⟨node, .switchBody (labels.add statements.length label value loc), statements⟩ :: rest)
        simpa only [List.map_cons, Recast.pendingStmt, Recast.pendingBlock, Recast.role, Recast.stmts_eq_map, hconfig] using this
    | _ => simpa only [Session.addLabel, hs, hstmts, List.map_cons, Recast.pendingStmt, Recast.pendingBlock, Recast.role] using h
  | _ => simpa only [Session.addLabel, hs, hstmts, List.map_cons, Recast.pendingStmt] using h

theorem closeSwitch (h : Like g s r) (b : PendingBlock) (labels : SwitchLabels) (t : Token) :
    Like g (s.closeSwitch b labels t) (r.closeSwitch (g.pendingBlock b) (g.labels labels) (g.token t)) := by
  have hstmts := h.stmts
  rcases hs : s.stmts with _ | ⟨top, rest⟩ <;> rw [hs] at hstmts
  · simpa only [Session.closeSwitch, hs, hstmts, List.map_nil, List.tail_nil] using h.withStmts []
  have htail := h.withStmts rest
  cases top with
  | switch node phase =>
    cases phase with
    | body subject =>
      have hempty : ((closeGroups b.statements.length labels.groups).map g.switchCase).isEmpty =
          (closeGroups b.statements.length labels.groups).isEmpty := List.isEmpty_map
      have hcases : Like g
          (if (closeGroups b.statements.length labels.groups).isEmpty then
            ({ s with stmts := rest } : Session).report .emptySwitch node.loc else { s with stmts := rest })
          (if (closeGroups b.statements.length labels.groups).isEmpty then
            ({ r with stmts := rest.map g.pendingStmt } : Session).report .emptySwitch (g.node node).loc
            else { r with stmts := rest.map g.pendingStmt }) :=
        byCases' (fun _ => htail.report (.refl rfl) node.loc) fun _ => htail
      simp only [Session.closeSwitch, hs, hstmts, List.map_cons, Recast.pendingStmt, Recast.headerPhase, Recast.pendingBlock,
        Recast.stmts_eq_map, Recast.labels, List.length_map, Recast.closeGroups_switchCase, hempty,
        show (g.node node).id = g.id node.id from rfl, Recast.redundantBreak?_stmts, ← List.map_reverse]
      cases redundantBreak? node.id b.statements with
      | none =>
        have := hcases.finishStmt (.switch node subject b.node b.statements.reverse (closeGroups b.statements.length labels.groups))
        rwa [Recast.stmt, Recast.stmts_eq_map] at this
      | some loc =>
        have hmeans : g.Means (.redundantBreak t.loc) (.redundantBreak (g.token t).loc) := ⟨rfl, fun _ => rfl⟩
        have := (hcases.report hmeans loc).finishStmt
          (.switch node subject b.node b.statements.reverse (closeGroups b.statements.length labels.groups))
        rwa [Recast.stmt, Recast.stmts_eq_map] at this
    | _ => simpa only [Session.closeSwitch, hs, hstmts, List.map_cons, Recast.pendingStmt, Recast.headerPhase, List.tail_cons] using htail
  | _ => simpa only [Session.closeSwitch, hs, hstmts, List.map_cons, Recast.pendingStmt, List.tail_cons] using htail

theorem inRoot (h : Like g s r) (phase : RootPhase) : Like g (s.inRoot phase) (r.inRoot (g.rootPhase phase)) := by
  obtain ⟨o, rfl, ho⟩ := h
  exact ⟨o, rfl, ho.stream, ho.warned, ho.failed⟩

theorem script (h : Like g s r) : r.script = g.behind (g.script s.script) := by
  obtain ⟨o, rfl, -⟩ := h
  rfl

theorem withScript (h : Like g s r) {s' r' : Script} (hr : r' = g.behind (g.script s')) :
    Like g { s with script := s' } { r with script := r' } := by
  obtain ⟨o, rfl, ho⟩ := h
  exact ⟨o, by rw [hr]; rfl, ho.stream, ho.warned, ho.failed⟩

theorem addDeclaration (h : Like g s r) (d : Declaration) : Like g (s.addDeclaration d) (r.addDeclaration (g.declaration d)) := by
  refine h.withScript ?_
  rw [h.script]
  simp only [Guise.behind, Recast.script, List.map_append, List.map_cons, List.map_nil, List.append_assoc]

theorem functions_behind (g : Guise) (s : Script) :
    (g.behind (g.script s)).functions = g.prior.functions ++ s.functions.map g.function := by
  rw [← Recast.functions_script, Script.functions, Script.functions, Script.functions, Guise.behind, List.filterMap_append]

theorem findFunction? (h : Like g s r) {f : FunctionDef} (hp : g.Alone ∨ g.Allows (s.addDeclaration (.function f))) :
    (r.script.findFunction? (g.word f.name.name)).isSome = (s.script.findFunction? f.name.name).isSome := by
  have hmap : (s.script.functions.map g.function).any (fun q => sameWord q.name.name (g.word f.name.name)) =
      s.script.functions.any fun q => sameWord q.name.name f.name.name := by
    rw [List.any_map]
    exact congrArg _ (funext fun q => g.sameWord_word q.name.name f.name.name)
  have hprior : g.prior.functions.any (fun q => sameWord q.name.name (g.word f.name.name)) = false := by
    obtain ⟨hprior, -⟩ | ha := hp
    · rw [hprior]
      rfl
    · refine List.any_eq_false.2 fun q hq => ?_
      have hf : f ∈ (s.addDeclaration (.function f)).script.functions := by
        simp [Session.addDeclaration, Script.functions, List.filterMap_append]
      exact Bool.not_eq_true _ ▸ ha.functions f hf q hq
  simp only [Script.findFunction?, h.script, functions_behind]
  rw [Bool.eq_iff_iff, List.find?_isSome, List.find?_isSome, ← List.any_eq_true, ← List.any_eq_true, List.any_append, hprior,
    hmap, Bool.false_or]

theorem withOutput (h : Like g s r) (output : Option Graph) :
    Like g { s with output := output } { r with output := output.map g.graph } := by
  obtain ⟨o, rfl, ho⟩ := h
  exact ⟨o, rfl, ho.stream, ho.warned, ho.failed⟩

theorem failed_report_ne {p : Problem} (hp : p.severity ≠ .warning) (s : Session) (loc : Location) :
    (s.report p loc).failed ≠ #[] := by
  have hc : (⟨p, loc, raises s.config p⟩ : Complaint).severity ≠ .warning := by
    unfold Complaint.severity
    split
    · exact fun h => (nomatch h)
    · exact hp
  unfold Session.report record
  generalize (⟨p, loc, raises s.config p⟩ : Complaint) = c at hc
  cases hs : c.severity with
  | warning => exact absurd hs hc
  | error | fatal => simp

theorem defineFunction (h : Like g s r) (f : FunctionDef) (hp : g.Permits t (s.defineFunction f)) :
    Like g (s.defineFunction f) (r.defineFunction (g.function f)) := by
  have hword : (g.function f).name.name = g.word f.name.name := rfl
  have hconfig : (r.config.target = .function) = (s.config.target = .function) := by rw [h.config]
  unfold Session.defineFunction at hp ⊢
  simp only [hconfig]
  refine permitted hp (fun _ _ => h.withOutput (some (.function f))) fun _ hp => ?_
  have hfind : g.Alone ∨ g.Allows (s.addDeclaration (.function f)) := by
    split at hp
    · exact .inl (hp.resolve_right fun hp => failed_report_ne (p := .duplicateFunction f.name.name) nofun _ _ hp.2.failed)
    · exact hp.imp_right And.right
  rw [hword, h.findFunction? hfind]
  refine byCases' (fun _ => ?_) fun _ => h.addDeclaration (.function f)
  have hmeans : g.Means (.duplicateFunction f.name.name) (.duplicateFunction (g.word f.name.name)) :=
    ⟨rfl, fun he => by rw [g.words he]; rfl⟩
  exact h.report hmeans f.name.loc

theorem mode (h : Like g s r) : r.mode = g.mode s.mode := by
  obtain ⟨o, rfl, -⟩ := h
  rfl

theorem closeFunction (h : Like g s r) (b : PendingBlock) (hp : g.Permits t (s.closeFunction b)) :
    Like g (s.closeFunction b) (r.closeFunction (g.pendingBlock b)) := by
  have hmode := h.mode
  have hidle := (h.withStmts []).inRoot .idle
  cases hm : s.mode with
  | body header =>
    have hblock : (⟨(g.pendingBlock b).node, (g.pendingBlock b).statements.reverse⟩ : Block) =
        g.block ⟨b.node, b.statements.reverse⟩ := by
      simp only [Recast.block, Recast.pendingBlock, Recast.stmts_eq_map, List.map_reverse]
    simp only [Session.closeFunction, hm] at hp
    simp only [Session.closeFunction, hmode, hm, Recast.mode, hblock]
    have := hidle.defineFunction _ hp
    rwa [← Recast.define_header] at this
  | _ =>
    simp only [Session.closeFunction, hmode, hm, Recast.mode]
    exact hidle

theorem closeBlock (h : Like g s r) (b : PendingBlock) (hp : g.Permits t (s.closeBlock b t)) :
    Like g (s.closeBlock b t) (r.closeBlock (g.pendingBlock b) (g.token t)) := by
  obtain ⟨node, role, statements⟩ := b
  cases role with
  | nested =>
    have := h.popStmt.finishStmt (.block node statements.reverse)
    rwa [Recast.stmt, Recast.stmts_eq_map, List.map_reverse, ← Recast.stmts_eq_map] at this
  | switchBody labels => exact h.popStmt.closeSwitch ⟨node, .switchBody labels, statements⟩ labels t
  | functionBody => exact h.popStmt.closeFunction ⟨node, .functionBody, statements⟩ hp

theorem closeBrace (h : Like g s r) (hp : g.Permits t (s.closeBrace t)) :
    Like g (s.closeBrace t) (r.closeBrace (g.token t)) := by
  have hstmts := h.stmts
  have hcomplain : Like g (s.report (.unexpected "`\x7d`" "a statement") t.loc)
      (r.report (.unexpected "`\x7d`" "a statement") (g.token t).loc) := h.report (.refl rfl) t.loc
  rcases hs : s.stmts with _ | ⟨top, rest⟩ <;> rw [hs] at hstmts
  · simpa only [Session.closeBrace, hs, hstmts, List.map_nil] using hcomplain
  have hawaits := Recast.awaitsBody_pendingStmt (r := g.toRecast) top
  cases top with
  | block b =>
    simp only [Session.closeBrace, hs] at hp
    simp only [Session.closeBrace, hs, hstmts, List.map_cons, Recast.pendingStmt]
    exact h.closeBlock b hp
  | _ =>
    simp only [Recast.pendingStmt] at hawaits
    simp only [Session.closeBrace, hs, hstmts, List.map_cons, Recast.pendingStmt, hawaits]
    exact byCases' (fun _ => (hcomplain.bindEmptyBody t.loc).defer) fun _ => hcomplain

theorem statementDone (h : Like g s r) (completed : Completed) (t : Token) :
    Like g (s.statementDone completed t) (r.statementDone (g.completed completed) (g.token t)) := by
  cases completed with
  | value e =>
    have hmeans : g.Means (.noEffect e.text) (.noEffect (g.expr e).text) :=
      ⟨rfl, fun he => by rw [Recast.text_expr (g.words he)]; rfl⟩
    simp only [Session.statementDone, Recast.completed, Recast.hasEffect_expr, Recast.loc_expr]
    refine byCases' (fun _ => h.expect t ';' false fun _ => ?_) fun _ =>
      (h.report hmeans e.loc).expect t ';' false fun _ => h.report hmeans e.loc
    have := (h.withNode e.loc).finishStmt (.expr (s.withNode e.loc).1 e)
    rwa [Recast.stmt, ← h.newNode] at this
  | empty => exact h.rejectToken t _
  | failed =>
    simp only [Session.statementDone, Recast.completed]
    refine h.expect t ';' true fun _ => ?_
    exact h

theorem placeholder (h : Like g s r) (loc : Location) :
    Like g (s.placeholder loc).2 (r.placeholder (g.loc loc)).2 ∧
      (r.placeholder (g.loc loc)).1 = g.expr (s.placeholder loc).1 := by
  refine ⟨h.withNode loc, ?_⟩
  rw [Session.placeholder, Session.placeholder, h.nextId]
  simp only [Recast.expr, Recast.literal, LiteralKind.isWord, if_true, g.filler]
  rfl

theorem required (h : Like g s r) (completed : Completed) (t : Token) {missing : Problem}
    (hmissing : g.problem missing = missing) {next next' : Session → Expr → Session}
    (hnext : ∀ s r e, Like g s r → Like g (next s e) (next' r (g.expr e))) :
    Like g (s.required completed t missing next) (r.required (g.completed completed) (g.token t) missing next') := by
  have hsupply {s r : Session} (h : Like g s r) :
      Like g (next (s.placeholder t.loc).2 (s.placeholder t.loc).1)
        (next' (r.placeholder (g.token t).loc).2 (r.placeholder (g.token t).loc).1) := by
    obtain ⟨hl, he⟩ := h.placeholder t.loc
    rw [show (g.token t).loc = g.loc t.loc from rfl, he]
    exact hnext _ _ _ hl
  cases completed with
  | value e =>
    simp only [Session.required, Recast.completed]
    refine h.expect t ')' false fun _ => ?_
    exact hnext _ _ _ h
  | empty =>
    have hreport := h.report (.refl hmissing) t.loc
    simp only [Session.required, Recast.completed]
    refine hreport.expect t ')' false fun _ => ?_
    exact hsupply hreport
  | failed =>
    simp only [Session.required, Recast.completed]
    refine h.expect t ')' true fun _ => ?_
    exact hsupply h

theorem conditionDone (h : Like g s r) (completed : Completed) (t : Token) :
    Like g (s.conditionDone completed t) (r.conditionDone (g.completed completed) (g.token t)) := by
  refine h.required completed t rfl fun s r e h => ?_
  have hstmts := h.stmts
  rcases hs : s.stmts with _ | ⟨top, rest⟩ <;> rw [hs] at hstmts
  · simpa only [hstmts, List.map_nil] using h
  cases top with
  | ifStmt node phase =>
    simp only [hstmts, List.map_cons, Recast.pendingStmt]
    exact h.replaceStmt (.ifStmt node (.thenBranch e))
  | whileLoop node phase =>
    simp only [hstmts, List.map_cons, Recast.pendingStmt]
    exact h.replaceStmt (.whileLoop node (.body e))
  | switch node phase =>
    simp only [hstmts, List.map_cons, Recast.pendingStmt]
    exact h.replaceStmt (.switch node (.body e))
  | _ => simpa only [hstmts, List.map_cons, Recast.pendingStmt] using h

theorem collectionDone (h : Like g s r) (completed : Completed) (t : Token) :
    Like g (s.collectionDone completed t) (r.collectionDone (g.completed completed) (g.token t)) := by
  refine h.required completed t rfl fun s r e h => ?_
  have hstmts := h.stmts
  rcases hs : s.stmts with _ | ⟨top, rest⟩ <;> rw [hs] at hstmts
  · simpa only [hstmts, List.map_nil] using h
  cases top with
  | foreachLoop node phase =>
    cases phase with
    | collection key value =>
      simp only [hstmts, List.map_cons, Recast.pendingStmt, Recast.foreachPhase]
      exact h.replaceStmt (.foreachLoop node (.body key value e))
    | _ => simpa only [hstmts, List.map_cons, Recast.pendingStmt, Recast.foreachPhase] using h
  | _ => simpa only [hstmts, List.map_cons, Recast.pendingStmt] using h

theorem beginClause (h : Like g s r) (clause : ForClause) : Like g (s.beginClause clause) (r.beginClause clause) := by
  cases clause with
  | first | condition => exact h.beginExpr _
  | step => exact h

theorem forClauseDone (h : Like g s r) (clause : ForClause) (completed : Completed) (t : Token) :
    Like g (s.forClauseDone clause completed t) (r.forClauseDone clause (g.completed completed) (g.token t)) := by
  have hstmts := h.stmts
  simp only [Session.forClauseDone, Recast.isFailed_completed, Recast.value?_completed]
  refine h.expect t _ _ fun _ => Like.beginClause ?_ clause
  rcases hs : s.stmts with _ | ⟨top, rest⟩ <;> rw [hs] at hstmts
  · simpa only [hstmts, List.map_nil] using h
  cases top with
  | forLoop node phase =>
    cases phase with
    | clause _ first condition =>
      simp only [hstmts, List.map_cons, Recast.pendingStmt, Recast.forPhase, ← Recast.nextForPhase_expr]
      exact h.replaceStmt (.forLoop node (nextForPhase clause first condition completed.value?))
    | _ => simpa only [hstmts, List.map_cons, Recast.pendingStmt, Recast.forPhase] using h
  | _ => simpa only [hstmts, List.map_cons, Recast.pendingStmt] using h

theorem argumentProblem {node : Node} {keyword : CallKeyword} {argument : Option Expr} {q : Problem × Location}
    (h : argumentProblem? node keyword argument = some q) : g.Means q.1 q.1 := by
  refine .refl ?_
  unfold argumentProblem? at h
  split at h <;> cases h <;> rfl

theorem keywordArgDone (h : Like g s r) (completed : Completed) (t : Token) :
    Like g (s.keywordArgDone completed t) (r.keywordArgDone (g.completed completed) (g.token t)) := by
  have hstmts := h.stmts
  rcases hs : s.stmts with _ | ⟨top, rest⟩ <;> rw [hs] at hstmts
  · simpa only [Session.keywordArgDone, hs, hstmts, List.map_nil] using h.popStmt
  cases top with
  | keywordCall node keyword =>
    simp only [Session.keywordArgDone, hs, hstmts, List.map_cons, Recast.pendingStmt, Recast.isFailed_completed,
      Recast.value?_completed, Recast.argumentProblem?_expr]
    refine h.popStmt.expect t ';' _ fun _ => byCases' (fun _ => h.popStmt) fun _ => ?_
    cases hq : argumentProblem? node keyword completed.value? with
    | some q => exact h.popStmt.report (argumentProblem hq) q.2
    | none => exact h.popStmt.finishStmt (.keywordCall node keyword completed.value?)
  | _ => simpa only [Session.keywordArgDone, hs, hstmts, List.map_cons, Recast.pendingStmt] using h.popStmt

theorem constants (h : Like g s r) : r.constants = s.constants ++ g.constants := by
  obtain ⟨o, rfl, -⟩ := h
  rfl

theorem knows (h : Like g s r) : g.Knows g.Alone s.constants.lookup? r.constants.lookup? := by
  rw [h.constants]
  refine ⟨fun n v hv => ?_, fun ha n hn => ?_⟩
  · obtain ⟨c, hc, rfl⟩ := Option.map_eq_some_iff.1 hv
    simp only [Constants.lookup?, g.lower, List.find?_append, hc, Option.some_or, Option.map_some]
  · rw [ha.2, List.append_nil, Constants.lookup?, g.lower]
    exact hn

theorem caseValue (h : Like g s r) (e : Expr) (loc : Location) (hp : g.Permits t (s.caseValue e loc)) :
    Like g (s.caseValue e loc) (r.caseValue (g.expr e) (g.loc loc)) := by
  have hevaluate := Guise.evaluate_expr h.knows e
  have hsettles : Guise.Settles g.Alone (Fold.evaluate s.constants.lookup? e) := by
    unfold Session.caseValue at hp
    cases he : Fold.evaluate s.constants.lookup? e with
    | ok v => exact .inr ⟨v, rfl⟩
    | error reason =>
      refine .inl (hp.resolve_right fun hp => ?_)
      have hfailed := hp.2.failed
      simp only [he] at hfailed
      have hle := le_failed_addLabel (.value (Fold.noteRead s.constants.lookup? e)) none loc
        (Nat.le_refl (s.report (.caseNotConstant e.text reason) e.loc).failed.size)
      rw [hfailed] at hle
      exact failed_report_ne (p := .caseNotConstant e.text reason) nofun _ _ (Array.eq_empty_of_size_eq_zero (Nat.le_zero.1 hle))
  simp only [Session.caseValue, Guise.noteRead_expr h.knows e hsettles]
  cases he : Fold.evaluate s.constants.lookup? e with
  | ok v =>
    rw [hevaluate.ok v he]
    exact h.addLabel (.value (Fold.noteRead s.constants.lookup? e)) (some v) loc
  | error reason =>
    obtain ha | ⟨v, hv⟩ := hsettles
    · obtain ⟨reason', he', hreason⟩ := hevaluate.error ha reason he
      have hmeans : g.Means (.caseNotConstant e.text reason) (.caseNotConstant (g.expr e).text reason') :=
        ⟨rfl, fun hexact => by rw [Recast.text_expr (g.words hexact), hreason hexact]; rfl⟩
      rw [he']
      simp only [Recast.loc_expr]
      exact (h.report hmeans e.loc).addLabel (.value (Fold.noteRead s.constants.lookup? e)) none loc
    · rw [he] at hv
      cases hv

theorem caseLabelDone (h : Like g s r) (completed : Completed) (hp : g.Permits t (s.caseLabelDone completed t)) :
    Like g (s.caseLabelDone completed t) (r.caseLabelDone (g.completed completed) (g.token t)) := by
  have hstmts := h.stmts
  rcases hs : s.stmts with _ | ⟨top, rest⟩ <;> rw [hs] at hstmts
  · simpa only [Session.caseLabelDone, hs, hstmts, List.map_nil] using h.popStmt
  cases top with
  | caseLabel loc =>
    simp only [Session.caseLabelDone, hs] at hp
    simp only [Session.caseLabelDone, hs, hstmts, List.map_cons, Recast.pendingStmt, Recast.isFailed_completed]
    refine h.popStmt.expect t ':' _ fun ht => ?_
    simp only [Session.expect, ht, if_true] at hp
    cases completed with
    | value e => exact h.popStmt.caseValue e loc hp
    | empty => exact h.popStmt.report (.refl rfl) t.loc
    | failed => exact h.popStmt
  | _ => simpa only [Session.caseLabelDone, hs, hstmts, List.map_cons, Recast.pendingStmt] using h.popStmt

theorem openHeader (h : Like g s r) : Like g s.openHeader r.openHeader := by
  have hstmts := h.stmts
  rcases hs : s.stmts with _ | ⟨top, rest⟩ <;> rw [hs] at hstmts
  · simpa only [Session.openHeader, hs, hstmts, List.map_nil] using h
  cases top with
  | ifStmt node phase =>
    simp only [Session.openHeader, hs, hstmts, List.map_cons, Recast.pendingStmt]
    exact (h.replaceStmt (.ifStmt node .condition)).beginExpr _
  | whileLoop node phase =>
    simp only [Session.openHeader, hs, hstmts, List.map_cons, Recast.pendingStmt]
    exact (h.replaceStmt (.whileLoop node .condition)).beginExpr _
  | switch node phase =>
    simp only [Session.openHeader, hs, hstmts, List.map_cons, Recast.pendingStmt]
    exact (h.replaceStmt (.switch node .condition)).beginExpr _
  | forLoop node phase =>
    simp only [Session.openHeader, hs, hstmts, List.map_cons, Recast.pendingStmt]
    exact (h.replaceStmt (.forLoop node (.clause .first none none))).beginExpr _
  | foreachLoop node phase =>
    simp only [Session.openHeader, hs, hstmts, List.map_cons, Recast.pendingStmt]
    exact h.replaceStmt (.foreachLoop node (.names .none))
  | _ => simpa only [Session.openHeader, hs, hstmts, List.map_cons, Recast.pendingStmt] using h

theorem iteratorName (h : Like g s r) (node : Node) (names : IteratorNames) (name : Ident) :
    Like g (s.iteratorName node names name) (r.iteratorName (g.node node) (g.iteratorNames names) (g.ident name)) := by
  have hmeans : g.Means (.shadowedIterator name.name) (.shadowedIterator (g.ident name).name) :=
    ⟨rfl, fun he => by rw [Recast.name_ident (g.words he)]; rfl⟩
  simp only [Session.iteratorName, h.stmts, g.bindsIterator_pendingStmt]
  exact (byCases' (fun _ => h.report hmeans name.loc) fun _ => h).replaceStmt (.foreachLoop node (.names names))

theorem beginCollection (h : Like g s r) (node : Node) (key : Option Ident) (value : Ident) :
    Like g (s.beginCollection node key value) (r.beginCollection (g.node node) (key.map g.ident) (g.ident value)) :=
  (h.replaceStmt (.foreachLoop node (.collection key value))).beginExpr _

theorem plainName? (h : Like g s r) (t : Token) : r.plainName? (g.token t) = (s.plainName? t).map g.ident := by
  simp only [Session.plainName?, h.gameMode, g.keyword?_token, show (g.token t).kind = t.kind from rfl]
  split
  · next ht => rw [Option.map_some, ← Recast.ident_token ht.1]; rfl
  · rfl

theorem isKeyword (h : Like g s r) (t : Token) (k : Keyword) : (g.token t).isKeyword k r.gameMode = t.isKeyword k s.gameMode := by
  rw [Token.isKeyword, g.keyword?_token, h.gameMode, Token.isKeyword]

theorem iteratorToken (h : Like g s r) (node : Node) (names : IteratorNames) (t : Token) :
    Like g (s.iteratorToken node names t) (r.iteratorToken (g.node node) (g.iteratorNames names) (g.token t)) := by
  simp only [Session.iteratorToken, h.plainName?, h.isKeyword, Recast.isSymbol_token]
  cases names with
  | none =>
    cases s.plainName? t with
    | some name => exact h.iteratorName node (.one name) name
    | none => exact h.rejectToken t _
  | oneMore key =>
    cases s.plainName? t with
    | some name => exact h.iteratorName node (.two key name) name
    | none => exact h.rejectToken t _
  | one name =>
    cases s.plainName? t with
    | some => exact h.rejectToken t _
    | none =>
      exact byCases' (fun _ => h.replaceStmt (.foreachLoop node (.names (.oneMore name)))) fun _ =>
        byCases' (fun _ => h.beginCollection node none name) fun _ => h.rejectToken t _
  | two key value =>
    cases s.plainName? t with
    | some => exact h.rejectToken t _
    | none => exact byCases' (fun _ => h.beginCollection node (some key) value) fun _ => h.rejectToken t _

theorem pushNew (h : Like g s r) (loc : Location) (stmt stmt' : Node → PendingStmt)
    (hstmt : ∀ node, stmt' (g.node node) = g.pendingStmt (stmt node)) :
    Like g (s.pushNew loc stmt) (r.pushNew (g.loc loc) stmt') := by
  have := (h.withNode loc).pushStmt (stmt (s.withNode loc).1)
  rwa [← hstmt, ← h.newNode] at this

theorem openSwitchBody (h : Like g s r) (t : Token) : Like g (s.openSwitchBody t) (r.openSwitchBody (g.token t)) :=
  h.expect t _ _ fun _ =>
    h.pushNew t.loc (fun node => .block ⟨node, .switchBody {}, []⟩) (fun node => .block ⟨node, .switchBody {}, []⟩) fun _ => rfl

end Like

def LikeHeader (g : Guise) (o o' : Option Session) : Prop :=
  (o = none ∧ o' = none) ∨ ∃ s r, o = some s ∧ o' = some r ∧ Like g s r

namespace Like

variable {g : Guise} {s r : Session} {t : Token} {loc : Location}

theorem headerToken? (h : Like g s r) (t : Token) : LikeHeader g (s.headerToken? t) (r.headerToken? (g.token t)) := by
  have hstmts := h.stmts
  rcases hs : s.stmts with _ | ⟨top, rest⟩ <;> rw [hs] at hstmts
  · exact .inl (by simp only [Session.headerToken?, hs, hstmts, List.map_nil, and_self])
  have hopen : LikeHeader g (some (s.expect t '(' false Session.openHeader))
      (some (r.expect (g.token t) '(' false Session.openHeader)) :=
    .inr ⟨_, _, rfl, rfl, h.expect t '(' false fun _ => h.openHeader⟩
  cases top with
  | ifStmt node phase =>
    cases phase with
    | start => simpa only [Session.headerToken?, hs, hstmts, List.map_cons, Recast.pendingStmt, Recast.ifPhase] using hopen
    | _ => exact .inl (by simp only [Session.headerToken?, hs, hstmts, List.map_cons, Recast.pendingStmt, Recast.ifPhase, and_self])
  | whileLoop node phase =>
    cases phase with
    | start => simpa only [Session.headerToken?, hs, hstmts, List.map_cons, Recast.pendingStmt, Recast.headerPhase] using hopen
    | _ => exact .inl (by simp only [Session.headerToken?, hs, hstmts, List.map_cons, Recast.pendingStmt, Recast.headerPhase, and_self])
  | forLoop node phase =>
    cases phase with
    | start => simpa only [Session.headerToken?, hs, hstmts, List.map_cons, Recast.pendingStmt, Recast.forPhase] using hopen
    | _ => exact .inl (by simp only [Session.headerToken?, hs, hstmts, List.map_cons, Recast.pendingStmt, Recast.forPhase, and_self])
  | foreachLoop node phase =>
    cases phase with
    | start => simpa only [Session.headerToken?, hs, hstmts, List.map_cons, Recast.pendingStmt, Recast.foreachPhase] using hopen
    | names names =>
      simp only [Session.headerToken?, hs, hstmts, List.map_cons, Recast.pendingStmt, Recast.foreachPhase]
      exact .inr ⟨_, _, rfl, rfl, h.iteratorToken node names t⟩
    | _ => exact .inl (by simp only [Session.headerToken?, hs, hstmts, List.map_cons, Recast.pendingStmt, Recast.foreachPhase, and_self])
  | switch node phase =>
    cases phase with
    | start => simpa only [Session.headerToken?, hs, hstmts, List.map_cons, Recast.pendingStmt, Recast.headerPhase] using hopen
    | body subject =>
      simp only [Session.headerToken?, hs, hstmts, List.map_cons, Recast.pendingStmt, Recast.headerPhase]
      exact .inr ⟨_, _, rfl, rfl, h.openSwitchBody t⟩
    | _ => exact .inl (by simp only [Session.headerToken?, hs, hstmts, List.map_cons, Recast.pendingStmt, Recast.headerPhase, and_self])
  | flow node kind target =>
    simp only [Session.headerToken?, hs, hstmts, List.map_cons, Recast.pendingStmt]
    exact .inr ⟨_, _, rfl, rfl, h.expect t ';' false fun _ => h.popStmt.finishStmt (.flow node kind target)⟩
  | defaultLabel loc =>
    simp only [Session.headerToken?, hs, hstmts, List.map_cons, Recast.pendingStmt]
    exact .inr ⟨_, _, rfl, rfl, h.expect t ':' false fun _ => h.popStmt.addLabel (.default loc) none loc⟩
  | _ => exact .inl (by simp only [Session.headerToken?, hs, hstmts, List.map_cons, Recast.pendingStmt, and_self])

theorem startFlow (h : Like g s r) (kind : FlowKind) (loc : Location) :
    Like g (s.startFlow kind loc) (r.startFlow kind (g.loc loc)) := by
  simp only [Session.startFlow, h.stmts, Recast.flowTarget?_pendingStmts]
  cases flowTarget? s.stmts kind with
  | none => exact (h.report (.refl rfl) loc).enterRecovery
  | some target =>
    exact h.pushNew loc (fun node => .flow node kind target) (fun node => .flow node kind (g.flowTarget target)) fun _ => rfl

theorem inSwitchBody (h : Like g s r) : r.inSwitchBody = s.inSwitchBody := by
  have hstmts := h.stmts
  rcases hs : s.stmts with _ | ⟨top, rest⟩ <;> rw [hs] at hstmts
  · simp only [Session.inSwitchBody, hs, hstmts, List.map_nil]
  cases top with
  | block b =>
    obtain ⟨node, role, statements⟩ := b
    cases role <;>
      simp only [Session.inSwitchBody, hs, hstmts, List.map_cons, Recast.pendingStmt, Recast.pendingBlock, Recast.role]
  | _ => simp only [Session.inSwitchBody, hs, hstmts, List.map_cons, Recast.pendingStmt]

theorem startLabel (h : Like g s r) (k : Keyword) (loc : Location) {next next' : Session → Session}
    (hnext : Like g (next s) (next' r)) : Like g (s.startLabel k loc next) (r.startLabel k (g.loc loc) next') := by
  simp only [Session.startLabel, h.inSwitchBody]
  exact byCases' (fun _ => hnext) fun _ => (h.report (.refl rfl) loc).enterRecovery

theorem startKeyword? (h : Like g s r) (k : Keyword) (loc : Location) :
    LikeHeader g (s.startKeyword? k loc) (r.startKeyword? k (g.loc loc)) := by
  have hnew {stmt stmt' : Node → PendingStmt} (hstmt : ∀ node, stmt' (g.node node) = g.pendingStmt (stmt node)) :
      LikeHeader g (some (s.pushNew loc stmt)) (some (r.pushNew (g.loc loc) stmt')) :=
    .inr ⟨_, _, rfl, rfl, h.pushNew loc _ _ hstmt⟩
  have hcall (keyword : CallKeyword) :
      LikeHeader g (some (s.startKeywordCall keyword loc)) (some (r.startKeywordCall keyword (g.loc loc))) :=
    .inr
      ⟨_, _, rfl, rfl, (h.pushNew loc (fun node => .keywordCall node keyword) (fun node => .keywordCall node keyword) fun _ => rfl).beginExpr
        .keywordArg⟩
  cases k with
  | ifKw | whileKw | forKw | foreachKw | switchKw => exact hnew fun _ => rfl
  | returnKw | waitKw | waitTillFrameEndKw | breakpointKw => exact hcall _
  | breakKw | continueKw => exact .inr ⟨_, _, rfl, rfl, h.startFlow _ loc⟩
  | caseKw => exact .inr ⟨_, _, rfl, rfl, h.startLabel _ loc ((h.pushStmt (.caseLabel loc)).beginExpr _)⟩
  | defaultKw => exact .inr ⟨_, _, rfl, rfl, h.startLabel _ loc (h.pushStmt (.defaultLabel loc))⟩
  | elseKw => exact .inr ⟨_, _, rfl, rfl, (h.report (.refl rfl) loc).enterRecovery⟩
  | _ => exact .inl ⟨rfl, rfl⟩

theorem straySemicolon (h : Like g s r) (t : Token) : Like g (s.straySemicolon t) (r.straySemicolon (g.token t)) := by
  have hreport := h.report (p := .straySemicolon) (.refl rfl) t.loc
  have hstmts := hreport.stmts
  simp only [Session.straySemicolon, show (g.token t).loc = g.loc t.loc from rfl]
  generalize s.report .straySemicolon t.loc = s, r.report .straySemicolon (g.loc t.loc) = r at *
  rcases hs : s.stmts with _ | ⟨top, rest⟩ <;> rw [hs] at hstmts
  · simpa only [hstmts, List.map_nil] using hreport
  · simp only [hstmts, List.map_cons, Recast.awaitsBody_pendingStmt]
    exact byCases' (fun _ => hreport.bindEmptyBody t.loc) fun _ => hreport

theorem awaitElse (h : Like g s r) (node : Node) (condition : Expr) (thenBranch : Stmt) (t : Token) :
    Like g (s.awaitElse node condition thenBranch t)
      (r.awaitElse (g.node node) (g.expr condition) (g.stmt thenBranch) (g.token t)) := by
  simp only [Session.awaitElse, h.isKeyword]
  exact byCases' (fun _ => h.replaceStmt (.ifStmt node (.elseBranch condition thenBranch))) fun _ =>
    (h.popStmt.finishStmt (.ifThen node condition thenBranch)).defer

end Like

end Session

end GameScript
