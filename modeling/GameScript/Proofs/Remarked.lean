import GameScript.Proofs.Nesting
import GameScript.Proofs.Underway

/-!
The warnings of a parse without errors, but for those about stray semicolons, say what there is to remark on in its
tree, in the order of the text. A statement that is being read has its remarks already: a name when it is bound,
what is in the body when that is read, and what is wrong with a switch when it closes.
-/

namespace GameScript

inductive Remark
  | shadowed (name : Ident)
  | emptySwitch (switch : Node)
  | redundantBreak (flow : Node)

inductive Remark.Told : Remark → Diagnostic → Prop
  | shadowed (name : Ident) : Told (.shadowed name) ((Problem.shadowedIterator name.name).diagnose name.loc)
  | emptySwitch (switch : Node) : Told (.emptySwitch switch) (Problem.emptySwitch.diagnose switch.loc)
  | redundantBreak (flow : Node) (closed : Location) :
      Told (.redundantBreak flow) ((Problem.redundantBreak closed).diagnose flow.loc)

def shadowings (outer names : List Ident) : List Remark :=
  (names.filter fun name => outer.any fun n => n.same name).map .shadowed

def lastBreak? (statements : List Stmt) : Option Node :=
  match statements.getLast? with
  | some (.flow node .breakFlow _) => some node
  | _ => none

def Stmt.switchRemarks : Stmt → List Remark
  | switch node _ _ statements cases =>
    (if cases.isEmpty then [.emptySwitch node] else []) ++ (lastBreak? statements).toList.map .redundantBreak
  | _ => []

namespace View

def binds : View → List Ident
  | stmt (.foreachLoop _ key value _ _) => key.toList ++ [value]
  | _ => []

def switchRemarks : View → List Remark
  | stmt s => s.switchRemarks
  | _ => []

def remarks (outer : List Ident) (v : View) : List Remark :=
  shadowings outer v.binds ++ (v.children.attach.flatMap fun ⟨c, _h⟩ => c.remarks (v.binds ++ outer)) ++ v.switchRemarks
termination_by sizeOf v
decreasing_by exact sizeOf_child _h

theorem remarks_eq (outer : List Ident) (v : View) : v.remarks outer =
    shadowings outer v.binds ++ v.children.flatMap (remarks (v.binds ++ outer)) ++ v.switchRemarks := by
  rw [remarks]
  simp [List.flatMap_def]

theorem remarks_of_children {outer : List Ident} {v : View} (hb : v.binds = []) (hs : v.switchRemarks = []) :
    v.remarks outer = v.children.flatMap (remarks outer) := by
  rw [remarks_eq, hb, hs, shadowings, List.filter_nil, List.map_nil, List.nil_append, List.nil_append, List.append_nil]

theorem remarks_expr (outer : List Ident) (e : Expr) : (View.expr e).remarks outer = [] := by
  suffices h : ∀ v : View, ∀ e, v = .expr e → v.remarks outer = [] from h _ e rfl
  intro v
  induction v using View.walk.induct with
  | case1 v ih =>
    rintro e rfl
    rw [remarks_of_children rfl rfl, List.flatMap_eq_nil_iff]
    intro c hc
    obtain ⟨e', -, he'⟩ := List.mem_map.1 hc
    exact ih c hc e' he'.symm

theorem remarks_map_nil {α : Type} {outer : List Ident} {f : α → View} (h : ∀ a, (f a).remarks outer = []) (as : List α) :
    (as.map f).flatMap (remarks outer) = [] := by
  rw [List.flatMap_map, List.flatMap_eq_nil_iff]
  exact fun a _ => h a

theorem remarks_exprs (outer : List Ident) (es : List Expr) : (es.map View.expr).flatMap (remarks outer) = [] :=
  remarks_map_nil (remarks_expr outer) es

theorem remarks_simple {stmt : Stmt} (outer : List Ident) (es : List Expr) (hb : (View.stmt stmt).binds = [])
    (hs : stmt.switchRemarks = []) (hc : stmt.children = es.map View.expr) : (View.stmt stmt).remarks outer = [] := by
  rw [remarks_of_children hb hs, children, hc]
  exact remarks_exprs outer es

def remarksOf (outer : List Ident) (statements : List Stmt) : List Remark :=
  statements.flatMap fun s => (View.stmt s).remarks outer

theorem remarks_block (outer : List Ident) (node : Node) (statements : List Stmt) :
    (View.stmt (.block node statements)).remarks outer = remarksOf outer statements := by
  rw [remarks_of_children rfl rfl, children, Stmt.children, List.flatMap_map]
  rfl

theorem remarks_ifThen (outer : List Ident) (node : Node) (condition : Expr) (thenBranch : Stmt) :
    (View.stmt (.ifThen node condition thenBranch)).remarks outer = (View.stmt thenBranch).remarks outer := by
  rw [remarks_of_children rfl rfl]
  simp [children, Stmt.children, remarks_expr]

theorem remarks_switch (outer : List Ident) (node bodyNode : Node) (subject : Expr) (statements : List Stmt)
    (cases : List Case) : (View.stmt (.switch node subject bodyNode statements cases)).remarks outer =
      remarksOf outer statements ++ (Stmt.switch node subject bodyNode statements cases).switchRemarks := by
  rw [remarks_eq, children, Stmt.children, List.cons_append, List.flatMap_cons, List.flatMap_append, remarks_expr,
    remarks_exprs, List.flatMap_map]
  rfl

theorem remarks_function (f : FunctionDef) : (View.function f).remarks [] = remarksOf [] f.statements := by
  rw [remarks_of_children rfl rfl, children, List.flatMap_append, List.flatMap_map View.stmt,
    remarks_map_nil fun p => remarks_of_children rfl rfl]
  rfl

theorem remarks_script (s : Script) :
    (View.script s).remarks [] = s.functions.flatMap fun f => (View.function f).remarks [] := by
  have hdirective (d : Directive) : (View.directive d).remarks [] = [] := by
    rw [remarks_of_children rfl rfl]
    exact remarks_exprs [] _
  have hconstant (c : ConstantDecl) : (View.constant c).remarks [] = [] := by
    rw [remarks_of_children rfl rfl]
    exact remarks_exprs [] [c.value]
  rw [remarks_of_children rfl rfl, children, List.flatMap_append, List.flatMap_append, remarks_map_nil hdirective,
    remarks_map_nil hconstant, List.nil_append, List.append_nil, List.flatMap_map]
  unfold Script.functions
  induction s.declarations with
  | nil => rfl
  | cons d ds ih =>
    rw [List.flatMap_cons, ih]
    cases d with
    | function f => rfl
    | directive d => rw [Declaration.view, hdirective]; rfl

end View

open View

def Graph.remarks (g : Graph) : List Remark :=
  g.view.remarks []

def PendingStmt.remarks (outer : List Ident) : PendingStmt → List Remark
  | block ⟨_, _, statements⟩ => remarksOf outer statements.reverse
  | ifStmt _ (.awaitElse _ thenBranch) | ifStmt _ (.elseBranch _ thenBranch) => (View.stmt thenBranch).remarks outer
  | foreachLoop _ (.names names) => shadowings outer names.names
  | foreachLoop _ (.collection key value) | foreachLoop _ (.body key value _) => shadowings outer (key.toList ++ [value])
  | _ => []

namespace Session

def bound (stmts : List PendingStmt) : List Ident :=
  stmts.flatMap PendingStmt.iterators

def stackRemarks : List PendingStmt → List Remark
  | [] => []
  | top :: rest => stackRemarks rest ++ top.remarks (bound rest)

end Session

namespace PendingStmt

theorem remarks_complete {top : PendingStmt} {stmt whole : Stmt} (outer : List Ident) (h : top.complete? stmt = some whole) :
    (View.stmt whole).remarks outer = top.remarks outer ++ (View.stmt stmt).remarks (top.iterators ++ outer) := by
  cases top with
  | ifStmt _ phase | whileLoop _ phase | forLoop _ phase | foreachLoop _ phase =>
    cases phase <;> cases h
    rw [remarks_eq]
    simp [children, Stmt.children, remarks_expr, remarks_exprs, remarks, iterators, binds, View.switchRemarks,
      Stmt.switchRemarks, shadowings]
  | _ => cases h

theorem remarks_supplied {top top' : PendingStmt} {e : Expr} (outer : List Ident) (h : top.supplied? e = some top') :
    top'.remarks outer = top.remarks outer := by
  cases top with
  | ifStmt _ phase | whileLoop _ phase | switch _ phase | foreachLoop _ phase =>
    cases phase <;> cases h
    rfl
  | _ => cases h

theorem remarks_opened {top top' : PendingStmt} {context : Option ExprContext} (outer : List Ident)
    (h : top.opened? = some (top', context)) : top.remarks outer = [] ∧ top'.remarks outer = [] := by
  cases top with
  | ifStmt _ phase | whileLoop _ phase | switch _ phase | forLoop _ phase | foreachLoop _ phase =>
    cases phase <;> cases h
    exact ⟨rfl, rfl⟩
  | _ => cases h

theorem remarks_begun {node : Node} {k : Keyword} {new : PendingStmt} (outer : List Ident) (h : begun? node k = some new) :
    new.remarks outer = [] := by
  cases k <;> cases h <;> rfl

end PendingStmt

open Session

theorem Stowed.remarks {stmts stmts' : List PendingStmt} {stmt : Stmt} (h : Stowed stmts stmt stmts') :
    stackRemarks stmts' = stackRemarks stmts ++ (View.stmt stmt).remarks (bound stmts) := by
  induction h with
  | block => simp [stackRemarks, PendingStmt.remarks, bound, PendingStmt.iterators, remarksOf]
  | thenBranch => simp [stackRemarks, PendingStmt.remarks, bound, PendingStmt.iterators]
  | @whole top rest stmts stmt whole hw _ ih =>
    rw [ih, PendingStmt.remarks_complete (bound rest) hw, stackRemarks, List.append_assoc]
    rfl

namespace Session

def remarks (s : Session) : List Remark :=
  s.script.functions.flatMap (fun f => (View.function f).remarks []) ++ s.output.toList.flatMap Graph.remarks ++
    stackRemarks s.stmts

end Session

def Diagnostic.isStray (d : Diagnostic) : Bool :=
  d.message == Problem.straySemicolon.message

namespace Session

/-- The warnings so far, but for stray semicolons. -/
def noted (s : Session) : List Diagnostic :=
  (s.warned.toList.map Complaint.diagnostic).filter fun d => !d.isStray

def Over (s : Session) : Prop :=
  s.mode = .done ∨ s.mode = .expressionEnd ∨ s.mode = .root .idle ∧ s.config.target = .function

structure Remarked (s : Session) : Prop where
  output : s.output = none ∨ s.Over
  functions : s.script.functions = [] ∨ s.output = none ∧ s.config.target ≠ .function ∧ s.mode ≠ .expression
  told : List.Forall₂ Remark.Told s.remarks s.noted

variable {s : Session}

theorem report_pushed {p : Problem} (loc : Location) (hp : p.severity = .warning) :
    s.report p loc = { s with warned := s.warned.push ⟨p, loc, false⟩ } := by
  have hraises : raises s.config p = false := by simp [raises, hp]
  simp [report, record, hraises, Complaint.severity, hp]

theorem report_noted {p : Problem} (loc : Location) (hp : p.severity = .warning) :
    (s.report p loc).noted = s.noted ++ [p.diagnose loc].filter fun d => !d.isStray := by
  have hdiagnostic : Complaint.diagnostic ⟨p, loc, false⟩ = p.diagnose loc := rfl
  simp only [report_pushed loc hp, noted, Array.toList_push, List.map_append, List.filter_append, List.map_cons,
    List.map_nil, hdiagnostic]

theorem report_noted_stray (loc : Location) : (s.report .straySemicolon loc).noted = s.noted := by
  rw [report_noted loc rfl]
  exact List.append_nil _

theorem report_noted_told {p : Problem} (loc : Location) (hp : p.severity = .warning)
    (hm : p.message.toList.head? ≠ some 's') : (s.report p loc).noted = s.noted ++ [p.diagnose loc] := by
  have hstray : (p.diagnose loc).isStray = false := by
    rw [Diagnostic.isStray, beq_eq_false_iff_ne]
    exact fun he => hm (congrArg (fun m => m.toList.head?) he)
  rw [report_noted loc hp, List.filter_singleton, hstray]
  rfl

theorem head?_message_shadowed (name : String) : (Problem.shadowedIterator name).message.toList.head? = some 'i' := by
  have hmessage : (Problem.shadowedIterator name).message =
      "iterator " ++ (Problem.quote name ++ " shadows an enclosing foreach iterator") := String.append_assoc
  have hfirst : "iterator ".toList.head? = some 'i' := by decide
  rw [hmessage, String.toList_append, List.head?_append, hfirst, Option.some_or]

theorem iteratorName_noted {node : Node} {names names' : IteratorNames} {name : Ident} {rest : List PendingStmt}
    (hst : s.stmts = .foreachLoop node (.names names) :: rest) (hn : names.add? name = some names') :
    ∃ rs ds, stackRemarks (s.iteratorName node names' name).stmts = stackRemarks s.stmts ++ rs ∧
      (s.iteratorName node names' name).noted = s.noted ++ ds ∧ List.Forall₂ Remark.Told rs ds := by
  have hbinds : bindsIterator s.stmts name = (bound rest).any fun n => n.same name := by
    rw [hst, bindsIterator, List.any_cons, bound, List.any_flatMap]
    rfl
  refine ⟨shadowings (bound rest) [name], if bindsIterator s.stmts name then
    [(Problem.shadowedIterator name.name).diagnose name.loc] else [], ?_, ?_, ?_⟩
  · rw [iteratorName_stmts, hst]
    simp [stackRemarks, PendingStmt.remarks, IteratorNames.names_add hn, shadowings]
  · unfold iteratorName
    cases bindsIterator s.stmts name with
    | true =>
      have hnoted := report_noted_told (s := s) (p := .shadowedIterator name.name) name.loc rfl (by
        rw [head?_message_shadowed]
        decide)
      exact hnoted
    | false => exact (List.append_nil _).symm
  · rw [hbinds, shadowings, List.filter_singleton]
    cases (bound rest).any fun n => n.same name with
    | true => exact .cons (.shadowed name) .nil
    | false => exact .nil

theorem redundantBreak?_eq {switch : Nat} {statements : List Stmt}
    (hb : ∀ n target, .flow n .breakFlow target ∈ statements.head? → target.id = switch) :
    redundantBreak? switch statements = (lastBreak? statements.reverse).map Node.loc := by
  rw [lastBreak?, List.getLast?_reverse]
  cases statements with
  | nil => rfl
  | cons stmt rest =>
    cases stmt with
    | flow n kind target =>
      cases kind with
      | breakFlow => exact if_pos (hb n target rfl)
      | continueFlow => rfl
    | _ => rfl

theorem noteSwitch_noted {switch : Node} {statements : List Stmt} (subject : Expr) (node : Node) (labels : SwitchLabels)
    (t : Token) (hb : ∀ n target, .flow n .breakFlow target ∈ statements.head? → target.id = switch.id) :
    ∃ ds, (s.noteSwitch switch labels statements t).noted = s.noted ++ ds ∧ List.Forall₂ Remark.Told
      (Stmt.switch switch subject node statements.reverse (closeGroups statements.length labels.groups)).switchRemarks ds := by
  have hempty : ∃ ds, (if (closeGroups statements.length labels.groups).isEmpty then s.report .emptySwitch switch.loc
      else s).noted = s.noted ++ ds ∧ List.Forall₂ Remark.Told
        (if (closeGroups statements.length labels.groups).isEmpty then [.emptySwitch switch] else []) ds := by
    cases (closeGroups statements.length labels.groups).isEmpty with
    | true => exact ⟨_, report_noted_told switch.loc rfl (by decide), .cons (.emptySwitch switch) .nil⟩
    | false => exact ⟨[], (List.append_nil _).symm, .nil⟩
  obtain ⟨ds, hds, htold⟩ := hempty
  unfold noteSwitch
  simp only [Stmt.switchRemarks, redundantBreak?_eq hb]
  generalize (if (closeGroups statements.length labels.groups).isEmpty then s.report .emptySwitch switch.loc else s) = b at *
  cases lastBreak? statements.reverse with
  | none => exact ⟨ds, hds, by simpa using htold⟩
  | some n =>
    refine ⟨ds ++ [(Problem.redundantBreak t.loc).diagnose n.loc], ?_, List.rel_append htold ?_⟩
    · rw [← List.append_assoc, ← hds]
      exact report_noted_told n.loc rfl (show "redundant `break` at the end of a switch".toList.head? ≠ some 's' by decide)
    · exact .cons (.redundantBreak n t.loc) .nil

end Session

namespace Session.Remarked

variable {s b : Session}

theorem same (h : s.Remarked) (hr : b.remarks = s.remarks) (hn : b.noted = s.noted) :
    List.Forall₂ Remark.Told b.remarks b.noted := by
  rw [hr, hn]
  exact h.told

theorem more {rs : List Remark} {ds : List Diagnostic} (h : s.Remarked) (ho : b.output = s.output)
    (hf : b.script.functions = s.script.functions) (hst : stackRemarks b.stmts = stackRemarks s.stmts ++ rs)
    (hn : b.noted = s.noted ++ ds) (hr : List.Forall₂ Remark.Told rs ds) : List.Forall₂ Remark.Told b.remarks b.noted := by
  rw [remarks, ho, hf, hst, hn, ← List.append_assoc]
  exact List.rel_append h.told hr

theorem within {rs : List Remark} {ds : List Diagnostic} (h : s.Remarked) (hm : b.mode = s.mode) (hc : b.config = s.config)
    (ho : b.output = s.output) (hf : b.script.functions = s.script.functions)
    (hst : stackRemarks b.stmts = stackRemarks s.stmts ++ rs) (hn : b.noted = s.noted ++ ds)
    (hr : List.Forall₂ Remark.Told rs ds) : b.Remarked := by
  refine ⟨?_, ?_, h.more ho hf hst hn hr⟩
  · rw [Over, hm, hc, ho]
    exact h.output
  · rw [hm, hc, ho, hf]
    exact h.functions

theorem keep (h : s.Remarked) (hm : b.mode = s.mode) (hc : b.config = s.config) (ho : b.output = s.output)
    (hf : b.script.functions = s.script.functions) (hst : stackRemarks b.stmts = stackRemarks s.stmts)
    (hn : b.noted = s.noted) : b.Remarked :=
  h.within hm hc ho hf (by rw [hst, List.append_nil]) (by rw [hn, List.append_nil]) (.nil : List.Forall₂ Remark.Told [] [])

theorem phase {p : RootPhase} (h : s.Remarked) (hs : s.output = none) (hm : b.mode = .root p) (hc : b.config = s.config)
    (ho : b.output = s.output) (hf : b.script.functions = s.script.functions) (hst : stackRemarks b.stmts = stackRemarks s.stmts)
    (hn : b.noted = s.noted) : b.Remarked := by
  refine ⟨.inl (ho.trans hs), ?_, h.same (by rw [remarks, remarks, ho, hf, hst]) hn⟩
  rw [hf, ho, hc, hm]
  exact h.functions.imp_right fun hg => ⟨hg.1, hg.2.1, by simp⟩

theorem define {f : FunctionDef} (h : s.Remarked) (hs : s.output = none) (hm : b.mode = .root .idle)
    (hc : b.config = s.config) (hscript : b.script = s.script) (ho : b.output = s.output) (hn : b.noted = s.noted)
    (hst : stackRemarks s.stmts = (View.function f).remarks [] ++ stackRemarks b.stmts)
    (hd : b.config.target = .function ∨ b.script.findFunction? f.name.name = none) : (b.defineFunction f).Remarked := by
  obtain ⟨ht, he⟩ | ⟨ht, he⟩ := defineFunction_new hd <;> rw [he]
  · refine ⟨.inr (.inr (.inr ⟨hm, ht⟩)), .inl ?_, h.same ?_ hn⟩
    · rw [hc] at ht
      have hfunctions := h.functions.resolve_right fun hg => hg.2.1 ht
      rwa [← hscript] at hfunctions
    · simp [remarks, Graph.remarks, Graph.view, hs, hst, hscript]
  · refine ⟨.inl (ho.trans hs), .inr ⟨ho.trans hs, ht, by simp [addDeclaration, hm]⟩, h.same ?_ hn⟩
    simp [remarks, addDeclaration, functions_addDeclaration, ho, hs, hst, hscript]

end Session.Remarked

theorem Passes.output_none {s : Session} {t : Token} {phase phase' : RootPhase} (h : Passes s t phase phase')
    (hm : s.mode = .root phase) (hr : s.Remarked) : s.output = none := by
  cases h with
  | hash hc | constKeyword hc | globalKeyword hc => exact hr.output.resolve_right (by simp [Over, hm, hc])
  | functionName hc =>
    obtain ho | hover := hr.output
    · exact ho
    · exact hc (by simpa [Over, hm] using hover)
  | _ => exact hr.output.resolve_right (by simp [Over, hm])

theorem Session.stackRemarks_switch (node switch : Node) (labels : SwitchLabels) (statements : List Stmt) (subject : Expr)
    (rest : List PendingStmt) :
    stackRemarks (.block ⟨node, .switchBody labels, statements⟩ :: .switch switch (.body subject) :: rest) =
      stackRemarks rest ++ remarksOf (bound rest) statements.reverse := by
  simp [stackRemarks, PendingStmt.remarks, bound, PendingStmt.iterators]

theorem Session.StackBuilt.break_target {allow : Bool} {cs : Constants} {node switch : Node} {labels : SwitchLabels}
    {statements : List Stmt} {subject : Expr} {rest : List PendingStmt}
    (h : StackBuilt allow cs (.block ⟨node, .switchBody labels, statements⟩ :: .switch switch (.body subject) :: rest)) :
    ∀ n target, .flow n .breakFlow target ∈ statements.head? → target.id = switch.id := by
  intro n target hhead
  have hb := h.1.2 _ (List.mem_of_mem_head? hhead)
  cases hb with
  | flow ht =>
    obtain rfl : ⟨.switch, switch.id⟩ = target := by simpa [FlowKind.target?, PendingStmt.flowTarget?] using ht
    rfl

theorem Advance.remarked {s s' : Session} {t : Token} {allow : Bool} (h : Advance s t s')
    (hb : StackBuilt allow s.constants s.stmts) (hr : s.Remarked) : s'.Remarked := by
  -- As long as something can be declared, no tree has been put out.
  have hopen (hover : ¬s.Over) : s.output = none := hr.output.resolve_right hover
  cases h with
  | shift => exact hr.keep rfl rfl rfl rfl rfl rfl
  | exprStmt _ _ he _ _ hk =>
    obtain ⟨_, _, -, rfl⟩ := he.of_value
    refine hr.keep rfl rfl rfl rfl ?_ rfl
    rw [hk.remarks, View.remarks_simple _ [_] rfl rfl rfl, List.append_nil]
  | supply _ hst _ _ he hp =>
    obtain ⟨_, _, -, rfl⟩ := he.of_value
    refine hr.keep rfl rfl rfl rfl ?_ rfl
    rw [hst, stackRemarks, stackRemarks, PendingStmt.remarks_supplied _ hp]
  | clause _ hst _ he hf =>
    obtain ⟨_, _, -, rfl⟩ := he.of_not_failed hf
    refine hr.keep rfl rfl rfl rfl ?_ rfl
    rw [hst]
    rfl
  | keywordCall _ hst _ he hf _ _ hk =>
    obtain ⟨_, _, -, rfl⟩ := he.of_not_failed hf
    refine hr.keep rfl rfl rfl rfl ?_ rfl
    rw [hk.remarks, View.remarks_simple _ _ rfl rfl rfl, hst]
    rfl
  | caseValue _ hst _ he =>
    obtain ⟨_, _, -, rfl⟩ := he.of_value
    refine hr.keep rfl rfl rfl rfl ?_ rfl
    rw [hst]
    exact (List.append_nil _).symm
  | constant _ hm he | nextArg _ hm he =>
    obtain ⟨_, _, -, rfl⟩ := he.of_value
    exact hr.phase (hopen (by simp [Over, hm])) rfl rfl rfl rfl rfl rfl
  | closeArgs _ hm he hf =>
    obtain ⟨_, _, -, rfl⟩ := he.of_not_failed hf
    exact hr.phase (hopen (by simp [Over, hm])) rfl rfl rfl rfl rfl rfl
  | whole _ _ hm he =>
    obtain ⟨_, _, -, rfl⟩ := he.of_value
    have hfunctions : s.script.functions = [] := hr.functions.resolve_right fun hg => hg.2.2 hm
    have hout : s.output = none := hopen (by simp [Over, hm])
    refine ⟨.inr ?_, .inl hfunctions, hr.same ?_ rfl⟩
    · simp only [Over]
      split <;> simp
    · simp [Session.remarks, hout, Graph.remarks, Graph.view, View.remarks_expr]
  | openHeader h ho =>
    refine hr.keep rfl rfl rfl rfl ?_ rfl
    rw [h.stmts, stackRemarks, stackRemarks, (PendingStmt.remarks_opened _ ho).1, (PendingStmt.remarks_opened _ ho).2]
  | iterator h hn =>
    obtain ⟨rs, ds, hst, hnoted, htold⟩ := iteratorName_noted h.stmts hn
    obtain ⟨_, _, hw⟩ := Session.iteratorName_warned (s := s) _ _ _
    rw [hw] at hst hnoted ⊢
    exact hr.within rfl rfl rfl rfl hst hnoted htold
  | nextIterator h =>
    refine hr.keep rfl rfl rfl rfl ?_ rfl
    rw [h.stmts]
    rfl
  | iterators h hn =>
    refine hr.keep rfl rfl rfl rfl ?_ rfl
    rw [h.stmts, stackRemarks, stackRemarks, PendingStmt.remarks, PendingStmt.remarks, IteratorNames.names_whole hn]
  | openSwitch | openBlock | openCall | openFlow | openCase | openDefault =>
    exact hr.keep rfl rfl rfl rfl (List.append_nil _) rfl
  | openStmt _ _ hn =>
    refine hr.keep rfl rfl rfl rfl ?_ rfl
    rw [stackRemarks, PendingStmt.remarks_begun _ hn, List.append_nil]
  | flow h _ hk =>
    refine hr.keep rfl rfl rfl rfl ?_ rfl
    rw [hk.remarks, View.remarks_simple _ [] rfl rfl rfl, h.stmts]
    rfl
  | defaultLabel h =>
    refine hr.keep rfl rfl rfl rfl ?_ rfl
    rw [h.stmts]
    exact (List.append_nil _).symm
  | elseBranch h =>
    refine hr.keep rfl rfl rfl rfl ?_ rfl
    rw [h.stmts]
    rfl
  | @noElse _ _ _ rest stmts h _ hk =>
    refine hr.keep rfl rfl rfl rfl ?_ rfl
    show stackRemarks stmts = _
    rw [hk.remarks, View.remarks_ifThen, h.stmts]
    rfl
  | straySemicolon | rootSemicolon =>
    have hnoted := s.report_noted_stray t.loc
    rw [report_pushed t.loc rfl] at hnoted ⊢
    exact hr.keep rfl rfl rfl rfl rfl hnoted
  | emptyBody _ _ _ hk =>
    have hnoted := report_noted_stray (s := s) t.loc
    rw [report_pushed t.loc rfl] at hnoted ⊢
    refine hr.keep rfl rfl rfl rfl ?_ hnoted
    rw [hk.remarks, View.remarks_block]
    exact List.append_nil _
  | closeBlock h _ hk =>
    refine hr.keep rfl rfl rfl rfl ?_ rfl
    rw [hk.remarks, View.remarks_block, h.stmts]
    rfl
  | @closeSwitch node labels statements switch subject rest _ h _ hk =>
    -- The warnings come when the switch closes, and its remarks with it.
    obtain ⟨ds, hnoted, htold⟩ := noteSwitch_noted (s := { s with stmts := rest }) subject node labels t
      (h.stmts ▸ hb).break_target
    obtain ⟨_, hw⟩ := Session.noteSwitch_warned (s := { s with stmts := rest }) switch labels statements t
    rw [hw] at hnoted ⊢
    refine hr.within rfl rfl rfl rfl ?_ hnoted htold
    rw [hk.remarks, View.remarks_switch, h.stmts, stackRemarks_switch, List.append_assoc]
  | closeFunction h hm hd =>
    refine hr.define (hopen (by simp [Over, hm])) rfl rfl rfl rfl rfl ?_ hd
    rw [h.stmts, View.remarks_function]
    exact (List.append_nil _).symm
  | pass h hp => exact hr.phase (hp.output_none h.mode hr) rfl rfl rfl rfl rfl rfl
  | dots h | importScript h | openArgs h | openConstant h | globals h | openParams h =>
    exact hr.phase (hopen (by simp [Over, h.mode])) rfl rfl rfl rfl rfl rfl
  | declarative h | bareDirective h | directive h =>
    refine hr.phase (hopen (by simp [Over, h.mode])) rfl rfl rfl ?_ rfl rfl
    exact (functions_addDeclaration _ _).trans (List.append_nil _)
  | openBody h =>
    have hout := hopen (by simp [Over, h.mode])
    refine ⟨.inl hout, hr.functions.imp_right fun hg => ⟨hout, hg.2.1, by simp⟩, hr.same ?_ rfl⟩
    simp [Session.remarks, stackRemarks, PendingStmt.remarks, remarksOf]
  | declare h _ hn =>
    refine hr.define (hopen (by simp [Over, h.mode])) rfl rfl rfl rfl rfl ?_ (.inr hn)
    rw [View.remarks_function]
    rfl
  | scriptEnd h hc =>
    have hout : s.output = none := hopen (by simp [Over, h.mode, hc])
    refine ⟨.inr (.inl rfl), .inl rfl, hr.same ?_ rfl⟩
    simp [Session.remarks, hout, Graph.remarks, Graph.view, View.remarks_script, Script.functions]
  | functionEnd | expressionEnd =>
    exact ⟨.inr (.inl rfl), hr.functions.imp_right fun hg => ⟨hg.1, hg.2.1, by simp⟩, hr.told⟩

namespace Session

theorem remarked_ofTokens (tokens : List Token) (config : ParserConfig) : (ofTokens tokens config).Remarked :=
  ⟨.inl rfl, .inl rfl, .nil⟩

theorem run_remarked {tokens : List Token} {config : ParserConfig} (hf : (ofTokens tokens config).run.failed.size = 0) :
    (ofTokens tokens config).run.Remarked := by
  suffices h : (ofTokens tokens config).run.recovery = none ∧ (ofTokens tokens config).run.Built ∧
      (ofTokens tokens config).run.Remarked from h.2.2
  refine steps_advances (P := fun s => s.Built ∧ s.Remarked) (sound_ofTokens tokens config) rfl
    ⟨built_ofTokens tokens config, remarked_ofTokens tokens config⟩ ?_ ?_ _ hf
  · rintro s - ⟨hb, hr⟩ -
    exact ⟨hb.withStream _, hr.output, hr.functions, hr.told⟩
  · rintro s s' hs hfin ⟨hb, hr⟩ - hturn hadvance
    have hread := hb.withStream s.stream.read.2
    exact ⟨hturn.session_built (hs.read.shaped (halted_of_isFinished hfin)) (mode_of_isFinished hfin) hread,
      hadvance.remarked hread.stmts ⟨hr.output, hr.functions, hr.told⟩⟩

end Session

/-- The warnings of a parse without errors say what there is to remark on, besides stray semicolons. -/
theorem parse_remarks {tokens : List Token} {config : ParserConfig} (hs : (parse tokens config).isSuccess = true) :
    ∃ g, (parse tokens config).graph = some g ∧
      List.Forall₂ Remark.Told g.remarks ((parse tokens config).warnings.filter fun d => !d.isStray) := by
  obtain ⟨g, hg, ho, hfin, hh, hf⟩ := parse_finished hs
  have hr := run_remarked hf
  have hover := hr.output.resolve_left (by simp [ho])
  have hfunctions := hr.functions.resolve_right (by simp [ho])
  have hstmts : (ofTokens tokens config).run.stmts = [] :=
    (((sound_ofTokens tokens config).after _).shaped hh).stmts_nil fun header hm => by
      obtain h | h | ⟨h, -⟩ := hover <;> cases hm.symm.trans h
  have htold := hr.told
  refine ⟨g, hg, ?_⟩
  rw [Session.remarks, ho, hfunctions, hstmts] at htold
  rw [parse, finish_of_isFinished hfin]
  show List.Forall₂ Remark.Told g.remarks (ofTokens tokens config).run.noted
  simpa [stackRemarks] using htold

theorem parse_remarks_nested :
    let tokens : List Token :=
      [⟨.identifier, "f", ⟨1, 1, 0⟩⟩, ⟨.symbol, "(", ⟨1, 2, 1⟩⟩, ⟨.symbol, ")", ⟨1, 3, 2⟩⟩,
        ⟨.symbol, "\x7b", ⟨1, 4, 3⟩⟩, ⟨.identifier, "foreach", ⟨1, 5, 4⟩⟩, ⟨.symbol, "(", ⟨1, 12, 11⟩⟩,
        ⟨.identifier, "a", ⟨1, 13, 12⟩⟩, ⟨.whitespace, " ", ⟨1, 14, 13⟩⟩, ⟨.identifier, "in", ⟨1, 15, 14⟩⟩,
        ⟨.whitespace, " ", ⟨1, 17, 16⟩⟩, ⟨.identifier, "b", ⟨1, 18, 17⟩⟩, ⟨.symbol, ")", ⟨1, 19, 18⟩⟩,
        ⟨.identifier, "foreach", ⟨1, 20, 19⟩⟩, ⟨.symbol, "(", ⟨1, 27, 26⟩⟩, ⟨.identifier, "A", ⟨1, 28, 27⟩⟩,
        ⟨.whitespace, " ", ⟨1, 29, 28⟩⟩, ⟨.identifier, "in", ⟨1, 30, 29⟩⟩, ⟨.whitespace, " ", ⟨1, 32, 31⟩⟩,
        ⟨.identifier, "c", ⟨1, 33, 32⟩⟩, ⟨.symbol, ")", ⟨1, 34, 33⟩⟩, ⟨.identifier, "switch", ⟨1, 35, 34⟩⟩,
        ⟨.symbol, "(", ⟨1, 41, 40⟩⟩, ⟨.identifier, "d", ⟨1, 42, 41⟩⟩, ⟨.symbol, ")", ⟨1, 43, 42⟩⟩,
        ⟨.symbol, "\x7b", ⟨1, 44, 43⟩⟩, ⟨.identifier, "case", ⟨1, 45, 44⟩⟩, ⟨.whitespace, " ", ⟨1, 49, 48⟩⟩,
        ⟨.number, "1", ⟨1, 50, 49⟩⟩, ⟨.symbol, ":", ⟨1, 51, 50⟩⟩, ⟨.symbol, ";", ⟨1, 52, 51⟩⟩,
        ⟨.identifier, "break", ⟨1, 53, 52⟩⟩, ⟨.symbol, ";", ⟨1, 58, 57⟩⟩, ⟨.symbol, "\x7d", ⟨1, 59, 58⟩⟩,
        ⟨.symbol, "\x7d", ⟨1, 60, 59⟩⟩, Token.endAt ⟨1, 61, 60⟩]
    (parse tokens {}).isSuccess = true ∧
      (∃ g, (parse tokens {}).graph = some g ∧
        List.Forall₂ Remark.Told g.remarks ((parse tokens {}).warnings.filter fun d => !d.isStray)) ∧
      (parse tokens {}).warnings.map Diagnostic.loc = [⟨1, 28, 27⟩, ⟨1, 52, 51⟩, ⟨1, 53, 52⟩] := by
  intro tokens
  have hs : (parse tokens {}).isSuccess = true := by decide +kernel
  exact ⟨hs, parse_remarks hs, by decide +kernel⟩

end GameScript
