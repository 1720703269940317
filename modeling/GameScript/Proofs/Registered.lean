import GameScript.Proofs.Places
import GameScript.Proofs.Underway

namespace GameScript

theorem Script.functions_push {s : Script} {f : FunctionDef}
    (h : s.functions.Pairwise fun g g' => g.name.same g'.name = false) (hf : s.findFunction? f.name.name = none) :
    (s.functions ++ [f]).Pairwise fun g g' => g.name.same g'.name = false := by
  refine List.pairwise_append.2 ⟨h, List.pairwise_singleton _ _, fun g hg f' hf' => ?_⟩
  obtain rfl := List.mem_singleton.1 hf'
  simpa [Ident.same] using List.find?_eq_none.1 hf g hg

namespace Script.Composed

variable {config : ParserConfig} {s : Script}

theorem empty (config : ParserConfig) : Script.Composed config {} :=
  ⟨by simp, by simp, .nil, ⟨[], [], rfl, .inl ⟨rfl, rfl⟩, by simp⟩, .nil⟩

theorem addImport {d : Directive} (h : s.Composed config) (hd : d.kind.IsImport config.dialect) :
    Script.Composed config { s with imports := s.imports ++ [d] } :=
  ⟨List.forall_mem_append.2 ⟨h.imports, List.forall_mem_singleton.2 hd⟩, h.globals, h.constants, h.declarations,
    h.functions⟩

theorem addGlobals {names : List Ident} (h : s.Composed config) (hn : ∀ n ∈ names, n.IsWord config.dialect) :
    Script.Composed config { s with globals := s.globals ++ names } :=
  ⟨h.imports, List.forall_mem_append.2 ⟨h.globals, hn⟩, h.constants, h.declarations, h.functions⟩

theorem addConstant {node : Node} {name : Ident} {e : Expr} {v : Value} (h : s.Composed config)
    (hn : name.IsWord config.dialect) (hd : (s.constants.any fun c => c.name.same name) = false)
    (he : e.Composed config .constValue) (hv : Fold.evaluate (foldedConstants s.constants).lookup? e = .ok v) :
    Script.Composed config { s with constants := s.constants ++
      [⟨node, name, Fold.noteRead (foldedConstants s.constants).lookup? e, some v⟩] } := by
  have hnew : ∀ c ∈ foldedConstants s.constants, c.1 ≠ lowerWord name.name := by
    intro c hc hname
    obtain ⟨c', hc', hv'⟩ := List.mem_filterMap.1 (List.mem_reverse.1 hc)
    obtain ⟨w, -, rfl⟩ := Option.map_eq_some_iff.1 hv'
    have hsame := List.any_eq_false.1 hd c' hc'
    exact hsame (by simpa [Ident.same, sameWord] using hname)
  have hmore : Constants.Extends (foldedConstants (s.constants ++
      [⟨node, name, Fold.noteRead (foldedConstants s.constants).lookup? e, some v⟩])) (foldedConstants s.constants) := by
    rw [foldedConstants_append]
    exact .cons v hnew
  obtain ⟨marks, ds, hdeclarations, hmarks, hds⟩ := h.declarations
  refine ⟨h.imports, h.globals, .snoc h.constants hn hd he hv, ⟨marks, ds, hdeclarations, hmarks, fun d hd => ?_⟩,
    h.functions⟩
  have hold := hds d hd
  cases d with
  | function f =>
    obtain ⟨before, hbefore, hf⟩ := hold
    exact ⟨before, hmore.trans hbefore, hf⟩
  | directive d => exact hold

theorem addDeclaration {d : Declaration} (h : s.Composed config)
    (hd : d.Composed config (foldedConstants s.constants) s.declarative)
    (hf : ∀ f, d = .function f → s.findFunction? f.name.name = none) :
    Script.Composed config { s with declarations := s.declarations ++ [d] } := by
  obtain ⟨marks, ds, hdeclarations, hmarks, hds⟩ := h.declarations
  refine ⟨h.imports, h.globals, h.constants, ⟨marks, ds ++ [d], by simp [hdeclarations], hmarks,
    List.forall_mem_append.2 ⟨hds, List.forall_mem_singleton.2 hd⟩⟩, ?_⟩
  rw [Session.functions_addDeclaration]
  cases d with
  | directive => simpa using h.functions
  | function f => exact functions_push h.functions (hf f rfl)

theorem mark {d : Declaration} (hs : Session.isFresh s = true) (hd : d.IsMark config.dialect) :
    Script.Composed config { s with declarative := true, declarations := s.declarations ++ [d] } := by
  simp only [Session.isFresh, Bool.and_eq_true, List.isEmpty_iff] at hs
  obtain ⟨⟨⟨himports, hdeclarations⟩, hconstants⟩, hglobals⟩ := hs
  obtain ⟨node, name, rfl, -⟩ := id hd
  refine ⟨by simp [himports], by simp [hglobals], by simp [hconstants, ConstantsComposed.nil],
    ⟨[_], [], by simp [hdeclarations], .inr ⟨rfl, _, hd, rfl⟩, by simp⟩, ?_⟩
  simp [Script.functions, hdeclarations]

end Script.Composed

structure FunctionHeader.Composed (d : Dialect) (h : FunctionHeader) : Prop where
  name : h.name.IsWord d
  params : ParamsComposed d h.params

def RootPhase.Composed (config : ParserConfig) : RootPhase → Prop
  | importPath _ segments awaiting => (∀ n ∈ segments, n.IsWord config.dialect) ∧ (awaiting = false → segments ≠ [])
  | directiveHead _ name => name.IsWord config.dialect ∧ DirectiveName.ofWord? name.name ≠ some .includeFile
  | directiveArgs _ name args | directiveEnd _ name args => (DirectiveKind.withArgs name args).Composed config
  | constEquals _ name | constValue _ name | functionOpen name => name.IsWord config.dialect
  | globals names _ => ∀ n ∈ names, n.IsWord config.dialect
  | param header _ | paramEnd header | functionEnd header => header.Composed config.dialect
  | _ => True

def Mode.Composed (config : ParserConfig) : Mode → Prop
  | root phase => phase.Composed config
  | body header => header.Composed config.dialect
  | _ => True

theorem Passes.composed {s : Session} {t : Token} {phase phase' : RootPhase} (h : Passes s t phase phase')
    (hp : phase.Composed s.config) (hl : t.isEof = false → t.Lexed s.config.dialect) : phase'.Composed s.config := by
  have hword {name : Ident} (ht : s.plainName? t = some name) : name.IsWord s.config.dialect :=
    Session.word_of_plainName? ht (hl (Token.isEof_of_isEdge (Session.plainName?_isEdge ht)))
  cases h with
  | hash | constKeyword => trivial
  | globalKeyword => simp [RootPhase.Composed]
  | functionName _ ht | constName ht => exact hword ht
  | importName => simp [RootPhase.Composed]
  | directiveName ht hn => exact ⟨hword ht, hn⟩
  | segment ht => exact ⟨List.forall_mem_append.2 ⟨hp.1, List.forall_mem_singleton.2 (hword ht)⟩, by simp⟩
  | backslash => exact ⟨hp.1, by simp⟩
  | globalName ht => exact List.forall_mem_append.2 ⟨hp, List.forall_mem_singleton.2 (hword ht)⟩
  | nextGlobal | mark | noParams | nextParam | closeParams => exact hp
  | param _ ht ho =>
    refine ⟨hp.name, .snoc hp.params ?_ (by simp) ho⟩
    rintro _ ⟨⟩
    exact hword ht
  | @bareDots _ _ m _ hm ho =>
    obtain ⟨byRef, variadic, optional⟩ := m
    obtain ⟨rfl, rfl, rfl⟩ : variadic = true ∧ byRef = false ∧ optional = false := hm
    exact ⟨hp.name, .snoc hp.params (by simp) (fun _ => rfl) ho⟩

structure Session.Registered (s : Session) : Prop where
  mode : s.mode.Composed s.config
  body : ∀ header, s.mode = .body header → (s.script.declarative && s.config.target == .script) = false
  script : s.config.target = .script → s.script.Composed s.config
  output : ∀ g ∈ s.output, g.Composed s.config

namespace Session.Registered

variable {s : Session}

theorem phase {b : Session} {phase : RootPhase} (h : s.Registered) (hm : b.mode = .root phase)
    (hp : phase.Composed s.config) (hs : b.script = s.script) (ho : b.output = s.output) (hc : b.config = s.config) :
    b.Registered := by
  refine ⟨?_, by simp [hm], ?_, ?_⟩ <;> rw [hc]
  · rw [hm]
    exact hp
  · rw [hs]
    exact h.script
  · rw [ho]
    exact h.output

theorem idle {b : Session} (h : s.Registered) (hm : b.mode = .root .idle)
    (hs : s.script.Composed s.config → b.script.Composed s.config) (ho : b.output = s.output) (hc : b.config = s.config) :
    b.Registered := by
  refine ⟨?_, by simp [hm], ?_, ?_⟩ <;> rw [hc]
  · rw [hm]
    trivial
  · exact fun ht => hs (h.script ht)
  · rw [ho]
    exact h.output

theorem within {b : Session} (h : s.Registered) (hm : b.mode = s.mode) (hs : b.script = s.script)
    (ho : b.output = s.output) (hc : b.config = s.config) : b.Registered := by
  refine ⟨?_, ?_, ?_, ?_⟩ <;> rw [hc]
  · rw [hm]
    exact h.mode
  · rw [hm, hs]
    exact h.body
  · rw [hs]
    exact h.script
  · rw [ho]
    exact h.output

theorem define {b : Session} {f : FunctionDef} (h : s.Registered) (hord : s.Ordered) (ht : s.config.target ≠ .expression)
    (hd : s.mode ≠ .done) (hm : b.mode = .root .idle) (hs : b.script = s.script) (ho : b.output = s.output)
    (hc : b.config = s.config)
    (hf : ∀ declared, f.body.isNone = declared → f.Composed s.config s.constants declared)
    (hb : s.config.target = .script → f.body.isNone = s.script.declarative)
    (hb' : s.config.target = .function → f.body.isNone = false)
    (hn : b.config.target = .function ∨ b.script.findFunction? f.name.name = none) : (b.defineFunction f).Registered := by
  obtain ⟨htarget, he⟩ | ⟨htarget, he⟩ := defineFunction_new hn <;> rw [he]
  · rw [hc] at htarget
    have hcs : s.constants = [] := by
      rw [hord.constants hd, hord.function htarget]
      rfl
    refine ⟨?_, by simp [hm], ?_, ?_⟩
    · show b.mode.Composed b.config
      rw [hm]
      trivial
    · intro ht'
      rw [show b.config.target = .function from hc ▸ htarget] at ht'
      cases ht'
    · rintro _ ⟨⟩
      show f.Composed b.config [] false
      rw [hc, ← hcs]
      exact hf false (hb' htarget)
  · have hscript : s.config.target = .script := by
      rw [hc] at htarget
      cases htarget' : s.config.target with
      | script => rfl
      | function => exact (htarget htarget').elim
      | expression => exact (ht htarget').elim
    refine h.idle hm (fun hcomposed => ?_) ho hc
    show Script.Composed s.config { b.script with declarations := b.script.declarations ++ [.function f] }
    rw [hs]
    refine hcomposed.addDeclaration ⟨s.constants, ?_, hf _ (hb hscript)⟩ ?_
    · rw [hord.constants hd]
      exact .refl _
    · rintro _ ⟨⟩
      exact hs ▸ hn.resolve_left htarget

end Session.Registered

theorem Advance.registered {s s' : Session} {t : Token} (h : Advance s t s') (hs : s.Registered) (hshaped : s.Shaped)
    (hord : s.Ordered) (hx : s.Phrased) (hst : ∀ p ∈ s.stmts, p.Composed s.config s.constants)
    (hl : t.isEof = false → t.Lexed s.config.dialect) (ht : s.config.target ≠ .expression) : s'.Registered := by
  have hmode {phase : RootPhase} (hm : s.mode = .root phase) : phase.Composed s.config := by
    have h := hs.mode
    rwa [hm] at h
  have hconstants {phase : RootPhase} (hm : s.mode = .root phase) : s.constants = foldedConstants s.script.constants :=
    hord.constants (by simp [hm])
  cases h with
  | shift => exact hs.within rfl rfl rfl rfl
  | exprStmt _ _ he | supply _ _ _ _ he | caseValue _ _ _ he =>
    obtain ⟨_, _, -, rfl⟩ := he.of_value
    exact hs.within rfl rfl rfl rfl
  | clause _ _ _ he hf | keywordCall _ _ _ he hf =>
    obtain ⟨_, _, -, rfl⟩ := he.of_not_failed hf
    exact hs.within rfl rfl rfl rfl
  | constant hread hm he hn hv =>
    -- The value was read for a constant, under the constants so far.
    have hcomposed := (hx.reading hread).ends he
    rw [← Option.some.inj (hread.reads hshaped hm)] at hcomposed
    obtain ⟨_, _, -, rfl⟩ := he.of_value
    refine hs.idle rfl (fun hscript => ?_) rfl rfl
    rw [hconstants hm] at hv ⊢
    exact hscript.addConstant (hmode hm) hn hcomposed hv
  | nextArg hread hm he =>
    have hcomposed := (hx.reading hread).ends he
    rw [← Option.some.inj (hread.reads hshaped hm)] at hcomposed
    obtain ⟨_, _, -, rfl⟩ := he.of_value
    obtain ⟨hname, hinclude, hargs⟩ := hmode hm
    refine hs.phase rfl ⟨hname, hinclude, ?_⟩ rfl rfl rfl
    exact List.forall_mem_append.2 ⟨hargs, List.forall_mem_singleton.2 hcomposed⟩
  | closeArgs hread hm he hf =>
    have hcomposed := (hx.reading hread).ends_value? he
    rw [← Option.some.inj (hread.reads hshaped hm)] at hcomposed
    obtain ⟨_, _, -, rfl⟩ := he.of_not_failed hf
    obtain ⟨hname, hinclude, hargs⟩ := hmode hm
    refine hs.phase rfl ⟨hname, hinclude, ?_⟩ rfl rfl rfl
    exact List.forall_mem_append.2 ⟨hargs, by simpa using hcomposed⟩
  | whole _ _ _ he =>
    obtain ⟨_, _, -, rfl⟩ := he.of_value
    refine ⟨?_, ?_, hs.script, ?_⟩
    · simp only
      split <;> trivial
    · simp only
      split <;> simp
    · rintro _ ⟨⟩
      trivial
  | iterator =>
    obtain ⟨_, _, hw⟩ := Session.iteratorName_warned (s := s) _ _ _
    rw [hw]
    exact hs.within rfl rfl rfl rfl
  | straySemicolon | emptyBody | rootSemicolon =>
    obtain ⟨_, hw⟩ := Session.report_warning (s := s) (p := .straySemicolon) t.loc rfl
    rw [hw]
    exact hs.within rfl rfl rfl rfl
  | @closeSwitch _ labels statements switch _ rest =>
    obtain ⟨_, hw⟩ := Session.noteSwitch_warned (s := { s with stmts := rest }) switch labels statements t
    rw [hw]
    exact hs.within rfl rfl rfl rfl
  | openHeader | nextIterator | iterators | openSwitch | flow | defaultLabel | elseBranch | noElse | openBlock | openStmt
  | openCall | openFlow | openCase | openDefault | closeBlock => exact hs.within rfl rfl rfl rfl
  | @closeFunction node statements header h hm hd =>
    have hheader : header.Composed s.config.dialect := by
      have hcomposed := hs.mode
      rwa [hm] at hcomposed
    have hblock : PendingStmt.Composed s.config s.constants _ := hst _ (h.stmts ▸ List.mem_cons_self)
    refine hs.define hord ht (by simp [hm]) rfl rfl rfl rfl (fun declared hbody => ?_) (fun hscript => ?_) (fun _ => rfl) hd
    · exact ⟨⟨header, rfl⟩, hheader.name, hheader.params, hbody, fun stmt hmem => hblock stmt (List.mem_reverse.1 hmem)⟩
    -- Bodies are read in scripts without the mark only.
    · have hdeclared := hs.body header hm
      rw [hscript] at hdeclared
      exact (show s.script.declarative = false by simpa using hdeclared).symm
  | pass h hp => exact hs.phase rfl (hp.composed (hmode h.mode) hl) rfl rfl rfl
  | dots h =>
    have hheader := hmode h.mode
    exact hs.phase rfl hheader rfl rfl rfl
  | importScript h =>
    obtain ⟨hwords, hne⟩ := hmode h.mode
    exact hs.idle rfl (fun hscript => hscript.addImport ⟨_, rfl, hne rfl, hwords⟩) rfl rfl
  | declarative h hn hfresh =>
    obtain ⟨hname, -⟩ := hmode h.mode
    exact hs.idle rfl (fun _ => .mark hfresh ⟨_, _, rfl, hname, hn⟩) rfl rfl
  | @bareDirective loc name h hn =>
    obtain ⟨hname, hinclude⟩ := hmode h.mode
    refine hs.idle rfl (fun hscript => hscript.addDeclaration ⟨hname, ?_⟩ (by simp)) rfl rfl
    cases hword : DirectiveName.ofWord? name.name with
    | none => rfl
    | some word => cases word <;> contradiction
  | directive h =>
    have hkind := hmode h.mode
    exact hs.idle rfl (fun hscript => hscript.addDeclaration hkind (by simp)) rfl rfl
  | openArgs h =>
    obtain ⟨hname, hinclude⟩ := hmode h.mode
    exact hs.phase rfl ⟨hname, hinclude, by simp⟩ rfl rfl rfl
  | openConstant h =>
    have hname := hmode h.mode
    exact hs.phase rfl hname rfl rfl rfl
  | globals h =>
    have hwords := hmode h.mode
    exact hs.idle rfl (fun hscript => hscript.addGlobals hwords) rfl rfl
  | openParams h =>
    have hname := hmode h.mode
    exact hs.phase rfl ⟨hname, .nil⟩ rfl rfl rfl
  | openBody h hd =>
    have hheader := hmode h.mode
    refine ⟨hheader, ?_, hs.script, hs.output⟩
    rintro _ ⟨⟩
    exact hd
  | @declare header h hd hn =>
    have hheader : header.Composed s.config.dialect := hmode h.mode
    simp only [Bool.and_eq_true, beq_iff_eq] at hd
    refine hs.define hord ht (by simp [h.mode]) rfl rfl rfl rfl (fun declared hbody => ?_) (fun _ => hd.1.symm)
      (fun hf => ?_) (.inr hn)
    · exact ⟨⟨header, rfl⟩, hheader.name, hheader.params, hbody, by simp [FunctionHeader.define, FunctionDef.statements]⟩
    · rw [hd.2] at hf
      cases hf
  | scriptEnd h hc =>
    refine ⟨trivial, by simp, fun _ => .empty _, ?_⟩
    rintro _ ⟨⟩
    refine hs.script ?_
    -- Only where a script was asked for does one end.
    cases htarget : s.config.target with
    | script => rfl
    | function => exact (hc htarget).elim
    | expression => exact (ht htarget).elim
  | functionEnd h => exact ⟨trivial, by simp, hs.script, hs.output⟩
  | expressionEnd _ _ hm => exact ⟨trivial, by simp, hs.script, hs.output⟩

end GameScript
