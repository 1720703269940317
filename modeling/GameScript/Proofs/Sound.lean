import GameScript.Proofs.Handlers

namespace GameScript

namespace PendingStmt

theorem standsOn_open {top below : PendingStmt} (h : top.StandsOn below) (ho : ∀ b, top ≠ block b) :
    below.isOpen = true := by
  cases top with
  | block b => exact (ho b rfl).elim
  | caseLabel | defaultLabel =>
    obtain ⟨_, _, _, rfl⟩ := h
    rfl
  | _ => exact h

theorem inHeader_of_isOpen {p : PendingStmt} (h : p.isOpen = true) : p.inHeader = false := by
  cases p with
  | ifStmt node phase => cases phase <;> simp [isOpen, awaitsBody, inHeader] at h ⊢
  | whileLoop node phase => cases phase <;> simp [isOpen, awaitsBody, inHeader] at h ⊢
  | forLoop node phase => cases phase <;> simp [isOpen, awaitsBody, inHeader] at h ⊢
  | foreachLoop node phase => cases phase <;> simp [isOpen, awaitsBody, inHeader] at h ⊢
  | _ => simp [isOpen, awaitsBody, inHeader] at h ⊢

theorem reads_of_isOpen {p : PendingStmt} (h : p.isOpen = true) : p.reads = none := by
  cases p with
  | ifStmt node phase => cases phase <;> simp [isOpen, awaitsBody, reads] at h ⊢
  | whileLoop node phase => cases phase <;> simp [isOpen, awaitsBody, reads] at h ⊢
  | forLoop node phase => cases phase <;> simp [isOpen, awaitsBody, reads] at h ⊢
  | foreachLoop node phase => cases phase <;> simp [isOpen, awaitsBody, reads] at h ⊢
  | _ => simp [isOpen, awaitsBody, reads] at h ⊢

theorem inHeader_of_reads {p : PendingStmt} {context : ExprContext} (h : p.reads = some context) :
    p.inHeader = true := by
  obtain ⟨-, _, rfl | rfl | rfl⟩ | ⟨_, _, _, _, -, rfl⟩ | ⟨-, _, _, _, rfl⟩ | ⟨-, _, _, rfl⟩ | ⟨-, _, rfl⟩ :=
    reads_cases h <;> rfl

theorem StandsOn.of_open {top below : PendingStmt} (h : below.isOpen = true) (hb : ∀ b, top ≠ block b)
    (hl : ∀ loc, top ≠ caseLabel loc ∧ top ≠ defaultLabel loc) : top.StandsOn below := by
  cases top with
  | block b => exact (hb b rfl).elim
  | caseLabel loc => exact ((hl loc).1 rfl).elim
  | defaultLabel loc => exact ((hl loc).2 rfl).elim
  | _ => exact h

theorem supplied?_shape {top top' : PendingStmt} {e : Expr} (h : top.supplied? e = some top') :
    top'.reads = none ∧ (∀ b, top ≠ block b) ∧ (∀ b, top' ≠ block b) ∧
      ∀ loc, top' ≠ caseLabel loc ∧ top' ≠ defaultLabel loc := by
  unfold supplied? at h
  split at h <;> cases h <;> simp [reads]

theorem opened?_shape {top top' : PendingStmt} {context : Option ExprContext}
    (h : top.opened? = some (top', context)) : top'.reads = context ∧ (∀ b, top ≠ block b) ∧
      (∀ b, top' ≠ block b) ∧ ∀ loc, top' ≠ caseLabel loc ∧ top' ≠ defaultLabel loc := by
  unfold opened? at h
  split at h <;> cases h <;> simp [reads]

theorem begun?_shape {node : Node} {k : Keyword} {new : PendingStmt} (h : begun? node k = some new) :
    new.reads = none ∧ (∀ b, new ≠ block b) ∧ ∀ loc, new ≠ caseLabel loc ∧ new ≠ defaultLabel loc := by
  unfold begun? at h
  split at h <;> cases h <;> simp [reads]

end PendingStmt

theorem Passes.isBare {s : Session} {t : Token} {phase phase' : RootPhase} (h : Passes s t phase phase') :
    phase'.isBare = true := by
  cases h <;> rfl

namespace Session

namespace StackShaped

theorem ne_nil {stmts : List PendingStmt} (h : StackShaped stmts) : stmts ≠ [] := by
  cases h <;> simp

theorem under {top : PendingStmt} {rest : List PendingStmt} (h : StackShaped (top :: rest))
    (hb : ∀ b, top ≠ .block b) :
    ∃ below rest', rest = below :: rest' ∧ below.isOpen = true ∧ StackShaped rest := by
  cases h with
  | bottom => exact (hb _ rfl).elim
  | cons h hs => exact ⟨_, _, rfl, PendingStmt.standsOn_open hs hb, h⟩

theorem replace {top top' : PendingStmt} {rest : List PendingStmt} (h : StackShaped (top :: rest))
    (hb : ∀ b, top ≠ .block b) (hb' : ∀ b, top' ≠ .block b)
    (hl : ∀ loc, top' ≠ .caseLabel loc ∧ top' ≠ .defaultLabel loc) : StackShaped (top' :: rest) := by
  obtain ⟨below, rest', rfl, ho, hrest⟩ := h.under hb
  exact .cons hrest (.of_open ho hb' hl)

theorem block {node : Node} {role role' : BlockRole} {statements statements' : List Stmt}
    {rest : List PendingStmt} (h : StackShaped (.block ⟨node, role, statements⟩ :: rest))
    (hr : role' = role ∨ ∃ labels labels', role = .switchBody labels ∧ role' = .switchBody labels') :
    StackShaped (.block ⟨node, role', statements'⟩ :: rest) := by
  obtain rfl | ⟨labels, labels', rfl, rfl⟩ := hr
  · cases h with
    | bottom => exact .bottom _ _
    | cons h hs => exact .cons h (by cases role' <;> exact hs)
  · cases h with
    | cons h hs => exact .cons h hs

end StackShaped

theorem bind_shape {s : Session} {stmts : List PendingStmt} (stmt : Stmt) (hk : StackShaped stmts)
    (ho : ∀ top ∈ stmts.head?, top.isOpen = true) :
    ∃ top rest warned failed halted, s.bind stmts stmt = { s with
        stmts := top :: rest, warned := warned, failed := failed, halted := halted } ∧
      StackShaped (top :: rest) ∧ top.reads = none := by
  induction stmts generalizing stmt with
  | nil => exact (hk.ne_nil rfl).elim
  | cons top rest ih =>
    have hopen := ho top rfl
    -- Everything but a block and a then branch is complete, and so the statement below it goes on.
    have hrest (hb : ∀ b, top ≠ .block b) :
        StackShaped rest ∧ ∀ below ∈ rest.head?, below.isOpen = true := by
      obtain ⟨below, rest', rfl, hbelow, hrest⟩ := hk.under hb
      exact ⟨hrest, by simpa using hbelow⟩
    unfold bind
    cases top with
    | block b =>
      obtain ⟨node, role, statements⟩ := b
      simp only [addToBlock]
      split
      · split
        · rw [report_eq]
          exact ⟨_, _, _, _, _, rfl, hk, rfl⟩
        · exact ⟨_, _, _, _, _, rfl, hk.block (.inl rfl), rfl⟩
      · exact ⟨_, _, _, _, _, rfl, hk.block (.inl rfl), rfl⟩
    | ifStmt node phase =>
      cases phase with
      | thenBranch condition =>
        exact ⟨_, _, _, _, _, rfl, hk.replace (by simp) (by simp) (by simp), rfl⟩
      | elseBranch condition thenBranch => exact ih _ (hrest (by simp)).1 (hrest (by simp)).2
      | _ => cases hopen
    | whileLoop node phase =>
      cases phase with
      | body => exact ih _ (hrest (by simp)).1 (hrest (by simp)).2
      | _ => cases hopen
    | forLoop node phase =>
      cases phase with
      | body => exact ih _ (hrest (by simp)).1 (hrest (by simp)).2
      | _ => cases hopen
    | foreachLoop node phase =>
      cases phase with
      | body => exact ih _ (hrest (by simp)).1 (hrest (by simp)).2
      | _ => cases hopen
    | _ => cases hopen

structure InBody (s : Session) : Prop where
  mode : ∃ header, s.mode = .body header
  recovery : s.recovery = none
  expr : s.expr = none
  stack : StackShaped s.stmts

theorem InBody.shaped {s : Session} (h : s.InBody) (ht : ∀ top ∈ s.stmts.head?, top.reads = none) :
    s.Shaped := by
  obtain ⟨header, hm⟩ := h.mode
  cases hs : s.stmts with
  | nil => exact (h.stack.ne_nil hs).elim
  | cons top rest => exact .body hm hs h.stack h.recovery (by simp [h.expr, ht top (by simp [hs])])

theorem finishStmt_shaped {s : Session} (stmt : Stmt) (h : s.InBody)
    (ho : ∀ top ∈ s.stmts.head?, top.isOpen = true) : (s.finishStmt stmt).Shaped := by
  obtain ⟨top, rest, warned, failed, halted, hb, hk, ht⟩ := bind_shape (s := s) stmt h.stack ho
  rw [finishStmt, hb]
  exact InBody.shaped ⟨h.mode, h.recovery, h.expr, hk⟩ (by simpa using ht)

theorem bindEmptyBody_shaped {s : Session} (loc : Location) (h : s.InBody)
    (ho : ∀ top ∈ s.stmts.head?, top.isOpen = true) : (s.bindEmptyBody loc).Shaped :=
  finishStmt_shaped _ ⟨h.mode, h.recovery, h.expr, h.stack⟩ ho

theorem addLabel_shaped {s : Session} (label : CaseLabel) (value : Option Value) (loc : Location)
    (h : s.InBody) (ht : ∀ top ∈ s.stmts.head?, top.isOpen = true) : (s.addLabel label value loc).Shaped := by
  have hreads : ∀ top ∈ s.stmts.head?, top.reads = none :=
    fun top htop => PendingStmt.reads_of_isOpen (ht top htop)
  unfold addLabel
  split
  · next node labels statements rest hs =>
    simp only
    split
    · refine InBody.shaped ⟨by simpa using h.mode, by simpa using h.recovery, by simpa using h.expr,
        by simpa using h.stack⟩ (by simpa using hreads)
    · have hk := h.stack
      rw [hs] at hk
      exact InBody.shaped ⟨h.mode, h.recovery, h.expr, hk.block (.inr ⟨_, _, rfl, rfl⟩)⟩
        (by simp [PendingStmt.reads])
  · exact h.shaped hreads

theorem caseValue_shaped {s : Session} (e : Expr) (loc : Location)
    (h : s.InBody) (ht : ∀ top ∈ s.stmts.head?, top.isOpen = true) : (s.caseValue e loc).Shaped := by
  unfold caseValue
  simp only
  split
  · exact addLabel_shaped _ _ _ h ht
  · exact addLabel_shaped _ _ _ ⟨by simpa using h.mode, by simpa using h.recovery, by simpa using h.expr,
      by simpa using h.stack⟩ (by simpa using ht)

inductive Recoverable : Mode → List PendingStmt → Option Recovery → Prop
  | body {header : FunctionHeader} {top : PendingStmt} {rest : List PendingStmt}
      {recovery : Option Recovery} (hk : StackShaped (top :: rest))
      (ht : top.isOpen = true ∨ top.inHeader = true) : Recoverable (.body header) (top :: rest) recovery
  | root {phase : RootPhase} {recovery : Option Recovery} : Recoverable (.root phase) [] recovery
  | expression : Recoverable .expression [] none

theorem recoverToken_shaped {s : Session} {r : Recovery} {t : Token} (h : s.Shaped)
    (hr : s.recovery = some r) : (s.recoverToken r t).Shaped := by
  cases h with
  | bodyRecovery hm hs hk ht hr' he =>
    obtain rfl := Option.some.inj (hr.symm.trans hr')
    have hreads := PendingStmt.reads_of_isOpen ht
    simp only [recoverToken]
    split
    · exact .body hm hs hk rfl (by simp [he, hreads])
    split
    · exact .body hm hs hk rfl (by simp [defer, he, hreads])
    · exact .bodyRecovery hm hs hk ht hr he
  | rootRecovery hm hs hr' he =>
    obtain rfl := Option.some.inj (hr.symm.trans hr')
    have hidle {s' : Session} (hm' : s'.mode = s.mode) (hs' : s'.stmts = s.stmts)
        (hr' : s'.recovery = none) (he' : s'.expr = s.expr) : s'.Shaped :=
      .root (hm'.trans hm) (hs'.trans hs) hr' (by simp [he', he, RootPhase.reads])
    simp only [recoverToken]
    split
    · exact hidle rfl rfl rfl rfl
    split
    · exact .rootRecovery hm hs rfl he
    split
    · split
      · exact hidle rfl rfl rfl rfl
      · exact .rootRecovery hm hs rfl he
    split
    · exact hidle rfl rfl rfl rfl
    · exact .rootRecovery hm hs hr he
  | root _ _ hr' | body _ _ _ hr' | statement _ _ _ _ hr' | expression _ _ hr' | closed _ _ hr' =>
    simp [hr] at hr'

theorem enterRecovery_shaped {s : Session} (h : Recoverable s.mode s.stmts s.recovery) :
    s.enterRecovery.Shaped := by
  unfold enterRecovery
  simp only [clearExpr]
  generalize hm : s.mode = mode at h
  generalize hs : s.stmts = stmts at h
  generalize hr : s.recovery = recovery at h
  cases h with
  | @body header top rest _ hk ht =>
    obtain ⟨top', rest', hdrop, hk', ho⟩ : ∃ top' rest',
        (top :: rest).dropWhile PendingStmt.inHeader = top' :: rest' ∧ StackShaped (top' :: rest') ∧
          top'.isOpen = true := by
      obtain ho | hh := ht
      · exact ⟨top, rest, by simp [PendingStmt.inHeader_of_isOpen ho], hk, ho⟩
      · obtain ⟨below, rest', rfl, ho, hrest⟩ := hk.under (by rintro b rfl; cases hh)
        exact ⟨below, rest', by simp [hh, PendingStmt.inHeader_of_isOpen ho], hrest, ho⟩
    simp only [hdrop]
    exact .bodyRecovery rfl rfl hk' ho rfl rfl
  | root => exact .rootRecovery rfl rfl rfl rfl
  | expression => exact .closed (.inr rfl) rfl rfl rfl

theorem resync_shaped {s : Session} {t : Token} (h : Recoverable s.mode s.stmts s.recovery) :
    (s.resync t).Shaped := by
  have hs := enterRecovery_shaped h
  unfold resync
  simp only
  split
  · next r hr => exact recoverToken_shaped hs hr
  · exact hs

theorem Shaped.congr {s s' : Session} (h : s.Shaped) (hm : s'.mode = s.mode) (hs : s'.stmts = s.stmts)
    (hr : s'.recovery = s.recovery) (he : s'.expr = s.expr) : s'.Shaped := by
  cases h with
  | root hm' hs' hr' he' =>
    exact .root (hm.trans hm') (hs.trans hs') (hr.trans hr') (by rw [he, he'])
  | rootRecovery hm' hs' hr' he' =>
    exact .rootRecovery (hm.trans hm') (hs.trans hs') (hr.trans hr') (he.trans he')
  | body hm' hs' hk hr' he' =>
    exact .body (hm.trans hm') (hs.trans hs') (hs ▸ hk) (hr.trans hr') (by rw [he, he'])
  | statement hm' hs' hk ht hr' he' hx =>
    exact .statement (hm.trans hm') (hs.trans hs') (hs ▸ hk) ht (hr.trans hr') (he.trans he') hx
  | bodyRecovery hm' hs' hk ht hr' he' =>
    exact .bodyRecovery (hm.trans hm') (hs.trans hs') (hs ▸ hk) ht (hr.trans hr') (he.trans he')
  | expression hm' hs' hr' he' =>
    exact .expression (hm.trans hm') (hs.trans hs') (hr.trans hr') (by rw [he]; exact he')
  | closed hm' hs' hr' he' =>
    exact .closed (by rw [hm]; exact hm') (hs.trans hs') (hr.trans hr') (he.trans he')

theorem Shaped.defer {s : Session} (h : s.Shaped) : s.defer.Shaped :=
  h.congr rfl rfl rfl rfl

theorem Shaped.stack {s : Session} {top : PendingStmt} {rest : List PendingStmt} (h : s.Shaped)
    (hs : s.stmts = top :: rest) : (∃ header, s.mode = .body header) ∧ StackShaped (top :: rest) := by
  cases h with
  | body hm _ hk | statement hm _ hk | bodyRecovery hm _ hk => exact ⟨⟨_, hm⟩, hs ▸ hk⟩
  | root _ hs' | rootRecovery _ hs' | expression _ hs' | closed _ hs' => simp [hs] at hs'

theorem Shaped.stmts_nil {s : Session} (h : s.Shaped) (hm : ∀ header, s.mode ≠ .body header) :
    s.stmts = [] := by
  cases h with
  | root _ hs | rootRecovery _ hs | expression _ hs | closed _ hs => exact hs
  | body hm' | statement hm' | bodyRecovery hm' => exact (hm _ hm').elim

theorem Reading.recovery {s : Session} {t : Token} {x : ExprState} (h : s.Reading t x) :
    s.recovery = none := by
  cases h with
  | further hr => exact hr
  | statement h => exact h.recovery
  | whole hr => exact hr

theorem Reading.open_of_statement {s : Session} {t : Token} {x : ExprState} (hs : s.Shaped)
    (h : s.Reading t x) (hc : x.context = .statement) :
    ∃ header top rest, s.mode = .body header ∧ s.stmts = top :: rest ∧ top.isOpen = true ∧
      StackShaped s.stmts := by
  cases h with
  | statement h =>
    obtain ⟨⟨header, hm⟩, hk⟩ := hs.stack h.stmts
    exact ⟨header, _, _, hm, h.stmts, h.opened, h.stmts ▸ hk⟩
  | whole => cases hc
  | further hr hx =>
    cases hs with
    | statement hm hst hk ht => exact ⟨_, _, _, hm, hst, ht, hk⟩
    | root _ _ _ he =>
      simp only [hx, Option.map_some, hc] at he
      rename_i phase _ _ _
      cases phase <;> simp [RootPhase.reads] at he
    | body _ _ _ _ he =>
      simp only [hx, Option.map_some, hc] at he
      simpa using PendingStmt.reads_cases he.symm
    | expression _ _ _ he => simpa [hc] using he x hx
    | rootRecovery _ _ _ he | bodyRecovery _ _ _ _ _ he | closed _ _ _ he => simp [hx] at he

theorem Shaped.reject {s : Session} {t : Token} (hs : s.Shaped)
    (hx : (∃ x, s.Reading t x) ∨ (∃ top rest, s.AtHeader top rest ∧ top.inHeader = true) ∨
      ∃ phase, s.AtRoot phase ∧ t.isEof = false) : Recoverable s.mode s.stmts s.recovery := by
  have hbody {top : PendingStmt} {rest : List PendingStmt} (hst : s.stmts = top :: rest)
      (ht : top.isOpen = true ∨ top.inHeader = true) : Recoverable s.mode s.stmts s.recovery := by
    obtain ⟨⟨header, hm⟩, hk⟩ := hs.stack hst
    rw [hm, hst]
    exact .body hk ht
  obtain ⟨x, hx⟩ | ⟨top, rest, h, hh⟩ | ⟨phase, h, -⟩ := hx
  · cases hx with
    | statement h => exact hbody h.stmts (.inl h.opened)
    | whole hr hx hm =>
      rw [hm, hs.stmts_nil (by simp [hm]), hr]
      exact .expression
    | further hr hx =>
      have hs' := hs
      cases hs' with
      | root hm hst =>
        rw [hm, hst]
        exact .root
      | body _ hst _ _ he =>
        rw [hx, Option.map_some] at he
        exact hbody hst (.inr (PendingStmt.inHeader_of_reads he.symm))
      | statement _ hst _ ht => exact hbody hst (.inl ht)
      | expression hm hst hr =>
        rw [hm, hst, hr]
        exact .expression
      | rootRecovery _ _ _ he | bodyRecovery _ _ _ _ _ he | closed _ _ _ he => simp [hx] at he
  · exact hbody h.stmts (.inr hh)
  · rw [h.mode, hs.stmts_nil (by simp [h.mode])]
    exact .root

end Session

theorem Folds.context {p : PendingExpr → Bool} {id id' : Nat} {x y : ExprState} (h : Folds p id x id' y) :
    y.context = x.context := by
  induction h with
  | done => rfl
  | join _ _ _ ih => exact ih

theorem Shift.context {config : ParserConfig} {id id' : Nat} {x y : ExprState} {ts : List Token}
    (h : Shift config id x ts id' y) : y.context = x.context := by
  cases h with
  | closeGroup hf | closeTruple hf | closeArgs hf | nextItem hf | nextArg hf | nextElement hf
  | closePointer hf | closeIndex hf | closeArray hf | binary hf => exact hf.context
  | openArgs =>
    unfold Session.openCall
    split <;> rfl
  | _ => rfl

theorem Truncates.context {id id' : Nat} {x y : ExprState} (h : Truncates id x id' y) :
    y.context = x.context := by
  obtain ⟨_, _, _, _, _, _, hf, -, -, -, rfl⟩ := h.folds
  exact hf.context

namespace Session

theorem Reading.reshape {s s' : Session} {t : Token} {x y : ExprState} (hs : s.Shaped)
    (hx : s.Reading t x) (hm : s'.mode = s.mode) (hst : s'.stmts = s.stmts)
    (hr : s'.recovery = s.recovery) (he : s'.expr = some y) (hy : y.context = x.context) :
    s'.Shaped := by
  have hr' := hr.trans hx.recovery
  cases hx with
  | statement h =>
    obtain ⟨⟨header, hm'⟩, hk⟩ := hs.stack h.stmts
    exact .statement (hm.trans hm') (hst.trans h.stmts) (by rw [hst, h.stmts]; exact hk) h.opened hr' he hy
  | whole _ _ hm' =>
    refine .expression (hm.trans hm') (hst.trans (hs.stmts_nil (by simp [hm']))) hr' ?_
    rw [he]
    rintro _ ⟨⟩
    exact hy
  | further _ hx =>
    cases hs with
    | root hm' hst' _ he' =>
      refine .root (hm.trans hm') (hst.trans hst') hr' ?_
      rw [← he', he, hx, Option.map_some, Option.map_some, hy]
    | body hm' hst' hk _ he' =>
      refine .body (hm.trans hm') (hst.trans hst') (hst ▸ hk) hr' ?_
      rw [← he', he, hx, Option.map_some, Option.map_some, hy]
    | statement hm' hst' hk ht _ he' hc =>
      obtain rfl := Option.some.inj (hx.symm.trans he')
      exact .statement (hm.trans hm') (hst.trans hst') (hst ▸ hk) ht hr' he (hy.trans hc)
    | expression hm' hst' _ he' =>
      refine .expression (hm.trans hm') (hst.trans hst') hr' ?_
      rw [he]
      rintro _ ⟨⟩
      exact hy.trans (he' x hx)
    | rootRecovery _ _ _ he' | bodyRecovery _ _ _ _ _ he' | closed _ _ _ he' => simp [hx] at he'

theorem noteSwitch_eq (s : Session) (switch : Node) (labels : SwitchLabels) (statements : List Stmt)
    (t : Token) : ∃ warned failed halted, s.noteSwitch switch labels statements t =
      { s with warned := warned, failed := failed, halted := halted } := by
  unfold noteSwitch
  simp only
  split <;> split
  · rw [report_eq, report_eq s]
    exact ⟨_, _, _, rfl⟩
  · rw [report_eq]
    exact ⟨_, _, _, rfl⟩
  · rw [report_eq]
    exact ⟨_, _, _, rfl⟩
  · exact ⟨_, _, _, rfl⟩

theorem addConstant_shaped {s : Session} {loc : Location} {name : Ident} {value : Expr} (h : s.Shaped) :
    (s.addConstant loc name value).Shaped := by
  unfold addConstant
  split
  · exact h.congr (by simp) (by simp) (by simp) (by simp)
  · simp only
    split <;> exact h.congr (by simp [withNode]) (by simp [withNode]) (by simp [withNode]) (by simp [withNode])

theorem defineFunction_shaped {s : Session} (f : FunctionDef) (h : s.Shaped) :
    (s.defineFunction f).Shaped := by
  unfold defineFunction
  split
  · exact h.congr rfl rfl rfl rfl
  split
  · exact h.congr (by simp) (by simp) (by simp) (by simp)
  · exact h.congr rfl rfl rfl rfl

theorem shaped_of_root {s : Session} {phase : RootPhase} (hm : s.mode = .root phase) (hs : s.stmts = [])
    (hr : s.recovery = none) (he : s.expr = none) (hp : phase.reads = none) : s.Shaped :=
  .root hm hs hr (by rw [he, hp]; rfl)

theorem AtRoot.stmts {s : Session} {phase : RootPhase} (h : s.AtRoot phase) (hs : s.Shaped) :
    s.stmts = [] :=
  hs.stmts_nil (by simp [h.mode])

theorem AtStatement.inBody {s : Session} {top : PendingStmt} {rest : List PendingStmt}
    (h : s.AtStatement top rest) (hs : s.Shaped) : s.InBody := by
  refine ⟨h.mode, h.recovery, h.expr, ?_⟩
  rw [h.stmts]
  exact (hs.stack h.stmts).2

theorem AtHeader.inBody {s : Session} {top : PendingStmt} {rest : List PendingStmt}
    (h : s.AtHeader top rest) (hs : s.Shaped) : s.InBody := by
  refine ⟨h.mode, h.recovery, h.expr, ?_⟩
  rw [h.stmts]
  exact (hs.stack h.stmts).2

end Session

theorem Ends.inBody {s s' : Session} {t : Token} {x : ExprState} {completed : Completed}
    {top : PendingStmt} {rest : List PendingStmt} (he : Ends s x s' completed) (hs : s.Shaped)
    (hx : s.Reading t x) (hst : s.stmts = top :: rest) : s'.InBody := by
  obtain ⟨_, _, _, _, _, -, -, rfl⟩ := he.same
  obtain ⟨hm, hk⟩ := hs.stack hst
  exact ⟨hm, hx.recovery, rfl, hst ▸ hk⟩

/-- A turn that halts the session may leave its parts as they are, without the expression. -/
theorem Turn.shaped_of_not_stopped {s s' : Session} {t : Token} (h : Turn s t s') (hs : s.Shaped)
    (hh : ¬(s'.halted = true ∧ s'.mode = s.mode ∧ s'.stmts = s.stmts)) : s'.Shaped := by
  -- A turn changes, pushes or pops the innermost entry; what is below the popped one is open, unless that is a block.
  cases h with
  | skip hr => exact Session.recoverToken_shaped hs hr
  -- Expressions
  | shift hx _ h => exact hx.reshape hs rfl rfl rfl rfl h.context
  | truncate hx h hf =>
    obtain ⟨⟨_, _, _, rfl⟩, -⟩ := hf
    exact hx.reshape hs rfl rfl rfl rfl h.context
  | halt _ _ _ hf hhalt =>
    obtain ⟨⟨_, _, _, rfl⟩, -⟩ := hf
    exact (hh ⟨hhalt, rfl, rfl⟩).elim
  | reject hx hst hi hf =>
    obtain ⟨⟨_, _, _, rfl⟩, -⟩ := hf
    exact Session.resync_shaped (hs.reject hx)
  -- Ends of expressions
  | exprStmt hx hc hm he =>
    obtain ⟨header, top, rest, hm, hst, ht, hk⟩ := hx.open_of_statement hs hc
    obtain ⟨_, _, _, _, _, -, -, rfl⟩ := he.same
    exact Session.finishStmt_shaped _ ⟨⟨header, hm⟩, hx.recovery, rfl, hk⟩ (by simpa [hst] using ht)
  | dropStmt hx hc _ _ hf =>
    obtain ⟨header, top, rest, hm, hst, ht, hk⟩ := hx.open_of_statement hs hc
    obtain ⟨⟨_, _, _, rfl⟩, -⟩ := hf
    exact Session.InBody.shaped ⟨⟨header, hm⟩, hx.recovery, rfl, hk⟩
      (by simpa [hst] using PendingStmt.reads_of_isOpen ht)
  | supply hx hst hc _ he hp =>
    obtain ⟨⟨header, hm⟩, hk⟩ := hs.stack hst
    obtain ⟨_, _, _, _, _, -, -, rfl⟩ := he.same
    obtain ⟨hr, hb, hb', hl⟩ := PendingStmt.supplied?_shape hp
    exact .body hm rfl (hk.replace hb hb' hl) hx.recovery hr.symm
  | @clause _ _ _ _ clause _ _ _ hx hst hc he =>
    obtain ⟨⟨header, hm⟩, hk⟩ := hs.stack hst
    obtain ⟨_, _, _, _, _, -, -, rfl⟩ := he.same
    refine .body hm rfl (hk.replace (by simp) (by simp) (by simp)) hx.recovery ?_
    cases clause <;> rfl
  | keywordCall hx hst hc he =>
    have hb := he.inBody hs hx hst
    obtain ⟨below, rest, rfl, ho, hk⟩ := (hs.stack hst).2.under (by simp)
    exact Session.finishStmt_shaped _ ⟨hb.mode, hb.recovery, hb.expr, hk⟩ (by simpa using ho)
  | caseValue hx hst hc he =>
    have hb := he.inBody hs hx hst
    obtain ⟨below, rest, rfl, ho, hk⟩ := (hs.stack hst).2.under (by simp)
    exact Session.caseValue_shaped _ _ ⟨hb.mode, hb.recovery, hb.expr, hk⟩ (by simpa using ho)
  | dropHeader hx hst hh hc hs' hi hf =>
    obtain ⟨hm, hk⟩ := hs.stack hst
    obtain ⟨⟨_, _, _, rfl⟩, -⟩ := hf
    -- A block reads no header.
    obtain ⟨below, rest, rfl, ho, hk⟩ := hk.under (by rintro b rfl; cases hh)
    exact Session.InBody.shaped ⟨hm, hx.recovery, rfl, hk⟩
      (by simpa using PendingStmt.reads_of_isOpen ho)
  | constant hx hm he =>
    obtain ⟨_, _, _, _, _, -, -, rfl⟩ := he.same
    exact Session.addConstant_shaped
      (Session.shaped_of_root rfl (hs.stmts_nil (by simp [hm])) hx.recovery rfl rfl)
  | dropConstant hx hm _ _ hf =>
    obtain ⟨⟨_, _, _, rfl⟩, -⟩ := hf
    exact Session.shaped_of_root rfl (hs.stmts_nil (by simp [hm])) hx.recovery rfl rfl
  | nextArg hx hm he =>
    obtain ⟨_, _, _, _, _, -, -, rfl⟩ := he.same
    exact .root rfl (hs.stmts_nil (by simp [hm])) hx.recovery rfl
  | closeArgs hx hm he =>
    obtain ⟨_, _, _, _, _, -, -, rfl⟩ := he.same
    exact Session.shaped_of_root rfl (hs.stmts_nil (by simp [hm])) hx.recovery rfl rfl
  | whole hx hc hm he =>
    obtain ⟨_, _, _, _, _, -, -, rfl⟩ := he.same
    exact .closed (by simp only; split <;> simp) (hs.stmts_nil (by simp [hm])) hx.recovery rfl
  | spoilWhole hx hc hm _ _ _ hf =>
    obtain ⟨⟨_, _, _, rfl⟩, -⟩ := hf
    exact .closed (by simp only; split <;> simp) (hs.stmts_nil (by simp [hm])) hx.recovery rfl
  -- Headers
  | openHeader h ho =>
    obtain ⟨⟨header, hm⟩, hk⟩ := hs.stack h.stmts
    obtain ⟨hr, hb, hb', hl⟩ := PendingStmt.opened?_shape ho
    refine .body hm rfl (hk.replace hb hb' hl) h.recovery ?_
    rw [hr, Option.map_map]
    simp [Function.comp_def, Session.fresh]
  | iterator h hn ht =>
    obtain ⟨⟨header, hm⟩, hk⟩ := hs.stack h.stmts
    unfold Session.iteratorName
    simp only [Session.replaceStmt]
    split
    · exact .body (by simpa using hm) rfl (by simpa [h.stmts] using hk.replace (by simp) (by simp) (by simp))
        (by simpa using h.recovery) (by simp [h.expr, PendingStmt.reads])
    · exact .body hm rfl (by simpa [h.stmts] using hk.replace (by simp) (by simp) (by simp)) h.recovery
        (by rw [h.expr]; rfl)
  | nextIterator h =>
    obtain ⟨⟨header, hm⟩, hk⟩ := hs.stack h.stmts
    exact .body hm rfl (hk.replace (by simp) (by simp) (by simp)) h.recovery (by rw [h.expr]; rfl)
  | iterators h =>
    obtain ⟨⟨header, hm⟩, hk⟩ := hs.stack h.stmts
    exact .body hm rfl (hk.replace (by simp) (by simp) (by simp)) h.recovery rfl
  | openSwitch h =>
    obtain ⟨⟨header, hm⟩, hk⟩ := hs.stack h.stmts
    refine .body hm rfl ?_ h.recovery (by rw [h.expr]; rfl)
    rw [h.stmts]
    exact .cons hk ⟨_, _, rfl⟩
  | flow h =>
    have hb := h.inBody hs
    obtain ⟨below, rest, rfl, ho, hk⟩ := (hs.stack h.stmts).2.under (by simp)
    exact Session.finishStmt_shaped _ ⟨hb.mode, hb.recovery, hb.expr, hk⟩ (by simpa using ho)
  | defaultLabel h =>
    have hb := h.inBody hs
    obtain ⟨below, rest, rfl, ho, hk⟩ := (hs.stack h.stmts).2.under (by simp)
    exact Session.addLabel_shaped _ _ _ ⟨hb.mode, hb.recovery, hb.expr, hk⟩ (by simpa using ho)
  | elseBranch h =>
    obtain ⟨⟨header, hm⟩, hk⟩ := hs.stack h.stmts
    exact .body hm rfl (hk.replace (by simp) (by simp) (by simp)) h.recovery (by rw [h.expr]; rfl)
  | noElse h =>
    have hb := h.inBody hs
    obtain ⟨below, rest, rfl, ho, hk⟩ := (hs.stack h.stmts).2.under (by simp)
    exact Session.Shaped.defer (Session.finishStmt_shaped _ ⟨hb.mode, hb.recovery, hb.expr, hk⟩
      (by simpa using ho))
  -- Statements
  | openBlock h =>
    obtain ⟨⟨header, hm⟩, hk⟩ := hs.stack h.stmts
    refine .body hm rfl ?_ h.recovery (by rw [h.expr]; rfl)
    rw [h.stmts]
    exact .cons hk h.opened
  | openStmt h _ hn =>
    obtain ⟨⟨header, hm⟩, hk⟩ := hs.stack h.stmts
    obtain ⟨hr, hb, hl⟩ := PendingStmt.begun?_shape hn
    refine .body hm rfl ?_ h.recovery (by rw [h.expr, hr]; rfl)
    rw [h.stmts]
    exact .cons hk (.of_open h.opened hb hl)
  | openCall h =>
    obtain ⟨⟨header, hm⟩, hk⟩ := hs.stack h.stmts
    refine .body hm rfl ?_ h.recovery rfl
    rw [h.stmts]
    exact .cons hk h.opened
  | openFlow h =>
    obtain ⟨⟨header, hm⟩, hk⟩ := hs.stack h.stmts
    refine .body hm rfl ?_ h.recovery (by rw [h.expr]; rfl)
    rw [h.stmts]
    exact .cons hk h.opened
  | openCase h =>
    obtain ⟨⟨header, hm⟩, hk⟩ := hs.stack h.stmts
    refine .body hm rfl ?_ h.recovery rfl
    rw [h.stmts]
    exact .cons hk ⟨_, _, _, rfl⟩
  | openDefault h =>
    obtain ⟨⟨header, hm⟩, hk⟩ := hs.stack h.stmts
    refine .body hm rfl ?_ h.recovery (by rw [h.expr]; rfl)
    rw [h.stmts]
    exact .cons hk ⟨_, _, _, rfl⟩
  | misplace h hf =>
    obtain ⟨⟨header, hm⟩, hk⟩ := hs.stack h.stmts
    obtain ⟨⟨_, _, _, rfl⟩, -⟩ := hf
    refine Session.enterRecovery_shaped ?_
    simp only [hm, h.stmts]
    exact .body hk (.inl h.opened)
  | straySemicolon => exact hs.congr (by simp) (by simp) (by simp) (by simp)
  | emptyBody h =>
    have hb := h.inBody hs
    exact Session.bindEmptyBody_shaped _ ⟨by simpa using hb.mode, by simpa using hb.recovery,
      by simpa using hb.expr, by simpa using hb.stack⟩ (by simpa [h.stmts] using h.opened)
  | missBody h hb ht hf =>
    have hb := h.inBody hs
    obtain ⟨⟨_, _, _, rfl⟩, -⟩ := hf
    exact Session.Shaped.defer (Session.bindEmptyBody_shaped _
      ⟨hb.mode, hb.recovery, hb.expr, hb.stack⟩ (by simpa [h.stmts] using h.opened))
  | closeBlock h =>
    have hb := h.inBody hs
    obtain ⟨-, hk⟩ := hs.stack h.stmts
    cases hk with
    | cons hk ho =>
      exact Session.finishStmt_shaped _ ⟨hb.mode, hb.recovery, hb.expr, hk⟩
        (by simpa [PendingStmt.StandsOn] using ho)
  | @closeSwitch node labels statements switch subject rest h =>
    have hb := h.inBody hs
    obtain ⟨-, hk⟩ := hs.stack h.stmts
    cases hk with
    | cons hk =>
      -- The switch goes with its body, and is itself no block.
      obtain ⟨below, rest, rfl, ho, hk⟩ := hk.under (by simp)
      obtain ⟨warned, failed, halted, hnote⟩ :=
        Session.noteSwitch_eq { s with stmts := below :: rest } switch labels statements t
      rw [hnote]
      exact Session.finishStmt_shaped _ ⟨hb.mode, hb.recovery, hb.expr, hk⟩ (by simpa using ho)
  | closeFunction h =>
    exact Session.defineFunction_shaped _ (Session.shaped_of_root rfl rfl h.recovery h.expr rfl)
  | unbalanced _ _ hf hhalt =>
    obtain ⟨⟨_, _, _, rfl⟩, -⟩ := hf
    exact (hh ⟨hhalt, rfl, rfl⟩).elim
  -- Declarations
  | pass h hp =>
    exact Session.shaped_of_root rfl (h.stmts hs) h.recovery h.expr (RootPhase.reads_of_isBare hp.isBare)
  | spoil h _ hf hp =>
    obtain ⟨⟨_, _, _, rfl⟩, -⟩ := hf
    exact Session.shaped_of_root rfl (h.stmts hs) h.recovery h.expr (RootPhase.reads_of_isBare hp)
  | rootSemicolon => exact hs.congr (by simp) (by simp) (by simp) (by simp)
  | dots h => exact Session.shaped_of_root rfl (h.stmts hs) h.recovery h.expr rfl
  | importScript h | declarative h | bareDirective h | directive h | globals h | openParams h =>
    exact Session.shaped_of_root rfl (h.stmts hs) h.recovery h.expr rfl
  | openArgs h | openConstant h => exact .root rfl (h.stmts hs) h.recovery rfl
  | openBody h =>
    refine .body rfl rfl ?_ h.recovery (by rw [h.expr]; rfl)
    rw [h.stmts hs]
    exact .bottom _ _
  | declare h =>
    exact Session.defineFunction_shaped _ (Session.shaped_of_root rfl (h.stmts hs) h.recovery h.expr rfl)
  | scriptEnd h _ hf =>
    obtain ⟨-, rfl⟩ | ⟨⟨_, _, _, rfl⟩, -⟩ := hf
    · exact .closed (.inr rfl) (h.stmts hs) h.recovery h.expr
    · exact .closed (.inr rfl) (h.stmts hs) h.recovery h.expr
  | functionEnd h _ hf =>
    obtain ⟨-, rfl, -⟩ | ⟨⟨_, _, _, rfl⟩, -⟩ := hf
    · exact .closed (.inr rfl) (h.stmts hs) h.recovery h.expr
    · exact .closed (.inr rfl) (h.stmts hs) h.recovery h.expr
  -- Lone expressions
  | noExpression hr hx hm hf =>
    obtain ⟨⟨_, _, _, rfl⟩, -⟩ := hf
    exact .closed (.inr rfl) (hs.stmts_nil (by simp [hm])) hr hx
  | expressionEnd hr hx hm hf =>
    obtain ⟨rfl, -⟩ | ⟨⟨_, _, _, rfl⟩, -⟩ := hf
    · exact .closed (.inr rfl) (hs.stmts_nil (by simp [hm])) hr hx
    · exact .closed (.inr rfl) (hs.stmts_nil (by simp [hm])) hr hx

theorem Turn.shaped {s s' : Session} {t : Token} (h : Turn s t s') (hs : s.Shaped)
    (hh : s'.halted = false) : s'.Shaped :=
  h.shaped_of_not_stopped hs (by simp [hh])

end GameScript
