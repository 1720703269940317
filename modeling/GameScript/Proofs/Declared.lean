import GameScript.Proofs.Frame

namespace GameScript

def foldedConstants (cs : List ConstantDecl) : Constants :=
  (cs.filterMap fun c => c.folded.map fun v => (lowerWord c.name.name, v)).reverse

theorem foldedConstants_append (cs ds : List ConstantDecl) :
    foldedConstants (cs ++ ds) = foldedConstants ds ++ foldedConstants cs := by
  simp [foldedConstants]

def Mode.header? : Mode → Option FunctionHeader
  | root phase => phase.header?
  | body header => some header
  | _ => none

def Mode.inConstant : Mode → Bool
  | root (.constName _) | root (.constEquals ..) | root (.constValue ..) => true
  | _ => false

theorem RootPhase.inConstant_of_header? {phase : RootPhase} {header : FunctionHeader}
    (h : phase.header? = some header) : (Mode.root phase).inConstant = false := by
  cases phase with
  | param | paramEnd | functionEnd => rfl
  | _ => cases h

inductive Adds (s s' : Session) : Prop
  | nothing (hc : s'.script.constants = s.script.constants) (hf : s'.script.functions = s.script.functions)
      (he : s'.constants = s.constants) (ho : s'.output = s.output ∨ ∃ e, s'.output = some (.expression e))
  | constant {c : ConstantDecl} (hm : s.mode.inConstant = true) (hi : s.nextId ≤ c.node.id)
      (hi' : c.node.id < s'.nextId) (hm' : s'.mode = .root .idle) (hst : s'.stmts = s.stmts)
      (hc : s'.script.constants = s.script.constants ++ [c]) (hf : s'.script.functions = s.script.functions)
      (he : s'.constants = foldedConstants [c] ++ s.constants) (ho : s'.output = s.output)
  | function {header : FunctionHeader} {body : Option Block} (hm : s.mode.header? = some header)
      (hb : ∀ b ∈ body, s.stmts = [.block ⟨b.node, .functionBody, b.statements.reverse⟩])
      (hc : s'.script.constants = s.script.constants) (he : s'.constants = s.constants)
      (hm' : s'.mode = .root .idle) (hst : s'.stmts = [])
      (hf : s.config.target = .function ∧ s'.script.functions = s.script.functions ∧
          s'.output = some (.function (header.define body)) ∨
        s'.script.functions = s.script.functions ++ [header.define body] ∧ s'.output = s.output)
  | finish (hm' : s'.mode = .done) (hs : s'.script = {}) (he : s'.constants = s.constants)
      (hst : s'.stmts = s.stmts) (ho : s'.output = some (.script s.script))

structure Declares (s s' : Session) : Prop where
  ids : s.nextId ≤ s'.nextId
  header : ∀ h' ∈ s'.mode.header?, (∃ h ∈ s.mode.header?, h'.node = h.node) ∨
    s.nextId ≤ h'.node.id ∧ h'.node.id < s'.nextId
  constant : s'.mode.inConstant = true → s.mode.inConstant = true ∨ s.config.target ≠ .function
  adds : Adds s s'

theorem Shift.le {config : ParserConfig} {id id' : Nat} {x y : ExprState} {ts : List Token}
    (h : Shift config id x ts id' y) : id ≤ id' := by
  cases h with
  | literal | plainName | receiver | memberName | functionName | suffix => exact Nat.le_succ _
  | nextItem hf | nextArg hf | nextElement hf | closePointer hf | binary hf => exact hf.le
  | closeGroup hf | closeTruple hf | closeArgs hf | closeIndex hf | closeArray hf => exact Nat.le_succ_of_le hf.le
  | _ => exact Nat.le_refl _

namespace Declares

variable {s s' : Session}

theorem keep (hi : s.nextId ≤ s'.nextId)
    (hm : s'.mode = s.mode ∨ s'.mode.header? = none ∧ s'.mode.inConstant = false)
    (hc : s'.script.constants = s.script.constants) (hf : s'.script.functions = s.script.functions)
    (he : s'.constants = s.constants) (ho : s'.output = s.output ∨ ∃ e, s'.output = some (.expression e)) :
    Declares s s' := by
  refine ⟨hi, ?_, ?_, .nothing hc hf he ho⟩
  · obtain hm | ⟨hm, -⟩ := hm <;> rw [hm]
    · exact fun h hh => .inl ⟨h, hh, rfl⟩
    · simp
  · obtain hm | ⟨-, hm⟩ := hm <;> rw [hm]
    · exact .inl
    · simp

theorem phase {t : Token} {p p' : RootPhase} (h : s.AtRoot p) (hp : Passes s t p p') : Declares s (s.inRoot p') := by
  refine ⟨Nat.le_refl _, ?_, ?_, .nothing rfl rfl rfl (.inl rfl)⟩
  · rw [h.mode]
    cases hp with
    | mark | param | bareDots | noParams | nextParam | closeParams =>
      rintro _ ⟨⟩
      exact .inl ⟨_, rfl, rfl⟩
    | _ => simp [Session.inRoot, Mode.header?, RootPhase.header?]
  · rw [h.mode]
    cases hp with
    | constKeyword hc => exact fun _ => .inr hc
    | constName => exact fun _ => .inl rfl
    | _ => simp [Session.inRoot, Mode.inConstant]

end Declares

namespace Session

theorem enterRecovery_mode (s : Session) :
    s.enterRecovery.mode = s.mode ∨ s.enterRecovery.mode.header? = none ∧ s.enterRecovery.mode.inConstant = false := by
  unfold enterRecovery
  simp only [clearExpr]
  split
  · exact .inl rfl
  · exact .inr ⟨rfl, rfl⟩
  · exact .inr ⟨rfl, rfl⟩
  · exact .inr ⟨rfl, rfl⟩
  · exact .inl rfl

theorem resync_mode (s : Session) (t : Token) : (s.resync t).mode = s.enterRecovery.mode := by
  unfold resync
  simp only
  split
  · next r _ =>
    obtain ⟨_, _, -, he⟩ := s.enterRecovery.recoverToken_eq r t
    rw [he]
  · rfl

theorem addConstant_adds (s : Session) (loc : Location) (name : Ident) (value : Expr) :
    ∃ warned failed halted, s.addConstant loc name value =
        { s with warned := warned, failed := failed, halted := halted } ∨
      ∃ c : ConstantDecl, c.node.id = s.nextId ∧ s.addConstant loc name value = { s with
        nextId := s.nextId + 1, constants := foldedConstants [c] ++ s.constants,
        script := { s.script with constants := s.script.constants ++ [c] },
        warned := warned, failed := failed, halted := halted } := by
  unfold addConstant
  split
  · rw [report_eq]
    exact ⟨_, _, _, .inl rfl⟩
  · simp only
    split
    · exact ⟨_, _, _, .inr ⟨⟨⟨s.nextId, loc⟩, name, _, _⟩, rfl, rfl⟩⟩
    · rw [report_eq]
      exact ⟨_, _, _, .inr ⟨⟨⟨s.nextId, loc⟩, name, _, none⟩, rfl, rfl⟩⟩

theorem functions_addDeclaration (script : Script) (d : Declaration) :
    { script with declarations := script.declarations ++ [d] }.functions =
      script.functions ++ match d with
        | .function f => [f]
        | .directive _ => [] := by
  cases d <;> simp [Script.functions]

theorem declares_defineFunction {s s' : Session} {header : FunctionHeader} {body : Option Block}
    (hi : s'.nextId = s.nextId) (hc : s'.config = s.config) (hs : s'.script = s.script)
    (he : s'.constants = s.constants) (ho : s'.output = s.output) (hm : s.mode.header? = some header)
    (hb : ∀ b ∈ body, s.stmts = [.block ⟨b.node, .functionBody, b.statements.reverse⟩])
    (hm' : s'.mode = .root .idle) (hst : s'.stmts = []) :
    Declares s (s'.defineFunction (header.define body)) := by
  unfold defineFunction
  split
  · next ht =>
    refine ⟨Nat.le_of_eq hi.symm, by simp [hm', Mode.header?, RootPhase.header?], by simp [hm', Mode.inConstant], ?_⟩
    exact .function hm hb (by rw [hs]) he hm' hst (.inl ⟨hc ▸ ht, by rw [hs], rfl⟩)
  split
  · rw [report_eq]
    exact .keep (Nat.le_of_eq hi.symm) (.inr (by simp [hm', Mode.header?, RootPhase.header?, Mode.inConstant]))
      (by rw [hs]) (by rw [hs]) he (.inl ho)
  · refine ⟨Nat.le_of_eq hi.symm, by simp [addDeclaration, hm', Mode.header?, RootPhase.header?],
      by simp [addDeclaration, hm', Mode.inConstant], ?_⟩
    exact .function hm hb (by rw [← hs]; rfl) he hm' hst
      (.inr ⟨by rw [← hs]; exact functions_addDeclaration _ _, ho⟩)

end Session

theorem Adds.stmts_constants {s s' : Session} (h : Adds s s') (hs : s.Shaped) :
    s'.stmts = [] ∨ s'.constants = s.constants := by
  cases h with
  | nothing _ _ he | function _ _ _ he | finish _ _ he => exact .inr he
  | constant hm _ _ _ hst =>
    refine .inl (hst.trans (hs.stmts_nil fun header hb => ?_))
    rw [hb] at hm
    cases hm

theorem Turn.declares {s s' : Session} {t : Token} (h : Turn s t s') (hs : s.Shaped) : Declares s s' := by
  -- A constant, a function and the end of the script declare something, and nothing else does.
  cases h with
  | skip hr =>
    obtain ⟨_, _, -, he⟩ := s.recoverToken_eq _ t
    rw [he]
    exact .keep (Nat.le_refl _) (.inl rfl) rfl rfl rfl (.inl rfl)
  | shift _ _ h => exact .keep h.le (.inl rfl) rfl rfl rfl (.inl rfl)
  | truncate _ h hf =>
    obtain ⟨⟨_, _, _, rfl⟩, -⟩ := hf
    obtain ⟨_, _, _, _, _, _, hfold, -⟩ := h.folds
    exact .keep (Nat.le_succ_of_le hfold.le) (.inl rfl) rfl rfl rfl (.inl rfl)
  | halt _ _ hi hf | dropStmt _ _ _ hi hf | dropHeader _ _ _ _ _ hi hf =>
    obtain ⟨⟨_, _, _, rfl⟩, -⟩ := hf
    exact .keep hi (.inl rfl) rfl rfl rfl (.inl rfl)
  | dropConstant _ _ _ hi hf =>
    obtain ⟨⟨_, _, _, rfl⟩, -⟩ := hf
    exact .keep hi (.inr ⟨rfl, rfl⟩) rfl rfl rfl (.inl rfl)
  | @reject _ stream id _ _ hi hf =>
    obtain ⟨⟨warned, failed, halted, rfl⟩, -⟩ := hf
    have hm := Session.enterRecovery_mode { s with
      stream := stream, nextId := id, expr := none, warned := warned, failed := failed, halted := halted }
    rw [← Session.resync_mode _ t] at hm
    obtain ⟨_, _, _, _, -, he⟩ := Session.resync_eq _ t
    rw [he] at hm ⊢
    exact .keep hi hm rfl rfl rfl (.inl rfl)
  | exprStmt _ _ _ he =>
    obtain ⟨_, _, _, _, _, -, hi, rfl⟩ := he.same
    obtain ⟨_, _, _, _, hb⟩ := Session.finishStmt_eq _ _
    rw [hb]
    exact .keep (Nat.le_succ_of_le hi) (.inl rfl) rfl rfl rfl (.inl rfl)
  | keywordCall _ _ _ he =>
    obtain ⟨_, _, _, _, _, -, hi, rfl⟩ := he.same
    obtain ⟨_, _, _, _, hb⟩ := Session.finishStmt_eq _ _
    rw [hb]
    exact .keep hi (.inl rfl) rfl rfl rfl (.inl rfl)
  | supply _ _ _ _ he | clause _ _ _ he =>
    obtain ⟨_, _, _, _, _, -, hi, rfl⟩ := he.same
    exact .keep hi (.inl rfl) rfl rfl rfl (.inl rfl)
  | caseValue _ _ _ he =>
    obtain ⟨_, _, _, _, _, -, hi, rfl⟩ := he.same
    obtain ⟨_, _, _, _, hb⟩ := Session.caseValue_eq _ _ _
    rw [hb]
    exact .keep hi (.inl rfl) rfl rfl rfl (.inl rfl)
  | @constant _ _ e loc name _ hm he =>
    obtain ⟨_, _, _, _, _, -, hi, rfl⟩ := he.same
    obtain ⟨_, _, _, hb | ⟨c, hid, hb⟩⟩ := Session.addConstant_adds (Session.inRoot _ .idle) loc name e <;> rw [hb]
    · exact .keep hi (.inr ⟨rfl, rfl⟩) rfl rfl rfl (.inl rfl)
    · refine ⟨Nat.le_succ_of_le hi, by simp [Session.inRoot, Mode.header?, RootPhase.header?],
        by simp [Session.inRoot, Mode.inConstant], ?_⟩
      refine .constant (by simp [hm, Mode.inConstant]) (hid ▸ hi) ?_ rfl rfl rfl rfl rfl rfl
      rw [hid]
      exact Nat.lt_succ_self _
  | nextArg _ _ he | closeArgs _ _ he =>
    obtain ⟨_, _, _, _, _, -, hi, rfl⟩ := he.same
    exact .keep hi (.inr ⟨rfl, rfl⟩) rfl rfl rfl (.inl rfl)
  | whole _ _ _ he =>
    obtain ⟨_, _, _, _, _, -, hi, rfl⟩ := he.same
    refine .keep hi (.inr ?_) rfl rfl rfl (.inr ⟨_, rfl⟩)
    simp only
    split <;> exact ⟨rfl, rfl⟩
  | @spoilWhole _ _ completed _ _ _ _ _ _ _ hi hf =>
    obtain ⟨⟨_, _, _, rfl⟩, -⟩ := hf
    refine .keep hi (.inr ?_) rfl rfl rfl ?_
    · simp only
      split <;> exact ⟨rfl, rfl⟩
    · cases completed with
      | value e => exact .inr ⟨e, rfl⟩
      | _ => exact .inl rfl
  | iterator =>
    obtain ⟨_, _, _, _, hb⟩ := Session.iteratorName_eq s _ _ _
    rw [hb]
    exact .keep (Nat.le_refl _) (.inl rfl) rfl rfl rfl (.inl rfl)
  | openHeader | nextIterator | iterators | elseBranch | openCase | openDefault =>
    exact .keep (Nat.le_refl _) (.inl rfl) rfl rfl rfl (.inl rfl)
  | openSwitch | openBlock | openStmt | openCall | openFlow =>
    exact .keep (Nat.le_succ _) (.inl rfl) rfl rfl rfl (.inl rfl)
  | flow | closeBlock | noElse =>
    obtain ⟨_, _, _, _, hb⟩ := Session.finishStmt_eq _ _
    rw [hb]
    exact .keep (Nat.le_refl _) (.inl rfl) rfl rfl rfl (.inl rfl)
  | defaultLabel =>
    obtain ⟨_, _, _, _, hb⟩ := Session.addLabel_eq _ _ _ _
    rw [hb]
    exact .keep (Nat.le_refl _) (.inl rfl) rfl rfl rfl (.inl rfl)
  | misplace _ hf =>
    obtain ⟨⟨warned, failed, halted, rfl⟩, -⟩ := hf
    have hm := Session.enterRecovery_mode { s with warned := warned, failed := failed, halted := halted }
    obtain ⟨_, _, _, he⟩ := Session.enterRecovery_eq _
    rw [he] at hm ⊢
    exact .keep (Nat.le_refl _) hm rfl rfl rfl (.inl rfl)
  | straySemicolon | rootSemicolon =>
    rw [Session.report_eq]
    exact .keep (Nat.le_refl _) (.inl rfl) rfl rfl rfl (.inl rfl)
  | emptyBody =>
    rw [Session.report_eq, Session.bindEmptyBody]
    obtain ⟨_, _, _, _, hb⟩ := Session.finishStmt_eq _ _
    simp only
    rw [hb]
    exact .keep (Nat.le_succ _) (.inl rfl) rfl rfl rfl (.inl rfl)
  | missBody _ _ _ hf =>
    obtain ⟨⟨_, _, _, rfl⟩, -⟩ := hf
    rw [Session.bindEmptyBody]
    obtain ⟨_, _, _, _, hb⟩ := Session.finishStmt_eq _ _
    simp only
    rw [hb]
    exact .keep (Nat.le_succ _) (.inl rfl) rfl rfl rfl (.inl rfl)
  | @closeSwitch _ labels statements switch _ rest =>
    obtain ⟨_, _, _, hn⟩ := Session.noteSwitch_eq { s with stmts := rest } switch labels statements t
    obtain ⟨_, _, _, _, hb⟩ := Session.finishStmt_eq _ _
    rw [hb, hn]
    exact .keep (Nat.le_refl _) (.inl rfl) rfl rfl rfl (.inl rfl)
  | closeFunction h hm =>
    refine Session.declares_defineFunction rfl rfl rfl rfl rfl (by rw [hm]; rfl) ?_ rfl rfl
    rintro _ ⟨⟩
    rw [h.stmts, List.reverse_reverse]
  | unbalanced _ _ hf =>
    obtain ⟨⟨_, _, _, rfl⟩, -⟩ := hf
    exact .keep (Nat.le_refl _) (.inl rfl) rfl rfl rfl (.inl rfl)
  | pass h hp => exact .phase h hp
  | spoil h _ hf _ _ hh =>
    obtain ⟨⟨_, _, _, rfl⟩, -⟩ := hf
    obtain rfl | ⟨header, header', hp, hp', hnode⟩ := hh
    · exact .keep (Nat.le_refl _) (.inr ⟨rfl, rfl⟩) rfl rfl rfl (.inl rfl)
    · refine ⟨Nat.le_refl _, ?_, ?_, .nothing rfl rfl rfl (.inl rfl)⟩
      -- What is left of the signature is that of the same function.
      · rw [h.mode]
        intro h' hh'
        obtain rfl : header' = h' := Option.some.inj (hp'.symm.trans hh')
        exact .inl ⟨header, hp, hnode⟩
      · simp [Session.inRoot, RootPhase.inConstant_of_header? hp']
  | dots h =>
    refine ⟨Nat.le_refl _, ?_, by simp [Mode.inConstant], .nothing rfl rfl rfl (.inl rfl)⟩
    rw [h.mode]
    rintro _ ⟨⟩
    exact .inl ⟨_, rfl, rfl⟩
  | importScript => exact .keep (Nat.le_succ _) (.inr ⟨rfl, rfl⟩) rfl rfl rfl (.inl rfl)
  | declarative | bareDirective | directive =>
    refine .keep (Nat.le_succ _) (.inr ⟨rfl, rfl⟩) rfl ?_ rfl (.inl rfl)
    exact (Session.functions_addDeclaration _ _).trans (List.append_nil _)
  | openArgs | globals => exact .keep (Nat.le_refl _) (.inr ⟨rfl, rfl⟩) rfl rfl rfl (.inl rfl)
  | openConstant h =>
    refine ⟨Nat.le_refl _, by simp [Session.inRoot, Session.beginExpr, Mode.header?, RootPhase.header?], ?_,
      .nothing rfl rfl rfl (.inl rfl)⟩
    rw [h.mode]
    exact fun _ => .inl rfl
  | openParams =>
    refine ⟨Nat.le_succ _, ?_, by simp [Mode.inConstant], .nothing rfl rfl rfl (.inl rfl)⟩
    rintro _ ⟨⟩
    exact .inr ⟨Nat.le_refl _, Nat.lt_succ_self _⟩
  | openBody h =>
    refine ⟨Nat.le_succ _, ?_, by simp [Mode.inConstant], .nothing rfl rfl rfl (.inl rfl)⟩
    rw [h.mode]
    rintro _ ⟨⟩
    exact .inl ⟨_, rfl, rfl⟩
  | declare h =>
    refine Session.declares_defineFunction rfl rfl rfl rfl rfl (by rw [h.mode]; rfl) (by simp) rfl ?_
    exact hs.stmts_nil (by simp [h.mode])
  | scriptEnd _ _ hf =>
    obtain ⟨-, rfl⟩ | ⟨⟨_, _, _, rfl⟩, -⟩ := hf <;>
      exact ⟨Nat.le_refl _, by simp [Mode.header?], by simp [Mode.inConstant], .finish rfl rfl rfl rfl rfl⟩
  | functionEnd _ _ hf =>
    obtain ⟨-, rfl, -⟩ | ⟨⟨_, _, _, rfl⟩, -⟩ := hf <;>
      exact .keep (Nat.le_refl _) (.inr ⟨rfl, rfl⟩) rfl rfl rfl (.inl rfl)
  | noExpression _ _ _ hf =>
    obtain ⟨⟨_, _, _, rfl⟩, -⟩ := hf
    exact .keep (Nat.le_refl _) (.inr ⟨rfl, rfl⟩) rfl rfl rfl (.inl rfl)
  | expressionEnd _ _ _ hf =>
    obtain ⟨rfl, -⟩ | ⟨⟨_, _, _, rfl⟩, -⟩ := hf <;>
      exact .keep (Nat.le_refl _) (.inr ⟨rfl, rfl⟩) rfl rfl rfl (.inl rfl)

/-- The constants in front of a function, with their values. -/
def Script.constantsBefore (s : Script) (f : FunctionDef) : Constants :=
  foldedConstants (s.constants.filter fun c => c.node.id < f.node.id)

structure Session.Ordered (s : Session) : Prop where
  constants : s.mode ≠ .done → s.constants = foldedConstants s.script.constants
  constantIds : ∀ c ∈ s.script.constants, c.node.id < s.nextId
  functionIds : ∀ f ∈ s.script.functions, f.node.id < s.nextId
  header : ∀ h ∈ s.mode.header?, h.node.id < s.nextId ∧ ∀ c ∈ s.script.constants, c.node.id < h.node.id
  inConstant : s.mode.inConstant = true → s.config.target ≠ .function
  function : s.config.target = .function → s.script.constants = []

theorem Declares.ordered {s s' : Session} (h : Declares s s') (hs : s.Ordered) (hc : s'.config = s.config)
    (hd : s.mode ≠ .done) : s'.Ordered := by
  obtain ⟨hids, hheader, hconstant, hadds⟩ := h
  have hin : s'.mode.inConstant = true → s'.config.target ≠ .function := by
    rw [hc]
    exact fun hm => (hconstant hm).elim hs.inConstant id
  cases hadds with
  | nothing hcs hfs he =>
    refine ⟨fun _ => ?_, ?_, ?_, ?_, hin, ?_⟩
    · rw [he, hcs]
      exact hs.constants hd
    · rw [hcs]
      exact fun c hmem => Nat.lt_of_lt_of_le (hs.constantIds c hmem) hids
    · rw [hfs]
      exact fun f hmem => Nat.lt_of_lt_of_le (hs.functionIds f hmem) hids
    · intro h' hh'
      rw [hcs]
      obtain ⟨h, hh, hnode⟩ | ⟨hle, hlt⟩ := hheader h' hh'
      · rw [hnode]
        exact ⟨Nat.lt_of_lt_of_le (hs.header h hh).1 hids, (hs.header h hh).2⟩
      · exact ⟨hlt, fun c hmem => Nat.lt_of_lt_of_le (hs.constantIds c hmem) hle⟩
    · rw [hc, hcs]
      exact hs.function
  | constant hm hi hi' hm' _ hcs hfs he =>
    refine ⟨fun _ => ?_, ?_, ?_, by simp [hm', Mode.header?, RootPhase.header?], hin, ?_⟩
    · rw [he, hcs, hs.constants hd, foldedConstants_append]
    · rw [hcs]
      simp only [List.mem_append, List.mem_singleton]
      rintro c (hmem | rfl)
      · exact Nat.lt_of_lt_of_le (hs.constantIds c hmem) hids
      · exact hi'
    · rw [hfs]
      exact fun f hmem => Nat.lt_of_lt_of_le (hs.functionIds f hmem) hids
    · rw [hc]
      exact fun ht => (hs.inConstant hm ht).elim
  | @function header body hm _ hcs he hm' _ hf =>
    refine ⟨fun _ => ?_, ?_, ?_, by simp [hm', Mode.header?, RootPhase.header?], hin, ?_⟩
    · rw [he, hcs]
      exact hs.constants hd
    · rw [hcs]
      exact fun c hmem => Nat.lt_of_lt_of_le (hs.constantIds c hmem) hids
    · have hold : ∀ f ∈ s.script.functions, f.node.id < s'.nextId :=
        fun f hmem => Nat.lt_of_lt_of_le (hs.functionIds f hmem) hids
      obtain ⟨-, hf, -⟩ | ⟨hf, -⟩ := hf <;> rw [hf]
      · exact hold
      · simp only [List.mem_append, List.mem_singleton]
        rintro f (hmem | rfl)
        · exact hold f hmem
        · exact Nat.lt_of_lt_of_le (hs.header header hm).1 hids
    · rw [hc, hcs]
      exact hs.function
  | finish hm' hs' =>
    refine ⟨fun hn => (hn hm').elim, ?_, ?_, by simp [hm', Mode.header?], hin, ?_⟩ <;> simp [hs', Script.functions]

end GameScript
