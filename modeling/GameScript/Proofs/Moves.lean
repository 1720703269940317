import GameScript.Proofs.Frame

namespace GameScript

namespace Token

theorem isEdge_of_isPlain {t : Token} {mode : GameMode} (h : t.IsPlain mode) : t.isEdge = false :=
  isEdge_of_kind (by simp [h.kind]) (by simp [h.kind])

theorem isEdge_of_literalKind {t : Token} {mode : GameMode} {kind : LiteralKind}
    (h : t.literalKind? mode = some kind) : t.isEdge = false := by
  apply isEdge_of_kind
  · intro hk
    simp [literalKind?, hk] at h
  · intro hk
    simp [literalKind?, hk] at h

theorem isEdge_of_spell {t : Token} {ts : List Token} {text : String} (h : Spell (t :: ts) text)
    (ht : ∀ c ∈ text.toList, c ≠ '\x7b' ∧ c ≠ '\x7d') : t.isEdge = false := by
  have hm : t.symbol? ∈ text.toList.map some := h ▸ List.mem_map_of_mem List.mem_cons_self
  obtain ⟨c, hc, hs⟩ := List.mem_map.1 hm
  exact isEdge_of_isSymbol (isSymbol_iff.2 hs.symm) (ht c hc)

theorem isEof_of_isEdge {t : Token} (h : t.isEdge = false) : t.isEof = false := by
  simp only [isEdge, Bool.or_eq_false_iff] at h
  exact h.2

theorem isEof_of_isSymbol {t : Token} {c : Char} (h : t.isSymbol c = true) : t.isEof = false := by
  rw [isSymbol_iff] at h
  unfold symbol? at h
  split at h
  · next hk => simp [isEof, hk]
  · cases h

end Token

theorem Operator.spelling_no_brace (op : Operator) :
    ∀ c ∈ op.spelling.toList, c ≠ '\x7b' ∧ c ≠ '\x7d' := by
  cases op <;> simp [Operator.spelling]

theorem Shift.isEdge {config : ParserConfig} {id id' : Nat} {x y : ExprState} {t : Token} {ts : List Token}
    (h : Shift config id x (t :: ts) id' y) : t.isEdge = false := by
  cases h with
  | literal _ ht => exact Token.isEdge_of_literalKind ht
  | plainName _ ht | receiver _ _ ht | segment _ ht | functionName _ ht => exact Token.isEdge_of_isPlain ht
  | memberName _ ht => exact Token.isEdge_of_kind (by simp [ht]) (by simp [ht])
  | modifierBehind _ _ _ ht | modifierInLead _ _ _ ht | modifier _ ht => exact Token.isEdge_of_keyword ht
  | pointerBehind _ _ ht | pointerInLead _ _ ht | openPointer _ ht | closePointer _ _ _ ht
  | qualifyPath _ _ ht | qualifyName _ ht | qualifyOwn _ ht => exact Token.isEdge_of_spell ht (by simp)
  | unary _ _ ht | suffix _ _ _ _ ht | assign _ _ _ _ _ ht | binary _ _ _ _ ht =>
    exact Token.isEdge_of_spell ht (Operator.spelling_no_brace _)
  | openPointerArgs _ ht | openGroup _ ht | openArgs _ _ _ ht | closeGroup _ _ _ ht | closeTruple _ _ _ ht
  | closeArgs _ _ _ ht | nextItem _ _ _ _ ht | nextArg _ _ _ ht | nextElement _ _ _ ht
  | openIndex _ _ ht | openArray _ ht | closeIndex _ _ _ ht | closeArray _ _ _ ht | point _ _ ht
  | backslash _ _ ht | firstBackslash _ ht => exact Token.isEdge_of_isSymbol ht (by decide)

theorem Passes.isEdge {s : Session} {t : Token} {phase phase' : RootPhase} (h : Passes s t phase phase') :
    t.isEdge = false := by
  cases h with
  | constKeyword _ ht | globalKeyword _ ht => exact Token.isEdge_of_keyword (by simpa [Token.isKeyword] using ht)
  | functionName _ ht | importName ht | directiveName ht | segment ht | constName ht | globalName ht
  | param _ ht => exact Session.plainName?_isEdge ht
  | mark _ ht =>
    obtain ⟨ht, -⟩ | ⟨ht, -⟩ := ht <;> exact Token.isEdge_of_isSymbol ht (by decide)
  | hash _ ht | backslash ht | nextGlobal ht | bareDots ht | noParams ht | nextParam ht | closeParams ht =>
    exact Token.isEdge_of_isSymbol ht (by decide)

namespace PendingStmt

def isBlock : PendingStmt → Bool
  | block _ => true
  | _ => false

/-- How often a token may be left for later until the statement is finished. -/
def load : PendingStmt → Nat
  | ifStmt _ (.awaitElse ..) => 1
  | _ => 2

theorem load_pos (p : PendingStmt) : 0 < p.load := by
  unfold load
  split <;> decide

theorem load_le (p : PendingStmt) : p.load ≤ 2 := by
  unfold load
  split <;> decide

theorem isBlock_of_awaitsBody {p : PendingStmt} (h : p.awaitsBody = true) : p.isBlock = false := by
  cases p with
  | block => cases h
  | _ => rfl

theorem isBlock_of_inHeader {p : PendingStmt} (h : p.inHeader = true) : p.isBlock = false := by
  cases p with
  | block => cases h
  | _ => rfl

theorem opened?_plain {top top' : PendingStmt} {context : Option ExprContext}
    (h : top.opened? = some (top', context)) : top.isBlock = false ∧ top'.isBlock = false := by
  unfold opened? at h
  split at h <;> cases h <;> exact ⟨rfl, rfl⟩

theorem supplied?_plain {top top' : PendingStmt} {e : Expr} (h : top.supplied? e = some top') :
    top.isBlock = false ∧ top'.isBlock = false := by
  unfold supplied? at h
  split at h <;> cases h <;> exact ⟨rfl, rfl⟩

theorem begun?_plain {node : Node} {k : Keyword} {new : PendingStmt} (h : begun? node k = some new) :
    new.isBlock = false := by
  unfold begun? at h
  split at h <;> cases h <;> rfl

theorem load_of_awaitsBody {p : PendingStmt} (h : p.awaitsBody = true) : p.load = 2 := by
  unfold awaitsBody at h
  split at h <;> first | rfl | cases h

end PendingStmt

def Recovery.depth : Recovery → Nat
  | statement => 0
  | root depth => depth

def Mode.inBody : Mode → Bool
  | body _ => true
  | _ => false

theorem Mode.inBody_iff {mode : Mode} : mode.inBody = true ↔ ∃ header, mode = .body header := by
  cases mode <;> simp [inBody]

namespace Session

def openBlocks (s : Session) : Nat :=
  s.stmts.countP PendingStmt.isBlock

def rootDepth (s : Session) : Nat :=
  (s.recovery.map Recovery.depth).getD 0

def depth (s : Session) : Nat :=
  s.openBlocks + s.rootDepth

def stackLoad : List PendingStmt → Nat
  | [] => 0
  | p :: rest => p.load + stackLoad rest

def load (s : Session) : Nat :=
  stackLoad s.stmts + s.recovery.isSome.toNat + s.expr.isSome.toNat

theorem stackLoad_cons (p : PendingStmt) (rest : List PendingStmt) :
    stackLoad (p :: rest) = p.load + stackLoad rest :=
  rfl

theorem stackLoad_dropWhile (stmts : List PendingStmt) :
    stackLoad (stmts.dropWhile PendingStmt.inHeader) ≤ stackLoad stmts := by
  induction stmts with
  | nil => exact Nat.le_refl _
  | cons top rest ih =>
    rw [List.dropWhile_cons]
    split
    · rw [stackLoad_cons]
      omega
    · exact Nat.le_refl _

theorem stackLoad_dropWhile_lt {top : PendingStmt} (h : top.inHeader = true) (rest : List PendingStmt) :
    stackLoad ((top :: rest).dropWhile PendingStmt.inHeader) < stackLoad (top :: rest) := by
  have hrest := stackLoad_dropWhile rest
  have hpos := top.load_pos
  rw [List.dropWhile_cons_of_pos h, stackLoad_cons]
  omega

theorem countP_dropWhile (stmts : List PendingStmt) :
    (stmts.dropWhile PendingStmt.inHeader).countP PendingStmt.isBlock = stmts.countP PendingStmt.isBlock := by
  induction stmts with
  | nil => rfl
  | cons top rest ih =>
    rw [List.dropWhile_cons]
    split
    · next h => rw [ih, List.countP_cons_of_neg (by simp [PendingStmt.isBlock_of_inHeader h])]
    · rfl

section

variable {s s' : Session} {top top' : PendingStmt} {rest : List PendingStmt}

theorem load_le_of_stmts (hr : s'.recovery = s.recovery) (h : stackLoad s'.stmts ≤ stackLoad s.stmts + 2) :
    s'.load ≤ s.load + 3 := by
  have hone := s'.expr.isSome.toNat_le
  rw [load, load, hr]
  omega

theorem load_push (hr : s'.recovery = s.recovery) (h : s'.stmts = top :: s.stmts) : s'.load ≤ s.load + 3 := by
  apply load_le_of_stmts hr
  have := top.load_le
  rw [h, stackLoad_cons]
  omega

theorem load_replace (hr : s'.recovery = s.recovery) (h : s.stmts = top :: rest)
    (h' : s'.stmts = top' :: rest) : s'.load ≤ s.load + 3 := by
  apply load_le_of_stmts hr
  have := top'.load_le
  rw [h, h', stackLoad_cons, stackLoad_cons]
  omega

theorem load_pop (hr : s'.recovery = s.recovery) (h : s.stmts = top :: rest) (h' : s'.stmts = rest) :
    s'.load ≤ s.load + 3 := by
  apply load_le_of_stmts hr
  rw [h, h', stackLoad_cons]
  omega

theorem load_same (hr : s'.recovery = s.recovery) (h : s'.stmts = s.stmts) : s'.load ≤ s.load + 3 := by
  apply load_le_of_stmts hr
  rw [h]
  omega

theorem depth_push (hr : s'.recovery = s.recovery) (h : s'.stmts = top :: s.stmts)
    (ht : top.isBlock = false) : s'.depth = s.depth := by
  simp [depth, openBlocks, rootDepth, hr, h, ht]

theorem depth_replace (hr : s'.recovery = s.recovery) (h : s.stmts = top :: rest)
    (h' : s'.stmts = top' :: rest) (ht : top.isBlock = false ∧ top'.isBlock = false) :
    s'.depth = s.depth := by
  simp [depth, openBlocks, rootDepth, hr, h, h', ht.1, ht.2]

theorem depth_open (hr : s'.recovery = s.recovery) (h : s'.stmts = top :: s.stmts)
    (ht : top.isBlock = true) : s'.depth = s.depth + 1 := by
  simp only [depth, openBlocks, rootDepth, hr, h, List.countP_cons_of_pos ht]
  omega

theorem depth_close (hr : s'.recovery = s.recovery) (h : s.stmts = top :: rest) (h' : s'.stmts = rest)
    (ht : top.isBlock = true) : s'.depth = s.depth - 1 := by
  simp only [depth, openBlocks, rootDepth, hr, h, h', List.countP_cons_of_pos ht]
  omega

theorem depth_pop (hr : s'.recovery = s.recovery) (h : s.stmts = top :: rest) (h' : s'.stmts = rest)
    (ht : top.isBlock = false) : s'.depth = s.depth := by
  simp [depth, openBlocks, rootDepth, hr, h, h', ht]

end

theorem bind_blocks (s : Session) (stmts : List PendingStmt) (stmt : Stmt) :
    (s.bind stmts stmt).stmts.countP PendingStmt.isBlock = stmts.countP PendingStmt.isBlock := by
  induction stmts generalizing stmt with
  | nil => rfl
  | cons top rest ih =>
    unfold bind
    split
    · simp only [addToBlock]
      split
      · split <;> simp [List.countP_cons, PendingStmt.isBlock]
      · simp [List.countP_cons, PendingStmt.isBlock]
    · simp [PendingStmt.isBlock]
    · split
      · next ha =>
        rw [List.countP_cons_of_neg (by simp [PendingStmt.isBlock_of_awaitsBody ha])]
        split
        · exact ih _
        · rfl
      · rfl

theorem bind_load (s : Session) (stmts : List PendingStmt) (stmt : Stmt) :
    stackLoad (s.bind stmts stmt).stmts ≤ stackLoad stmts := by
  induction stmts generalizing stmt with
  | nil => exact Nat.le_refl _
  | cons top rest ih =>
    unfold bind
    split
    · simp only [addToBlock]
      split
      · split <;> simp [stackLoad_cons, PendingStmt.load]
      · simp [stackLoad_cons, PendingStmt.load]
    · simp [stackLoad_cons, PendingStmt.load]
    · split
      · rw [stackLoad_cons]
        split
        · next whole _ =>
          have := ih whole
          omega
        · simp
      · exact Nat.le_refl _

theorem bind_load_lt (s : Session) {top : PendingStmt} (h : top.awaitsBody = true) (rest : List PendingStmt)
    (stmt : Stmt) : stackLoad (s.bind (top :: rest) stmt).stmts < stackLoad (top :: rest) := by
  rw [stackLoad_cons, PendingStmt.load_of_awaitsBody h]
  unfold bind
  split
  · cases h
  · simp [stackLoad_cons, PendingStmt.load]
  · rw [if_pos h]
    split
    · next whole _ =>
      have := s.bind_load rest whole
      omega
    · simp

structure Keeps (s s' : Session) : Prop where
  stream : s'.stream = s.stream
  mode : s'.mode = s.mode
  depth : s'.depth = s.depth
  load : s'.load ≤ s.load

theorem Keeps.trans {s s' s'' : Session} (h : Keeps s s') (h' : Keeps s' s'') : Keeps s s'' :=
  ⟨h'.stream.trans h.stream, h'.mode.trans h.mode, h'.depth.trans h.depth, Nat.le_trans h'.load h.load⟩

theorem keeps_report (s : Session) (p : Problem) (loc : Location) : Keeps s (s.report p loc) := by
  rw [report_eq]
  exact ⟨rfl, rfl, rfl, Nat.le_refl _⟩

theorem keeps_finishStmt (s : Session) (stmt : Stmt) : Keeps s (s.finishStmt stmt) := by
  have hblocks := s.bind_blocks s.stmts stmt
  have hload := s.bind_load s.stmts stmt
  obtain ⟨stmts, warned, failed, halted, he⟩ := s.finishStmt_eq stmt
  rw [← finishStmt, he] at hblocks hload
  rw [he]
  refine ⟨rfl, rfl, ?_, ?_⟩
  · simp only [depth, openBlocks, rootDepth, hblocks]
  · simp only [load] at hload ⊢
    omega

theorem finishStmt_load_lt {s : Session} {top : PendingStmt} {rest : List PendingStmt}
    (h : s.stmts = top :: rest) (ha : top.awaitsBody = true) (stmt : Stmt) :
    (s.finishStmt stmt).load < s.load := by
  have hlt := s.bind_load_lt ha rest stmt
  obtain ⟨_, _, _, _, he⟩ := s.finishStmt_eq stmt
  rw [← h, ← finishStmt, he] at hlt
  rw [he]
  simp only [load] at hlt ⊢
  omega

theorem keeps_addLabel (s : Session) (label : CaseLabel) (value : Option Value) (loc : Location) :
    Keeps s (s.addLabel label value loc) := by
  unfold addLabel
  split
  · next hs =>
    simp only
    split
    · exact s.keeps_report _ _
    · refine ⟨rfl, rfl, ?_, ?_⟩
      · simp [depth, openBlocks, rootDepth, hs, List.countP_cons, PendingStmt.isBlock]
      · simp [load, hs, stackLoad_cons, PendingStmt.load]
  · exact ⟨rfl, rfl, rfl, Nat.le_refl _⟩

theorem keeps_caseValue (s : Session) (e : Expr) (loc : Location) : Keeps s (s.caseValue e loc) := by
  unfold caseValue
  simp only
  split
  · exact s.keeps_addLabel _ _ _
  · exact (s.keeps_report _ _).trans (keeps_addLabel _ _ _ _)

theorem keeps_noteSwitch (s : Session) (switch : Node) (labels : SwitchLabels) (statements : List Stmt)
    (t : Token) : Keeps s (s.noteSwitch switch labels statements t) := by
  obtain ⟨_, _, _, he⟩ := s.noteSwitch_eq switch labels statements t
  rw [he]
  exact ⟨rfl, rfl, rfl, Nat.le_refl _⟩

theorem keeps_addConstant (s : Session) (loc : Location) (name : Ident) (value : Expr) :
    Keeps s (s.addConstant loc name value) := by
  obtain ⟨_, _, _, _, _, _, he⟩ := s.addConstant_eq loc name value
  rw [he]
  exact ⟨rfl, rfl, rfl, Nat.le_refl _⟩

theorem keeps_defineFunction (s : Session) (f : FunctionDef) : Keeps s (s.defineFunction f) := by
  obtain ⟨_, _, _, _, _, he⟩ := s.defineFunction_eq f
  rw [he]
  exact ⟨rfl, rfl, rfl, Nat.le_refl _⟩

end Session

/-- What reading a token can do to the cursor, to the depth and to what is pending. -/
inductive Moves (s : Session) (t : Token) (s' : Session) : Prop
  | halts (h : s'.halted = true)
  | ends (hb : s.mode.inBody = false) (h : s'.isFinished = true)
  | back {more : List Token} {stream : TokenStream} (hs : s.stream.Takes more stream)
      (h : s'.stream = stream.defer) (hl : s'.load < s.load) (hb : s'.mode.inBody = s.mode.inBody)
      (hd : t.isEof = false → s'.depth = s.depth)
  | plain {more : List Token} (hs : s.stream.Takes more s'.stream) (ht : t.isEdge = false)
      (hl : s'.load ≤ s.load + 3) (hb : s'.mode.inBody = s.mode.inBody) (hd : s'.depth = s.depth)
  | opens {more : List Token} (hs : s.stream.Takes more s'.stream) (ht : t.isSymbol '\x7b' = true)
      (hl : s'.load ≤ s.load + 3)
      (hb : s'.mode.inBody = s.mode.inBody ∨ s.mode.inBody = false ∧ s.depth = 0)
      (hd : s'.depth = s.depth + 1)
  | closes {more : List Token} (hs : s.stream.Takes more s'.stream) (ht : t.isSymbol '\x7d' = true)
      (hl : s'.load ≤ s.load + 3)
      (hb : s'.mode.inBody = s.mode.inBody ∨ s.mode.inBody = true ∧ s.depth = 1)
      (hd : s'.depth = s.depth - 1)

theorem Fails.keeps {s s' : Session} (h : Fails s s') : s.Keeps s' := by
  obtain ⟨⟨_, _, _, rfl⟩, -⟩ := h
  exact ⟨rfl, rfl, rfl, Nat.le_refl _⟩

namespace Moves

open Session

variable {s₀ s s' : Session} {t : Token} {more : List Token}

theorem of_keeps (hk : s.Keeps s') (hs : s₀.stream.Takes more s.stream) (ht : t.isEdge = false)
    (hl : s.load ≤ s₀.load + 3) (hb : s.mode.inBody = s₀.mode.inBody) (hd : s.depth = s₀.depth) :
    Moves s₀ t s' := by
  have hst : s₀.stream.Takes more s'.stream := by
    rw [hk.stream]
    exact hs
  refine .plain hst ht (Nat.le_trans hk.load hl) ?_ (hk.depth.trans hd)
  rw [hk.mode, hb]

theorem closes_keeps (hk : s.Keeps s') (hs : s.stream = s₀.stream) (ht : t.isSymbol '\x7d' = true)
    (hl : s.load ≤ s₀.load + 3)
    (hb : s.mode.inBody = s₀.mode.inBody ∨ s₀.mode.inBody = true ∧ s₀.depth = 1)
    (hd : s.depth = s₀.depth - 1) : Moves s₀ t s' := by
  have hst : s₀.stream.Takes [] s'.stream := by
    rw [hk.stream, hs]
    exact .refl _
  refine .closes hst ht (Nat.le_trans hk.load hl) ?_ (hk.depth.trans hd)
  rw [hk.mode]
  exact hb

theorem recover {r : Recovery} (hs : s₀.stream.Takes more s.stream) (hr : s.recovery = some r)
    (hst : r ≠ .statement → s.stmts = []) (hb : s.mode.inBody = s₀.mode.inBody)
    (hd : s.depth = s₀.depth)
    (hl : s.load ≤ s₀.load ∨
      s.load ≤ s₀.load + 3 ∧ t.isEof = false ∧ (r = .statement → s.stopsBefore t = false)) :
    Moves s₀ t (s.recoverToken r t) := by
  have hl3 : s.load ≤ s₀.load + 3 := by omega
  have hload {recovery : Option Recovery} : { s with recovery := recovery }.load ≤ s.load := by
    cases recovery <;> simp [load, hr]
  unfold recoverToken
  cases r with
  | statement =>
    have hnone : { s with recovery := none }.depth = s₀.depth := by
      rw [← hd]
      simp [depth, openBlocks, rootDepth, hr, Recovery.depth]
    simp only
    split
    · next ht =>
      have hle : { s with recovery := none }.load ≤ s₀.load + 3 := Nat.le_trans hload hl3
      exact .plain hs (Token.isEdge_of_isSymbol ht (by decide)) hle hb hnone
    split
    · next hstop =>
      have hle : s.load ≤ s₀.load := by
        obtain hle | ⟨-, -, hn⟩ := hl
        · exact hle
        · have := hn rfl
          rw [stopsBefore, hstop] at this
          cases this
      refine .back hs rfl ?_ hb fun _ => hnone
      simp only [load, hr, defer] at hle ⊢
      simp at hle ⊢
      omega
    · next hstop =>
      refine .plain hs ?_ hl3 hb hd
      simp only [Bool.or_eq_true, not_or, Bool.not_eq_true] at hstop
      simp [Token.isEdge, hstop]
  | root depth =>
    have hempty := hst (by simp)
    have hdepth (recovery : Option Recovery) :
        { s with recovery := recovery }.depth = (recovery.map Recovery.depth).getD 0 := by
      simp [Session.depth, openBlocks, rootDepth, hempty]
    have hle (recovery : Option Recovery) : { s with recovery := recovery }.load ≤ s₀.load + 3 :=
      Nat.le_trans hload hl3
    have hd₀ : s₀.depth = depth := by
      rw [← hd]
      simp [Session.depth, openBlocks, rootDepth, hempty, hr, Recovery.depth]
    simp only
    split
    · next he =>
      have hle : s.load ≤ s₀.load := by
        obtain hle | ⟨-, hn, -⟩ := hl
        · exact hle
        · rw [he] at hn
          cases hn
      refine .back hs rfl ?_ hb fun hn => ?_
      · simp only [load, hr, defer] at hle ⊢
        simp at hle ⊢
        omega
      · rw [he] at hn
        cases hn
    next he =>
    split
    · next ht =>
      refine .opens hs ht (hle _) (.inl hb) ?_
      rw [hdepth, hd₀]
      rfl
    next hopen =>
    split
    · next ht =>
      refine .closes hs ht (hle _) (.inl hb) ?_
      rw [hdepth, hd₀]
      split
      · simp
        omega
      · rfl
    next hclose =>
    split
    · next ht =>
      simp only [Bool.and_eq_true, beq_iff_eq] at ht
      refine .plain hs (Token.isEdge_of_isSymbol ht.1 (by decide)) (hle none) hb ?_
      rw [hdepth, hd₀, ht.2]
      rfl
    · refine .plain hs ?_ hl3 hb hd
      simp [Token.isEdge, hopen, hclose, he]

theorem resync (hs : s₀.stream.Takes more s.stream) (hr : s.recovery = none) (he : s.expr = none)
    (hrec : Recoverable s.mode s.stmts s.recovery) (hb : s.mode.inBody = s₀.mode.inBody)
    (hd : s.depth = s₀.depth)
    (hl : s.load < s₀.load ∨ (∃ top rest, s.stmts = top :: rest ∧ top.inHeader = true) ∧ s.load ≤ s₀.load ∨
      s.load ≤ s₀.load + 2 ∧ t.isEof = false ∧ (s.mode.inBody = true → s.stopsBefore t = false)) :
    Moves s₀ t (s.resync t) := by
  rw [hr] at hrec
  unfold Session.resync enterRecovery
  simp only [clearExpr]
  generalize hm : s.mode = mode at hrec hb hl
  generalize hst : s.stmts = stmts at hrec hl
  cases hrec with
  | @body header top rest =>
    have hdrop := stackLoad_dropWhile (top :: rest)
    refine recover (s := { s with
      mode := .body header, expr := none, recovery := some .statement,
      stmts := (top :: rest).dropWhile PendingStmt.inHeader }) hs rfl (by simp) hb ?_ ?_
    · rw [← hd]
      simp [depth, openBlocks, rootDepth, hr, hst, countP_dropWhile, Recovery.depth]
    · simp only [load, hr, he, hst] at hl ⊢
      simp at hl ⊢
      obtain hl | ⟨hh, hl⟩ | ⟨hl, heof, hn⟩ := hl
      · left
        omega
      · have := stackLoad_dropWhile_lt hh rest
        left
        omega
      · right
        refine ⟨by omega, heof, ?_⟩
        exact hn rfl
  | @root phase =>
    refine recover (s := { s with
      mode := .root .idle, expr := none, recovery := some (.root 0), stmts := [] }) hs rfl
      (fun _ => rfl) hb ?_ ?_
    · rw [← hd]
      simp [depth, openBlocks, rootDepth, hr, hst, Recovery.depth]
    · simp only [load, hr, he, hst] at hl ⊢
      simp at hl ⊢
      obtain hl | ⟨hl, heof, -⟩ := hl
      · left
        omega
      · right
        exact ⟨by omega, heof⟩
  | expression =>
    simp only [hr]
    exact .ends hb.symm (by simp [isFinished])

end Moves

open Session in
theorem Turn.moves {s s' : Session} {t : Token} (h : Turn s t s') (hs : s.Shaped) : Moves s t s' := by
  have hedge {c : Char} (ht : t.isSymbol c = true) (hc : c ≠ '\x7b' ∧ c ≠ '\x7d') : t.isEdge = false :=
    Token.isEdge_of_isSymbol ht hc
  cases h with
  | skip hr =>
    refine .recover (.refl _) hr ?_ rfl rfl (.inl (Nat.le_refl _))
    -- A session that recovers elsewhere than in a function body has no unfinished statements.
    intro hne
    cases hs with
    | rootRecovery _ hst => exact hst
    | bodyRecovery _ _ _ _ hr' =>
      rw [hr] at hr'
      exact (hne (Option.some.inj hr')).elim
    | root _ hst | expression _ hst | closed _ hst => exact hst
    | body _ _ _ hr' | statement _ _ _ _ hr' =>
      rw [hr] at hr'
      cases hr'
  -- Expressions
  | shift _ hs' h => exact .plain hs' h.isEdge (load_same rfl rfl) rfl rfl
  | truncate _ _ hf ht =>
    obtain ⟨⟨_, _, _, rfl⟩, -⟩ := hf
    exact .plain (.refl _) (hedge ht (by decide)) (load_same rfl rfl) rfl rfl
  | halt _ _ _ _ hh => exact .halts hh
  | reject hx hst _ hf =>
    obtain ⟨more, hst⟩ := hst
    have hrec := hs.reject hx
    obtain ⟨⟨_, _, _, rfl⟩, -⟩ := hf
    obtain ⟨x, hx⟩ | ⟨top, rest, h, hh⟩ | ⟨phase, h, he⟩ := hx
    · refine .resync hst hx.recovery rfl hrec rfl rfl ?_
      cases hx with
      | further _ hx =>
        -- An expression that is given up was pending itself.
        left
        simp [load, hx]
      | statement h ht =>
        have hedge : t.isEof = false := by
          simp only [stopsBefore, Bool.or_eq_false_iff] at ht
          exact ht.1.2
        -- No expression was pending yet, but recovery does not stop before a token like this one.
        right; right
        refine ⟨?_, hedge, fun _ => ht⟩
        simp [load]
        omega
      | whole _ _ hm ht =>
        right; right
        refine ⟨?_, ht, ?_⟩
        · simp [load]
          omega
        · intro hb
          rw [hm] at hb
          cases hb
    · refine .resync hst h.recovery rfl hrec rfl rfl (.inr (.inl ⟨⟨top, rest, h.stmts, hh⟩, ?_⟩))
      simp [load]
    · refine .resync hst h.recovery rfl hrec rfl rfl (.inr (.inr ⟨?_, he, ?_⟩))
      · simp [load]
        omega
      · intro hb
        rw [h.mode] at hb
        cases hb
  -- Ends of expressions
  | exprStmt _ _ _ he _ ht =>
    obtain ⟨_, _, _, _, _, hst, -, rfl⟩ := he.same
    exact .of_keeps (keeps_finishStmt _ _) hst (hedge ht (by decide)) (load_same rfl rfl) rfl rfl
  | dropStmt _ _ hst _ hf ht =>
    exact .of_keeps hf.keeps hst (hedge ht (by decide)) (load_same rfl rfl) rfl rfl
  | supply _ hst _ ht he hp =>
    obtain ⟨_, _, _, _, _, hst', -, rfl⟩ := he.same
    exact .plain hst' (hedge ht (by decide)) (load_replace rfl hst rfl) rfl
      (depth_replace rfl hst rfl (PendingStmt.supplied?_plain hp))
  | clause _ hst _ he ht =>
    obtain ⟨_, _, _, _, _, hst', -, rfl⟩ := he.same
    refine .plain hst' ?_ (load_replace rfl hst rfl) rfl (depth_replace rfl hst rfl ⟨rfl, rfl⟩)
    split at ht <;> exact hedge ht (by decide)
  | keywordCall _ hst _ he _ _ ht =>
    obtain ⟨_, _, _, _, _, hst', -, rfl⟩ := he.same
    exact .of_keeps (keeps_finishStmt _ _) hst' (hedge ht (by decide)) (load_pop rfl hst rfl) rfl
      (depth_pop rfl hst rfl rfl)
  | caseValue _ hst _ he ht =>
    obtain ⟨_, _, _, _, _, hst', -, rfl⟩ := he.same
    exact .of_keeps (keeps_caseValue _ _ _) hst' (hedge ht (by decide)) (load_pop rfl hst rfl) rfl
      (depth_pop rfl hst rfl rfl)
  | dropHeader _ hst hh _ hst' _ hf ht =>
    exact .of_keeps hf.keeps hst' ht (load_pop rfl hst rfl) rfl
      (depth_pop rfl hst rfl (PendingStmt.isBlock_of_inHeader hh))
  | constant _ hm he ht =>
    obtain ⟨_, _, _, _, _, hst, -, rfl⟩ := he.same
    exact .of_keeps (keeps_addConstant _ _ _ _) hst (hedge ht (by decide)) (load_same rfl rfl)
      (by rw [hm]; rfl) rfl
  | dropConstant _ hm hst _ hf ht =>
    exact .of_keeps hf.keeps hst ht (load_same rfl rfl) (by rw [hm]; rfl) rfl
  | nextArg _ hm he ht =>
    obtain ⟨_, _, _, _, _, hst, -, rfl⟩ := he.same
    exact .plain hst (hedge ht (by decide)) (load_same rfl rfl) (by rw [hm]; rfl) rfl
  | closeArgs _ hm he _ _ ht =>
    obtain ⟨_, _, _, _, _, hst, -, rfl⟩ := he.same
    exact .plain hst (hedge ht (by decide)) (load_same rfl rfl) (by rw [hm]; rfl) rfl
  | whole _ _ hm he ht =>
    obtain ⟨_, _, _, _, _, hst, -, rfl⟩ := he.same
    by_cases hc : t.isSymbol ';' = true
    · rw [if_pos hc]
      exact .plain hst (hedge hc (by decide)) (load_same rfl rfl) (by rw [hm]; rfl) rfl
    · rw [if_neg hc]
      exact .ends (by rw [hm]; rfl) (by simp [isFinished])
  | spoilWhole _ _ hm _ hst _ hf =>
    obtain ⟨⟨_, _, _, rfl⟩, -⟩ := hf
    by_cases hc : t.isSymbol ';' = true
    · rw [if_pos hc]
      exact .plain hst (hedge hc (by decide)) (load_same rfl rfl) (by rw [hm]; rfl) rfl
    · rw [if_neg hc]
      exact .ends (by rw [hm]; rfl) (by simp [isFinished])
  -- Headers
  | openHeader h ho ht =>
    exact .plain (.refl _) (hedge ht (by decide)) (load_replace rfl h.stmts rfl) rfl
      (depth_replace rfl h.stmts rfl (PendingStmt.opened?_plain ho))
  | @iterator node names names' name rest h _ ht =>
    -- A warning about the name leaves all that counts.
    have hmove (s₁ : Session) (hk : s.Keeps s₁) (hr : s₁.recovery = s.recovery) (hst : s₁.stmts = s.stmts) :
        Moves s t (s₁.replaceStmt (.foreachLoop node (.names names'))) := by
      have hst' : (s₁.replaceStmt (.foreachLoop node (.names names'))).stmts =
          .foreachLoop node (.names names') :: rest := by
        simp [replaceStmt, hst, h.stmts]
      have htakes : s.stream.Takes [] (s₁.replaceStmt (.foreachLoop node (.names names'))).stream := by
        rw [replaceStmt, hk.stream]
        exact .refl _
      exact .plain htakes (plainName?_isEdge ht) (load_replace hr h.stmts hst')
        (congrArg Mode.inBody hk.mode) (depth_replace hr h.stmts hst' ⟨rfl, rfl⟩)
    unfold iteratorName
    simp only
    split
    · exact hmove _ (keeps_report _ _ _) (by simp) (by simp)
    · exact hmove s ⟨rfl, rfl, rfl, Nat.le_refl _⟩ rfl rfl
  | nextIterator h ht =>
    exact .plain (.refl _) (hedge ht (by decide)) (load_replace rfl h.stmts rfl) rfl
      (depth_replace rfl h.stmts rfl ⟨rfl, rfl⟩)
  | iterators h _ ht =>
    exact .plain (.refl _) (Token.isEdge_of_keyword (by simpa [Token.isKeyword] using ht))
      (load_replace rfl h.stmts rfl) rfl (depth_replace rfl h.stmts rfl ⟨rfl, rfl⟩)
  | openSwitch h ht => exact .opens (.refl _) ht (load_push rfl rfl) (.inl rfl) (depth_open rfl rfl rfl)
  | flow h ht =>
    exact .of_keeps (keeps_finishStmt _ _) (.refl _) (hedge ht (by decide)) (load_pop rfl h.stmts rfl) rfl
      (depth_pop rfl h.stmts rfl rfl)
  | defaultLabel h ht =>
    exact .of_keeps (keeps_addLabel _ _ _ _) (.refl _) (hedge ht (by decide)) (load_pop rfl h.stmts rfl) rfl
      (depth_pop rfl h.stmts rfl rfl)
  | elseBranch h ht =>
    exact .plain (.refl _) (Token.isEdge_of_keyword (by simpa [Token.isKeyword] using ht))
      (load_replace rfl h.stmts rfl) rfl (depth_replace rfl h.stmts rfl ⟨rfl, rfl⟩)
  | @noElse node condition thenBranch rest h =>
    -- The `if` has one phase less to go, which pays for the token that comes again.
    have hk := keeps_finishStmt { s with stmts := rest } (.ifThen node condition thenBranch)
    refine .back (.refl _) (congrArg TokenStream.defer hk.stream) ?_ (congrArg Mode.inBody hk.mode) fun _ => ?_
    · apply Nat.lt_of_le_of_lt hk.load
      simp [load, h.stmts, stackLoad_cons, PendingStmt.load]
    · exact hk.depth.trans (depth_pop rfl h.stmts rfl rfl)
  -- Statements
  | openBlock h ht => exact .opens (.refl _) ht (load_push rfl rfl) (.inl rfl) (depth_open rfl rfl rfl)
  | openStmt h ht hn =>
    exact .plain (.refl _) (Token.isEdge_of_keyword ht) (load_push rfl rfl) rfl
      (depth_push rfl rfl (PendingStmt.begun?_plain hn))
  | openCall _ ht | openFlow _ ht | openCase _ ht | openDefault _ ht =>
    exact .plain (.refl _) (Token.isEdge_of_keyword ht) (load_push rfl rfl) rfl (depth_push rfl rfl rfl)
  | misplace h hf ht =>
    obtain ⟨header, hm⟩ := h.mode
    obtain ⟨⟨w, f, hh, rfl⟩, -⟩ := hf
    have hr := h.recovery
    have hdrop := stackLoad_dropWhile s.stmts
    have he : { s with warned := w, failed := f, halted := hh }.enterRecovery = { s with
        warned := w, failed := f, halted := hh, expr := none, recovery := some .statement,
        stmts := s.stmts.dropWhile PendingStmt.inHeader } := by
      simp [enterRecovery, clearExpr, hm]
    rw [he]
    refine .plain (.refl _) ht ?_ rfl ?_
    · simp [load, hr]
      omega
    · simp [depth, openBlocks, rootDepth, hr, countP_dropWhile, Recovery.depth]
  | straySemicolon h _ ht =>
    exact .of_keeps (keeps_report _ _ _) (.refl _) (hedge ht (by decide)) (load_same rfl rfl) rfl rfl
  | emptyBody h _ ht =>
    have hk := keeps_report s .straySemicolon t.loc
    refine .of_keeps (hk.trans (.trans ?_ (keeps_finishStmt _ _))) (.refl _) (hedge ht (by decide))
      (load_same rfl rfl) rfl rfl
    exact ⟨rfl, rfl, rfl, Nat.le_refl _⟩
  | missBody h hb ht hf =>
    obtain ⟨⟨w, f, hh, rfl⟩, -⟩ := hf
    have hk := keeps_finishStmt { s with nextId := s.nextId + 1, warned := w, failed := f, halted := hh }
      (.block ⟨s.nextId, t.loc⟩ [])
    -- The statement that gets its body here has a phase less to go, too.
    have hlt := finishStmt_load_lt
      (s := { s with nextId := s.nextId + 1, warned := w, failed := f, halted := hh }) h.stmts hb
      (.block ⟨s.nextId, t.loc⟩ [])
    exact .back (.refl _) (congrArg TokenStream.defer hk.stream) hlt (congrArg Mode.inBody hk.mode)
      fun _ => hk.depth
  | @closeBlock node statements rest h ht =>
    have hk := keeps_finishStmt { s with stmts := rest } (.block node statements.reverse)
    exact .closes_keeps hk rfl ht (load_pop rfl h.stmts rfl) (.inl rfl) (depth_close rfl h.stmts rfl rfl)
  | @closeSwitch node labels statements switch subject rest h ht =>
    have hk := (keeps_noteSwitch { s with stmts := rest } switch labels statements t).trans
      (keeps_finishStmt _ (.switch switch subject node statements.reverse
        (closeGroups statements.length labels.groups)))
    refine .closes_keeps hk rfl ht ?_ (.inl rfl) ?_
    · refine load_le_of_stmts (s := s) rfl ?_
      simp only [h.stmts, stackLoad_cons]
      omega
    -- Only the body of the switch counts as an open block.
    · have hswitch : { s with stmts := rest }.depth =
          { s with stmts := .switch switch (.body subject) :: rest }.depth := depth_pop rfl rfl rfl rfl
      exact hswitch.trans (depth_close rfl h.stmts rfl rfl)
  | @closeFunction node statements header h hm ht =>
    have hk := keeps_defineFunction { s with stmts := [], mode := .root .idle }
      (header.define (some ⟨node, statements.reverse⟩))
    refine .closes_keeps hk rfl ht (load_pop rfl h.stmts rfl) (.inr ⟨by rw [hm]; rfl, ?_⟩)
      (depth_close rfl h.stmts rfl rfl)
    simp [depth, openBlocks, rootDepth, h.stmts, h.recovery, PendingStmt.isBlock]
  | unbalanced _ _ _ hh => exact .halts hh
  -- Declarations
  | pass h hp =>
    exact .plain (.refl _) hp.isEdge (load_same rfl rfl) (by rw [h.mode]; rfl) rfl
  | spoil h hst hf _ ht =>
    obtain ⟨more, hst⟩ := hst
    obtain ⟨⟨_, _, _, rfl⟩, -⟩ := hf
    exact .plain hst ht (load_same rfl rfl) (by rw [h.mode]; rfl) rfl
  | rootSemicolon h ht =>
    exact .of_keeps (keeps_report _ _ _) (.refl _) (hedge ht (by decide)) (load_same rfl rfl) rfl rfl
  | dots h _ _ hst ht =>
    exact .plain hst (Token.isEdge_of_spell ht (by simp)) (load_same rfl rfl) (by rw [h.mode]; rfl) rfl
  | importScript h ht | bareDirective h _ ht | directive h ht | openArgs h ht | openConstant h ht
  | globals h ht | openParams h ht =>
    exact .plain (.refl _) (hedge ht (by decide)) (load_same rfl rfl) (by rw [h.mode]; rfl) rfl
  | declarative h _ _ ht =>
    exact .plain (.refl _) (hedge ht (by decide)) (load_same rfl rfl) (by rw [h.mode]; rfl) rfl
  | openBody h _ ht =>
    have hst := h.stmts hs
    refine .opens (.refl _) ht (load_push rfl rfl) (.inr ⟨by rw [h.mode]; rfl, ?_⟩) (depth_open rfl rfl rfl)
    simp [depth, openBlocks, rootDepth, hst, h.recovery]
  | declare h _ ht =>
    exact .of_keeps (keeps_defineFunction _ _) (.refl _) (hedge ht (by decide)) (load_same rfl rfl)
      (by rw [h.mode]; rfl) rfl
  | scriptEnd h => exact .ends (by rw [h.mode]; rfl) (by simp [isFinished])
  | functionEnd h => exact .ends (by rw [h.mode]; rfl) (by simp [isFinished])
  -- Lone expressions
  | noExpression _ _ hm => exact .ends (by rw [hm]; rfl) (by simp [isFinished])
  | expressionEnd _ _ hm => exact .ends (by rw [hm]; rfl) (by simp [isFinished])

end GameScript
