import GameScript.Proofs.Retold

namespace GameScript

namespace Session

variable {b s : Session} {phase : RootPhase} {script S : Script} {ps qs : List Piece} {t u : Token}
  {P Q : RootPhase → Prop} {loc : Location} {n : Ident}

structure Vacant (b : Session) : Prop where
  active : b.Active
  expr : b.expr = none
  stmts : b.stmts = []
  output : b.output = none

structure Rooted (b s : Session) (phase : RootPhase) (script : Script) (ps : List Piece) : Prop where
  same : s = { b with
    stream := s.stream, nextId := s.nextId, warned := s.warned, mode := .root phase, script := script,
    constants := foldedConstants script.constants }
  closed : s.stream.Closed
  shows : s.stream.Shows ps

structure Facing (b s : Session) (phase : RootPhase) (script : Script) (t : Token) (ps : List Piece) : Prop where
  same : s = { b with
    stream := s.stream, nextId := s.nextId, warned := s.warned, mode := .root phase, script := script,
    constants := foldedConstants script.constants }
  delivers : s.stream.Delivers t ps

def Enters (b s : Session) (script : Script) (ps : List Piece) (P : RootPhase → Prop) : Prop :=
  ∃ s' phase, s.Reaches s' ∧ b.Rooted s' phase script ps ∧ P phase

def Settles (b s : Session) (ps : List Piece) (S : Script) : Prop :=
  ∃ s' script, s.Reaches s' ∧ b.Rooted s' .idle script ps ∧ Relabel.blank.script script = Relabel.blank.script S

theorem Rooted.enters (h : b.Rooted s phase script ps) (hp : P phase) : b.Enters s script ps P :=
  ⟨s, phase, .refl s, h, hp⟩

theorem Rooted.settles (h : b.Rooted s .idle script ps) (hs : Relabel.blank.script script = Relabel.blank.script S) :
    b.Settles s ps S :=
  ⟨s, script, .refl s, h, hs⟩

theorem Enters.trans (h : b.Enters s script ps P)
    (hs : ∀ s' phase, P phase → b.Rooted s' phase script ps → b.Enters s' script qs Q) : b.Enters s script qs Q := by
  obtain ⟨s', phase, hr, hst, hp⟩ := h
  obtain ⟨s'', phase', hr', hst', hq⟩ := hs s' phase hp hst
  exact ⟨s'', phase', hr.trans hr', hst', hq⟩

theorem Enters.settles (h : b.Enters s script ps P)
    (hs : ∀ s' phase, P phase → b.Rooted s' phase script ps → b.Settles s' qs S) : b.Settles s qs S := by
  obtain ⟨s', phase, hr, hst, hp⟩ := h
  obtain ⟨s'', script', hr', hst', hq⟩ := hs s' phase hp hst
  exact ⟨s'', script', hr.trans hr', hst', hq⟩

theorem Settles.trans {S' : Script} (h : b.Settles s ps S)
    (hs : ∀ s' script, Relabel.blank.script script = Relabel.blank.script S → b.Rooted s' .idle script ps →
      b.Settles s' qs S') : b.Settles s qs S' := by
  obtain ⟨s', script, hr, hst, hp⟩ := h
  obtain ⟨s'', script', hr', hst', hq⟩ := hs s' script hp hst
  exact ⟨s'', script', hr.trans hr', hst', hq⟩

namespace Facing

theorem config_eq (h : b.Facing s phase script t ps) : s.config = b.config := by rw [h.same]

theorem script_eq (h : b.Facing s phase script t ps) : s.script = script := by rw [h.same]

theorem constants_eq (h : b.Facing s phase script t ps) : s.constants = foldedConstants script.constants := by rw [h.same]

theorem mode_eq (h : b.Facing s phase script t ps) : s.mode = .root phase := by rw [h.same]

theorem rooted {phase' : RootPhase} {id : Nat} {warned : Array Complaint} (h : b.Facing s phase script t ps) :
    b.Rooted { s with nextId := id, warned := warned, mode := .root phase' } phase' script ps :=
  ⟨by rw [h.same], h.delivers.closed, h.delivers.shows⟩

theorem rootedWith {script' : Script} {id : Nat} {warned : Array Complaint} (h : b.Facing s phase script t ps) :
    b.Rooted { s with
      nextId := id, warned := warned, mode := .root .idle, script := script',
      constants := foldedConstants script'.constants } .idle script' ps :=
  ⟨by rw [h.same], h.delivers.closed, h.delivers.shows⟩

end Facing

theorem Rooted.meets {apart : Bool} (hb : b.Vacant) (h : b.Rooted s phase script ((apart, u) :: ps)) :
    ∃ t s', t.Same u ∧ b.Facing s' .idle script t ps ∧ s.Reaches (s'.rootToken phase t) := by
  have hstate : s.isFinished = false ∧ s.recovery = none ∧ s.expr = none ∧ s.mode = .root phase := by
    have hf := hb.active.finished
    simp only [isFinished, Bool.or_eq_false_iff] at hf
    rw [h.same]
    exact ⟨by simp [isFinished, hf.1], hb.active.recovery, hb.expr, rfl⟩
  obtain ⟨hf, hrec, hx, hm⟩ := hstate
  obtain ⟨t, stream, hsame, hdel, hreach⟩ := reaches_dispatch hf h.closed h.shows
  refine ⟨t, { s with stream := stream, mode := .root .idle }, hsame, ⟨by rw [h.same], hdel⟩, ?_⟩
  have hdispatch : { s with stream := stream }.dispatch t = { s with stream := stream }.rootToken phase t := by
    simp [dispatch, hrec, hx, hm]
  rw [hdispatch] at hreach
  exact hreach

theorem Rooted.pass {apart : Bool} (hb : b.Vacant) (h : b.Rooted s phase script ((apart, u) :: ps))
    (hd : ∀ s' t, t.Same u → b.Facing s' .idle script t ps → ∃ id warned phase',
      s'.rootToken phase t = { s' with nextId := id, warned := warned, mode := .root phase' } ∧ P phase') :
    b.Enters s script ps P := by
  obtain ⟨t, s', hsame, hfacing, hreach⟩ := h.meets hb
  obtain ⟨id, warned, phase', hd, hp⟩ := hd s' t hsame hfacing
  rw [hd] at hreach
  exact ⟨_, phase', hreach, hfacing.rooted, hp⟩

theorem Rooted.finish {apart : Bool} (hb : b.Vacant) (h : b.Rooted s phase script ((apart, u) :: ps))
    (hd : ∀ s' t, t.Same u → b.Facing s' .idle script t ps → ∃ id warned script',
      s'.rootToken phase t = { s' with
        nextId := id, warned := warned, script := script', constants := foldedConstants script'.constants } ∧
      Relabel.blank.script script' = Relabel.blank.script S) : b.Settles s ps S := by
  obtain ⟨t, s', hsame, hfacing, hreach⟩ := h.meets hb
  obtain ⟨id, warned, script', hd, hp⟩ := hd s' t hsame hfacing
  refine ⟨_, script', hreach, ?_, hp⟩
  have hrooted : b.Rooted { s' with
      nextId := id, warned := warned, mode := .root .idle, script := script',
      constants := foldedConstants script'.constants } .idle script' ps := hfacing.rootedWith
  have hmode : ({ s' with mode := .root .idle } : Session) = s' := by rw [← hfacing.mode_eq]
  rw [hd, ← hmode]
  exact hrooted

theorem Rooted.inside {c : ExprContext} (hb : b.Vacant) (h : b.Rooted s phase script ps) :
    s.Active ∧ s.config = b.config ∧ s.Inside { s with expr := some (fresh c) } (fresh c) ps := by
  have hf := hb.active.finished
  simp only [isFinished, Bool.or_eq_false_iff] at hf
  refine ⟨?_, by rw [h.same], rfl, h.closed, h.shows, ExprState.settled_fresh c⟩
  rw [h.same]
  exact ⟨by simp [isFinished, hf.1], hb.active.recovery⟩

theorem Rooted.facing {stream : TokenStream} (id : Nat) (hb : b.Vacant) (h : b.Rooted s phase script ps)
    (hdel : stream.Delivers t qs) :
    b.Facing { s with stream := stream, nextId := id, expr := none } phase script t qs := by
  refine ⟨?_, hdel⟩
  rw [h.same]
  simp only [hb.expr]

theorem Rooted.value {apart : Bool} {c : ExprContext} {e : Expr} {d : Char} (hb : b.Vacant)
    (h : b.Rooted s phase script (e.pieces apart ++ symbolPiece false d :: ps)) (he : e.Told b.config c)
    (hd : d ∉ Operator.spellingChars) (hu : Ending (symbolPiece false d).2 ps) :
    ∃ s' e' t, t.isSymbol d = true ∧ b.Facing s' phase script t ps ∧ e'.Alike e ∧
      { s with expr := some (fresh c) }.Reaches (s'.exprDone c (.value e') t) := by
  obtain ⟨hactive, hconfig, hinside⟩ := h.inside (c := c) hb
  obtain ⟨stream, id, e', t, hsame, hdel, ha, hreach⟩ := hinside.value hactive (hconfig ▸ he) rfl hd hu
  exact ⟨_, e', t, symbol_of_same hsame, h.facing id hb hdel, ha, hreach⟩

theorem Rooted.hash (hb : b.Vacant) (ht : b.config.target ≠ .function)
    (h : b.Rooted s .idle script (symbolPiece true '#' :: ps)) :
    b.Enters s script ps fun phase => ∃ loc, phase = .directiveName loc := by
  refine h.pass hb fun s' t hsame hfacing => ⟨s'.nextId, s'.warned, .directiveName t.loc, ?_, _, rfl⟩
  have hsymbol : t.isSymbol '#' = true := symbol_of_same hsame
  have htarget : s'.config.target ≠ .function := hfacing.config_eq ▸ ht
  simp [rootToken, Token.isEof_of_isSymbol hsymbol, rootIdle, inRoot, htarget, hsymbol]

theorem Facing.inRoot_eq (h : b.Facing s phase script t ps) : s.inRoot phase = s := by
  rw [inRoot, ← h.mode_eq]

theorem Rooted.name {apart : Bool} (f : Ident → RootPhase) (hb : b.Vacant) (hn : n.IsWord b.config.dialect)
    (h : b.Rooted s phase script (wordPiece apart n.name :: ps))
    (hf : ∀ (s' : Session) (t : Token), s'.inRoot .idle = s' → t.isEof = false →
      s'.plainName? t = some ⟨n.name, t.loc⟩ → s'.rootToken phase t = s'.inRoot (f ⟨n.name, t.loc⟩)) :
    b.Enters s script ps fun phase => ∃ n', phase = f n' ∧ n'.name = n.name := by
  refine h.pass hb fun s' t hsame hfacing => ?_
  have hname : s'.plainName? t = some ⟨n.name, t.loc⟩ := plainName_of_same (hfacing.config_eq ▸ hn) hsame
  exact ⟨s'.nextId, s'.warned, _, hf s' t hfacing.inRoot_eq hsame.isEof hname, _, rfl, rfl⟩

theorem Rooted.symbol {apart : Bool} {c : Char} (phase' : RootPhase) (hb : b.Vacant)
    (h : b.Rooted s phase script (symbolPiece apart c :: ps))
    (hf : ∀ (s' : Session) (t : Token), s'.inRoot .idle = s' → t.isEof = false → t.isSymbol c = true →
      s'.plainName? t = none → s'.rootToken phase t = s'.inRoot phase') :
    b.Enters s script ps fun phase => phase = phase' := by
  refine h.pass hb fun s' t hsame hfacing => ?_
  have hsymbol : t.isSymbol c = true := symbol_of_same hsame
  exact ⟨s'.nextId, s'.warned, _, hf s' t hfacing.inRoot_eq hsame.isEof hsymbol (plainName?_of_symbol hsymbol), rfl⟩

theorem Rooted.include {apart : Bool} (hb : b.Vacant)
    (h : b.Rooted s (.directiveName loc) script (wordPiece apart "include" :: ps)) :
    b.Enters s script ps fun phase => phase = .importPath loc [] true := by
  refine h.pass hb fun s' t hsame hfacing => ⟨s'.nextId, s'.warned, _, ?_, rfl⟩
  have hname : s'.plainName? t = some ⟨"include", t.loc⟩ := by
    have hkind : t.kind = .identifier := hsame.1
    have htext : t.text = "include" := hsame.2
    have hkeyword : Keyword.ofWord? "include" s'.gameMode = none := by cases s'.gameMode <;> decide
    simp [plainName?, Token.keyword?, hkind, htext, hkeyword]
  have heof : t.isEof = false := hsame.isEof
  have hdirective : DirectiveName.ofWord? "include" = some .includeFile := by decide
  simp only [rootToken, heof, hfacing.inRoot_eq, directiveName, hname, hdirective, Bool.false_and, Bool.false_eq_true,
    if_false, if_true]
  rfl

theorem Rooted.segments {done path : ModulePath} (hb : b.Vacant) (hn : ∀ n ∈ path, n.IsWord b.config.dialect)
    (h : b.Rooted s (.importPath loc done false) script
      (path.flatMap (fun name => [symbolPiece false '\\', wordPiece false name.name]) ++ ps)) :
    b.Enters s script ps fun phase => ∃ new, phase = .importPath loc (done ++ new) false ∧
      new.map Relabel.blank.ident = path.map Relabel.blank.ident := by
  induction path generalizing s done with
  | nil => exact h.enters ⟨[], by simp, rfl⟩
  | cons name path ih =>
    obtain ⟨hname, hpath⟩ := List.forall_mem_cons.1 hn
    simp only [List.flatMap_cons, List.cons_append, List.nil_append] at h
    refine (h.symbol (.importPath loc done true) hb ?_).trans fun s₁ phase hp h₁ => ?_
    · intro s' t hself heof hsymbol _
      simp [rootToken, heof, hself, importPath, hsymbol]
    subst hp
    refine (h₁.name (fun n => .importPath loc (done ++ [n]) false) hb hname ?_).trans fun s₂ phase hp h₂ => ?_
    · intro s' t hself heof hname
      simp [rootToken, heof, hself, importPath, hname]
    obtain ⟨name', rfl, hname'⟩ := hp
    refine (ih hpath h₂).trans fun s₃ phase hp h₃ => h₃.enters ?_
    obtain ⟨new, rfl, hnew⟩ := hp
    exact ⟨name' :: new, by simp, by simp [hnew, hname']⟩

theorem Rooted.importDirective {path : ModulePath} (node : Node) (hb : b.Vacant) (ht : b.config.target ≠ .function)
    (hne : path ≠ []) (hn : ∀ n ∈ path, n.IsWord b.config.dialect)
    (hs : Relabel.blank.script script = Relabel.blank.script S)
    (h : b.Rooted s .idle script ((DirectiveKind.importScript path).pieces ++ ps)) :
    b.Settles s ps { S with imports := S.imports ++ [⟨node, .importScript path⟩] } := by
  obtain ⟨first, rest, rfl⟩ := List.exists_cons_of_ne_nil hne
  obtain ⟨hfirst, hrest⟩ := List.forall_mem_cons.1 hn
  simp only [DirectiveKind.pieces, pathPieces, List.cons_append, List.append_assoc, List.nil_append] at h
  refine (h.hash hb ht).settles fun s₁ phase hp h₁ => ?_
  obtain ⟨loc, rfl⟩ := hp
  refine (h₁.include hb).settles fun s₂ phase hp h₂ => ?_
  subst hp
  refine (h₂.name (fun n => .importPath loc [n] false) hb hfirst ?_).settles fun s₃ phase hp h₃ => ?_
  · intro s' t hself heof hname
    simp [rootToken, heof, hself, importPath, hname]
  obtain ⟨name, rfl, hname⟩ := hp
  refine (h₃.segments hb hrest).settles fun s₄ phase hp h₄ => ?_
  obtain ⟨new, rfl, hnew⟩ := hp
  refine h₄.finish hb fun s' t hsame hfacing => ?_
  have hsymbol : t.isSymbol ';' = true := symbol_of_same hsame
  have hback : t.isSymbol '\\' = false := Token.isSymbol_ne hsymbol (by decide)
  refine ⟨s'.nextId + 1, s'.warned,
    { script with imports := script.imports ++ [⟨⟨s'.nextId, loc⟩, .importScript ([name] ++ new)⟩] }, ?_, ?_⟩
  · simp [rootToken, Token.isEof_of_isSymbol hsymbol, hfacing.inRoot_eq, importPath, hsymbol, hback, addImport, withNode,
      hfacing.script_eq, ← hfacing.constants_eq]
  · simp only [Relabel.script, Script.mk.injEq] at hs ⊢
    simp [hs, Relabel.directive, Relabel.directiveKind, Relabel.path, hname, hnew]

theorem Rooted.directiveHead (hb : b.Vacant) (ht : b.config.target ≠ .function) (hn : n.IsWord b.config.dialect)
    (hi : DirectiveName.ofWord? n.name ≠ some .includeFile)
    (h : b.Rooted s .idle script (symbolPiece true '#' :: wordPiece false n.name :: ps)) :
    b.Enters s script ps fun phase => ∃ loc n', phase = .directiveHead loc n' ∧ n'.name = n.name := by
  refine (h.hash hb ht).trans fun s₁ phase hp h₁ => ?_
  obtain ⟨loc, rfl⟩ := hp
  refine (h₁.name (.directiveHead loc) hb hn ?_).trans fun s₂ phase hp h₂ => ?_
  · intro s' t hself heof hname
    simp [rootToken, heof, hself, directiveName, hname, hi]
  · obtain ⟨n', rfl, hn'⟩ := hp
    exact h₂.enters ⟨loc, n', rfl, hn'⟩

theorem alike_declarations {x x' : Declaration} (hs : Relabel.blank.script script = Relabel.blank.script S)
    (hx : Relabel.blank.declaration x' = Relabel.blank.declaration x) :
    Relabel.blank.script { script with declarations := script.declarations ++ [x'] } =
      Relabel.blank.script { S with declarations := S.declarations ++ [x] } := by
  simp only [Relabel.script, Script.mk.injEq] at hs ⊢
  simp [hs, hx]

theorem Rooted.bareDirective {node : Node} (hb : b.Vacant) (ht : b.config.target ≠ .function)
    (hn : n.IsWord b.config.dialect) (hi : DirectiveName.ofWord? n.name = none)
    (hs : Relabel.blank.script script = Relabel.blank.script S)
    (h : b.Rooted s .idle script ((DirectiveKind.bare n).pieces ++ ps)) :
    b.Settles s ps { S with declarations := S.declarations ++ [.directive ⟨node, .bare n⟩] } := by
  refine (h.directiveHead hb ht hn (by simp [hi])).settles fun s₁ phase hp h₁ => ?_
  obtain ⟨loc, n', rfl, hn'⟩ := hp
  refine h₁.finish hb fun s' t hsame hfacing => ?_
  have hsymbol : t.isSymbol ';' = true := symbol_of_same hsame
  refine ⟨s'.nextId + 1, s'.warned,
    { script with declarations := script.declarations ++ [.directive ⟨⟨s'.nextId, loc⟩, .bare n'⟩] }, ?_, ?_⟩
  · simp [rootToken, Token.isEof_of_isSymbol hsymbol, hfacing.inRoot_eq, Session.directiveHead, hsymbol, Session.bareDirective, hn',
      hi, addDirective, withNode, addDeclaration, hfacing.script_eq, ← hfacing.constants_eq]
  · exact alike_declarations hs (by simp [Relabel.declaration, Relabel.directive, Relabel.directiveKind, hn'])

theorem Rooted.mark {node : Node} (hb : b.Vacant) (ht : b.config.target ≠ .function) (hn : n.IsWord b.config.dialect)
    (hi : DirectiveName.ofWord? n.name = some .declarative) (hs : Relabel.blank.script script = Relabel.blank.script {})
    (h : b.Rooted s .idle script ((DirectiveKind.bare n).pieces ++ ps)) :
    b.Settles s ps { declarations := [.directive ⟨node, .bare n⟩], declarative := true } := by
  refine (h.directiveHead hb ht hn (by simp [hi])).settles fun s₁ phase hp h₁ => ?_
  obtain ⟨loc, n', rfl, hn'⟩ := hp
  refine h₁.finish hb fun s' t hsame hfacing => ?_
  have hsymbol : t.isSymbol ';' = true := symbol_of_same hsame
  have hfresh : isFresh script = true := by
    rw [← Relabel.blank.isFresh_script, hs]
    rfl
  refine ⟨s'.nextId + 1, s'.warned,
    { script with
      declarations := script.declarations ++ [.directive ⟨⟨s'.nextId, loc⟩, .bare n'⟩], declarative := true }, ?_, ?_⟩
  · simp [rootToken, Token.isEof_of_isSymbol hsymbol, hfacing.inRoot_eq, Session.directiveHead, hsymbol, Session.bareDirective, hn',
      hi, hfresh, addDirective, withNode, addDeclaration, hfacing.script_eq, ← hfacing.constants_eq]
  · simp only [Relabel.script, Script.mk.injEq] at hs ⊢
    simp [hs, Relabel.declaration, Relabel.directive, Relabel.directiveKind, hn']

theorem Rooted.furtherArgs {args es : List Expr} {e : Expr} {apart : Bool} (hb : b.Vacant)
    (he : ∀ x ∈ e :: es, x.Told b.config .directiveArgs)
    (h : b.Rooted s (.directiveArgs loc n args) script (e.pieces apart ++ (furtherPieces es ++ symbolPiece false ')' :: ps))) :
    ∃ s' args', { s with expr := some (fresh .directiveArgs) }.Reaches s' ∧
      b.Rooted s' (.directiveEnd loc n (args ++ args')) script ps ∧
      args'.map Relabel.blank.expr = (e :: es).map Relabel.blank.expr := by
  induction es generalizing s e args apart with
  | nil =>
    obtain ⟨s', e', t, ht, hfacing, ha, hreach⟩ := h.value hb (he e (by simp)) (by decide) (ending_symbol (by simp))
    have hcomma : t.isSymbol ',' = false := Token.isSymbol_ne ht (by decide)
    have hdone : s'.exprDone .directiveArgs (.value e') t = s'.inRoot (.directiveEnd loc n (args ++ [e'])) := by
      simp [exprDone, directiveArgDone, hfacing.mode_eq, directiveArgEnd, ht, hcomma, inRoot]
    rw [hdone] at hreach
    exact ⟨_, [e'], hreach, hfacing.rooted, by simp [ha.eq]⟩
  | cons e₁ es ih =>
    simp only [furtherPieces, List.cons_append, List.append_assoc] at h
    obtain ⟨s', e', t, ht, hfacing, ha, hreach⟩ := h.value hb (he e (by simp)) (by decide) (ending_symbol (by simp))
    have hdone : s'.exprDone .directiveArgs (.value e') t =
        { s'.inRoot (.directiveArgs loc n (args ++ [e'])) with expr := some (fresh .directiveArgs) } := by
      simp [exprDone, directiveArgDone, hfacing.mode_eq, directiveArgEnd, ht, inRoot, beginExpr, fresh]
    rw [hdone] at hreach
    obtain ⟨s'', args', hreach', hrooted, hargs⟩ := ih (fun x hx => he x (List.mem_cons_of_mem _ hx)) hfacing.rooted
    exact ⟨s'', e' :: args', hreach.trans hreach', by simpa using hrooted, by simp [ha.eq, hargs]⟩

theorem Rooted.args {es : List Expr} (hb : b.Vacant) (he : ∀ e ∈ es, e.Told b.config .directiveArgs)
    (h : b.Rooted s (.directiveArgs loc n []) script (exprPieces false es ++ symbolPiece false ')' :: ps)) :
    ∃ s' args', { s with expr := some (fresh .directiveArgs) }.Reaches s' ∧
      b.Rooted s' (.directiveEnd loc n args') script ps ∧ args'.map Relabel.blank.expr = es.map Relabel.blank.expr := by
  cases es with
  | cons e es =>
    simp only [exprPieces, List.append_assoc] at h
    exact h.furtherArgs hb he
  | nil =>
    obtain ⟨hactive, hconfig, hinside⟩ := h.inside (c := .directiveArgs) hb
    have hnone : s.Inside { s with expr := some (fresh .directiveArgs) } (fresh .directiveArgs)
        (clausePieces false none ++ symbolPiece false ')' :: ps) := hinside
    obtain ⟨stream, id, completed, t, hsame, hdel, hf, ha, hreach⟩ := hnone.clause hactive (by simp) (.inr rfl)
    have hfacing := h.facing id hb hdel
    have ht : t.isSymbol ')' = true := symbol_of_same hsame
    have hcomma : t.isSymbol ',' = false := Token.isSymbol_ne ht (by decide)
    have hempty : completed = .empty := by
      cases completed with
      | value => cases ha
      | empty => rfl
      | failed => cases hf
    refine ⟨_, [], hreach, ?_, rfl⟩
    have hdone : { s with stream := stream, nextId := id, expr := none }.exprDone .directiveArgs completed t =
        { s with stream := stream, nextId := id, expr := none }.inRoot (.directiveEnd loc n []) := by
      have hmode : s.mode = .root (.directiveArgs loc n []) := hfacing.mode_eq
      simp [exprDone, directiveArgDone, hmode, hempty, directiveArgEnd, ht, hcomma, inRoot]
    rw [hdone]
    exact hfacing.rooted

theorem Rooted.argsDirective {node : Node} {es : List Expr} (hb : b.Vacant) (ht : b.config.target ≠ .function)
    (hn : n.IsWord b.config.dialect) (hi : DirectiveName.ofWord? n.name ≠ some .includeFile)
    (he : ∀ e ∈ es, e.Told b.config .directiveArgs) (hs : Relabel.blank.script script = Relabel.blank.script S)
    (h : b.Rooted s .idle script ((DirectiveKind.withArgs n es).pieces ++ ps)) :
    b.Settles s ps { S with declarations := S.declarations ++ [.directive ⟨node, .withArgs n es⟩] } := by
  simp only [DirectiveKind.pieces, List.cons_append, List.append_assoc, List.nil_append] at h
  refine (h.directiveHead hb ht hn hi).settles fun s₁ phase hp h₁ => ?_
  obtain ⟨loc, n', rfl, hn'⟩ := hp
  obtain ⟨t, s₂, hsame, hfacing, hreach⟩ := h₁.meets hb
  have hsymbol : t.isSymbol '(' = true := symbol_of_same hsame
  have hsemi : t.isSymbol ';' = false := Token.isSymbol_ne hsymbol (by decide)
  have hopen : s₂.rootToken (.directiveHead loc n') t =
      { s₂.inRoot (.directiveArgs loc n' []) with expr := some (fresh .directiveArgs) } := by
    simp [rootToken, Token.isEof_of_isSymbol hsymbol, hfacing.inRoot_eq, Session.directiveHead, hsymbol, hsemi, beginExpr,
      fresh]
  rw [hopen] at hreach
  obtain ⟨s₃, args', hreach', h₃, hargs⟩ := Rooted.args hb he hfacing.rooted
  suffices hend : b.Settles s₃ ps { S with declarations := S.declarations ++ [.directive ⟨node, .withArgs n es⟩] } by
    obtain ⟨s₄, script', hreach'', h₄⟩ := hend
    exact ⟨s₄, script', hreach.trans (hreach'.trans hreach''), h₄⟩
  refine h₃.finish hb fun s' t hsame hfacing => ?_
  have hsymbol : t.isSymbol ';' = true := symbol_of_same hsame
  refine ⟨s'.nextId + 1, s'.warned,
    { script with declarations := script.declarations ++ [.directive ⟨⟨s'.nextId, loc⟩, .withArgs n' args'⟩] }, ?_, ?_⟩
  · simp [rootToken, Token.isEof_of_isSymbol hsymbol, hfacing.inRoot_eq, expect, hsymbol, addDirective, withNode,
      addDeclaration, hfacing.script_eq, ← hfacing.constants_eq]
  · exact alike_declarations hs (by simp [Relabel.declaration, Relabel.directive, Relabel.directiveKind, hn', hargs])

theorem Rooted.furtherGlobals {done names : List Ident} (hb : b.Vacant) (hn : ∀ n ∈ names, n.IsWord b.config.dialect)
    (h : b.Rooted s (.globals done false) script
      (names.flatMap (fun n => symbolPiece false ',' :: [wordPiece true n.name]) ++ ps)) :
    b.Enters s script ps fun phase => ∃ new, phase = .globals (done ++ new) false ∧
      new.map Relabel.blank.ident = names.map Relabel.blank.ident := by
  induction names generalizing s done with
  | nil => exact h.enters ⟨[], by simp, rfl⟩
  | cons n names ih =>
    obtain ⟨hname, hnames⟩ := List.forall_mem_cons.1 hn
    simp only [List.flatMap_cons, List.cons_append, List.nil_append] at h
    refine (h.symbol (.globals done true) hb ?_).trans fun s₁ phase hp h₁ => ?_
    · intro s' t hself heof hsymbol _
      simp [rootToken, heof, hself, globalNames, hsymbol]
    subst hp
    refine (h₁.name (fun n => .globals (done ++ [n]) false) hb hname ?_).trans fun s₂ phase hp h₂ => ?_
    · intro s' t hself heof hname
      simp [rootToken, heof, hself, globalNames, hname]
    obtain ⟨n', rfl, hn'⟩ := hp
    refine (ih hnames h₂).trans fun s₃ phase hp h₃ => h₃.enters ?_
    obtain ⟨new, rfl, hnew⟩ := hp
    exact ⟨n' :: new, by simp, by simp [hnew, hn']⟩

theorem Rooted.keyword {k : Keyword} (f : Location → RootPhase) (hb : b.Vacant) (ht : b.config.target ≠ .function)
    (hk : k = .constKw ∧ f = .constName ∨ k = .globalKw ∧ f = fun _ => .globals [] true)
    (h : b.Rooted s .idle script (keywordPiece true k :: ps)) :
    b.Enters s script ps fun phase => ∃ loc, phase = f loc := by
  refine h.pass hb fun s' t hsame hfacing => ⟨s'.nextId, s'.warned, f t.loc, ?_, _, rfl⟩
  have hboth : k.availability = .both := by obtain ⟨rfl, -⟩ | ⟨rfl, -⟩ := hk <;> rfl
  have hkeyword : t.keyword? s'.gameMode = some k := keyword_of_same (Keyword.reservedIn_of_both _ hboth) hsame
  have hsymbol (c : Char) : t.isSymbol c = false := by simp [Token.isSymbol, Token.symbol?, Token.kind_of_keyword hkeyword]
  have heof : t.isEof = false := hsame.isEof
  have htarget : s'.config.target ≠ .function := hfacing.config_eq ▸ ht
  obtain ⟨rfl, rfl⟩ | ⟨rfl, rfl⟩ := hk <;>
    simp [rootToken, heof, hfacing.inRoot_eq, rootIdle, htarget, hsymbol, Token.isKeyword, hkeyword] <;> rfl

theorem Rooted.globals {globals : List Ident} (hb : b.Vacant) (ht : b.config.target ≠ .function)
    (hn : ∀ n ∈ globals, n.IsWord b.config.dialect) (hs : Relabel.blank.script script = Relabel.blank.script S)
    (h : b.Rooted s .idle script (globalPieces globals ++ ps)) :
    b.Settles s ps { S with globals := S.globals ++ globals } := by
  cases globals with
  | nil => exact h.settles (by simpa using hs)
  | cons n names =>
    obtain ⟨hname, hnames⟩ := List.forall_mem_cons.1 hn
    simp only [globalPieces, commaPieces, List.isEmpty_cons, Bool.false_eq_true, if_false, List.cons_append,
      List.append_assoc, List.nil_append] at h
    refine (h.keyword _ hb ht (.inr ⟨rfl, rfl⟩)).settles fun s₁ phase hp h₁ => ?_
    obtain ⟨-, rfl⟩ := hp
    refine (h₁.name (fun n => .globals [n] false) hb hname ?_).settles fun s₂ phase hp h₂ => ?_
    · intro s' t hself heof hname
      simp [rootToken, heof, hself, globalNames, hname]
    obtain ⟨n', rfl, hn'⟩ := hp
    refine (h₂.furtherGlobals hb hnames).settles fun s₃ phase hp h₃ => ?_
    obtain ⟨new, rfl, hnew⟩ := hp
    refine h₃.finish hb fun s' t hsame hfacing => ?_
    have hsymbol : t.isSymbol ';' = true := symbol_of_same hsame
    have hcomma : t.isSymbol ',' = false := Token.isSymbol_ne hsymbol (by decide)
    refine ⟨s'.nextId, s'.warned, { script with globals := script.globals ++ ([n'] ++ new) }, ?_, ?_⟩
    · simp [rootToken, Token.isEof_of_isSymbol hsymbol, hfacing.inRoot_eq, globalNames, hsymbol, hcomma,
        hfacing.script_eq, ← hfacing.constants_eq]
    · simp only [Relabel.script, Script.mk.injEq] at hs ⊢
      simp [hs, hn', hnew]

theorem foldedConstants_constants (cs : List ConstantDecl) :
    foldedConstants (cs.map Relabel.blank.constant) = foldedConstants cs := by
  simp only [foldedConstants, List.filterMap_map]
  rfl

theorem addConstant_new {e : Expr} {v : Value} (hd : (s.script.constants.any fun c => c.name.same n) = false)
    (hv : Fold.evaluate s.constants.lookup? e = .ok v) : s.addConstant loc n e = { s with
      nextId := s.nextId + 1, constants := (lowerWord n.name, v) :: s.constants,
      script := { s.script with constants := s.script.constants ++
        [⟨⟨s.nextId, loc⟩, n, Fold.noteRead s.constants.lookup? e, some v⟩] } } := by
  simp [addConstant, hd, hv, withNode]

theorem Rooted.constant {node : Node} {e : Expr} {v : Value} (hb : b.Vacant) (ht : b.config.target ≠ .function)
    (hn : n.IsWord b.config.dialect) (hd : (S.constants.any fun c => c.name.same n) = false)
    (he : e.Told b.config .constValue) (hv : Fold.evaluate (foldedConstants S.constants).lookup? e = .ok v)
    (hs : Relabel.blank.script script = Relabel.blank.script S)
    (h : b.Rooted s .idle script
      ((⟨node, n, Fold.noteRead (foldedConstants S.constants).lookup? e, some v⟩ : ConstantDecl).pieces ++ ps)) :
    b.Settles s ps { S with constants := S.constants ++
      [⟨node, n, Fold.noteRead (foldedConstants S.constants).lookup? e, some v⟩] } := by
  simp only [ConstantDecl.pieces, Fold.pieces_noteRead, List.cons_append, List.append_assoc, List.nil_append] at h
  refine (h.keyword _ hb ht (.inl ⟨rfl, rfl⟩)).settles fun s₁ phase hp h₁ => ?_
  obtain ⟨loc, rfl⟩ := hp
  refine (h₁.name (.constEquals loc) hb hn ?_).settles fun s₂ phase hp h₂ => ?_
  · intro s' t hself heof hname
    simp [rootToken, heof, hself, hname]
  obtain ⟨n', rfl, hn'⟩ := hp
  obtain ⟨t, s₃, hsame, hfacing, hreach⟩ := h₂.meets hb
  have hopen : s₃.rootToken (.constEquals loc n') t =
      { s₃.inRoot (.constValue loc n') with expr := some (fresh .constValue) } := by
    have hsymbol : t.isSymbol '=' = true := symbol_of_same hsame
    simp [rootToken, Token.isEof_of_isSymbol hsymbol, hfacing.inRoot_eq, expect, hsymbol, beginExpr, fresh]
  rw [hopen] at hreach
  have h₃ : b.Rooted (s₃.inRoot (.constValue loc n')) (.constValue loc n') script
      (e.pieces true ++ symbolPiece false ';' :: ps) := hfacing.rooted
  obtain ⟨s₄, e', t', ht', hfacing', ha, hreach'⟩ := h₃.value hb he (by decide) (ending_symbol (by simp))
  -- The constants in front have the values that they had.
  have hconstants : script.constants.map Relabel.blank.constant = S.constants.map Relabel.blank.constant :=
    congrArg Script.constants hs
  have hfolded : s₄.constants = foldedConstants S.constants := by
    rw [hfacing'.constants_eq, ← foldedConstants_constants, hconstants, foldedConstants_constants]
  have hvalue : Fold.evaluate s₄.constants.lookup? e' = .ok v := by rw [hfolded, evaluate_alike ha, hv]
  have hnew : (s₄.script.constants.any fun c => c.name.same n') = false := by
    have hany (cs : List ConstantDecl) : (cs.any fun c => c.name.same n') =
        (cs.map Relabel.blank.constant).any fun c => c.name.same n := by
      simp only [List.any_map, Ident.same, hn', Function.comp_def]
      rfl
    rw [hfacing'.script_eq, hany, hconstants, ← hd]
    simp only [List.any_map]
    rfl
  have hdone : s₄.exprDone .constValue (.value e') t' = (s₄.inRoot .idle).addConstant loc n' e' := by
    simp [exprDone, constValueDone, hfacing'.mode_eq, expect, ht']
  rw [hdone, addConstant_new (s := s₄.inRoot .idle) hnew hvalue] at hreach'
  have hnote : Relabel.blank.expr (Fold.noteRead s₄.constants.lookup? e') =
      Relabel.blank.expr (Fold.noteRead (foldedConstants S.constants).lookup? e) := by
    rw [hfolded]
    exact (noteRead_alike ha _).eq
  have hadded (c : ConstantDecl) : foldedConstants (script.constants ++ [c]) = foldedConstants [c] ++ s₄.constants := by
    rw [foldedConstants_append, hfacing'.constants_eq]
  refine ⟨_, { script with constants := script.constants ++ [⟨⟨s₄.nextId, loc⟩, n', Fold.noteRead s₄.constants.lookup? e',
    some v⟩] }, hreach.trans hreach', ⟨?_, hfacing'.delivers.closed, hfacing'.delivers.shows⟩, ?_⟩
  · rw [hadded]
    rw [hfacing'.same]
    simp [inRoot, foldedConstants]
  · simp only [Relabel.script, Script.mk.injEq] at hs ⊢
    simp [hs, Relabel.constant, hn', hnote]

end Session

end GameScript
