import GameScript.Proofs.Rooted

namespace GameScript

namespace Session

variable {b s : Session} {phase : RootPhase} {script S : Script} {ps qs : List Piece} {t u : Token}
  {header H : FunctionHeader} {m : ParamModifiers} {apart : Bool}

def Marked (header : FunctionHeader) (m : ParamModifiers) (phase : RootPhase) : Prop :=
  ∃ pending, phase = .param header pending ∧ ∀ loc, (pending.getD (loc, {})).2 = m

theorem paramToken_mark {pending : PendingParam} {c : Char} {m' : ParamModifiers} (hself : s.inRoot .idle = s)
    (ht : t.isSymbol c = true) (hm : ∀ loc, (pending.getD (loc, {})).2 = m)
    (hc : c = '&' ∧ m.byRef = false ∧ m' = { m with byRef := true } ∨
      c = '?' ∧ m.optional = false ∧ m' = { m with optional := true }) :
    ∃ loc, s.rootToken (.param header pending) t = s.inRoot (.param header (some (loc, m'))) := by
  have hname := plainName?_of_symbol (s := s) ht
  have heof := Token.isEof_of_isSymbol ht
  obtain ⟨loc, hpair⟩ : ∃ loc, pending.getD (t.loc, {}) = (loc, m) := ⟨_, Prod.ext rfl (hm t.loc)⟩
  refine ⟨loc, ?_⟩
  obtain ⟨rfl, hf, rfl⟩ | ⟨rfl, hf, rfl⟩ := hc
  · simp only [rootToken, heof, hself, paramToken, hname, ht, hpair, hf, paramMark, Bool.false_and, Bool.false_eq_true,
      if_false, if_true]
  · have hne : t.isSymbol '&' = false := Token.isSymbol_ne ht (by decide)
    simp only [rootToken, heof, hself, paramToken, hname, ht, hne, hpair, hf, paramMark, Bool.false_and,
      Bool.false_eq_true, if_false, if_true]

theorem Rooted.optionalMark {c : Char} {cs : List Char} {r : Bool} (m' : ParamModifiers) (hb : b.Vacant)
    (hm : Marked header m phase)
    (hc : c = '&' ∧ m.byRef = false ∧ m' = { m with byRef := r } ∨
      c = '?' ∧ m.optional = false ∧ m' = { m with optional := r })
    (h : b.Rooted s phase script (symbolPieces apart ((if r then [c] else []) ++ cs) ++ ps)) :
    b.Enters s script (symbolPieces (apart && !r) cs ++ ps) (Marked header m') := by
  obtain ⟨pending, rfl, hpending⟩ := hm
  cases r with
  | false =>
    have hsame : m' = m := by
      obtain ⟨-, hf, rfl⟩ | ⟨-, hf, rfl⟩ := hc <;> cases m <;> simp_all
    subst hsame
    simp only [Bool.false_eq_true, if_false, List.nil_append] at h
    rw [Bool.not_false, Bool.and_true]
    exact h.enters ⟨pending, rfl, hpending⟩
  | true =>
    simp only [if_true, List.cons_append, List.nil_append, symbolPieces] at h
    rw [Bool.not_true, Bool.and_false]
    refine h.pass hb fun s' t hsame hfacing => ?_
    obtain ⟨loc, hstep⟩ : ∃ loc, s'.rootToken (.param header pending) t = s'.inRoot (.param header (some (loc, m'))) :=
      paramToken_mark hfacing.inRoot_eq (symbol_of_same hsame) hpending hc
    exact ⟨s'.nextId, s'.warned, _, hstep, _, rfl, fun _ => rfl⟩

theorem Rooted.dots (hb : b.Vacant) (hm : Marked header m phase) (hv : m.variadic = false)
    (h : b.Rooted s phase script (symbolPieces apart ['.', '.', '.'] ++ ps)) :
    b.Enters s script ps (Marked header { m with variadic := true }) := by
  obtain ⟨pending, rfl, hpending⟩ := hm
  simp only [symbolPieces, List.cons_append, List.nil_append] at h
  obtain ⟨t, s', hsame, hfacing, hreach⟩ := h.meets hb
  have ht : t.isSymbol '.' = true := symbol_of_same hsame
  have hrun : (s'.lookahead ['.'] 2).1 = ['.', '.'] := by
    have hjoined (rest : List Piece) : joined (symbolPiece false '.' :: rest) = '.' :: joined rest := by
      rw [symbolPiece, joined, Token.symbol?, if_pos rfl]
      simp
    rw [lookahead_eq hfacing.delivers.closed hfacing.delivers.behind, hjoined, hjoined]
    rfl
  obtain ⟨taken, stream, hn, htakes, hd⟩ := discard_of_length hfacing.delivers.closed ['.'] 2 (n := 2) (by simp)
    (by rw [hrun]; exact Nat.le_refl 2)
  obtain ⟨loc, hpair⟩ : ∃ loc, pending.getD (t.loc, {}) = (loc, m) := ⟨_, Prod.ext rfl (hpending t.loc)⟩
  have hstep : s'.rootToken (.param header pending) t =
      { s' with stream := stream, mode := .root (.param header (some (loc, { m with variadic := true }))) } := by
    have hlength : (s'.stream.symbols ['.'] 2).1.length = 2 := by
      have := congrArg List.length hrun
      exact this
    have hstream : (s'.stream.symbols ['.'] 2).2.commit 2 = stream := congrArg Session.stream hd
    have hand : t.isSymbol '&' = false := Token.isSymbol_ne ht (by decide)
    have hquestion : t.isSymbol '?' = false := Token.isSymbol_ne ht (by decide)
    have hname := plainName?_of_symbol (s := s') ht
    simp [rootToken, Token.isEof_of_isSymbol ht, hfacing.inRoot_eq, paramToken, hname, ht, hand, hquestion, hpair, paramDots,
      hlength, hstream, hv, paramMark]
    rfl
  rw [hstep] at hreach
  refine ⟨_, .param header (some (loc, { m with variadic := true })), hreach,
    ⟨?_, htakes.closed hfacing.delivers.closed, ⟨false, ?_⟩⟩, _, rfl, fun _ => rfl⟩
  · rw [hfacing.same]
  · have hbehind : Shown false (s'.stream.tokens.toList.drop s'.stream.cursor)
        ([symbolPiece false '.', symbolPiece false '.'] ++ ps) := hfacing.delivers.behind
    exact htakes.behind hbehind (by simp [symbolPiece]) (by simp [hn])

theorem Rooted.marks {p : Param} (hb : b.Vacant)
    (h : b.Rooted s (.param header none) script (symbolPieces apart p.marks ++ ps)) :
    b.Enters s script ps (Marked header p.modifiers) := by
  obtain ⟨loc, name, ⟨byRef, variadic, optional⟩⟩ := p
  simp only [Param.marks, List.append_assoc] at h
  have h₁ := h.optionalMark { byRef := byRef } hb ⟨none, rfl, fun _ => rfl⟩ (.inl ⟨rfl, rfl, rfl⟩)
  refine h₁.trans fun s₁ phase hp h₁ => ?_
  refine (h₁.optionalMark { byRef := byRef, optional := optional } hb hp (.inr ⟨rfl, rfl, rfl⟩)).trans
    fun s₂ phase hp h₂ => ?_
  cases variadic with
  | false => exact h₂.enters hp
  | true => exact h₂.dots hb hp rfl

theorem addParam_alike {p : Param} (p' : Param) (hh : Relabel.blank.header header = Relabel.blank.header H)
    (hp : Relabel.blank.param p' = Relabel.blank.param p) (hok : paramProblem? H.params p = none) :
    s.addParam header p' = ({ header with params := header.params ++ [p'] }, s) ∧
      Relabel.blank.header { header with params := header.params ++ [p'] } =
        Relabel.blank.header { H with params := H.params ++ [p] } := by
  simp only [Relabel.header, FunctionHeader.mk.injEq] at hh ⊢
  have hnone : paramProblem? header.params p' = none := by
    have hblank := Relabel.blank.paramProblem?_param header.params p'
    rw [hh.2.2, hp, Relabel.blank.paramProblem?_param, hok] at hblank
    simpa using hblank.symm
  exact ⟨by simp [addParam, hnone], by simp [hh, hp]⟩

inductive BehindParams (H : FunctionHeader) : RootPhase → Prop
  | none {header : FunctionHeader} (he : H.params = []) (hh : Relabel.blank.header header = Relabel.blank.header H) :
      BehindParams H (.param header none)
  | named {header : FunctionHeader} (hh : Relabel.blank.header header = Relabel.blank.header H) :
      BehindParams H (.paramEnd header)
  | dots {header : FunctionHeader} {params : List Param} {p : Param} {loc : Location} (he : H.params = params ++ [p])
      (hn : p.name = none) (hm : p.modifiers = { variadic := true })
      (hh : Relabel.blank.header header = Relabel.blank.header { H with params := params })
      (hp : paramProblem? params p = none) : BehindParams H (.param header (some (loc, { variadic := true })))

theorem Rooted.param {p : Param} (hb : b.Vacant) (hn : ∀ n ∈ p.name, n.IsWord b.config.dialect)
    (hd : p.name = none → p.modifiers = { variadic := true }) (hp : paramProblem? H.params p = none)
    (hh : Relabel.blank.header header = Relabel.blank.header H)
    (h : b.Rooted s (.param header none) script (p.pieces apart ++ ps)) :
    b.Enters s script ps (BehindParams { H with params := H.params ++ [p] }) := by
  rw [Param.pieces, List.append_assoc] at h
  refine (h.marks hb).trans fun s₁ phase hm h₁ => ?_
  obtain ⟨pending, rfl, hpending⟩ := hm
  obtain ⟨loc, name, modifiers⟩ := p
  cases name with
  | none =>
    obtain rfl : modifiers = { variadic := true } := hd rfl
    obtain ⟨loc, rfl⟩ : ∃ loc, pending = some (loc, { variadic := true }) := by
      cases pending with
      | none =>
        have := hpending .zero
        cases this
      | some q => exact ⟨q.1, congrArg some (Prod.ext rfl (hpending .zero))⟩
    exact h₁.enters (.dots rfl rfl rfl hh hp)
  | some n =>
    refine h₁.pass hb fun s' t hsame hfacing => ?_
    have hname : s'.plainName? t = some ⟨n.name, t.loc⟩ := plainName_of_same (hfacing.config_eq ▸ hn n rfl) hsame
    obtain ⟨loc', hpair⟩ : ∃ loc, pending.getD (t.loc, {}) = (loc, modifiers) := ⟨_, Prod.ext rfl (hpending t.loc)⟩
    have heof : t.isEof = false := hsame.isEof
    obtain ⟨hadd, hheader⟩ := addParam_alike (s := s') (p := ⟨loc, some n, modifiers⟩)
      ⟨loc', some ⟨n.name, t.loc⟩, modifiers⟩ hh rfl hp
    refine ⟨s'.nextId, s'.warned, _, ?_, .named hheader⟩
    simp only [rootToken, heof, hfacing.inRoot_eq, paramToken, hname, hpair, hadd, Bool.false_and, Bool.false_eq_true,
      if_false]
    rfl

theorem paramProblem?_behind_dots {params : List Param} {p q : Param} (h : p.modifiers.variadic = true) :
    paramProblem? (params ++ [p]) q ≠ none := by
  unfold paramProblem?
  simp only
  split
  · simp
  · simp [h]

theorem Rooted.params {params : List Param} (hb : b.Vacant) (hp : ParamsComposed b.config.dialect params)
    (hh : Relabel.blank.header header = Relabel.blank.header { H with params := [] })
    (h : b.Rooted s (.param header none) script (commaPieces Param.pieces false params ++ ps)) :
    b.Enters s script ps (BehindParams { H with params := params }) := by
  -- The list grows at its end: the comma and the last parameter follow the others.
  induction hp generalizing ps with
  | nil => exact h.enters (.none rfl hh)
  | @snoc params p hprior hn hd hp ih =>
    cases hfirst : params with
    | nil =>
      subst hfirst
      simp only [List.nil_append, commaPieces, List.flatMap_nil, List.append_nil] at h ⊢
      exact h.param (H := { H with params := [] }) hb hn hd hp hh
    | cons first rest =>
      rw [← hfirst]
      rw [commaPieces_snoc _ _ _ (by simp [hfirst]), List.append_assoc] at h
      refine (ih h).trans fun s₁ phase hbehind h₁ => ?_
      cases hbehind with
      | none he => simp [hfirst] at he
      | dots he _ hm =>
        obtain rfl : params = _ := he
        exact absurd hp (paramProblem?_behind_dots (by rw [hm]))
      | @named header hh =>
        refine (h₁.symbol (.param header none) hb ?_).trans fun s₂ phase hphase h₂ => ?_
        · intro s' t hself heof hsymbol _
          simp [rootToken, heof, hself, paramEnd, hsymbol]
        · subst hphase
          exact h₂.param (H := { H with params := params }) hb hn hd hp hh

theorem Rooted.closeParams (hb : b.Vacant) (hbehind : BehindParams H phase)
    (h : b.Rooted s phase script (symbolPiece false ')' :: ps)) :
    b.Enters s script ps fun phase => ∃ header, phase = .functionEnd header ∧
      Relabel.blank.header header = Relabel.blank.header H := by
  have hne {t : Token} (ht : t.isSymbol ')' = true) :
      t.isSymbol '&' = false ∧ t.isSymbol '?' = false ∧ t.isSymbol '.' = false :=
    ⟨Token.isSymbol_ne ht (by decide), Token.isSymbol_ne ht (by decide), Token.isSymbol_ne ht (by decide)⟩
  cases hbehind with
  | @none header he hh =>
    refine (h.symbol (.functionEnd header) hb ?_).trans fun s' phase hp h' => h'.enters ⟨header, hp, hh⟩
    intro s' t hself heof hsymbol hname
    have hempty : header.params = [] := by
      have := congrArg FunctionHeader.params hh
      simpa [Relabel.header, he] using this
    simp [rootToken, heof, hself, paramToken, hname, hne hsymbol, hsymbol, Session.closeParams, hempty]
  | @named header hh =>
    refine (h.symbol (.functionEnd header) hb ?_).trans fun s' phase hp h' => h'.enters ⟨header, hp, hh⟩
    intro s' t hself heof hsymbol _
    have hcomma : t.isSymbol ',' = false := Token.isSymbol_ne hsymbol (by decide)
    simp [rootToken, heof, hself, paramEnd, hsymbol, hcomma]
  | @dots header params p loc he hn hm hh hp =>
    refine h.pass hb fun s' t hsame hfacing => ?_
    have hsymbol : t.isSymbol ')' = true := symbol_of_same hsame
    obtain ⟨hadd, hheader⟩ := addParam_alike (s := s') (H := { H with params := params }) (p := p)
      ⟨loc, none, { variadic := true }⟩ hh (by simp [Relabel.param, hn, hm]) hp
    refine ⟨s'.nextId, s'.warned, .functionEnd { header with params := header.params ++ [⟨loc, none, { variadic := true }⟩] },
      ?_, _, rfl, ?_⟩
    · simp [rootToken, Token.isEof_of_isSymbol hsymbol, hfacing.inRoot_eq, paramToken, plainName?_of_symbol hsymbol,
        hne hsymbol, hsymbol, Session.closeParams, hadd]
      rfl
    · rw [hheader, ← he]

theorem plainName?_some {n : Ident} (h : s.plainName? t = some n) :
    t.keyword? s.gameMode = none ∧ ∀ c, t.isSymbol c = false := by
  unfold plainName? at h
  split at h
  · next hplain =>
    refine ⟨by simpa using hplain.2, fun c => ?_⟩
    simp [Token.isSymbol, Token.symbol?, hplain.1]
  · cases h

theorem Rooted.functionName {n : Ident} (hb : b.Vacant) (hn : n.IsWord b.config.dialect)
    (h : b.Rooted s .idle script (wordPiece true n.name :: ps)) :
    b.Enters s script ps fun phase => ∃ n', phase = .functionOpen n' ∧ n'.name = n.name := by
  refine h.pass hb fun s' t hsame hfacing => ⟨s'.nextId, s'.warned, .functionOpen ⟨n.name, t.loc⟩, ?_, _, rfl, rfl⟩
  have hname : s'.plainName? t = some ⟨n.name, t.loc⟩ := plainName_of_same (hfacing.config_eq ▸ hn) hsame
  obtain ⟨hkeyword, hsymbol⟩ := plainName?_some hname
  have heof : t.isEof = false := hsame.isEof
  have hout : s'.output.isSome = false := by
    rw [hfacing.same]
    simp [hb.output]
  have hidle : s'.rootToken .idle t = s'.rootIdle t := by simp [rootToken, heof, hfacing.inRoot_eq]
  rw [hidle]
  by_cases ht : s'.config.target = .function
  · simp [rootIdle, ht, functionTarget, hout, heof, hname]
    rfl
  · simp [rootIdle, ht, heof, hsymbol, Token.isKeyword, hkeyword, hname]
    rfl

theorem Rooted.signature {f : FunctionDef} (hb : b.Vacant) (hn : f.name.IsWord b.config.dialect)
    (hp : ParamsComposed b.config.dialect f.params)
    (h : b.Rooted s .idle script (wordPiece true f.name.name :: symbolPiece false '(' ::
      (commaPieces Param.pieces false f.params ++ symbolPiece false ')' :: ps))) :
    b.Enters s script ps fun phase => ∃ header, phase = .functionEnd header ∧
      Relabel.blank.header header = Relabel.blank.header ⟨f.node, f.name, f.params⟩ := by
  refine (h.functionName hb hn).trans fun s₁ phase hp h₁ => ?_
  obtain ⟨n', rfl, hn'⟩ := hp
  have hopen : b.Enters s₁ script (commaPieces Param.pieces false f.params ++ symbolPiece false ')' :: ps) fun phase =>
      ∃ node, phase = .param ⟨node, n', []⟩ none := by
    refine h₁.pass hb fun s' t hsame hfacing => ⟨s'.nextId + 1, s'.warned, _, ?_, ⟨s'.nextId, n'.loc⟩, rfl⟩
    have hsymbol : t.isSymbol '(' = true := symbol_of_same hsame
    simp [rootToken, Token.isEof_of_isSymbol hsymbol, expect, hsymbol, withNode, inRoot]
  refine hopen.trans fun s₂ phase hphase h₂ => ?_
  obtain ⟨node, rfl⟩ := hphase
  have hheader : Relabel.blank.header ⟨node, n', []⟩ =
      Relabel.blank.header { (⟨f.node, f.name, f.params⟩ : FunctionHeader) with params := [] } := by
    simp [Relabel.header, hn']
  exact (h₂.params hb hp hheader).trans fun s₃ phase hbehind h₃ => h₃.closeParams hb hbehind

def inBody (b : Session) (header : FunctionHeader) (script : Script) : Session :=
  { b with mode := .body header, script := script, constants := foldedConstants script.constants }

theorem Vacant.atRest (hb : b.Vacant) : (b.inBody header script).AtRest := by
  have hf := hb.active.finished
  simp only [isFinished, Bool.or_eq_false_iff] at hf
  exact ⟨⟨by simp [isFinished, inBody, hf.1], hb.active.recovery⟩, hb.expr, header, rfl⟩

theorem Rooted.body {ss : List Stmt} (hb : b.Vacant) (hd : (script.declarative && b.config.target == .script) = false)
    (hs : ∀ stmt ∈ ss, stmt.Retold (b.inBody header script) [])
    (h : b.Rooted s (.functionEnd header) script (bracedPieces (groupPieces ss).flatten ++ ps)) :
    ∃ s' t body, b.Facing s' .idle script t ps ∧ s.Reaches (s'.defineFunction (header.define (some body))) ∧
      body.statements.map Relabel.blank.stmt = ss.map Relabel.blank.stmt := by
  simp only [bracedPieces, List.cons_append, List.append_assoc, List.nil_append] at h
  obtain ⟨t, s₁, hsame, hfacing, hreach⟩ := h.meets hb
  have hopen : s₁.rootToken (.functionEnd header) t = { s₁ with
      nextId := s₁.nextId + 1, mode := .body header, stmts := [.block ⟨⟨s₁.nextId, t.loc⟩, .functionBody, []⟩] } := by
    have hsymbol : t.isSymbol '\x7b' = true := symbol_of_same hsame
    have hstmts : s₁.stmts = [] := by rw [hfacing.same, ← hb.stmts]
    have hdeclared : (s₁.script.declarative && s₁.config.target == .script) = false := by
      rw [hfacing.script_eq, hfacing.config_eq, hd]
    simp [rootToken, Token.isEof_of_isSymbol hsymbol, hfacing.inRoot_eq, Session.functionEnd, hsymbol, hdeclared, withNode,
      pushStmt, hstmts]
  rw [hopen] at hreach
  have hstanding : (b.inBody header script).Standing { s₁ with
      nextId := s₁.nextId + 1, mode := .body header, stmts := [.block ⟨⟨s₁.nextId, t.loc⟩, .functionBody, []⟩] }
      [.block ⟨⟨s₁.nextId, t.loc⟩, .functionBody, []⟩] ((groupPieces ss).flatten ++ symbolPiece true '\x7d' :: ps) := by
    refine ⟨?_, hfacing.delivers.closed, hfacing.delivers.shows⟩
    rw [hfacing.same]
    rfl
  obtain ⟨s₂, stmts, hreach', hst, new, rfl, hnew⟩ := retold_statements hs (by simp) rfl noElse_symbol hstanding
  obtain ⟨t', s₃, hsame', hmeets, hreach''⟩ := hst.meets hb.atRest
  have hclose : s₃.bodyToken t' = ({ s₃ with stmts := [] }.inRoot .idle).defineFunction
      (header.define (some ⟨⟨s₁.nextId, t.loc⟩, (new ++ []).reverse⟩)) := by
    have hmode : s₃.mode = .body header := by
      rw [hmeets.same]
      rfl
    rw [bodyToken_closeBrace hmeets.stmts_eq (symbol_of_same hsame')]
    simp [closeBlock, popStmt, hmeets.stmts_eq, closeFunction, hmode]
  rw [hclose] at hreach''
  refine ⟨{ s₃ with stmts := [] }.inRoot .idle, t', ⟨⟨s₁.nextId, t.loc⟩, (new ++ []).reverse⟩, ⟨?_, hmeets.delivers⟩,
    hreach.trans (hreach'.trans hreach''), by simpa using hnew⟩
  rw [hmeets.same]
  simp [inRoot, inBody, hb.stmts]

theorem define_alike {f : FunctionDef} {h : FunctionHeader} {body : Option Block} (hf : f = h.define f.body)
    (hh : Relabel.blank.header header = Relabel.blank.header ⟨f.node, f.name, f.params⟩)
    (hb : body.map Relabel.blank.block = f.body.map Relabel.blank.block) :
    Relabel.blank.function (header.define body) = Relabel.blank.function f := by
  have hself : f = (⟨f.node, f.name, f.params⟩ : FunctionHeader).define f.body := by
    rw [hf]
    rfl
  rw [hself, ← Relabel.blank.define_header, ← Relabel.blank.define_header, hh, hb]

theorem Rooted.define {f : FunctionDef} {before cs' : Constants} {allow declared : Bool} (hb : b.Vacant)
    (hf : f.Composed b.config before declared) (hd : (script.declarative && b.config.target == .script) = declared)
    (hcs : (foldedConstants script.constants).Extends before) (hbuilt : ∀ stmt ∈ f.statements, stmt.Built allow cs' [])
    (hmatched : ∀ stmt ∈ f.statements, (View.stmt stmt).Stmts Stmt.Matched)
    (ha : ∀ stmt ∈ f.statements, (View.stmt stmt).Exprs Expr.NotArray)
    (h : b.Rooted s .idle script (f.pieces ++ ps)) :
    ∃ s' t f', b.Facing s' .idle script t ps ∧ s.Reaches (s'.defineFunction f') ∧
      Relabel.blank.function f' = Relabel.blank.function f := by
  obtain ⟨⟨header, hheader⟩, hn, hp, hbody, hs⟩ := hf
  simp only [FunctionDef.pieces, List.cons_append, List.append_assoc] at h
  obtain ⟨s₁, _, hreach, h₁, header', rfl, hh⟩ := h.signature hb hn hp
  cases hfb : f.body with
  | some block =>
    rw [hfb] at h₁ hbody
    have hstatements : f.statements = block.statements := by simp [FunctionDef.statements, hfb]
    rw [hstatements] at hs hbuilt hmatched ha
    have hretold : ∀ stmt ∈ block.statements, stmt.Retold (b.inBody header' script) [] := by
      intro stmt hm
      have hstmt : stmt.Composed (b.inBody header' script).config before false := hs stmt hm
      exact hstmt.retold hb.atRest hcs (hbuilt stmt hm) (hmatched stmt hm) (ha stmt hm)
    obtain ⟨s₂, t, body, hfacing, hreach', hbody'⟩ := h₁.body hb (hd.trans hbody.symm) hretold
    refine ⟨s₂, t, _, hfacing, hreach.trans hreach', define_alike hheader hh ?_⟩
    simp [hfb, Relabel.block, hbody']
  | none =>
    rw [hfb] at h₁ hbody
    obtain ⟨t, s₂, hsame, hfacing, hreach'⟩ := h₁.meets hb
    have hdeclare : s₂.rootToken (.functionEnd header') t = s₂.defineFunction (header'.define none) := by
      have hsymbol : t.isSymbol ';' = true := symbol_of_same hsame
      have hopen : t.isSymbol '\x7b' = false := Token.isSymbol_ne hsymbol (by decide)
      have hdeclared : (s₂.script.declarative && s₂.config.target == .script) = true := by
        rw [hfacing.script_eq, hfacing.config_eq, hd, ← hbody]
        rfl
      simp [rootToken, Token.isEof_of_isSymbol hsymbol, hfacing.inRoot_eq, Session.functionEnd, hsymbol, hopen, hdeclared]
    rw [hdeclare] at hreach'
    refine ⟨s₂, t, _, hfacing, hreach.trans hreach', define_alike hheader hh ?_⟩
    simp [hfb]

theorem Rooted.function {f : FunctionDef} {before cs' : Constants} {allow : Bool} (hb : b.Vacant)
    (ht : b.config.target = .script) (hf : f.Composed b.config before S.declarative)
    (hcs : (foldedConstants S.constants).Extends before) (hbuilt : ∀ stmt ∈ f.statements, stmt.Built allow cs' [])
    (hmatched : ∀ stmt ∈ f.statements, (View.stmt stmt).Stmts Stmt.Matched)
    (ha : ∀ stmt ∈ f.statements, (View.stmt stmt).Exprs Expr.NotArray) (hnew : S.findFunction? f.name.name = none)
    (hs : Relabel.blank.script script = Relabel.blank.script S) (h : b.Rooted s .idle script (f.pieces ++ ps)) :
    b.Settles s ps { S with declarations := S.declarations ++ [.function f] } := by
  have hdeclarative : script.declarative = S.declarative := (Script.mk.inj hs).2.2.2.2
  have hconstants : foldedConstants script.constants = foldedConstants S.constants := by
    have hmap : script.constants.map Relabel.blank.constant = S.constants.map Relabel.blank.constant :=
      congrArg Script.constants hs
    rw [← foldedConstants_constants, hmap, foldedConstants_constants]
  obtain ⟨s', t, f', hfacing, hreach, hf'⟩ := h.define hb hf (by simp [ht, hdeclarative]) (hconstants ▸ hcs) hbuilt hmatched ha
  have hname : f'.name.name = f.name.name := (Ident.mk.inj (FunctionDef.mk.inj hf').2.1).1
  have hfresh : s'.script.findFunction? f'.name.name = none := by
    have hfind := Relabel.blank.findFunction?_script script f.name.name
    rw [hs, Relabel.blank.findFunction?_script, hnew] at hfind
    rw [hfacing.script_eq, hname]
    simpa using hfind.symm
  have hadd : s'.defineFunction f' = { s' with
      script := { script with declarations := script.declarations ++ [.function f'] } } := by
    obtain ⟨htarget, -⟩ | ⟨-, hadd⟩ := defineFunction_new (.inr hfresh)
    · simp [hfacing.config_eq, ht] at htarget
    · rw [hadd, addDeclaration, hfacing.script_eq]
  rw [hadd] at hreach
  have hgrown : Relabel.blank.declaration (.function f') = Relabel.blank.declaration (.function f) := by
    rw [Relabel.declaration, Relabel.declaration, hf']
  refine ⟨_, { script with declarations := script.declarations ++ [.function f'] }, hreach,
    ⟨?_, hfacing.delivers.closed, hfacing.delivers.shows⟩, alike_declarations hs hgrown⟩
  rw [hfacing.same]

end Session

end GameScript
