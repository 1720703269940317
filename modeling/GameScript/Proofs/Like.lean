import GameScript.Proofs.Recasting
import Mathlib.Data.List.Forall2

/-!
A session that looks like another one: it has read the same tokens at other places, with other numbers, in another
case, or behind other declarations. What a token does to the one it does to the other.
-/

namespace GameScript

namespace TokenStream

def significantBefore (s : TokenStream) (i : Nat) : Nat :=
  ((s.tokens.toList.take i).filter fun t => !t.isTrivia).length

/-- Both streams stand at the same significant token, with so many before it that only the second has. -/
structure Level (skipped : Nat) (a b : TokenStream) : Prop where
  cursor : b.significantBefore b.cursor = skipped + a.significantBefore a.cursor
  last : b.last.map b.significantBefore = a.last.map fun i => skipped + a.significantBefore i

theorem Level.symbols {skipped : Nat} {a b : TokenStream} (h : Level skipped a b) {allowed : List Char} {limit : Nat} :
    Level skipped (a.symbols allowed limit).2 (b.symbols allowed limit).2 :=
  ⟨h.cursor, h.last⟩

theorem Level.defer {skipped : Nat} {a b : TokenStream} (h : Level skipped a b) : Level skipped a.defer b.defer := by
  obtain ⟨hc, hl⟩ := h
  unfold TokenStream.defer
  cases ha : a.last with
  | none =>
    rw [ha, Option.map_none, Option.map_eq_none_iff] at hl
    rw [hl]
    exact ⟨hc, by rw [hl, ha]; rfl⟩
  | some i =>
    rw [ha] at hl
    obtain ⟨j, hb, hj⟩ := Option.map_eq_some_iff.1 hl
    rw [hb]
    exact ⟨hj, rfl⟩

end TokenStream

namespace Guise

variable (g : Guise)

/-- The same problem, in other words if words may differ. -/
def Means (p p' : Problem) : Prop :=
  p'.severity = p.severity ∧ (g.exact → p' = g.problem p)

theorem Means.refl {g : Guise} {p : Problem} (h : g.problem p = p) : g.Means p p :=
  ⟨rfl, fun _ => h.symm⟩

theorem Means.unexpected (g : Guise) (t : Token) (expected : String) :
    g.Means (.unexpected t.describe expected) (.unexpected (g.token t).describe expected) :=
  ⟨rfl, fun he => by rw [Recast.describe_token (g.words he)]; rfl⟩

structure Alike (c c' : Complaint) : Prop where
  loc : c'.loc = g.loc c.loc
  severity : c'.severity = c.severity
  problem : g.exact → c' = ⟨g.problem c.problem, g.loc c.loc, c.raised⟩

def behind (s : Script) : Script :=
  { imports := g.prior.imports ++ s.imports
    declarations := g.prior.declarations ++ s.declarations
    constants := g.prior.constants ++ s.constants
    globals := g.prior.globals ++ s.globals
    declarative := s.declarative }

structure Outside where
  stream : TokenStream
  warned : Array Complaint
  failed : Array Complaint

def session (s : Session) (o : Outside) : Session :=
  { stream := o.stream
    config := s.config
    mode := g.mode s.mode
    recovery := s.recovery
    expr := s.expr.map g.exprState
    stmts := s.stmts.map g.pendingStmt
    script := g.behind (g.script s.script)
    constants := s.constants ++ g.constants
    output := s.output.map g.graph
    warned := o.warned
    failed := o.failed
    halted := s.halted
    nextId := g.id s.nextId
    panicked := s.panicked }

structure Suits (s : Session) (o : Outside) : Prop where
  stream : TokenStream.Level g.skipped s.stream o.stream
  warned : ∃ ws, o.warned.toList = g.warned ++ ws ∧ List.Forall₂ g.Alike s.warned.toList ws
  failed : List.Forall₂ g.Alike s.failed.toList o.failed.toList

def Alone : Prop :=
  g.prior = {} ∧ g.constants = []

structure Allows (s : Session) : Prop where
  failed : s.failed = #[]
  constants : ∀ c ∈ s.script.constants, ∀ c' ∈ g.prior.constants, c'.name.same (g.ident c.name) = false
  functions : ∀ f ∈ s.script.functions, ∀ f' ∈ g.prior.functions, sameWord f'.name.name (g.word f.name.name) = false
  plain : s.script.declarative = false

/-- What stands in front does not show in the session behind the token. -/
def Permits (t : Token) (s : Session) : Prop :=
  g.Alone ∨ (t.isEof = false ∧ g.Allows s)

end Guise

namespace Session

def Like (g : Guise) (s r : Session) : Prop :=
  ∃ o, r = g.session s o ∧ g.Suits s o

def LikeMove (g : Guise) (m m' : ExprMove) : Prop :=
  Like g m.1 m'.1 ∧ m'.2 = m.2

def wordToken (s : Session) (x : ExprState) (t : Token) : ExprMove :=
  match t.keyword? s.gameMode with
  | none => s.nameToken x t
  | some .trueKw | some .falseKw => s.literalToken x .bool t
  | some .undefinedKw => s.literalToken x .undefined t
  | some .threadKw => s.modifierToken x .thread t
  | some .childThreadKw => s.modifierToken x .childThread t
  | some _ => s.ended x

namespace Like

variable {g : Guise} {s r : Session} {t : Token} {x : ExprState}

theorem gameMode (h : Like g s r) : r.gameMode = s.gameMode := by
  obtain ⟨o, rfl, -⟩ := h
  rfl

theorem report (h : Like g s r) {p p' : Problem} (hp : g.Means p p') (loc : Location) :
    Like g (s.report p loc) (r.report p' (g.loc loc)) := by
  obtain ⟨o, rfl, ho⟩ := h
  have hraises : raises s.config p' = raises s.config p := by rw [raises, hp.1, raises]
  have halike : g.Alike ⟨p, loc, raises s.config p⟩ ⟨p', g.loc loc, raises s.config p⟩ := by
    refine ⟨rfl, ?_, fun he => by rw [hp.2 he]⟩
    simp only [Complaint.severity, hp.1]
  have hseverity := halike.severity
  unfold Session.report
  rw [show (g.session s o).config = s.config from rfl, hraises]
  generalize (⟨p, loc, raises s.config p⟩ : Complaint) = c at *
  generalize (⟨p', g.loc loc, raises s.config p⟩ : Complaint) = c' at *
  have hfailed : List.Forall₂ g.Alike (s.failed.push c).toList (o.failed.push c').toList := by
    rw [Array.toList_push, Array.toList_push]
    exact List.rel_append ho.failed (.cons halike .nil)
  unfold record
  rw [hseverity]
  cases c.severity with
  | warning =>
    obtain ⟨ws, hws, hrel⟩ := ho.warned
    refine ⟨{ o with warned := o.warned.push c' }, rfl, ho.stream, ⟨ws ++ [c'], ?_, ?_⟩, ho.failed⟩
    · rw [Array.toList_push, hws, List.append_assoc]
    · rw [Array.toList_push]
      exact List.rel_append hrel (.cons halike .nil)
  | error => exact ⟨{ o with failed := o.failed.push c' }, rfl, ho.stream, ho.warned, hfailed⟩
  | fatal => exact ⟨{ o with failed := o.failed.push c' }, rfl, ho.stream, ho.warned, hfailed⟩

theorem reportUnexpected (h : Like g s r) (t : Token) (expected : String) :
    Like g (s.reportUnexpected t expected) (r.reportUnexpected (g.token t) expected) :=
  h.report (Guise.Means.unexpected g t expected) t.loc

theorem defer (h : Like g s r) : Like g s.defer r.defer := by
  obtain ⟨o, rfl, ho⟩ := h
  exact ⟨{ o with stream := o.stream.defer }, rfl, ho.stream.defer, ho.warned, ho.failed⟩

theorem clearExpr (h : Like g s r) : Like g s.clearExpr r.clearExpr := by
  obtain ⟨o, rfl, ho⟩ := h
  exact ⟨o, rfl, ho.stream, ho.warned, ho.failed⟩

theorem enterRecovery (h : Like g s r) : Like g s.enterRecovery r.enterRecovery := by
  obtain ⟨o, rfl, ho⟩ := h
  obtain ⟨stream, config, mode, _, expr, stmts, _, _, _, _, _, _, _, _⟩ := s
  cases mode with
  | body header =>
    have hdrop : (stmts.dropWhile PendingStmt.inHeader).map g.pendingStmt =
        (stmts.map g.pendingStmt).dropWhile PendingStmt.inHeader := by
      rw [List.dropWhile_map, show PendingStmt.inHeader ∘ g.pendingStmt = PendingStmt.inHeader from
        funext Recast.inHeader_pendingStmt]
    refine ⟨o, ?_, ho.stream, ho.warned, ho.failed⟩
    simp only [Session.enterRecovery, Session.clearExpr, Guise.session, Recast.mode, hdrop]
    rfl
  | _ => exact ⟨o, rfl, ho.stream, ho.warned, ho.failed⟩

theorem withRecovery (h : Like g s r) (recovery : Option Recovery) :
    Like g { s with recovery := recovery } { r with recovery := recovery } := by
  obtain ⟨o, rfl, ho⟩ := h
  exact ⟨o, rfl, ho.stream, ho.warned, ho.failed⟩

theorem recoverToken (h : Like g s r) (recovery : Recovery) (t : Token) :
    Like g (s.recoverToken recovery t) (r.recoverToken recovery (g.token t)) := by
  have hsync : r.isSyncKeyword (g.token t) = s.isSyncKeyword t := by
    simp only [isSyncKeyword, h.gameMode, g.keyword?_token]
  have heof : (g.token t).isEof = t.isEof := rfl
  cases recovery <;> simp only [Session.recoverToken, Recast.isSymbol_token, hsync, heof]
  · split
    · exact h.withRecovery _
    split
    · exact (h.withRecovery _).defer
    · exact h
  · split
    · exact (h.withRecovery _).defer
    split
    · exact h.withRecovery _
    split
    · exact h.withRecovery _
    split
    · exact h.withRecovery _
    · exact h

theorem recovery (h : Like g s r) : r.recovery = s.recovery := by
  obtain ⟨o, rfl, -⟩ := h
  rfl

theorem resync (h : Like g s r) (t : Token) : Like g (s.resync t) (r.resync (g.token t)) := by
  have hr := h.enterRecovery
  simp only [Session.resync, hr.recovery]
  cases s.enterRecovery.recovery with
  | some recovery => exact hr.recoverToken recovery t
  | none => exact hr

theorem rejectToken (h : Like g s r) (t : Token) (expected : String) :
    Like g (s.rejectToken t expected) (r.rejectToken (g.token t) expected) :=
  (h.reportUnexpected t expected).resync t

theorem expect (h : Like g s r) (t : Token) (expected : Char) (quiet : Bool) {next next' : Session → Session}
    (hnext : t.isSymbol expected = true → Like g (next s) (next' r)) :
    Like g (s.expect t expected quiet next) (r.expect (g.token t) expected quiet next') := by
  have hproblem : g.Means (wrongTerminator t expected) (wrongTerminator (g.token t) expected) := by
    unfold wrongTerminator
    split
    · exact .refl rfl
    · exact .unexpected g t _
  simp only [Session.expect, Recast.isSymbol_token]
  split
  · next ht => exact hnext ht
  split
  · exact h.resync t
  · exact (h.report hproblem t.loc).resync t

theorem withNode (h : Like g s r) (loc : Location) : Like g (s.withNode loc).2 (r.withNode (g.loc loc)).2 := by
  obtain ⟨o, rfl, ho⟩ := h
  exact ⟨o, rfl, ho.stream, ho.warned, ho.failed⟩

theorem nextId (h : Like g s r) : r.nextId = g.id s.nextId := by
  obtain ⟨o, rfl, -⟩ := h
  rfl

theorem keep (h : Like g s r) (x : ExprState) : LikeMove g (s.keep x) (r.keep (g.exprState x)) := by
  obtain ⟨o, rfl, ho⟩ := h
  exact ⟨⟨o, rfl, ho.stream, ho.warned, ho.failed⟩, rfl⟩

theorem ended (h : Like g s r) (x : ExprState) : LikeMove g (s.ended x) (r.ended (g.exprState x)) := by
  obtain ⟨o, rfl, ho⟩ := h
  exact ⟨⟨o, rfl, ho.stream, ho.warned, ho.failed⟩, rfl⟩

theorem fail (h : Like g s r) {p p' : Problem} (hp : g.Means p p') (loc : Location) (t : Token) :
    LikeMove g (s.fail p loc t) (r.fail p' (g.loc loc) (g.token t)) :=
  ⟨((h.report hp loc).clearExpr).resync t, rfl⟩

theorem failUnexpected (h : Like g s r) (t : Token) (expected : String) :
    LikeMove g (s.failUnexpected t expected) (r.failUnexpected (g.token t) expected) :=
  h.fail (Guise.Means.unexpected g t expected) t.loc t

theorem failFound (h : Like g s r) (t : Token) (found expected : String) :
    LikeMove g (s.failFound t found expected) (r.failFound (g.token t) found expected) :=
  h.fail (.refl rfl) t.loc t

theorem byCases {c : Prop} [Decidable c] {m₁ m₂ n₁ n₂ : ExprMove} (hy : c → LikeMove g m₁ n₁) (hn : ¬c → LikeMove g m₂ n₂) :
    LikeMove g (if c then m₁ else m₂) (if c then n₁ else n₂) := by
  split
  · next hc => exact hy hc
  · next hc => exact hn hc

theorem keepWith (h : Like g s r) (loc : Location) {x y : ExprState}
    (hy : r.nextId = g.id s.nextId → y = g.exprState x) :
    LikeMove g ((s.withNode loc).2.keep x) ((r.withNode (g.loc loc)).2.keep y) :=
  hy h.nextId ▸ (h.withNode loc).keep x

theorem literalToken (h : Like g s r) (x : ExprState) {kind : LiteralKind} {t : Token}
    (hk : kind.isWord = (t.kind = .identifier)) :
    LikeMove g (s.literalToken x kind t) (r.literalToken (g.exprState x) kind (g.token t)) := by
  have hslot : (g.exprState x).slot.isSome = x.slot.isSome := by simp [Recast.exprState]
  have hl : (⟨kind, (g.token t).text, false⟩ : Literal) = _ := Recast.literal_token hk
  simp only [Session.literalToken, Recast.operandAllowed_exprState, hslot, hl]
  split
  · exact h.keepWith t.loc fun hn => by simp only [Session.withNode, hn]; rfl
  · exact h.failUnexpected t _

theorem setVariable (h : Like g s r) (x : ExprState) (name : Ident) :
    LikeMove g (s.setVariable x name) (r.setVariable (g.exprState x) (g.ident name)) :=
  h.keepWith name.loc fun hn => by rw [hn]; rfl

theorem path_append (p : ModulePath) (name : Ident) : g.path (p ++ [name]) = g.path p ++ [g.ident name] :=
  List.map_append

theorem nameToken (h : Like g s r) (x : ExprState) {t : Token} (ht : t.kind = .identifier) :
    LikeMove g (s.nameToken x t) (r.nameToken (g.exprState x) (g.token t)) := by
  have hname : (⟨(g.token t).text, (g.token t).loc⟩ : Ident) = g.ident ⟨t.text, t.loc⟩ := Recast.ident_token ht
  have hallowed := Recast.calleeAllowed_exprState (r := g.toRecast) x
  obtain ⟨context, started, stack, slot⟩ := x
  simp only [Session.nameToken, hname]
  rcases stack with _ | ⟨top, rest⟩
  · cases slot with
    | some e =>
      simp only [Recast.exprState, Recast.expr?, List.map_nil, Recast.loc_expr]
      exact h.setVariable (ExprState.push ⟨context, started, [], some e⟩ (.lead e.loc ⟨some e, none⟩)) _
    | none => exact h.setVariable _ _
  · cases top with
    | member target =>
      simp only [Recast.exprState, Recast.pendingExpr, List.map_cons, Recast.loc_expr]
      exact h.keepWith target.loc fun hn => by simp only [Session.withNode, hn]; rfl
    | path loc segments awaiting =>
      cases awaiting with
      | true =>
        simp only [Recast.exprState, Recast.pendingExpr, List.map_cons, ← path_append]
        exact h.keep ⟨context, started, .path loc (segments ++ [⟨t.text, t.loc⟩]) false :: rest, slot⟩
      | false =>
        cases slot with
        | some => exact h.failUnexpected t _
        | none =>
          rw [← hallowed]
          exact byCases (fun _ => h.setVariable _ _) fun _ => h.failUnexpected t _
    | qualified loc qualifier =>
      simp only [Recast.exprState, Recast.pendingExpr, List.map_cons]
      exact h.keepWith loc fun hn => by simp only [Session.withNode, hn]; rfl
    | lead | pointerReady =>
      cases slot with
      | some => exact h.failUnexpected t _
      | none =>
        rw [← hallowed]
        exact byCases (fun _ => h.setVariable _ _) fun _ => h.failUnexpected t _
    | _ =>
      cases slot with
      | some e =>
        simp only [Recast.exprState, Recast.expr?, Recast.pendingExpr, List.map_cons, Recast.loc_expr]
        exact h.setVariable (ExprState.push ⟨context, started, _ :: rest, some e⟩ (.lead e.loc ⟨some e, none⟩)) _
      | none =>
        rw [← hallowed]
        exact byCases (fun _ => h.setVariable _ _) fun _ => h.failUnexpected t _

theorem modifierToken (h : Like g s r) (x : ExprState) (modifier : CallModifier) (t : Token) :
    LikeMove g (s.modifierToken x modifier t) (r.modifierToken (g.exprState x) modifier (g.token t)) := by
  have hlead := Recast.topIsLead_exprState (r := g.toRecast) x
  have hoperand := Recast.operandAllowed_exprState (r := g.toRecast) x
  obtain ⟨context, started, stack, slot⟩ := x
  cases slot with
  | some receiver =>
    simp only [Session.modifierToken, ← hlead]
    refine byCases (fun _ => h.failUnexpected t _) fun _ => ?_
    simp only [Recast.exprState, Recast.expr?, Recast.loc_expr]
    exact h.keep (ExprState.push ⟨context, started, stack, some receiver⟩ (.lead receiver.loc ⟨some receiver, some modifier⟩))
  | none =>
    rcases stack with _ | ⟨top, rest⟩
    · exact h.keep (ExprState.push ⟨context, started, [], none⟩ (.lead t.loc ⟨none, some modifier⟩))
    · cases top with
      | lead loc l =>
        exact byCases (fun _ => h.fail (.refl rfl) t.loc t) fun _ =>
          h.keep ⟨context, started, .lead loc { l with modifier := some modifier } :: rest, none⟩
      | _ =>
        simp only [Session.modifierToken, ← hoperand]
        exact byCases (fun _ => h.keep (ExprState.push ⟨context, started, _ :: rest, none⟩ (.lead t.loc ⟨none, some modifier⟩)))
          fun _ => h.failUnexpected t _

theorem wordToken (h : Like g s r) (x : ExprState) {t : Token} (ht : t.kind = .identifier) :
    LikeMove g (s.wordToken x t) (r.wordToken (g.exprState x) (g.token t)) := by
  have hword {kind : LiteralKind} (hk : kind.isWord = true) :
      LikeMove g (s.literalToken x kind t) (r.literalToken (g.exprState x) kind (g.token t)) :=
    h.literalToken x (by simp [hk, ht])
  unfold Session.wordToken
  rw [g.keyword?_token, h.gameMode]
  cases t.keyword? s.gameMode with
  | none => exact h.nameToken x ht
  | some k =>
    cases k with
    | trueKw | falseKw | undefinedKw => exact hword rfl
    | threadKw | childThreadKw => exact h.modifierToken x _ t
    | _ => exact h.ended x

theorem identifierToken (h : Like g s r) (x : ExprState) {t : Token} (ht : t.kind = .identifier) :
    LikeMove g (s.identifierToken x t) (r.identifierToken (g.exprState x) (g.token t)) := by
  obtain ⟨context, started, stack, slot⟩ := x
  rcases stack with _ | ⟨top, rest⟩
  · exact h.wordToken _ ht
  · cases top with
    | member => exact h.nameToken _ ht
    | _ => exact h.wordToken _ ht

theorem notCallable (g : Guise) (e : Expr) : g.Means (.notCallable e.text) (.notCallable (g.expr e).text) :=
  ⟨rfl, fun he => by rw [Recast.text_expr (g.words he)]; rfl⟩

theorem callee (h : Like g s r) (x : ExprState) (e : Expr) (t : Token) :
    LikeMove g
      (match callTarget? e with
        | some target => s.keep (openCall x e.loc (.function target))
        | none => s.fail (.notCallable e.text) e.loc t)
      (match callTarget? (g.expr e) with
        | some target => r.keep (openCall (g.exprState x) (g.expr e).loc (.function target))
        | none => r.fail (.notCallable (g.expr e).text) (g.expr e).loc (g.token t)) := by
  rw [Recast.callTarget?_expr, Recast.loc_expr]
  cases callTarget? e with
  | some target =>
    have := h.keep (openCall x e.loc (.function target))
    rwa [Recast.openCall_exprState] at this
  | none => exact h.fail (notCallable g e) e.loc t

theorem openParen (h : Like g s r) (x : ExprState) (t : Token) :
    LikeMove g (s.openParen x t) (r.openParen (g.exprState x) (g.token t)) := by
  have hcallee := fun e => h.callee x e t
  have hgroup : LikeMove g
      (if x.operandAllowed then s.keep (x.push (.group t.loc [])) else s.failUnexpected t "a function name")
      (if (g.exprState x).operandAllowed then r.keep ((g.exprState x).push (.group (g.token t).loc []))
        else r.failUnexpected (g.token t) "a function name") := by
    rw [Recast.operandAllowed_exprState]
    exact byCases (fun _ => h.keep (x.push (.group t.loc []))) fun _ => h.failUnexpected t _
  obtain ⟨context, started, stack, slot⟩ := x
  rcases stack with _ | ⟨top, rest⟩
  · cases slot with
    | none => exact hgroup
    | some e => exact hcallee e
  · cases top with
    | pointerReady loc lead pointer => exact h.keep ⟨context, started, .call loc lead (.pointer pointer) [] :: rest, slot⟩
    | _ =>
      cases slot with
      | none => exact hgroup
      | some e => exact hcallee e

theorem foldWhile (h : Like g s r) {p : PendingExpr → Bool} (hp : ∀ top, p (g.pendingExpr top) = p top) (x : ExprState)
    (t : Token) :
    (s.foldWhile x p t = .error (.missingOperand t.describe) ∧
      r.foldWhile (g.exprState x) p (g.token t) = .error (.missingOperand (g.token t).describe)) ∨
    ∃ s' r' x', s.foldWhile x p t = .ok (s', x') ∧ r.foldWhile (g.exprState x) p (g.token t) = .ok (r', g.exprState x') ∧
      Like g s' r' ∧ s'.stream = s.stream ∧ r'.stream = r.stream := by
  obtain ⟨context, started, stack, slot⟩ := x
  cases stack with
  | nil => exact .inr ⟨_, _, _, rfl, rfl, h, rfl, rfl⟩
  | cons top rest =>
    simp only [Session.foldWhile, Recast.exprState, List.map_cons, hp]
    split
    · cases slot with
      | none => exact .inl ⟨rfl, rfl⟩
      | some e =>
        have hfold := Recast.foldStack_pendingExpr hp (top :: rest) e s.nextId
        rw [List.map_cons] at hfold
        obtain ⟨o, rfl, ho⟩ := h
        simp only [Recast.expr?, show (g.session s o).nextId = g.id s.nextId from rfl, hfold]
        cases ExprState.foldStack p (top :: rest) e s.nextId with
        | none => exact .inr ⟨_, _, _, rfl, rfl, ⟨o, rfl, ho.stream, ho.warned, ho.failed⟩, rfl, rfl⟩
        | some q =>
          obtain ⟨stack, e', id⟩ := q
          exact .inr ⟨_, _, ⟨context, started, stack, some e'⟩, rfl, rfl, ⟨o, rfl, ho.stream, ho.warned, ho.failed⟩, rfl, rfl⟩
    · exact .inr ⟨_, _, _, rfl, rfl, h, rfl, rfl⟩

theorem missingOperand (g : Guise) (t : Token) :
    g.Means (.missingOperand t.describe) (.missingOperand (g.token t).describe) :=
  ⟨rfl, fun he => by rw [Recast.describe_token (g.words he)]; rfl⟩

theorem folded (h : Like g s r) (x : ExprState) (t : Token) {next next' : Session → ExprState → ExprMove}
    (hnext : ∀ s' r' x', Like g s' r' → s'.stream = s.stream → r'.stream = r.stream →
      LikeMove g (next s' x') (next' r' (g.exprState x'))) :
    LikeMove g (s.folded x t next) (r.folded (g.exprState x) (g.token t) next') := by
  unfold Session.folded
  obtain ⟨hs, hr⟩ | ⟨s', r', x', hs, hr, hl, hstream, hstream'⟩ := h.foldWhile Recast.isOperator_pendingExpr x t
  · rw [hs, hr]
    exact h.fail (missingOperand g t) t.loc t
  · rw [hs, hr]
    exact hnext s' r' x' hl hstream hstream'

theorem newNode (h : Like g s r) (loc : Location) : (r.withNode (g.loc loc)).1 = g.node (s.withNode loc).1 := by
  rw [Session.withNode, h.nextId]
  rfl

theorem closeGroup (h : Like g s r) (x : ExprState) (loc : Location) (items : List Expr) (item : Expr) :
    LikeMove g (s.closeGroup x loc items item) (r.closeGroup (g.exprState x) (g.loc loc) (g.exprs items) (g.expr item)) := by
  have hnode := h.newNode loc
  have hlength {a : Expr} {rest : List Expr} : LikeMove g
      ((((s.withNode loc).2.report (.trupleLength (rest.length + 2)) loc)).keep (x.close (.group (s.withNode loc).1 a)))
      ((((r.withNode (g.loc loc)).2.report (.trupleLength ((g.exprs rest).length + 2)) (g.loc loc))).keep
        ((g.exprState x).close (.group (r.withNode (g.loc loc)).1 (g.expr a)))) := by
    rw [hnode, Recast.exprs_eq_map, List.length_map]
    have hmeans : g.Means (.trupleLength (rest.length + 2)) (.trupleLength (rest.length + 2)) := .refl rfl
    have := ((h.withNode loc).report hmeans loc).keep (x.close (.group (s.withNode loc).1 a))
    rwa [Recast.close_exprState] at this
  rcases items with _ | ⟨a, _ | ⟨b, _ | ⟨c, rest⟩⟩⟩
  · exact h.keepWith loc fun hn => by simp only [hn, Recast.close_exprState]; rfl
  · exact hlength
  · exact h.keepWith loc fun hn => by simp only [hn, Recast.close_exprState]; rfl
  · exact hlength

theorem closeParen (h : Like g s r) (x : ExprState) (t : Token) :
    LikeMove g (s.closeParen x t) (r.closeParen (g.exprState x) (g.token t)) := by
  refine h.folded x t fun s r x h _ _ => ?_
  obtain ⟨context, started, stack, slot⟩ := x
  rcases stack with _ | ⟨top, rest⟩
  · exact h.ended _
  · cases top with
    | group loc items =>
      cases slot with
      | some item => exact h.closeGroup _ _ _ _
      | none => cases items <;> exact h.fail (.refl rfl) t.loc t
    | call loc lead callee args =>
      have hc : ((g.expr? slot).isNone && !(g.exprs args).isEmpty) = (slot.isNone && !args.isEmpty) := by simp
      simp only [Recast.exprState, Recast.pendingExpr, List.map_cons, hc]
      refine byCases (fun _ => h.fail (.refl rfl) t.loc t) fun _ => h.keepWith loc fun hn => ?_
      simp only [Session.withNode, hn, Recast.close_exprState, Recast.sealCall_expr, Recast.exprs_append]
      rfl
    | _ => exact h.failFound t _ _

theorem comma (h : Like g s r) (x : ExprState) (t : Token) :
    LikeMove g (s.comma x t) (r.comma (g.exprState x) (g.token t)) := by
  refine h.folded x t fun s r x h _ _ => ?_
  obtain ⟨context, started, stack, slot⟩ := x
  rcases stack with _ | ⟨top, rest⟩
  · exact h.ended _
  · cases top with
    | group loc items =>
      cases slot with
      | some item =>
        simp only [Recast.exprState, Recast.pendingExpr, List.map_cons, Recast.expr?, Recast.exprs_eq_map, List.length_map]
        refine byCases (fun _ => ⟨(h.report (.refl rfl) t.loc).clearExpr, rfl⟩) fun _ => ?_
        have := h.keep ⟨context, started, .group loc (items ++ [item]) :: rest, none⟩
        simpa [Recast.exprState, Recast.pendingExpr] using this
      | none => exact h.fail (.refl rfl) t.loc t
    | call loc lead callee args =>
      cases slot with
      | some item =>
        have := h.keep ⟨context, started, .call loc lead callee (args ++ [item]) :: rest, none⟩
        simpa [Recast.exprState, Recast.pendingExpr] using this
      | none => exact h.fail (.refl rfl) t.loc t
    | array loc items =>
      cases slot with
      | some item =>
        have := h.keep ⟨context, started, .array loc (items ++ [item]) :: rest, none⟩
        simpa [Recast.exprState, Recast.pendingExpr] using this
      | none => exact h.fail (.refl rfl) t.loc t
    | _ => cases slot <;> exact h.failFound t _ _

theorem openPointer (h : Like g s r) (x : ExprState) (t : Token) :
    LikeMove g (s.openPointer x t) (r.openPointer (g.exprState x) (g.token t)) := by
  have hlead := Recast.topIsLead_exprState (r := g.toRecast) x
  have hoperand := Recast.operandAllowed_exprState (r := g.toRecast) x
  obtain ⟨context, started, stack, slot⟩ := x
  cases slot with
  | some receiver =>
    simp only [Session.openPointer, ← hlead]
    refine byCases (fun _ => h.failFound t _ _) fun _ => ?_
    simp only [Recast.exprState, Recast.expr?, Recast.loc_expr]
    exact h.keep (ExprState.push ⟨context, started, stack, some receiver⟩ (.pointerOpen receiver.loc ⟨some receiver, none⟩))
  | none =>
    rcases stack with _ | ⟨top, rest⟩
    · exact h.keep (ExprState.push ⟨context, started, [], none⟩ (.pointerOpen t.loc {}))
    · cases top with
      | lead loc l => exact h.keep ⟨context, started, .pointerOpen loc l :: rest, none⟩
      | _ =>
        simp only [Session.openPointer, ← hoperand]
        exact byCases (fun _ => h.keep (ExprState.push ⟨context, started, _ :: rest, none⟩ (.pointerOpen t.loc {})))
          fun _ => h.failFound t _ _

end Like

def singleBracket (s : Session) (x : ExprState) (t : Token) : ExprMove :=
  match x.slot with
  | some target => s.keep (x.push (.index target))
  | none =>
    if x.operandAllowed then s.keep (x.push (.array t.loc []))
    else s.failFound t "`[`" "a function name"

def startPath (s : Session) (x : ExprState) (t : Token) : ExprMove :=
  match x.slot with
  | some (.var node first) => s.keep (x.push (.path node.loc [first] true))
  | _ => s.failFound t "`\\`" "a module path"

def doubleColon (s : Session) (x : ExprState) (t : Token) : ExprMove :=
  match x.stack, x.slot with
  | .path loc segments false :: rest, none =>
    s.keep { x with stack := .qualified loc (.path segments) :: rest }
  | _, some (.var node first) => s.keep (x.push (.qualified node.loc (.path [first])))
  | _, none =>
    if x.calleeAllowed then s.keep (x.push (.qualified t.loc .own))
    else s.failFound t "`::`" "an operator"
  | _, some _ => s.failFound t "`::`" "an operator"

namespace Like

variable {g : Guise} {s r : Session}

theorem singleBracket (h : Like g s r) (x : ExprState) (t : Token) :
    LikeMove g (s.singleBracket x t) (r.singleBracket (g.exprState x) (g.token t)) := by
  have hoperand := Recast.operandAllowed_exprState (r := g.toRecast) x
  obtain ⟨context, started, stack, slot⟩ := x
  cases slot with
  | some target => exact h.keep (ExprState.push ⟨context, started, stack, some target⟩ (.index target))
  | none =>
    simp only [Session.singleBracket, ← hoperand]
    exact byCases (fun _ => h.keep (ExprState.push ⟨context, started, stack, none⟩ (.array t.loc [])))
      fun _ => h.failFound t _ _

theorem point (h : Like g s r) (x : ExprState) (t : Token) :
    LikeMove g (s.point x t) (r.point (g.exprState x) (g.token t)) := by
  obtain ⟨context, started, stack, slot⟩ := x
  cases slot with
  | some target => exact h.keep (ExprState.push ⟨context, started, stack, some target⟩ (.member target))
  | none => exact h.failFound t _ _

theorem startPath (h : Like g s r) (x : ExprState) (t : Token) :
    LikeMove g (s.startPath x t) (r.startPath (g.exprState x) (g.token t)) := by
  obtain ⟨context, started, stack, slot⟩ := x
  cases slot with
  | none => exact h.failFound t _ _
  | some e =>
    cases e with
    | var node first => exact h.keep (ExprState.push ⟨context, started, stack, some (.var node first)⟩ (.path node.loc [first] true))
    | _ => exact h.failFound t _ _

theorem pathSeparator (h : Like g s r) (x : ExprState) (t : Token) :
    LikeMove g (s.pathSeparator x t) (r.pathSeparator (g.exprState x) (g.token t)) := by
  have hstart := h.startPath x t
  obtain ⟨context, started, stack, slot⟩ := x
  rcases stack with _ | ⟨top, rest⟩
  · cases slot with
    | none => exact hstart
    | some e => cases e <;> exact hstart
  · cases top with
    | path loc segments awaiting =>
      cases slot with
      | none =>
        cases awaiting with
        | false => exact h.keep ⟨context, started, .path loc segments true :: rest, none⟩
        | true => exact hstart
      | some e => cases awaiting <;> cases e <;> exact hstart
    | _ =>
      cases slot with
      | none => exact hstart
      | some e => cases e <;> exact hstart

theorem doubleColon (h : Like g s r) (x : ExprState) (t : Token) :
    LikeMove g (s.doubleColon x t) (r.doubleColon (g.exprState x) (g.token t)) := by
  have hcallee := Recast.calleeAllowed_exprState (r := g.toRecast) x
  have hnone (hs : x.slot = none) : LikeMove g
      (if x.calleeAllowed then s.keep (x.push (.qualified t.loc .own)) else s.failFound t "`::`" "an operator")
      (if (g.exprState x).calleeAllowed then r.keep ((g.exprState x).push (.qualified (g.token t).loc .own))
        else r.failFound (g.token t) "`::`" "an operator") := by
    rw [hcallee]
    exact byCases (fun _ => h.keep (x.push (.qualified t.loc .own))) fun _ => h.failFound t _ _
  have hvar (node : Node) (first : Ident) : LikeMove g (s.keep (x.push (.qualified node.loc (.path [first]))))
      (r.keep ((g.exprState x).push (.qualified (g.node node).loc (.path [g.ident first])))) :=
    h.keep (x.push (.qualified node.loc (.path [first])))
  obtain ⟨context, started, stack, slot⟩ := x
  rcases stack with _ | ⟨top, rest⟩
  · cases slot with
    | none => exact hnone rfl
    | some e =>
      cases e with
      | var => exact hvar _ _
      | _ => exact h.failFound t _ _
  · cases top with
    | path loc segments awaiting =>
      cases slot with
      | none =>
        cases awaiting with
        | false => exact h.keep ⟨context, started, .qualified loc (.path segments) :: rest, none⟩
        | true => exact hnone rfl
      | some e =>
        cases e with
        | var => cases awaiting <;> exact hvar _ _
        | _ => cases awaiting <;> exact h.failFound t _ _
    | _ =>
      cases slot with
      | none => exact hnone rfl
      | some e =>
        cases e with
        | var => exact hvar _ _
        | _ => exact h.failFound t _ _

theorem notAssignable (g : Guise) (e : Expr) : g.Means (.notAssignable e.text) (.notAssignable (g.expr e).text) :=
  ⟨rfl, fun he => by rw [Recast.text_expr (g.words he)]; rfl⟩

theorem config (h : Like g s r) : r.config = s.config := by
  obtain ⟨o, rfl, -⟩ := h
  rfl

theorem unaryToken (h : Like g s r) (x : ExprState) (first : Char) (t : Token) :
    LikeMove g (s.unaryToken x first t) (r.unaryToken (g.exprState x) first (g.token t)) := by
  simp only [Session.unaryToken]
  cases Operator.ofSpelling? first.toString .before with
  | none => exact h.failUnexpected t _
  | some op =>
    simp only [Recast.operandAllowed_exprState]
    exact byCases (fun _ => h.keep (x.push (.unary t.loc op))) fun _ => h.failUnexpected t _

theorem suffixToken (h : Like g s r) (x : ExprState) (op : Operator) (operand : Expr) (t : Token) :
    LikeMove g (s.suffixToken x op operand t) (r.suffixToken (g.exprState x) op (g.expr operand) (g.token t)) := by
  simp only [Session.suffixToken, Recast.isAssignable_expr, Recast.loc_expr]
  refine byCases (fun _ => h.keepWith operand.loc fun hn => ?_) fun _ => h.fail (notAssignable g operand) operand.loc t
  simp only [Session.withNode, hn]
  rfl

theorem assignTarget (h : Like g s r) (x : ExprState) (op : Operator) (target : Expr) (t : Token) :
    LikeMove g (s.assignTarget x op target t) (r.assignTarget (g.exprState x) op (g.expr target) (g.token t)) := by
  have hstack : (g.exprState x).stack.isEmpty = x.stack.isEmpty := List.isEmpty_map
  simp only [Session.assignTarget, hstack, Recast.isAssignable_expr, Recast.loc_expr, h.config]
  exact byCases (fun _ => ⟨(h.report (.refl rfl) t.loc).clearExpr, rfl⟩) fun _ =>
    byCases (fun _ => h.keep (x.push (.assign op target))) fun _ => h.fail (notAssignable g target) target.loc t

theorem assignToken (h : Like g s r) (x : ExprState) (op : Operator) (target : Expr) (t : Token) :
    LikeMove g (s.assignToken x op target t) (r.assignToken (g.exprState x) op (g.expr target) (g.token t)) := by
  have htarget := h.assignTarget x op target t
  obtain ⟨context, started, stack, slot⟩ := x
  rcases stack with _ | ⟨top, rest⟩
  · exact htarget
  · cases top with
    | binary | unary => exact h.fail (.refl rfl) t.loc t
    | lead => exact h.failUnexpected t _
    | _ => exact htarget

theorem binaryToken (h : Like g s r) (x : ExprState) (op : Operator) (t : Token) :
    LikeMove g (s.binaryToken x op t) (r.binaryToken (g.exprState x) op (g.token t)) := by
  unfold Session.binaryToken
  obtain ⟨hs, hr⟩ | ⟨s', r', x', hs, hr, h', -, -⟩ := h.foldWhile (Recast.bindsBefore_pendingExpr op) x t
  · rw [hs, hr]
    exact h.fail (missingOperand g t) t.loc t
  · rw [hs, hr]
    obtain ⟨context, started, stack, slot⟩ := x'
    cases slot with
    | some left => exact h'.keep (ExprState.push ⟨context, started, stack, some left⟩ (.binary op left))
    | none => exact h'.keep ⟨context, started, stack, none⟩

theorem openExpression (g : Guise) (complaint : String) (t : Token) :
    g.Means (.openExpression complaint t.describe) (.openExpression complaint (g.token t).describe) :=
  ⟨rfl, fun he => by rw [Recast.describe_token (g.words he)]; rfl⟩

theorem finishExpr (h : Like g s r) (x : ExprState) (t : Token) :
    Like g (s.finishExpr x t).1 (r.finishExpr (g.exprState x) (g.token t)).1 ∧
      (r.finishExpr (g.exprState x) (g.token t)).2 = g.completed (s.finishExpr x t).2 := by
  unfold Session.finishExpr
  obtain ⟨hs, hr⟩ | ⟨s', r', x', hs, hr, h', -, -⟩ := h.clearExpr.foldWhile Recast.isOperator_pendingExpr x t
  · simp only [hs, hr]
    exact ⟨h.clearExpr.report (missingOperand g t) t.loc, rfl⟩
  · simp only [hs, hr]
    obtain ⟨context, started, stack, slot⟩ := x'
    rcases stack with _ | ⟨top, rest⟩
    · cases slot with
      | some e => exact ⟨h', rfl⟩
      | none => cases started <;> exact ⟨h', rfl⟩
    · simp only [Recast.exprState, List.map_cons, Recast.complaint_pendingExpr]
      exact ⟨h'.report (openExpression g _ t) t.loc, rfl⟩

theorem started {m m' : ExprMove} (h : LikeMove g m m') : LikeMove g (Session.started m) (Session.started m') := by
  obtain ⟨s, flow⟩ := m
  obtain ⟨r, flow'⟩ := m'
  obtain ⟨⟨o, hr, ho⟩, hflow⟩ := h
  simp only at hr hflow ho
  subst hr hflow
  cases flow' with
  | consumed =>
    refine ⟨⟨o, ?_, ho.stream, ho.warned, ho.failed⟩, rfl⟩
    simp only [Session.started, Guise.session, Option.map_map]
    rfl
  | terminated => exact ⟨⟨o, rfl, ho⟩, rfl⟩

end Like

end Session

end GameScript
