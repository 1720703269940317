import GameScript.Proofs.Formed
import GameScript.Proofs.Places

namespace GameScript

open Session

namespace Expr

def Aims : Expr → Prop
  | assign _ _ target _ | suffix _ _ target => target.isAssignable = true
  | _ => True

def AimsThroughout (allowed : Bool) (e : Expr) : Prop :=
  (View.expr e).Everywhere fun v => ∀ e, v = .expr e →
    e.Aims ∧ ∀ c ∈ e.children, c.isAssign = true → allowed = true

variable {allowed : Bool} {e : Expr}

theorem aimsThroughout_iff : e.AimsThroughout allowed ↔
    (e.Aims ∧ ∀ c ∈ e.children, c.isAssign = true → allowed = true) ∧
      ∀ c ∈ e.children, c.AimsThroughout allowed := by
  unfold AimsThroughout
  rw [View.everywhere_expr]
  simp

theorem FormedThroughout.aims (h : e.FormedThroughout allowed) : e.AimsThroughout allowed := by
  rintro v hv e rfl
  obtain ⟨hf, hc⟩ := h _ hv e rfl
  refine ⟨?_, hc⟩
  cases e with
  | assign | suffix => exact hf
  | _ => trivial

end Expr

namespace Fold

variable {lookup : String → Option Value}

theorem aims_noteRead {allowed : Bool} {e : Expr} (h : e.AimsThroughout allowed) : (noteRead lookup e).AimsThroughout allowed := by
  obtain ⟨⟨ha, hassign⟩, hc⟩ := Expr.aimsThroughout_iff.1 h
  refine Expr.aimsThroughout_iff.2 ⟨⟨?_, fun c hmem => ?_⟩, fun c hmem => ?_⟩
  · cases e <;> exact ha
  · obtain ⟨c', hc', rfl | rfl⟩ := children_noteRead hmem
    · exact hassign c hc'
    · rw [noteRead_isAssign]
      exact hassign c' hc'
  · obtain ⟨c', hc', rfl | rfl⟩ := children_noteRead hmem
    · exact hc c hc'
    · exact aims_noteRead (hc c' hc')
termination_by sizeOf e
decreasing_by exact View.sizeOf_expr_child hc'

end Fold

theorem Truncates.formed {allowed : Bool} {id id' : Nat} {x y : ExprState} (h : Truncates id x id' y)
    (hx : x.Formed allowed) : y.Formed allowed := by
  obtain ⟨z, loc, a, more, rest, item, hf, hz, -, -, rfl⟩ := h.folds
  obtain ⟨-, hp, hrest⟩ := (hf.formed hx).1.stack.top hz
  refine .of_some rfl (by simpa [ExprState.close, hz] using hrest) (Expr.formedThroughout_of_parts trivial ?_) rfl rfl
  simpa [Expr.children] using hp a (by simp [PendingExpr.parts])

theorem inherited_aims (config : ParserConfig) :
    Inherited config (Expr.AimsThroughout config.allowAssignmentExpressions)
      fun x => x.Binds ∧ x.Formed config.allowAssignmentExpressions where
  children e h := (Expr.aimsThroughout_iff.1 h).2
  placeholder _ := Expr.aimsThroughout_iff.2 ⟨⟨trivial, by simp [Expr.children]⟩, by simp [Expr.children]⟩
  noteRead _ _ h := Fold.aims_noteRead h
  fresh context := ⟨.of_none rfl .nil, .fresh _ context⟩
  shift {_ _ x y ts} hx _ h := by
    have hb := h.binds hx.1
    obtain ⟨hf, -⟩ := h.formed hx.1 hx.2
    exact ⟨⟨hb.stack, hb.slot⟩, hf.stack, hf.slot, hf.receiver⟩
  truncate {_ _ x y} hx h := by
    have hb := h.binds hx.1
    have hf := h.formed hx.2
    exact ⟨⟨hb.stack, hb.slot⟩, hf.stack, hf.slot, hf.receiver⟩
  fold hx hf _ he := ((hf.formed hx.2).1.slot _ he).1.aims

theorem ensures_place (config : ParserConfig) :
    Ensures (fun context e => e.isAssign = true →
        config.allowAssignmentExpressions = true ∨ context.takesAssignment = true)
      fun x => x.Binds ∧ x.Formed config.allowAssignmentExpressions where
  literal _ _ _ := by simp [Expr.isAssign]
  noteRead _ _ _ h := by rwa [Fold.noteRead_isAssign]
  fold {_ _ x y e} hx hf _ he ha := by
    obtain ⟨hform, hcontext⟩ := hf.formed hx.2
    rw [← hcontext]
    exact ((hform.slot e he).2 ha).imp_right And.right

structure Graph.AssignsInPlace (allowed : Bool) (g : Graph) : Prop where
  target : ∀ node op target value, View.expr (.assign node op target value) ∈ g.view.walk →
    target.tag ∈ [.var, .indexer, .accessor]
  operand : ∀ node op operand, View.expr (.suffix node op operand) ∈ g.view.walk →
    operand.tag ∈ [.var, .indexer, .accessor]
  statement : ∀ node e, View.stmt (.expr node e) ∈ g.view.walk →
    e.tag ∈ [.assignment, .functionCall, .pointerCall, .suffix]
  /-- An assignment is a whole statement, or what a `for` begins or goes on with. -/
  place : allowed = false → ∀ above e, g.view.Path above (.expr e) → e.tag = .assignment →
    (∃ node outer, above = .stmt (.expr node e) :: outer) ∨
      ∃ node first condition step body outer, above = .stmt (.forLoop node first condition step body) :: outer ∧
        (first = some e ∨ step = some e) ∧ condition ≠ some e

theorem Expr.tag_of_isAssignable {e : Expr} (h : e.isAssignable = true) : e.tag ∈ [.var, .indexer, .accessor] := by
  cases e <;> simp [isAssignable, tag] at h ⊢

theorem Expr.tag_of_hasEffect {e : Expr} (h : e.hasEffect = true) :
    e.tag ∈ [.assignment, .functionCall, .pointerCall, .suffix] := by
  cases e <;> simp [hasEffect, tag] at h ⊢

theorem Expr.isAssign_of_tag {e : Expr} (h : e.tag = .assignment) : e.isAssign = true := by
  cases e with
  | assign => rfl
  | _ => cases h

theorem View.Path.cases_last {root v : View} {above : List View} (h : root.Path above v) :
    above = [] ∧ root = v ∨ ∃ u outer, above = u :: outer ∧ root.Path outer u ∧ v ∈ u.children := by
  cases h with
  | root => exact .inl ⟨rfl, rfl⟩
  | child h hc => exact .inr ⟨_, _, rfl, h, hc⟩

theorem Stmt.places_takesAssignment {s : Stmt} {context : ExprContext} {e : Expr} (h : (context, e) ∈ s.places)
    (hc : context.takesAssignment = true) :
    (∃ node, s = .expr node e) ∨
      ∃ node first condition step body, s = .forLoop node first condition step body ∧
        (first = some e ∨ step = some e) := by
  cases s with
  | expr node =>
    obtain ⟨-, rfl⟩ : context = .statement ∧ e = _ := by simpa [places] using h
    exact .inl ⟨node, rfl⟩
  | forLoop node first condition step body =>
    refine .inr ⟨node, first, condition, step, body, rfl, ?_⟩
    simp only [places, List.mem_append, List.mem_map, Option.mem_toList, Prod.mk.injEq] at h
    obtain (⟨_, h, -, rfl⟩ | ⟨_, -, rfl, -⟩) | ⟨_, h, -, rfl⟩ := h
    · exact .inl h
    · cases hc
    · exact .inr h
  | ifThen | ifElse | whileLoop | foreachLoop =>
    obtain ⟨rfl, -⟩ := Prod.mk.inj (List.mem_singleton.1 h)
    cases hc
  | keywordCall =>
    obtain ⟨_, -, h⟩ := List.mem_map.1 h
    obtain ⟨rfl, -⟩ := Prod.mk.inj h
    cases hc
  | switch =>
    obtain h | h := List.mem_cons.1 h
    · obtain ⟨rfl, -⟩ := Prod.mk.inj h
      cases hc
    · obtain ⟨_, -, h⟩ := List.mem_map.1 h
      obtain ⟨rfl, -⟩ := Prod.mk.inj h
      cases hc
  | flow | block => simp [places] at h

/-- Every parsed graph has its assignments and increments in their places. -/
theorem parse_assignments {tokens : List Token} {config : ParserConfig} {g : Graph}
    (h : (parse tokens config).graph = some g) : g.AssignsInPlace config.allowAssignmentExpressions := by
  have haims {e : Expr} (he : View.expr e ∈ g.view.walk) : e.AimsThroughout config.allowAssignmentExpressions :=
    parse_exprs (inherited_aims config) (fun _ _ => trivial) h _ he e rfl
  have hplaces {above : List View} {v : View} (hp : g.view.Path above v) :=
    parse_places (ensures_place config) (inherited_aims config) h hp
  refine ⟨?_, ?_, ?_, ?_⟩
  · intro node op target value he
    exact Expr.tag_of_isAssignable (Expr.aimsThroughout_iff.1 (haims he)).1.1
  · intro node op operand he
    exact Expr.tag_of_isAssignable (Expr.aimsThroughout_iff.1 (haims he)).1.1
  · intro node e hs
    obtain ⟨above, hp⟩ := View.mem_walk_iff_path.1 hs
    exact Expr.tag_of_hasEffect ((hplaces hp (.statement, e) List.mem_cons_self).2 rfl)
  · intro hallowed above e hp ht
    have ha := Expr.isAssign_of_tag ht
    have hnone {context : ExprContext} {v : View} {outer : List View} (hv : g.view.Path outer v)
        (hmem : (context, e) ∈ v.places) : context.takesAssignment = true :=
      ((hplaces hv _ hmem).1 ha).resolve_left (by simp [hallowed])
    obtain ⟨rfl, hroot⟩ | ⟨v, outer, rfl, hv, hc⟩ := hp.cases_last
    · -- The expression stands alone.
      obtain rfl : g = .expression e := by cases g <;> simp_all [Graph.view]
      have := parse_expression (ensures_place config) (inherited_aims config) h ha
      simp [hallowed, ExprContext.takesAssignment] at this
    by_cases he : ∃ outer, v = .expr outer
    · obtain ⟨p, rfl⟩ := he
      obtain ⟨c, hmem, ⟨⟩⟩ := List.mem_map.1 hc
      have := (Expr.aimsThroughout_iff.1 (haims (View.mem_walk_iff_path.2 ⟨outer, hv⟩))).1.2 e hmem ha
      simp [hallowed] at this
    obtain ⟨context, hmem⟩ := View.mem_places hc fun p hp => he ⟨p, hp⟩
    have htakes := hnone hv hmem
    cases v with
    | stmt s =>
      obtain ⟨node, rfl⟩ | ⟨node, first, condition, step, body, rfl, hclause⟩ :=
        Stmt.places_takesAssignment hmem htakes
      · exact .inl ⟨node, outer, rfl⟩
      · refine .inr ⟨node, first, condition, step, body, outer, rfl, hclause, ?_⟩
        rintro rfl
        have hplace : (ExprContext.forClause .condition, e) ∈
            (View.stmt (.forLoop node first (some e) step body)).places := by simp [View.places, Stmt.places]
        cases hnone hv hplace
    | directive =>
      obtain ⟨_, -, hd⟩ := List.mem_map.1 hmem
      obtain ⟨rfl, -⟩ := Prod.mk.inj hd
      cases htakes
    | constant =>
      obtain ⟨rfl, -⟩ := Prod.mk.inj (List.mem_singleton.1 hmem)
      cases htakes
    | expr | function | param | script => simp [View.places] at hmem

theorem parse_assignments_for :
    let i (id : Nat) (loc : Location) : Expr := .var ⟨id, loc⟩ ⟨"i", loc⟩
    let a (id : Nat) (loc : Location) : Expr := .var ⟨id, loc⟩ ⟨"a", loc⟩
    let first : Expr := .assign ⟨5, ⟨1, 9, 8⟩⟩ .assign (i 3 ⟨1, 9, 8⟩) (a 4 ⟨1, 11, 10⟩)
    let step : Expr := .suffix ⟨7, ⟨1, 14, 13⟩⟩ .increment (i 6 ⟨1, 14, 13⟩)
    let e : Expr := .assign ⟨11, ⟨1, 18, 17⟩⟩ .assign
      (.member ⟨9, ⟨1, 18, 17⟩⟩ (a 8 ⟨1, 18, 17⟩) ⟨"b", ⟨1, 20, 19⟩⟩) (i 10 ⟨1, 22, 21⟩)
    let loop : Stmt := .forLoop ⟨2, ⟨1, 5, 4⟩⟩ (some first) none (some step) (.expr ⟨12, ⟨1, 18, 17⟩⟩ e)
    let f : FunctionDef := ⟨⟨0, .start⟩, ⟨"f", .start⟩, [], some ⟨⟨1, ⟨1, 4, 3⟩⟩, [loop]⟩, false, 0⟩
    (parse
      [⟨.identifier, "f", .start⟩, ⟨.symbol, "(", ⟨1, 2, 1⟩⟩, ⟨.symbol, ")", ⟨1, 3, 2⟩⟩, ⟨.symbol, "\x7b", ⟨1, 4, 3⟩⟩,
        ⟨.identifier, "for", ⟨1, 5, 4⟩⟩, ⟨.symbol, "(", ⟨1, 8, 7⟩⟩, ⟨.identifier, "i", ⟨1, 9, 8⟩⟩,
        ⟨.symbol, "=", ⟨1, 10, 9⟩⟩, ⟨.identifier, "a", ⟨1, 11, 10⟩⟩, ⟨.symbol, ";", ⟨1, 12, 11⟩⟩,
        ⟨.symbol, ";", ⟨1, 13, 12⟩⟩, ⟨.identifier, "i", ⟨1, 14, 13⟩⟩, ⟨.symbol, "+", ⟨1, 15, 14⟩⟩,
        ⟨.symbol, "+", ⟨1, 16, 15⟩⟩, ⟨.symbol, ")", ⟨1, 17, 16⟩⟩, ⟨.identifier, "a", ⟨1, 18, 17⟩⟩,
        ⟨.symbol, ".", ⟨1, 19, 18⟩⟩, ⟨.identifier, "b", ⟨1, 20, 19⟩⟩, ⟨.symbol, "=", ⟨1, 21, 20⟩⟩,
        ⟨.identifier, "i", ⟨1, 22, 21⟩⟩, ⟨.symbol, ";", ⟨1, 23, 22⟩⟩, ⟨.symbol, "\x7d", ⟨1, 24, 23⟩⟩] {}).graph =
        some (.script { declarations := [.function f] }) ∧
      Graph.AssignsInPlace false (.script { declarations := [.function f] }) := by
  intro i a first step e loop f
  exact (and_iff_left_of_imp fun h => parse_assignments h).2 rfl

end GameScript
