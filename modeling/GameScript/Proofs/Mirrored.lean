import GameScript.Proofs.Agreement
import Mathlib

namespace GameScript

inductive MirroredText : String → String → Prop
  | same (message : String) : MirroredText message message
  | sides (before left right : String) :
      MirroredText (before ++ left ++ " vs " ++ right ++ ")") (before ++ right ++ " vs " ++ left ++ ")")

structure Divergence.Mirrors (d d' : Divergence) : Prop where
  leftLoc : d'.leftLoc = d.rightLoc
  rightLoc : d'.rightLoc = d.leftLoc
  left : d'.left = d.right
  right : d'.right = d.left
  message : MirroredText d.message d'.message

theorem Ident.same_comm (a b : Ident) : a.same b = b.same a := by
  rw [Bool.eq_iff_iff, Ident.same_iff, Ident.same_iff, eq_comm]

theorem Value.same_comm (x y : Value) : x.same y = y.same x := by
  cases x <;> cases y <;> simp [Value.same, BEq.comm]

namespace Mismatch

theorem samePath_comm (a b : ModulePath) : samePath a b = samePath b a := by
  rw [Bool.eq_iff_iff, samePath_iff, samePath_iff, eq_comm]

theorem sameName?_comm (a b : Option Ident) : sameName? a b = sameName? b a := by
  rw [Bool.eq_iff_iff, sameName?_iff, sameName?_iff, eq_comm]

theorem sameFunction_comm (f g : FunctionRef) : sameFunction f g = sameFunction g f := by
  rw [Bool.eq_iff_iff, sameFunction_iff, sameFunction_iff, eq_comm]

theorem sameFolded_comm (u v : Option Value) : sameFolded u v = sameFolded v u := by
  cases u <;> cases v <;> simp [sameFolded, Value.same_comm]

theorem sameLiteral_comm (a b : Literal) : sameLiteral a b = sameLiteral b a := by
  unfold sameLiteral
  cases a.value <;> cases b.value <;> simp [Value.same_comm, BEq.comm]

abbrev Mirrors : Option String → Option String → Prop :=
  Option.Rel MirroredText

namespace Mirrors

theorem refl : ∀ m : Option String, Mirrors m m
  | none => .none
  | some message => .some (.same message)

theorem or {m m' n n' : Option String} (hm : Mirrors m m') (hn : Mirrors n n') : Mirrors (m.or n) (m'.or n') := by
  cases hm with
  | none => exact hn
  | some h => exact .some h

theorem ite {p q : Prop} [Decidable p] [Decidable q] {m m' n n' : Option String} (hp : p ↔ q) (hm : Mirrors m m')
    (hn : Mirrors n n') : Mirrors (if p then m else n) (if q then m' else n') := by
  by_cases h : p
  · rwa [if_pos h, if_pos (hp.1 h)]
  · rwa [if_neg h, if_neg (mt hp.2 h)]

theorem reportIf {differs differs' : Bool} (h : differs = differs') (message : String) :
    Mirrors (reportIf differs message) (Mismatch.reportIf differs' message) :=
  h ▸ refl _

theorem findSome? {α : Type} {f : α × α → Option String} (hf : ∀ x y, Mirrors (f (x, y)) (f (y, x))) :
    ∀ xs ys : List α, Mirrors ((xs.zip ys).findSome? f) ((ys.zip xs).findSome? f)
  | [], ys => by simp
  | _ :: _, [] => .none
  | x :: xs, y :: ys => by
    have hrest := findSome? hf xs ys
    have hxy := hf x y
    simp only [List.zip_cons_cons, List.findSome?_cons]
    generalize f (x, y) = m, f (y, x) = m' at hxy
    cases hxy with
    | none => exact hrest
    | some h => exact .some h

end Mirrors

theorem counts_mirrors (what : String) (m n : Nat) : Mirrors (counts what m n) (counts what n m) := by
  unfold counts Mismatch.reportIf
  exact .ite (by rw [bne_comm]) (.some (.sides ..)) .none

theorem names_mirrors (what : String) (a b : Ident) : Mirrors (names what a b) (names what b a) :=
  .reportIf (by rw [Ident.same_comm]) _

theorem literals_mirrors (a b : Literal) : Mirrors (literals a b) (literals b a) :=
  .ite ne_comm (.refl _) (.reportIf (by rw [sameLiteral_comm]) _)

theorem callShapes_mirrors (r s : Option Expr) (m n : Option CallModifier) (xs ys : List Expr) :
    Mirrors (callShapes r s m n xs ys) (callShapes s r n m ys xs) :=
  .ite (by rw [bne_comm]) (.refl _) (.ite (by rw [bne_comm]) (.refl _) (counts_mirrors _ _ _))

theorem exprs_mirrors {a b : Expr} (h : a.tag = b.tag) : Mirrors (exprs a b) (exprs b a) := by
  cases a <;> cases b <;> cases h
  case var.var | member.member => exact names_mirrors _ _ _
  case func.func => exact .reportIf (by rw [sameFunction_comm]) _
  case literal.literal => exact literals_mirrors _ _
  case binary.binary | unary.unary | suffix.suffix | assign.assign => exact .reportIf bne_comm _
  case array.array => exact counts_mirrors _ _ _
  case call.call => exact .ite (by rw [sameFunction_comm]) (callShapes_mirrors _ _ _ _ _ _) (.refl _)
  case pointerCall.pointerCall => exact callShapes_mirrors _ _ _ _ _ _
  case index.index | group.group | truple.truple => exact .none

theorem cases_mirrors (c d : Case) : Mirrors (cases c d) (cases d c) := by
  refine .ite (by rw [bne_comm, bne_comm (a := c.stop)]) (.some (.sides ..)) (.reportIf ?_ _)
  rw [bne_comm, bne_comm (a := c.isDefault)]

theorem stmts_mirrors {a b : Stmt} (h : a.tag = b.tag) : Mirrors (stmts a b) (stmts b a) := by
  cases a <;> cases b <;> cases h
  case keywordCall.keywordCall => exact .ite ne_comm (.refl _) (.reportIf bne_comm _)
  case flow.flow _ k s _ l t => exact .reportIf (by rw [bne_comm, bne_comm (a := s.kind)]) _
  case block.block => exact counts_mirrors _ _ _
  case ifThen.ifElse | ifElse.ifThen => exact .refl _
  case forLoop.forLoop _ a b c _ _ x y z _ =>
    exact .reportIf (by rw [bne_comm, bne_comm (a := b.isSome), bne_comm (a := c.isSome)]) _
  case foreachLoop.foreachLoop =>
    exact .ite (by rw [sameName?_comm]) (names_mirrors _ _ _) (.refl _)
  case switch.switch =>
    exact .or (counts_mirrors _ _ _) <| .or (counts_mirrors _ _ _) <| .findSome? cases_mirrors _ _
  case expr.expr | ifThen.ifThen | ifElse.ifElse | whileLoop.whileLoop => exact .none

theorem functions_mirrors (f g : FunctionDef) : Mirrors (functions f g) (functions g f) :=
  .or (names_mirrors _ _ _) <| .or (counts_mirrors _ _ _) <| .or (.reportIf bne_comm _) <| counts_mirrors _ _ _

theorem params_mirrors (p q : Param) : Mirrors (params p q) (params q p) :=
  .ite (by rw [sameName?_comm]) (.reportIf bne_comm _) (.refl _)

theorem directives_mirrors (d d' : Directive) : Mirrors (directives d d') (directives d' d) := by
  obtain ⟨_, k⟩ := d
  obtain ⟨_, l⟩ := d'
  cases k <;> cases l
  case importScript.importScript => exact .reportIf (by rw [samePath_comm]) _
  case withArgs.withArgs => exact .or (names_mirrors _ _ _) (counts_mirrors _ _ _)
  case bare.bare => exact names_mirrors _ _ _
  all_goals exact .refl _

theorem constants_mirrors (c d : ConstantDecl) : Mirrors (constants c d) (constants d c) :=
  .ite (by rw [Ident.same_comm]) (.reportIf (by rw [sameFolded_comm]) _) (.refl _)

theorem scripts_mirrors (s t : Script) : Mirrors (scripts s t) (scripts t s) :=
  .or (.reportIf bne_comm _) <| .or (counts_mirrors _ _ _) <| .or (counts_mirrors _ _ _) <|
    .or (counts_mirrors _ _ _) <| .or (counts_mirrors _ _ _) <| .findSome? (names_mirrors _) _ _

theorem views_mirrors {a b : View} (h : a.tag = b.tag) : Mirrors (views a b) (views b a) := by
  cases a <;> cases b
  case expr.expr => exact exprs_mirrors h
  case stmt.stmt => exact stmts_mirrors h
  case function.function => exact functions_mirrors _ _
  case param.param => exact params_mirrors _ _
  case directive.directive => exact directives_mirrors _ _
  case constant.constant => exact constants_mirrors _ _
  case script.script => exact scripts_mirrors _ _
  all_goals exact .none

end Mismatch

namespace View

theorem difference?_mirrors (a b : View) : Mismatch.Mirrors (a.difference? b) (b.difference? a) := by
  unfold difference?
  by_cases h : a.tag = b.tag
  · rw [if_neg (not_not.2 h), if_neg (not_not.2 h.symm)]
    exact .or (Mismatch.views_mirrors h) (Mismatch.counts_mirrors _ _ _)
  · rw [if_pos h, if_pos (Ne.symm h)]
    exact .some (.sides ..)

theorem flatMap_zip_mirrors {xs : List View}
    (h : ∀ x ∈ xs, ∀ y, List.Forall₂ Divergence.Mirrors (x.compare y) (y.compare x))
    (ys : List View) : List.Forall₂ Divergence.Mirrors ((xs.zip ys).flatMap fun (x, y) => x.compare y)
      ((ys.zip xs).flatMap fun (y, x) => y.compare x) := by
  induction xs generalizing ys with
  | nil => simp
  | cons x xs ih =>
    obtain ⟨hx, hxs⟩ := List.forall_mem_cons.1 h
    cases ys with
    | nil => exact .nil
    | cons y ys => exact List.rel_append (hx y) (ih hxs ys)

theorem compare_mirrors (a b : View) : List.Forall₂ Divergence.Mirrors (a.compare b) (b.compare a) := by
  induction a using View.walk.induct generalizing b with
  | case1 a ih =>
    have hdifference := difference?_mirrors a b
    rw [compare_eq, compare_eq]
    generalize a.difference? b = m, b.difference? a = m' at hdifference
    cases hdifference with
    | none => exact flatMap_zip_mirrors ih _
    | some h => exact .cons ⟨rfl, rfl, rfl, rfl, h⟩ .nil

end View

/-- Exchanging two graphs exchanges the sides of all differences between them, and nothing else. -/
theorem compareGraphs_mirrors (g h : Graph) : List.Forall₂ Divergence.Mirrors (compareGraphs g h) (compareGraphs h g) :=
  View.compare_mirrors g.view h.view

end GameScript
