import GameScript.Proofs.Agreement
import GameScript.Proofs.Decoding
import GameScript.Proofs.Doubles
import GameScript.Proofs.FoldedAlike
import GameScript.Tree.Relabel

namespace GameScript

namespace Relabel

variable (r : Relabel)

theorem plain_ident (n : Ident) : (r.ident n).plain = n.plain := rfl

theorem plain_target (f : FunctionRef) : (r.target f).plain = f.plain := by
  obtain ⟨name, qualifier⟩ := f
  cases qualifier with
  | unqualified | own => rfl
  | path segments =>
    simp only [FunctionRef.plain, target, qualifier, Qualifier.plain, ModulePath.plain, path, List.map_map]
    rfl

mutual

theorem plain_expr : ∀ e : Expr, (r.expr e).plain = e.plain
  | .var .. | .literal .. => rfl
  | .func _ target => by simp only [expr, Expr.plain, plain_target]
  | .index _ target index => by simp only [expr, Expr.plain, plain_expr target, plain_expr index]
  | .member _ target name => by simp only [expr, Expr.plain, plain_expr target, plain_ident]
  | .binary _ op left right => by simp only [expr, Expr.plain, plain_expr left, plain_expr right]
  | .unary _ op operand => by simp only [expr, Expr.plain, plain_expr operand]
  | .suffix _ op operand => by simp only [expr, Expr.plain, plain_expr operand]
  | .group _ inner => by simp only [expr, Expr.plain, plain_expr inner]
  | .truple _ x y z => by simp only [expr, Expr.plain, plain_expr x, plain_expr y, plain_expr z]
  | .array _ items => by simp only [expr, Expr.plain, plain_exprs items]
  | .assign _ op target value => by simp only [expr, Expr.plain, plain_expr target, plain_expr value]
  | .call _ receiver modifier target args => by
    simp only [expr, Expr.plain, plain_target, plain_expr? receiver, plain_exprs args]
  | .pointerCall _ receiver modifier pointer args => by
    simp only [expr, Expr.plain, plain_expr pointer, plain_expr? receiver, plain_exprs args]

theorem plain_expr? : ∀ e : Option Expr, Expr.plain? (r.expr? e) = Expr.plain? e
  | some e => by simp only [expr?, Expr.plain?, plain_expr e]
  | none => rfl

theorem plain_exprs : ∀ es : List Expr, Expr.plains (r.exprs es) = Expr.plains es
  | [] => rfl
  | e :: es => by simp only [exprs, Expr.plains, plain_expr e, plain_exprs es]

end

theorem values_expr (e : Expr) : (View.expr (r.expr e)).values = (View.expr e).values := by
  have hown : (View.expr (r.expr e)).ownValue = (View.expr e).ownValue := by cases e <;> rfl
  rw [View.values_eq, View.values_eq, hown]
  simp only [View.children, children_expr, List.flatMap_map]
  congr 1
  exact List.flatMap_congr fun c hc => values_expr c
termination_by sizeOf e
decreasing_by exact View.sizeOf_expr_child hc

end Relabel

theorem Value.same_of_decode {kind : LiteralKind} {raw : String} {v : Value} (h : Value.decode kind raw = .ok v)
    (hk : kind ≠ .float) : v.same v = true := by
  have hmap {result : Except LiteralError String} (f : String → Value) (hf : ∀ s, (f s).same (f s) = true)
      (h : result.map f = .ok v) : v.same v = true := by
    cases result with
    | error => cases h
    | ok s =>
      cases h
      exact hf s
  cases kind with
  | float => exact absurd rfl hk
  | integer =>
    unfold decode decodeInteger at h
    simp only at h
    split at h <;> cases h
    exact beq_self_eq_true _
  | string => exact hmap .string (fun s => beq_self_eq_true s) h
  | localized =>
    simp only [decode] at h
    split at h
    · exact hmap .localized (fun s => beq_self_eq_true s) h
    · cases h
  | resource =>
    simp only [decode] at h
    split at h <;> cases h
    exact beq_self_eq_true _
  | bool =>
    simp only [decode] at h
    split at h
    · cases h
      rfl
    · split at h <;> cases h
      rfl
  | undefined =>
    cases h
    rfl

def Literal.Steady (l : Literal) : Prop :=
  Mismatch.sameFolded l.value.toOption l.value.toOption = true

theorem Literal.steady_of_decode {l : Literal} (h : ∀ v, Value.decode l.kind l.raw = .ok v → v.same v = true) : l.Steady := by
  unfold Steady value
  cases hv : Value.decode l.kind l.raw with
  | error => rfl
  | ok v => exact h v hv

theorem Token.Lexed.steady {d : Dialect} {t : Token} (h : t.Lexed d) {mode : GameMode} {kind : LiteralKind}
    (hk : t.literalKind? mode = some kind) : Literal.Steady ⟨kind, t.text, false⟩ := by
  refine Literal.steady_of_decode fun v hv => ?_
  by_cases hfloat : kind = .float
  · subst hfloat
    have hnumber := Token.kind_of_float hk
    have hpoint : t.text.toList.contains '.' = true := by
      simpa [Token.literalKind?, hnumber, Session.numberKind] using hk
    obtain ⟨digits, count, exponent, hx⟩ := (h.numeral hnumber).float hpoint
    simp only [Value.decode, hx] at hv
    cases hv
    exact Decimal.beq_self_of_ne_nan (Decimal.nearestDecimal_ne_nan digits count exponent)
  · exact Value.same_of_decode hv hfloat

theorem parse_steady {source : String} {d : Dialect} {tokens : List Token} (h : lex source d = .ok tokens)
    {config : ParserConfig} {g : Graph} (hg : (parse tokens config).graph = some g) :
    g.view.Exprs (Expr.Literals Literal.Steady) := by
  have hinherited : Inherited config (Expr.Literals Literal.Steady) (ExprState.Literals Literal.Steady)
      fun t => ∀ kind, t.literalKind? config.dialect.mode = some kind → Literal.Steady ⟨kind, t.text, false⟩ :=
    .literals rfl (fun _ hl => hl) fun _ ht => ht
  exact parse_exprs hinherited (literals_of_lex h fun t ht kind hk => ht.steady hk) hg

theorem Expr.Literals.values {e : Expr} (h : e.Literals Literal.Steady) :
    ∀ u ∈ (View.expr e).values, Mismatch.sameFolded u u = true := by
  intro u hu
  obtain ⟨v, hv, hown⟩ := List.mem_flatMap.1 hu
  obtain ⟨e', rfl⟩ := View.everywhere_of_expr (V := fun v => ∃ e', v = .expr e') (fun e' => ⟨e', rfl⟩) e v hv
  cases e' with
  | literal node l =>
    obtain rfl := List.mem_singleton.1 hown
    exact h _ hv node l rfl
  | _ => cases hown

theorem compareGraphs_relabel {source : String} {d : Dialect} {tokens tokens' : List Token} {config config' : ParserConfig}
    {e e' : Expr} (hl : lex source d = .ok tokens) (hg : (parse tokens config).graph = some (.expression e))
    (hg' : (parse tokens' config').graph = some (.expression e')) (r : Relabel) (h : r.expr e = r.expr e') :
    compareGraphs (.expression e) (.expression e') = [] := by
  have hvalues : (View.expr e).values = (View.expr e').values := by rw [← r.values_expr e, h, r.values_expr e']
  have hsteady : e.Literals Literal.Steady := parse_steady hl hg (.expr e) (by
    rw [Graph.view, View.walk_eq]
    exact List.mem_cons_self) e rfl
  refine (compareGraphs_nil (parse_regular hg) (parse_regular hg')).2 ⟨?_, ?_⟩
  · rw [Graph.plain, Graph.plain, ← r.plain_expr e, h, r.plain_expr e']
  · rw [Graph.values, Graph.values, Graph.view, Graph.view, ← hvalues]
    exact List.forall₂_same.2 fun u hu => hsteady.values u hu

end GameScript
