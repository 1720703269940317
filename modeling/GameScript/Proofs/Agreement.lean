import Mathlib.Data.List.Flatten
import GameScript.Compare.Divergence
import GameScript.Proofs.Everywhere
import GameScript.Proofs.Nesting
import GameScript.Proofs.Plain

/-!
The comparison of trees decides whether they are equal when they are plain. One node agrees with another in
everything that is its own, and then their children are compared in pairs.
-/

namespace GameScript

theorem Ident.same_iff {a b : Ident} : a.same b = true ↔ a.plain = b.plain := by
  simp [Ident.same, sameWord_iff, Ident.plain]

theorem length_of_map_plain {α β : Type} {f : α → β} {xs ys : List α} (h : xs.map f = ys.map f) :
    xs.length = ys.length := by
  simpa using congrArg List.length h

section Relations

variable {α β : Type} {R : β → β → Prop}

theorem forall₂_map_eq_iff {f : α → β} {xs ys : List α} :
    List.Forall₂ (fun x y => f x = f y) xs ys ↔ xs.map f = ys.map f := by
  rw [← List.forall₂_eq_eq_eq, List.forall₂_map_left_iff, List.forall₂_map_right_iff]

theorem forall₂_append_iff {xs ys us vs : List β} (h : xs.length = ys.length) :
    List.Forall₂ R (xs ++ us) (ys ++ vs) ↔ List.Forall₂ R xs ys ∧ List.Forall₂ R us vs := by
  constructor
  · intro hr
    have hx := List.forall₂_take xs.length hr
    have hu := List.forall₂_drop xs.length hr
    rw [List.take_left, h, List.take_left] at hx
    rw [List.drop_left, h, List.drop_left] at hu
    exact ⟨hx, hu⟩
  · rintro ⟨hx, hu⟩
    exact List.rel_append hx hu

theorem forall₂_flatMap_iff {P : α → α → Prop} {f : α → List β} (h : ∀ a b, P a b → (f a).length = (f b).length)
    {xs ys : List α} : List.Forall₂ (fun a b => P a b ∧ List.Forall₂ R (f a) (f b)) xs ys ↔
      List.Forall₂ P xs ys ∧ List.Forall₂ R (xs.flatMap f) (ys.flatMap f) := by
  induction xs generalizing ys with
  | nil => cases ys <;> simp
  | cons x xs ih =>
    cases ys with
    | nil => simp
    | cons y ys =>
      rw [List.forall₂_cons, List.forall₂_cons, ih, List.flatMap_cons, List.flatMap_cons]
      constructor
      · rintro ⟨⟨hp, hx⟩, hps, hxs⟩
        exact ⟨⟨hp, hps⟩, List.rel_append hx hxs⟩
      · rintro ⟨⟨hp, hps⟩, hr⟩
        obtain ⟨hx, hxs⟩ := (forall₂_append_iff (h x y hp)).1 hr
        exact ⟨⟨hp, hx⟩, hps, hxs⟩

theorem forall₂_congr_mem {P Q : α → α → Prop} {xs ys : List α} (h : ∀ x ∈ xs, ∀ y ∈ ys, (P x y ↔ Q x y)) :
    List.Forall₂ P xs ys ↔ List.Forall₂ Q xs ys := by
  rw [List.forall₂_iff_zip, List.forall₂_iff_zip]
  refine and_congr_right fun _ => forall₂_congr fun x y => ?_
  exact ⟨fun hp hxy => (h x (List.of_mem_zip hxy).1 y (List.of_mem_zip hxy).2).1 (hp hxy),
    fun hq hxy => (h x (List.of_mem_zip hxy).1 y (List.of_mem_zip hxy).2).2 (hq hxy)⟩

end Relations

namespace View

theorem map_plain_iff {α : Type} {f : α → View} {plain : α → α} (hf : ∀ a, (f a).plain = f (plain a))
    (hinj : ∀ a b, f a = f b → a = b) {xs ys : List α} :
    xs.map (View.plain ∘ f) = ys.map (View.plain ∘ f) ↔ xs.map plain = ys.map plain := by
  have hcomp : View.plain ∘ f = f ∘ plain := funext hf
  rw [hcomp, ← List.map_map, ← List.map_map]
  exact List.map_inj_right hinj

@[simp] theorem map_plain_expr {xs ys : List Expr} :
    xs.map (View.plain ∘ View.expr) = ys.map (View.plain ∘ View.expr) ↔ xs.map Expr.plain = ys.map Expr.plain :=
  map_plain_iff (f := View.expr) (fun _ => rfl) fun _ _ => View.expr.inj

@[simp] theorem map_plain_stmt {xs ys : List Stmt} :
    xs.map (View.plain ∘ View.stmt) = ys.map (View.plain ∘ View.stmt) ↔ xs.map Stmt.plain = ys.map Stmt.plain :=
  map_plain_iff (f := View.stmt) (fun _ => rfl) fun _ _ => View.stmt.inj

theorem map_plain_param {xs ys : List Param} :
    xs.map (View.plain ∘ View.param) = ys.map (View.plain ∘ View.param) ↔ xs.map Param.plain = ys.map Param.plain :=
  map_plain_iff (f := View.param) (fun _ => rfl) fun _ _ => View.param.inj

theorem map_plain_directive {xs ys : List Directive} :
    xs.map (View.plain ∘ View.directive) = ys.map (View.plain ∘ View.directive) ↔
      xs.map Directive.plain = ys.map Directive.plain :=
  map_plain_iff (f := View.directive) (fun _ => rfl) fun _ _ => View.directive.inj

theorem map_plain_constant {xs ys : List ConstantDecl} :
    xs.map (View.plain ∘ View.constant) = ys.map (View.plain ∘ View.constant) ↔
      xs.map ConstantDecl.plain = ys.map ConstantDecl.plain :=
  map_plain_iff (f := View.constant) (fun _ => rfl) fun _ _ => View.constant.inj

theorem map_plain_declaration {xs ys : List Declaration} :
    xs.map (View.plain ∘ Declaration.view) = ys.map (View.plain ∘ Declaration.view) ↔
      xs.map Declaration.plain = ys.map Declaration.plain := by
  refine map_plain_iff (f := Declaration.view) (fun d => by cases d <;> rfl) fun a b h => ?_
  cases a <;> cases b <;> cases h <;> rfl

end View

/-- The group governs statements from its place on, and has no `default` twice. -/
structure Case.Regular (c : Case) : Prop where
  starts : c.first = c.offset
  oneDefault : c.labels.countP CaseLabel.isDefault ≤ 1

def Stmt.Regular : Stmt → Prop
  | switch _ _ _ _ cases => ∀ c ∈ cases, c.Regular
  | _ => True

namespace Mismatch

@[simp] theorem reportIf_eq_none {differs : Bool} {message : String} : reportIf differs message = none ↔ differs = false := by
  cases differs <;> simp [reportIf]

@[simp] theorem counts_eq_none {what : String} {m n : Nat} : counts what m n = none ↔ m = n := by
  simp [counts]

@[simp] theorem names_eq_none {what : String} {a b : Ident} : names what a b = none ↔ a.plain = b.plain := by
  simp [names, Ident.same_iff]

theorem sameName?_iff {a b : Option Ident} : sameName? a b = true ↔ a.map Ident.plain = b.map Ident.plain := by
  cases a <;> cases b <;> simp [sameName?, Ident.same_iff]

theorem samePath_iff {a b : ModulePath} : samePath a b = true ↔ ModulePath.plain a = ModulePath.plain b := by
  unfold samePath ModulePath.plain
  induction a generalizing b with
  | nil => cases b <;> simp
  | cons x a ih =>
    cases b with
    | nil => simp
    | cons y b =>
      have := @ih b
      simp only [Bool.and_eq_true, beq_iff_eq, List.length_cons, List.zip_cons_cons, List.all_cons, List.map_cons,
        List.cons.injEq, Ident.same_iff, Nat.add_right_cancel_iff] at this ⊢
      rw [← this]
      tauto

theorem sameFunction_iff {f g : FunctionRef} : sameFunction f g = true ↔ f.plain = g.plain := by
  obtain ⟨x, p⟩ := f
  obtain ⟨y, q⟩ := g
  cases p <;> cases q <;>
    simp [sameFunction, FunctionRef.plain, Qualifier.plain, Ident.same_iff, samePath_iff]

theorem literals_eq_none {a b : Literal} : literals a b = none ↔
    a.plain = b.plain ∧ sameFolded a.value.toOption b.value.toOption = true := by
  have hvalue (h : a.kind = b.kind) (hraw : a.raw = b.raw) : a.value = b.value := by
    rw [Literal.value, Literal.value, h, hraw]
  unfold literals sameLiteral Literal.plain
  by_cases hk : a.kind = b.kind
  · cases ha : a.value <;> cases hb : b.value <;> simp [Except.toOption, hk, sameFolded]
    · intro hraw
      rw [hvalue hk hraw, hb] at ha
      cases ha
    · intro hraw
      rw [hvalue hk hraw, hb] at ha
      cases ha
  · simp [hk]

theorem callShapes_eq_none {r s : Option Expr} {m n : Option CallModifier} {xs ys : List Expr} :
    callShapes r s m n xs ys = none ↔ r.isSome = s.isSome ∧ m = n ∧ xs.length = ys.length := by
  unfold callShapes
  by_cases hr : r.isSome = s.isSome <;> by_cases hm : m = n <;> simp [hr, hm]

theorem exprs_eq_none {a b : Expr} (h : a.tag = b.tag) :
    exprs a b = none ∧ a.children.map Expr.plain = b.children.map Expr.plain ↔
      a.plain = b.plain ∧ List.Forall₂ (fun u v => sameFolded u v = true) (View.expr a).ownValue (View.expr b).ownValue := by
  cases a <;> cases b <;> cases h
  case var.var => simp [exprs, Expr.children, Expr.plain, View.ownValue]
  case func.func => simp [exprs, Expr.children, Expr.plain, View.ownValue, sameFunction_iff]
  case index.index => simp [exprs, Expr.children, Expr.plain, View.ownValue]
  case member.member => simp [exprs, Expr.children, Expr.plain, View.ownValue, and_comm]
  case literal.literal => simp [exprs, Expr.children, Expr.plain, View.ownValue, literals_eq_none]
  case binary.binary => simp [exprs, Expr.children, Expr.plain, View.ownValue]
  case unary.unary => simp [exprs, Expr.children, Expr.plain, View.ownValue]
  case suffix.suffix => simp [exprs, Expr.children, Expr.plain, View.ownValue]
  case group.group => simp [exprs, Expr.children, Expr.plain, View.ownValue]
  case truple.truple => simp [exprs, Expr.children, Expr.plain, View.ownValue]
  case array.array => simpa [exprs, Expr.children, Expr.plain, View.ownValue] using length_of_map_plain
  case assign.assign => simp [exprs, Expr.children, Expr.plain, View.ownValue]
  case call.call m r _ f xs n q _ g ys =>
    have hlength := @length_of_map_plain _ _ Expr.plain xs ys
    by_cases hf : sameFunction f g = true
    · have hfg := sameFunction_iff.1 hf
      cases r <;> cases q <;>
        simp [exprs, Expr.children, Expr.plain, View.ownValue, hf, hfg, callShapes_eq_none] <;> grind
    · have hfg := mt sameFunction_iff.2 hf
      simp [exprs, Expr.plain, hf, hfg]
  case pointerCall.pointerCall m r _ p xs n q _ p' ys =>
    have hlength := @length_of_map_plain _ _ Expr.plain xs ys
    cases r <;> cases q <;>
      simp [exprs, Expr.children, Expr.plain, View.ownValue, callShapes_eq_none] <;> grind

theorem length_labels {c : Case} (h : c.labels.countP CaseLabel.isDefault ≤ 1) :
    c.labels.length = c.values.length + c.isDefault.toNat := by
  have hsum : c.labels.length = c.values.length + c.labels.countP CaseLabel.isDefault := by
    unfold Case.values
    induction c.labels with
    | nil => rfl
    | cons l labels ih =>
      cases l <;> simp [List.filterMap_cons, List.countP_cons, CaseLabel.isDefault, CaseLabel.expr?, ih] <;> omega
  have hone : c.labels.countP CaseLabel.isDefault = c.isDefault.toNat := by
    unfold Case.isDefault
    cases hd : c.labels.any CaseLabel.isDefault with
    | true =>
      have := List.countP_pos_iff.2 (List.any_eq_true.1 hd)
      simp only [Bool.toNat_true]
      omega
    | false => simpa using hd
  rw [hsum, hone]

theorem values_plain (c : Case) : c.plain.values = c.values.map Expr.plain := by
  have hvalues (es : List Expr) : (es.map CaseLabel.value).filterMap CaseLabel.expr? = es := by
    induction es with
    | nil => rfl
    | cons e es ih => simp [CaseLabel.expr?, ih]
  unfold Case.plain
  rw [Case.values, List.filterMap_append, hvalues]
  split <;> simp [CaseLabel.expr?]

theorem isDefault_plain (c : Case) : c.plain.isDefault = c.isDefault := by
  have hvalues (es : List Expr) : (es.map CaseLabel.value).any CaseLabel.isDefault = false := by
    induction es with
    | nil => rfl
    | cons e es ih => simp [CaseLabel.isDefault]
  unfold Case.plain
  rw [Case.isDefault, List.any_append, hvalues]
  split
  · next h => rw [h]; rfl
  · next h => simpa using h

theorem plain_eq_iff {c d : Case} : c.plain = d.plain ↔
    c.offset = d.offset ∧ c.first = d.first ∧ c.stop = d.stop ∧ c.isDefault = d.isDefault ∧
      c.values.map Expr.plain = d.values.map Expr.plain := by
  constructor
  · intro h
    have hoffset : c.plain.offset = d.plain.offset := by rw [h]
    have hfirst : c.plain.first = d.plain.first := by rw [h]
    have hstop : c.plain.stop = d.plain.stop := by rw [h]
    refine ⟨hoffset, hfirst, hstop, ?_, ?_⟩
    · rw [← isDefault_plain c, h, isDefault_plain]
    · rw [← values_plain, h, values_plain]
  · rintro ⟨ho, hf, hs, hd, hv⟩
    rw [Case.plain, Case.plain, ho, hf, hs, hd, hv]

/-- The offsets are not compared: they are where the ranges start. -/
theorem cases_eq_none {c d : Case} (hc : c.Regular) (hd : d.Regular) : cases c d = none ↔
    c.offset = d.offset ∧ c.first = d.first ∧ c.stop = d.stop ∧ c.isDefault = d.isDefault ∧
      c.values.length = d.values.length := by
  rw [cases, length_labels hc.oneDefault, length_labels hd.oneDefault, ← hc.starts, ← hd.starts]
  by_cases hf : c.first = d.first <;> by_cases hs : c.stop = d.stop <;> simp [hf, hs]
  grind

theorem allCases_eq_none {cs ds : List Case} (hc : ∀ c ∈ cs, c.Regular) (hd : ∀ d ∈ ds, d.Regular) :
    cs.length = ds.length ∧ (∀ p ∈ cs.zip ds, cases p.1 p.2 = none) ∧
        (caseValues cs).map Expr.plain = (caseValues ds).map Expr.plain ↔
      cs.map Case.plain = ds.map Case.plain := by
  induction cs generalizing ds with
  | nil => cases ds <;> simp
  | cons c cs ih =>
    cases ds with
    | nil => simp
    | cons d ds =>
      obtain ⟨hc, hcs⟩ := List.forall_mem_cons.1 hc
      obtain ⟨hd, hds⟩ := List.forall_mem_cons.1 hd
      have hhead := cases_eq_none hc hd
      have hlength := @length_of_map_plain _ _ Expr.plain c.values d.values
      have hvalues (c : Case) (cs : List Case) : caseValues (c :: cs) = c.values ++ caseValues cs := rfl
      rw [hvalues, hvalues]
      simp only [List.length_cons, Nat.add_right_cancel_iff, List.zip_cons_cons, List.forall_mem_cons,
        List.map_append, List.map_cons, List.cons.injEq, ← ih hcs hds, hhead, plain_eq_iff]
      constructor
      · rintro ⟨hlen, ⟨⟨ho, hf, hs, hdef, hvlen⟩, hrest⟩, hv⟩
        obtain ⟨hvc, hvs⟩ := List.append_inj hv (by simpa using hvlen)
        exact ⟨⟨ho, hf, hs, hdef, hvc⟩, hlen, hrest, hvs⟩
      · rintro ⟨⟨ho, hf, hs, hdef, hvc⟩, hlen, hrest, hvs⟩
        exact ⟨hlen, ⟨⟨ho, hf, hs, hdef, hlength hvc⟩, hrest⟩, by rw [hvc, hvs]⟩

theorem stmts_eq_none {a b : Stmt} (h : a.tag = b.tag) (ha : a.Regular) (hb : b.Regular) :
    stmts a b = none ∧ a.children.map View.plain = b.children.map View.plain ↔ a.plain = b.plain := by
  cases a <;> cases b <;> cases h
  case expr.expr => simp [stmts, Stmt.children, Stmt.plain, View.plain]
  case keywordCall.keywordCall _ k x _ l y =>
    by_cases hk : k = l
    · cases x <;> cases y <;> simp [stmts, Stmt.children, Stmt.plain, View.plain, hk]
    · simp [stmts, Stmt.plain, hk]
  case flow.flow => simp [stmts, Stmt.children, Stmt.plain, FlowTarget.plain]
  case block.block => simpa [stmts, Stmt.children, Stmt.plain] using length_of_map_plain
  case ifThen.ifThen => simp [stmts, Stmt.children, Stmt.plain, View.plain]
  case ifElse.ifElse => simp [stmts, Stmt.children, Stmt.plain, View.plain]
  case ifThen.ifElse => simp [stmts, Stmt.plain]
  case ifElse.ifThen => simp [stmts, Stmt.plain]
  case whileLoop.whileLoop => simp [stmts, Stmt.children, Stmt.plain, View.plain]
  case forLoop.forLoop _ a b c _ _ x y z _ =>
    cases a <;> cases x <;> cases b <;> cases y <;> cases c <;> cases z <;>
      simp [stmts, Stmt.children, Stmt.plain, View.plain]
  case foreachLoop.foreachLoop _ k _ _ _ _ l _ _ _ =>
    by_cases hk : k.map Ident.plain = l.map Ident.plain
    · simp [stmts, Stmt.children, Stmt.plain, View.plain, sameName?_iff, hk]
    · simp [stmts, Stmt.plain, sameName?_iff, hk]
  case switch.switch _ _ _ xs cs _ _ _ ys ds =>
    have hcases := allCases_eq_none ha hb
    simp only [stmts, Stmt.children, Stmt.plain, Option.or_eq_none_iff, counts_eq_none, List.findSome?_eq_none_iff,
      List.map_cons, List.cons_append, List.map_append, List.map_map, List.cons.injEq, View.plain, View.expr.injEq,
      Stmt.switch.injEq, Stmt.plains_eq_map, true_and, ← hcases]
    constructor
    · rintro ⟨⟨hlen, hcount, hdiff⟩, hsubject, hchildren⟩
      obtain ⟨hvalues, hstatements⟩ := List.append_inj' hchildren (by simpa using hcount)
      exact ⟨hsubject, View.map_plain_stmt.1 hstatements, hlen, hdiff, View.map_plain_expr.1 hvalues⟩
    · rintro ⟨hsubject, hstatements, hlen, hdiff, hvalues⟩
      refine ⟨⟨hlen, length_of_map_plain hstatements, hdiff⟩, hsubject, ?_⟩
      rw [View.map_plain_expr.2 hvalues, View.map_plain_stmt.2 hstatements]

theorem params_eq_none {a b : Param} : params a b = none ↔ a.plain = b.plain := by
  by_cases hn : sameName? a.name b.name = true
  · simp [params, Param.plain, hn, sameName?_iff.1 hn]
  · simp [params, Param.plain, hn, mt sameName?_iff.2 hn]

theorem directives_eq_none {a b : Directive} :
    directives a b = none ∧ a.kind.args.map Expr.plain = b.kind.args.map Expr.plain ↔ a.plain = b.plain := by
  obtain ⟨_, k⟩ := a
  obtain ⟨_, l⟩ := b
  cases k <;> cases l
  case withArgs.withArgs _ xs _ ys =>
    have hlength := @length_of_map_plain _ _ Expr.plain xs ys
    simp [directives, Directive.plain, DirectiveKind.plain, DirectiveKind.args, Option.or_eq_none_iff]
    tauto
  all_goals
    simp [directives, Directive.plain, DirectiveKind.plain, DirectiveKind.args, samePath_iff]

theorem constants_eq_none {a b : ConstantDecl} :
    constants a b = none ∧ a.value.plain = b.value.plain ↔
      a.plain = b.plain ∧ sameFolded a.folded b.folded = true := by
  by_cases hn : a.name.same b.name = true
  · simp [constants, ConstantDecl.plain, hn, Ident.same_iff.1 hn, and_comm]
  · simp [constants, ConstantDecl.plain, hn, mt Ident.same_iff.2 hn]

theorem define_plain (header : FunctionHeader) (body : Option Block) : (header.define body).plain =
    ({ node := Node.plain, name := header.name.plain, params := header.params.map Param.plain } :
      FunctionHeader).define (body.map Block.plain) := by
  have hcomp : (fun p : Param => p.modifiers.optional) ∘ Param.plain = fun p => p.modifiers.optional := rfl
  have hcomp' : (fun p : Param => !p.modifiers.variadic) ∘ Param.plain = fun p => !p.modifiers.variadic := rfl
  have hcomp'' : (fun p : Param => p.modifiers.variadic) ∘ Param.plain = fun p => p.modifiers.variadic := rfl
  simp only [FunctionHeader.define, FunctionDef.plain, FunctionHeader.minArgs, List.findIdx?_map, hcomp,
    List.filter_map, hcomp', List.length_map, List.getLast?_map, Option.map_map, hcomp'']

theorem functions_eq_none {f g : FunctionDef} (hf : ∃ header : FunctionHeader, f = header.define f.body)
    (hg : ∃ header : FunctionHeader, g = header.define g.body) :
    functions f g = none ∧ (View.function f).children.map View.plain = (View.function g).children.map View.plain ↔
      f.plain = g.plain := by
  obtain ⟨h, body, rfl⟩ : ∃ header body, f = FunctionHeader.define header body := hf.imp fun _ h => ⟨_, h⟩
  obtain ⟨h', body', rfl⟩ : ∃ header body, g = FunctionHeader.define header body := hg.imp fun _ h => ⟨_, h⟩
  have hplain : (h.define body).plain = (h'.define body').plain ↔ h.name.plain = h'.name.plain ∧
      h.params.map Param.plain = h'.params.map Param.plain ∧ body.map Block.plain = body'.map Block.plain := by
    rw [define_plain, define_plain]
    constructor
    · intro h
      exact ⟨congrArg FunctionDef.name h, congrArg FunctionDef.params h, congrArg FunctionDef.body h⟩
    · rintro ⟨hname, hparams, hbody⟩
      rw [hname, hparams, hbody]
  have hbody : body.isSome = body'.isSome ∧
      (h.define body).statements.map Stmt.plain = (h'.define body').statements.map Stmt.plain ↔
        body.map Block.plain = body'.map Block.plain := by
    cases body <;> cases body' <;> simp [FunctionDef.statements, FunctionHeader.define, Block.plain]
  rw [hplain, ← hbody]
  simp only [functions, Option.or_eq_none_iff, names_eq_none, counts_eq_none, reportIf_eq_none, bne_eq_false_iff_eq,
    View.children, List.map_append, List.map_map]
  constructor
  · rintro ⟨⟨hname, hparams, hsome, hcount⟩, hchildren⟩
    obtain ⟨hp, hs⟩ := List.append_inj hchildren (by simpa using hparams)
    exact ⟨hname, View.map_plain_param.1 hp, hsome, View.map_plain_stmt.1 hs⟩
  · rintro ⟨hname, hp, hsome, hs⟩
    refine ⟨⟨hname, length_of_map_plain hp, hsome, length_of_map_plain hs⟩, ?_⟩
    exact congrArg₂ _ (View.map_plain_param.2 hp) (View.map_plain_stmt.2 hs)

theorem scripts_eq_none {a b : Script} :
    scripts a b = none ∧ (View.script a).children.map View.plain = (View.script b).children.map View.plain ↔
      a.plain = b.plain := by
  have hglobals : a.globals.length = b.globals.length ∧ (∀ p ∈ a.globals.zip b.globals, p.1.plain = p.2.plain) ↔
      a.globals.map Ident.plain = b.globals.map Ident.plain := by
    rw [← forall₂_map_eq_iff, List.forall₂_iff_zip]
    exact and_congr_right fun _ => ⟨fun h _ _ hp => h _ hp, fun h p hp => h hp⟩
  simp only [scripts, Option.or_eq_none_iff, counts_eq_none, reportIf_eq_none, List.findSome?_eq_none_iff, names_eq_none, View.children,
    List.map_append, List.map_map, Script.plain, Script.mk.injEq, bne_eq_false_iff_eq, ← hglobals]
  constructor
  · rintro ⟨⟨hdecl, himports, hdeclarations, hconstants, hcount, hnames⟩, hchildren⟩
    obtain ⟨h, hc⟩ := List.append_inj hchildren (by simp [himports, hdeclarations])
    obtain ⟨hi, hd⟩ := List.append_inj h (by simpa using himports)
    exact ⟨View.map_plain_directive.1 hi, View.map_plain_declaration.1 hd, View.map_plain_constant.1 hc,
      ⟨hcount, hnames⟩, hdecl⟩
  · rintro ⟨hi, hd, hc, ⟨hcount, hnames⟩, hdecl⟩
    refine ⟨⟨hdecl, length_of_map_plain hi, length_of_map_plain hd, length_of_map_plain hc, hcount, hnames⟩, ?_⟩
    rw [View.map_plain_directive.2 hi, View.map_plain_declaration.2 hd, View.map_plain_constant.2 hc]

end Mismatch

namespace View

def Regular : View → Prop
  | stmt s => s.Regular
  | function f => ∃ header : FunctionHeader, f = header.define f.body
  | _ => True

/-- No difference is found at two nodes and their children are plain in the same way, if and only if the
nodes are, and have one value. -/
theorem agree_iff {a b : View} (h : a.tag = b.tag) (ha : a.Regular) (hb : b.Regular) :
    Mismatch.views a b = none ∧ a.children.map plain = b.children.map plain ↔
      a.plain = b.plain ∧ List.Forall₂ (fun u v => Mismatch.sameFolded u v = true) a.ownValue b.ownValue := by
  cases a <;> cases b
  case expr.expr a b =>
    have := Mismatch.exprs_eq_none h
    simp only [children, List.map_map, map_plain_expr, plain, expr.injEq]
    exact this
  case stmt.stmt a b =>
    have := Mismatch.stmts_eq_none h ha hb
    simp only [children, plain, stmt.injEq, ownValue, List.Forall₂.nil, and_true]
    exact this
  case function.function f g =>
    have := Mismatch.functions_eq_none ha hb
    simp only [plain, function.injEq, ownValue, List.Forall₂.nil, and_true]
    exact this
  case param.param p q =>
    have := @Mismatch.params_eq_none p q
    simp only [children, plain, param.injEq, ownValue, List.Forall₂.nil, and_true]
    exact this
  case directive.directive d d' =>
    have := @Mismatch.directives_eq_none d d'
    simp only [children, List.map_map, map_plain_expr, plain, directive.injEq, ownValue, List.Forall₂.nil, and_true]
    exact this
  case constant.constant c d =>
    have := @Mismatch.constants_eq_none c d
    simpa [children, plain, ownValue, Mismatch.views] using this
  case script.script s t =>
    have := @Mismatch.scripts_eq_none s t
    simp only [plain, script.injEq, ownValue, List.Forall₂.nil, and_true]
    exact this
  case expr.stmt a b | stmt.expr a b => cases a <;> cases b <;> cases h
  case expr.function a _ | expr.param a _ | expr.directive a _ | expr.constant a _ | expr.script a _ => cases a <;> cases h
  case stmt.function a _ | stmt.param a _ | stmt.directive a _ | stmt.constant a _ | stmt.script a _ => cases a <;> cases h
  case function.expr _ b | param.expr _ b | directive.expr _ b | constant.expr _ b | script.expr _ b => cases b <;> cases h
  case function.stmt _ b | param.stmt _ b | directive.stmt _ b | constant.stmt _ b | script.stmt _ b => cases b <;> cases h
  all_goals cases h

theorem children_plain (v : View) : v.plain.children = v.children.map plain := by
  have hexpr : plain ∘ expr = expr ∘ Expr.plain := rfl
  have hstmt : plain ∘ stmt = stmt ∘ Stmt.plain := rfl
  have hoption (o : Option Expr) : (o.map Expr.plain).toList = o.toList.map Expr.plain := by cases o <;> rfl
  cases v with
  | expr e => cases e <;> simp [plain, Expr.plain, children, Expr.children, hexpr, hoption]
  | stmt s =>
    cases s with
    | switch _ _ _ _ cases =>
      have hvalues : caseValues (cases.map Case.plain) = (caseValues cases).map Expr.plain := by
        show (cases.map Case.plain).flatMap Case.values = (cases.flatMap Case.values).map Expr.plain
        simp [List.flatMap_map, List.map_flatMap, Mismatch.values_plain]
      simp [plain, Stmt.plain, children, Stmt.children, hvalues, hexpr, hstmt]
    | _ => simp [plain, Stmt.plain, children, Stmt.children, hexpr, hstmt, hoption]
  | function f =>
    have hbody : f.plain.statements = f.statements.map Stmt.plain := by
      obtain ⟨_, _, _, body, _, _⟩ := f
      cases body <;> rfl
    have hparams : f.plain.params = f.params.map Param.plain := rfl
    simp [plain, children, hbody, hparams, hstmt, Function.comp_def]
  | param p => rfl
  | directive d =>
    obtain ⟨_, kind⟩ := d
    cases kind <;> simp [plain, Directive.plain, DirectiveKind.plain, children, DirectiveKind.args, hexpr]
  | constant c => rfl
  | script s =>
    have hview (d : Declaration) : d.plain.view = d.view.plain := by cases d <;> rfl
    simp [plain, Script.plain, children, Function.comp_def, hview]

theorem length_ownValue (v : View) : v.ownValue.length = v.plain.ownValue.length := by
  cases v with
  | expr e => cases e <;> rfl
  | _ => rfl

theorem length_values (v : View) : v.values.length = v.plain.values.length := by
  induction v using View.walk.induct with
  | case1 v ih =>
    rw [values_eq, values_eq, children_plain, List.length_append, List.length_append, length_ownValue, List.length_flatMap,
      List.length_flatMap, List.map_map]
    congr 2
    exact List.map_congr_left fun c hc => ih c hc

theorem compare_eq_nil_iff {a b : View} : a.compare b = [] ↔
    a.tag = b.tag ∧ Mismatch.views a b = none ∧ List.Forall₂ (fun c d => c.compare d = []) a.children b.children := by
  rw [compare_eq, difference?]
  by_cases htag : a.tag = b.tag
  · cases hm : Mismatch.views a b with
    | some message => simp [htag]
    | none =>
      by_cases hlen : a.children.length = b.children.length
      · simp [htag, hlen, List.forall₂_iff_zip, Mismatch.counts, Mismatch.reportIf]
      · simp [htag, hlen, List.forall₂_iff_zip, Mismatch.counts, Mismatch.reportIf]
  · simp [htag]

theorem length_values_of_plain {a b : View} (h : a.plain = b.plain) : a.values.length = b.values.length := by
  rw [length_values a, length_values b, h]

theorem compare_nil {a b : View} (ha : a.Everywhere Regular) (hb : b.Everywhere Regular) : a.compare b = [] ↔
    a.plain = b.plain ∧ List.Forall₂ (fun u v => Mismatch.sameFolded u v = true) a.values b.values := by
  induction a using View.walk.induct generalizing b with
  | case1 a ih =>
    obtain ⟨hra, hca⟩ := everywhere_iff.1 ha
    obtain ⟨hrb, hcb⟩ := everywhere_iff.1 hb
    have hchildren : List.Forall₂ (fun c d => c.compare d = []) a.children b.children ↔
        a.children.map plain = b.children.map plain ∧ List.Forall₂ (fun u v => Mismatch.sameFolded u v = true)
          (a.children.flatMap values) (b.children.flatMap values) := by
      rw [← forall₂_map_eq_iff, ← forall₂_flatMap_iff (f := values) fun _ _ => length_values_of_plain]
      exact forall₂_congr_mem fun c hc d hd => ih c hc (hca c hc) (hcb d hd)
    rw [compare_eq_nil_iff, hchildren]
    constructor
    · rintro ⟨htag, hm, hplain, hvalues⟩
      obtain ⟨hab, hown⟩ := (agree_iff htag hra hrb).1 ⟨hm, hplain⟩
      rw [values_eq a, values_eq b]
      exact ⟨hab, List.rel_append hown hvalues⟩
    · rintro ⟨hab, hvalues⟩
      have htag : a.tag = b.tag := by rw [← a.tag_plain, hab, b.tag_plain]
      have hplain : a.children.map plain = b.children.map plain := by rw [← children_plain, hab, children_plain]
      have hlength : a.ownValue.length = b.ownValue.length := by
        rw [length_ownValue a, length_ownValue b, hab]
      rw [values_eq a, values_eq b, forall₂_append_iff hlength] at hvalues
      exact ⟨htag, ((agree_iff htag hra hrb).2 ⟨hab, hvalues.1⟩).1, hplain, hvalues.2⟩

end View

theorem View.Placed.regular {allow : Bool} {g : Graph} (hg : g.Built allow) {above : List View} {v : View}
    (h : v.Placed allow g above) : v.Regular := by
  cases v with
  | stmt s =>
    obtain ⟨f, -, -, hs⟩ := h
    cases hs with
    | @switch _ _ _ _ _ cases hcases =>
      intro c hc
      have hsub : c.labels.Sublist (allLabels cases) := by
        simpa [allLabels] using (List.singleton_sublist.2 hc).flatMap Case.labels
      exact ⟨hcases.starts c hc, hsub.countP_le.trans hcases.oneDefault⟩
    | _ => trivial
  | function f => exact (hg f h.1).header
  | _ => trivial

theorem parse_regular {tokens : List Token} {config : ParserConfig} {g : Graph}
    (h : (parse tokens config).graph = some g) : g.view.Everywhere View.Regular := by
  intro v hv
  obtain ⟨above, hpath⟩ := View.mem_walk_iff_path.1 hv
  exact ((parse_built h).placed hpath).regular (parse_built h)

theorem compareGraphs_nil {g h : Graph} (hg : g.view.Everywhere View.Regular) (hh : h.view.Everywhere View.Regular) :
    compareGraphs g h = [] ↔
      g.plain = h.plain ∧ List.Forall₂ (fun u v => Mismatch.sameFolded u v = true) g.values h.values := by
  rw [← Graph.plain_view]
  exact View.compare_nil hg hh

/-- Two parsed graphs have no difference if and only if they are equal but for numbers, locations, the case of
names and the spelling of literals, and have the same values. -/
theorem compareGraphs_parse {tokens tokens' : List Token} {config config' : ParserConfig} {g h : Graph}
    (hg : (parse tokens config).graph = some g) (hh : (parse tokens' config').graph = some h) :
    compareGraphs g h = [] ↔
      g.plain = h.plain ∧ List.Forall₂ (fun u v => Mismatch.sameFolded u v = true) g.values h.values :=
  compareGraphs_nil (parse_regular hg) (parse_regular hh)

theorem compareGraphs_parse_sum :
    let g : Graph := .expression <| .binary ⟨2, .start⟩ .plus (.var ⟨0, .start⟩ ⟨"A", .start⟩)
      (.literal ⟨1, ⟨1, 3, 2⟩⟩ ⟨.integer, "0x1", false⟩)
    let h : Graph := .expression <| .binary ⟨2, .start⟩ .plus (.var ⟨0, .start⟩ ⟨"a", .start⟩)
      (.literal ⟨1, ⟨1, 5, 4⟩⟩ ⟨.integer, "1", false⟩)
    ((parse [⟨.identifier, "A", .start⟩, ⟨.symbol, "+", ⟨1, 2, 1⟩⟩, ⟨.number, "0x1", ⟨1, 3, 2⟩⟩]
        { target := .expression }).graph = some g ∧
      (parse [⟨.identifier, "a", .start⟩, ⟨.symbol, "+", ⟨1, 3, 2⟩⟩, ⟨.number, "1", ⟨1, 5, 4⟩⟩]
        { target := .expression }).graph = some h) ∧ compareGraphs g h = [] := by
  intro g h
  have hvalues (n : Node) (v : Ident) (l : Literal) (m k : Node) :
      (Graph.expression (.binary n .plus (.var m v) (.literal k l))).values = [l.value.toOption] := by
    simp [Graph.values, Graph.view, View.values_eq, View.children, View.ownValue, Expr.children]
  have hsame : List.Forall₂ (fun u v => Mismatch.sameFolded u v = true) g.values h.values := by
    rw [hvalues, hvalues]
    exact .cons (by decide) .nil
  refine (and_iff_left_of_imp fun hgraphs => ?_).2 ⟨rfl, rfl⟩
  exact (compareGraphs_parse hgraphs.1 hgraphs.2).2 ⟨rfl, hsame⟩

end GameScript
