import GameScript.Proofs.Agreement
import GameScript.Proofs.Composed
import GameScript.Proofs.Doubles
import GameScript.Proofs.Literals

namespace GameScript

inductive FoldError.Alike : FoldError → FoldError → Prop
  | notConstant (text text' : String) : Alike (.notConstant text) (.notConstant text')
  | unknownConstant {name name' : String} (h : sameWord name name' = true) :
      Alike (.unknownConstant name) (.unknownConstant name')
  | same (e : FoldError) : Alike e e

namespace Fold

inductive Alike {α : Type} : Except FoldError α → Except FoldError α → Prop
  | value (a : α) : Alike (.ok a) (.ok a)
  | error {e e' : FoldError} (h : e.Alike e') : Alike (.error e) (.error e')

namespace Alike

variable {α β : Type}

theorem refl : ∀ x : Except FoldError α, Alike x x
  | .ok a => .value a
  | .error e => .error (.same e)

theorem bind {x x' : Except FoldError α} {f f' : α → Except FoldError β} (hx : Alike x x')
    (hf : ∀ a, Alike (f a) (f' a)) : Alike (x.bind f) (x'.bind f') := by
  cases hx with
  | value a => exact hf a
  | error h => exact .error h

end Alike

end Fold

def Literal.IsUnsigned (l : Literal) : Prop :=
  l.kind = .float → l.raw.toList.head? ≠ some '-'

namespace Value

/-- Equality tells values of literals apart, if there are no minus signs. -/
def IsUnsigned : Value → Prop
  | float x => x ≠ -0
  | vector .. => False
  | _ => True

theorem eq_of_same {u v : Value} (h : u.same v = true) (hu : u.IsUnsigned) (hv : v.IsUnsigned) : u = v := by
  cases u <;> cases v <;> simp only [same, Bool.false_eq_true] at h
  case float.float x y => rw [Decimal.float_eq_of_beq h hu hv]
  case vector.vector => exact hu.elim
  case undefined.undefined => rfl
  all_goals simpa using h

end Value

theorem Literal.IsUnsigned.value {l : Literal} {v : Value} (hl : l.IsUnsigned) (h : l.value = .ok v) :
    v.IsUnsigned := by
  obtain ⟨kind, raw, folded⟩ := l
  have hmap {α : Type} {x : Except LiteralError α} {f : α → Value} (hx : x.map f = .ok v) (hf : ∀ a, (f a).IsUnsigned) :
      v.IsUnsigned := by
    cases x <;> cases hx
    exact hf _
  simp only [Literal.value, Value.decode] at h
  cases kind with
  | integer =>
    simp only [Value.decodeInteger] at h
    split at h <;> cases h
    trivial
  | float =>
    simp only at h
    split at h <;> cases h
    next hx => exact Decimal.readFloat?_ne_negZero (hl rfl) hx
  | string => exact hmap h fun _ => trivial
  | localized =>
    simp only at h
    split at h
    · exact hmap h fun _ => trivial
    · cases h
  | resource =>
    simp only at h
    split at h <;> cases h
    trivial
  | bool =>
    simp only at h
    split at h
    · cases h
      trivial
    · split at h <;> cases h
      trivial
  | undefined =>
    cases h
    trivial

theorem Literal.value_eq {a b : Literal} (h : Mismatch.literals a b = none) (ha : a.IsUnsigned) (hb : b.IsUnsigned) :
    a.value = b.value := by
  unfold Mismatch.literals at h
  split at h
  · cases h
  · next hkind =>
    have hkind : a.kind = b.kind := not_not.1 hkind
    have hsame : Mismatch.sameLiteral a b = true := by simpa using h
    unfold Mismatch.sameLiteral at hsame
    split at hsame
    · next u v hu hv => rw [hu, hv, Value.eq_of_same hsame (ha.value hu) (hb.value hv)]
    · rw [Literal.value, Literal.value, hkind, beq_iff_eq.1 hsame]

namespace Fold

variable {lookup : String → Option Value}

theorem evaluate_alike (hlookup : ∀ a b, sameWord a b = true → lookup a = lookup b) {e e' : Expr}
    (h : (View.expr e).compare (View.expr e') = []) (he : e.Literals Literal.IsUnsigned)
    (he' : e'.Literals Literal.IsUnsigned) : Alike (evaluate lookup e) (evaluate lookup e') := by
  obtain ⟨htag, hviews, hchildren⟩ := View.compare_eq_nil_iff.1 h
  obtain ⟨hl, hc⟩ := Expr.literals_iff.1 he
  obtain ⟨hl', hc'⟩ := Expr.literals_iff.1 he'
  have hparts : List.Forall₂ (fun c c' => Alike (evaluate lookup c) (evaluate lookup c')) e.children e'.children := by
    simp only [View.children, List.forall₂_map_left_iff, List.forall₂_map_right_iff] at hchildren
    obtain ⟨hlength, hpairs⟩ := List.forall₂_iff_zip.1 hchildren
    refine List.forall₂_iff_zip.2 ⟨hlength, fun {c c'} hmem => ?_⟩
    obtain ⟨hm, hm'⟩ := List.of_mem_zip hmem
    exact evaluate_alike hlookup (hpairs hmem) (hc c hm) (hc' c' hm')
  cases e <;> cases e' <;> cases htag
  case literal.literal =>
    simp only [evaluate]
    rw [Literal.value_eq hviews (hl _ _ rfl) (hl' _ _ rfl)]
    exact .refl _
  case var.var _ name _ name' =>
    have hsame : sameWord name.name name'.name = true := by
      simpa [Mismatch.views, Mismatch.exprs, Mismatch.names, Ident.same] using hviews
    simp only [evaluate, ← hlookup _ _ hsame]
    split
    · exact .value _
    · exact .error (.unknownConstant hsame)
  case group.group => simpa [Expr.children, evaluate] using hparts
  case unary.unary _ op _ _ op' _ =>
    obtain rfl : op = op' := by simpa [Mismatch.views, Mismatch.exprs] using hviews
    simp only [Expr.children, List.forall₂_cons, List.Forall₂.nil, and_true] at hparts
    exact hparts.bind fun _ => .refl _
  case truple.truple =>
    simp only [Expr.children, List.forall₂_cons, List.Forall₂.nil, and_true] at hparts
    obtain ⟨hx, hy, hz⟩ := hparts
    have hcomponent {x x' : Result} (h : Alike x x') : Alike (x.bind component) (x'.bind component) :=
      h.bind fun _ => .refl _
    exact (hcomponent hx).bind fun _ => (hcomponent hy).bind fun _ => (hcomponent hz).bind fun _ => .refl _
  case binary.binary _ op _ _ _ op' _ _ =>
    obtain rfl : op = op' := by simpa [Mismatch.views, Mismatch.exprs] using hviews
    simp only [Expr.children, List.forall₂_cons, List.Forall₂.nil, and_true] at hparts
    obtain ⟨hleft, hright⟩ := hparts
    have hcondition {x x' : Result} (h : Alike x x') : Alike (x.bind (condition op)) (x'.bind (condition op)) :=
      h.bind fun _ => .refl _
    simp only [evaluate]
    split
    · refine (hcondition hleft).bind fun l => ?_
      split
      · exact .value _
      · exact (hcondition hright).bind fun _ => .refl _
    · exact hleft.bind fun _ => hright.bind fun _ => .refl _
  all_goals exact .error (.notConstant _ _)
termination_by sizeOf e
decreasing_by exact View.sizeOf_expr_child hm

end Fold

theorem Token.Lexed.not_minus {d : Dialect} {t : Token} (h : t.Lexed d) (hk : t.kind = .number) :
    t.text.toList.head? ≠ some '-' := by
  obtain ⟨c, cs, rest, htext, hs⟩ := h.readable (by simp [hk])
  rw [htext]
  rintro ⟨⟩
  have hsymbol : Scan.head d false '-' (cs ++ rest) = .token .symbol ['-'] (cs ++ rest) :=
    Scan.head_symbol (by decide) (by simp [Scan.Stops])
  rw [hsymbol, hk] at hs
  cases hs

theorem Token.kind_of_float {t : Token} {mode : GameMode} (h : t.literalKind? mode = some .float) :
    t.kind = .number := by
  unfold literalKind? at h
  split at h
  · split at h <;> cases h
  · assumption
  all_goals cases h

/-- The expression is part of what is parsed of a text. -/
def Expr.IsParsed (e : Expr) : Prop :=
  ∃ source config o g, parseSource source config = .ok o ∧ o.graph = some g ∧ View.expr e ∈ g.view.walk

theorem Expr.IsParsed.unsigned {e : Expr} (h : e.IsParsed) : e.Literals Literal.IsUnsigned := by
  obtain ⟨source, config, o, g, hparse, hg, he⟩ := h
  obtain ⟨tokens, hl, rfl⟩ := parseSource_ok hparse
  refine (parse_literals hg he).mono fun l hl hfloat => ?_
  obtain hu | ⟨t, ht, hkind, htext⟩ := hl
  · simp [hu] at hfloat
  · rw [hfloat] at hkind
    have hnumber := Token.kind_of_float hkind
    rw [← htext]
    obtain ⟨ts, loc, rfl, hlexed⟩ := lexed_of_lex hl
    obtain ht | ht := List.mem_append.1 ht
    · exact (hlexed t ht).not_minus hnumber
    · obtain rfl := List.mem_singleton.1 ht
      cases hnumber

/-- Expressions of parsed texts that are compared without a difference fold alike, whatever constants are known. -/
theorem folds_alike {e e' : Expr} (he : e.IsParsed) (he' : e'.IsParsed)
    (h : compareGraphs (.expression e) (.expression e') = []) (cs : Constants) :
    Fold.Alike (Fold.evaluate cs.lookup? e) (Fold.evaluate cs.lookup? e') := by
  refine Fold.evaluate_alike (fun a b hab => ?_) h he.unsigned he'.unsigned
  simp only [Constants.lookup?, (sameWord_iff a b).1 hab]

theorem folds_alike_spelled :
    let e : Expr := .binary ⟨2, .start⟩ .lt (.literal ⟨0, .start⟩ ⟨.float, "1.50", false⟩)
      (.var ⟨1, ⟨1, 8, 7⟩⟩ ⟨"X", ⟨1, 8, 7⟩⟩)
    let e' : Expr := .binary ⟨2, .start⟩ .lt (.literal ⟨0, .start⟩ ⟨.float, "1.5", false⟩)
      (.var ⟨1, ⟨1, 5, 4⟩⟩ ⟨"x", ⟨1, 5, 4⟩⟩)
    (e.IsParsed ∧ e'.IsParsed ∧ compareGraphs (.expression e) (.expression e') = []) ∧
      Fold.Alike (Fold.evaluate (Constants.lookup? [("x", .int 2)]) e)
        (Fold.evaluate (Constants.lookup? [("x", .int 2)]) e') := by
  intro e e'
  have hparsed (source : String) (tokens : List Token) {e : Expr} (hl : lex source {} = .ok tokens)
      (hg : (parse tokens { target := .expression }).graph = some (.expression e)) : e.IsParsed := by
    refine ⟨source, { target := .expression }, _, _, congrArg (Except.map _) hl, hg, ?_⟩
    rw [Graph.view, View.walk_eq]
    exact List.mem_cons_self
  have he : e.IsParsed :=
    hparsed "1.50 < X" [⟨.number, "1.50", .start⟩, ⟨.whitespace, " ", ⟨1, 5, 4⟩⟩,
      ⟨.symbol, "<", ⟨1, 6, 5⟩⟩, ⟨.whitespace, " ", ⟨1, 7, 6⟩⟩, ⟨.identifier, "X", ⟨1, 8, 7⟩⟩,
      Token.endAt ⟨1, 9, 8⟩] (by decide +kernel) rfl
  have he' : e'.IsParsed :=
    hparsed "1.5<x" [⟨.number, "1.5", .start⟩, ⟨.symbol, "<", ⟨1, 4, 3⟩⟩,
      ⟨.identifier, "x", ⟨1, 5, 4⟩⟩, Token.endAt ⟨1, 6, 5⟩] (by decide +kernel) rfl
  have h : compareGraphs (.expression e) (.expression e') = [] := by
    refine View.compare_eq_nil_iff.2 ⟨rfl, rfl, .cons ?_ (.cons ?_ .nil)⟩
    · exact View.compare_eq_nil_iff.2 ⟨rfl, by decide +kernel, .nil⟩
    · exact View.compare_eq_nil_iff.2 ⟨rfl, by decide +kernel, .nil⟩
  exact ⟨⟨he, he', h⟩, folds_alike he he' h _⟩

end GameScript
