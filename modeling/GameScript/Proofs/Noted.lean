import GameScript.Proofs.Pieces
import GameScript.Proofs.Recasting
import GameScript.Proofs.Segments
import GameScript.Proofs.Spelling

namespace GameScript

namespace Fold

variable {lookup : String → Option Value}

theorem text_noteRead : ∀ e : Expr, (noteRead lookup e).text = e.text
  | .group _ inner => by simp only [noteRead, Expr.text, text_noteRead inner]
  | .truple _ x y z => by
    simp only [noteRead, Expr.text, text_noteRead x, apply_ite Expr.text, text_noteRead y, text_noteRead z, ite_self]
  | .unary _ op operand => by simp only [noteRead, Expr.text, text_noteRead operand]
  | .binary _ op left right => by
    simp only [noteRead, Expr.text, text_noteRead left, apply_ite Expr.text, text_noteRead right, ite_self]
  | .literal .. | .var .. | .func .. | .index .. | .member .. | .suffix .. | .array .. | .assign ..
  | .call .. | .pointerCall .. => rfl

theorem pieces_noteRead (apart : Bool) : ∀ e : Expr, (noteRead lookup e).pieces apart = e.pieces apart
  | .group _ inner => by simp only [noteRead, Expr.pieces, pieces_noteRead false inner]
  | .truple _ x y z => by
    simp only [noteRead, Expr.pieces, pieces_noteRead false x, apply_ite (Expr.pieces true), pieces_noteRead true y,
      pieces_noteRead true z, ite_self]
  | .unary _ op operand => by simp only [noteRead, Expr.pieces, text_noteRead, pieces_noteRead _ operand]
  | .binary _ op left right => by
    simp only [noteRead, Expr.pieces, pieces_noteRead apart left, apply_ite (Expr.pieces true),
      pieces_noteRead true right, ite_self]
  | .literal .. | .var .. | .func .. | .index .. | .member .. | .suffix .. | .array .. | .assign ..
  | .call .. | .pointerCall .. => rfl

end Fold

def Constants.Extends (cs' cs : Constants) : Prop :=
  ∀ name, ∀ v ∈ cs.lookup? name, cs'.lookup? name = some v

namespace Constants.Extends

theorem refl (cs : Constants) : cs.Extends cs :=
  fun _ _ h => h

theorem trans {cs cs' cs'' : Constants} (h' : cs''.Extends cs') (h : cs'.Extends cs) : cs''.Extends cs :=
  fun name v hv => h' name v (h name v hv)

theorem cons {cs : Constants} {name : String} (v : Value) (h : ∀ c ∈ cs, c.1 ≠ lowerWord name) :
    Constants.Extends ((lowerWord name, v) :: cs) cs := by
  intro other w hw
  simp only [Constants.lookup?, Option.mem_def, Option.map_eq_some_iff] at hw ⊢
  obtain ⟨c, hc, rfl⟩ := hw
  refine ⟨c, ?_, rfl⟩
  rw [List.find?_cons_of_neg, hc]
  have hname : c.1 = lowerWord other := by simpa using List.find?_some hc
  have := h c (List.mem_of_find?_eq_some hc)
  simpa [← hname] using this.symm

end Constants.Extends

namespace Fold

variable {lookup lookup' : String → Option Value}

theorem knows_verbatim (hmore : ∀ name, ∀ v ∈ lookup name, lookup' name = some v) :
    (Guise.verbatim id).Knows False lookup lookup' :=
  ⟨hmore, False.elim⟩

theorem evaluate_extends (hmore : ∀ name, ∀ v ∈ lookup name, lookup' name = some v) {e : Expr} {v : Value}
    (h : evaluate lookup e = .ok v) : evaluate lookup' e = .ok v := by
  -- By induction on the expression, of two evaluations that may even read other words.
  have hfollows := Guise.evaluate_expr (knows_verbatim hmore) e
  rw [Guise.expr_verbatim] at hfollows
  exact hfollows.ok v h

theorem noteRead_extends (hmore : ∀ name, ∀ v ∈ lookup name, lookup' name = some v) {e : Expr} {v : Value}
    (h : evaluate lookup e = .ok v) : noteRead lookup' e = noteRead lookup e := by
  have hnotes := Guise.noteRead_expr (knows_verbatim hmore) e (.inr ⟨v, h⟩)
  rwa [Guise.expr_verbatim, Guise.expr_verbatim] at hnotes

end Fold

theorem Spells.noteRead {mode : GameMode} {e : Expr} {ts : List Token} (lookup : String → Option Value)
    (h : Spells mode e ts) : Spells mode (Fold.noteRead lookup e) ts := by
  induction h with
  | literal ht => exact .literal ht
  | group hl hp _ hq ih => exact .group hl hp ih hq
  | unary hl hf ho _ ih => exact .unary hl hf ho ih
  | binary hl hleft hf ho hright ihl ihr =>
    refine .binary hl ihl hf ho ?_
    split
    · exact ihr
    · exact hright
  | truple hl hp hx hc hy hc' hz hq ihx ihy ihz =>
    refine .truple hl hp ihx hc ?_ hc' ?_ hq
    · split
      · exact ihy
      · exact hy
    · split
      · exact ihz
      · exact hz
  | var ht => exact .var ht
  | func hl hq ht => exact .func hl hq ht
  | index hl ht hb hi hc => exact .index hl ht hb hi hc
  | member hl hs hp ht => exact .member hl hs hp ht
  | suffix hl ht hf ho => exact .suffix hl ht hf ho
  | array hl hb hi ht hc => exact .array hl hb hi ht hc
  | assign hl ht hf ho hv => exact .assign hl ht hf ho hv
  | call hl hn hr hm ht hp ha hu hq => exact .call hl hn hr hm ht hp ha hu hq
  | pointerCall hl hn hr hm hb ht hc hp ha hu hq => exact .pointerCall hl hn hr hm hb ht hc hp ha hu hq

end GameScript
