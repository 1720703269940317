import GameScript.Tree.View

namespace GameScript

namespace View

def Everywhere (V : View → Prop) (v : View) : Prop :=
  ∀ u ∈ v.walk, V u

theorem everywhere_iff {V : View → Prop} {v : View} :
    v.Everywhere V ↔ V v ∧ ∀ c ∈ v.children, c.Everywhere V := by
  unfold Everywhere
  rw [walk_eq]
  simp only [List.mem_cons, List.mem_flatMap, forall_eq_or_imp, forall_exists_index, and_imp]
  exact and_congr_right fun _ => ⟨fun h c hc u hu => h u c hc hu, fun h u c hc hu => h c hc u hu⟩

theorem everywhere_expr {V : View → Prop} {e : Expr} :
    (View.expr e).Everywhere V ↔ V (.expr e) ∧ ∀ c ∈ e.children, (View.expr c).Everywhere V := by
  rw [everywhere_iff]
  simp [children]

theorem everywhere_stmt {V : View → Prop} {s : Stmt} :
    (View.stmt s).Everywhere V ↔ V (.stmt s) ∧ ∀ c ∈ s.children, c.Everywhere V :=
  everywhere_iff

theorem everywhere_of_expr {V : View → Prop} (h : ∀ e, V (.expr e)) (e : Expr) : (View.expr e).Everywhere V := by
  suffices hw : ∀ v : View, ∀ e, v = .expr e → v.Everywhere V from hw _ e rfl
  intro v
  induction v using View.walk.induct with
  | case1 v ih =>
    rintro e rfl
    rw [everywhere_iff]
    refine ⟨h e, fun c hc => ?_⟩
    obtain ⟨e', -, he'⟩ := List.mem_map.1 hc
    exact ih c hc e' he'.symm

end View

end GameScript
