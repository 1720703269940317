import GameScript.Proofs.Everywhere
import GameScript.Proofs.Segments
import Mathlib.Data.List.Flatten
import Mathlib.Data.List.Perm.Basic

/-!
Trees in source order. The parts of a node follow each other in the source, and the node begins with the first one or
in front of it. The children of a node are its parts, but those of a switch come with all labels first; so they are in
source order unless a value of the switch stands behind one of its statements.
-/

namespace GameScript

def Case.views (statements : List Stmt) (c : Case) : List View :=
  (c.labels.filterMap CaseLabel.expr?).map .expr ++ (Stmt.segment statements c).map .stmt

namespace View

/-- The parts of a node in source order. In a switch, labels and statements alternate. -/
def parts : View → List View
  | stmt (.switch _ subject _ statements cases) => .expr subject :: cases.flatMap (Case.views statements)
  | v => v.children

/-- A value of the switch stands behind a statement. -/
def hasLateLabel : View → Bool
  | stmt (.switch _ _ _ _ cases) =>
    cases.any fun c => decide (0 < c.first) && !(c.labels.filterMap CaseLabel.expr?).isEmpty
  | _ => false

def IsCut : View → Prop
  | stmt (.switch _ _ _ statements cases) => ∃ allow cs, Segmented allow cs statements cases
  | _ => True

def Before (stop : Nat) (v : View) : Prop :=
  ∀ u ∈ v.walk, u.loc.offset < stop

def Precedes (v w : View) : Prop :=
  v.Before w.loc.offset

structure Ordered (v : View) : Prop where
  cut : v.IsCut
  start : ∀ c ∈ v.parts, v.loc.offset ≤ c.loc.offset
  rising : v.parts.Pairwise Precedes

abbrev Sequenced : View → Prop :=
  Everywhere Ordered

theorem mem_walk_self (v : View) : v ∈ v.walk := by
  rw [walk_eq]
  exact List.mem_cons_self

theorem Before.mono {stop stop' : Nat} {v : View} (h : v.Before stop) (hle : stop ≤ stop') : v.Before stop' :=
  fun u hu => Nat.lt_of_lt_of_le (h u hu) hle

theorem Precedes.lt {v w : View} (h : v.Precedes w) : v.loc.offset < w.loc.offset :=
  h v v.mem_walk_self

theorem before_iff {stop : Nat} {v : View} :
    v.Before stop ↔ v.loc.offset < stop ∧ ∀ c ∈ v.children, c.Before stop :=
  everywhere_iff

theorem perm_caseViews {allow : Bool} {cs : Constants} {statements : List Stmt} {cases : List Case}
    (h : Segmented allow cs statements cases) :
    (cases.flatMap (Case.views statements)).Perm ((caseValues cases).map .expr ++ statements.map .stmt) := by
  have hsplit : (cases.flatMap (Case.views statements)).Perm
      (cases.flatMap (fun c => (c.labels.filterMap CaseLabel.expr?).map View.expr) ++
        cases.flatMap fun c => (Stmt.segment statements c).map View.stmt) :=
    (List.flatMap_append_perm cases _ _).symm
  simpa only [← List.map_flatMap, h.partition, caseValues] using hsplit

theorem perm_parts {v : View} (h : v.IsCut) : v.parts.Perm v.children := by
  unfold parts
  split
  · obtain ⟨allow, cs, h⟩ := h
    exact (perm_caseViews h).cons _
  · exact .refl _

theorem sequenced_iff {v : View} : v.Sequenced ↔ v.Ordered ∧ ∀ c ∈ v.parts, c.Sequenced := by
  rw [Sequenced, everywhere_iff]
  refine and_congr_right fun hv => ?_
  simp only [(perm_parts hv.cut).mem_iff]

theorem sequenced_leaf {v : View} (hc : v.IsCut) (hp : v.parts = []) : v.Sequenced :=
  sequenced_iff.2 ⟨⟨hc, by simp [hp], by simp [hp]⟩, by simp [hp]⟩

end View

namespace View

theorem parts_eq_children {v : View} (h : v.IsCut) (hl : v.hasLateLabel = false) : v.parts = v.children := by
  unfold parts
  split
  · next node subject body statements cases =>
    obtain ⟨allow, cs, h⟩ := h
    have hcases : cases.flatMap (Case.views statements) = (caseValues cases).map .expr ++ statements.map .stmt := by
      cases cases with
      | nil => simp [caseValues, h.empty rfl]
      | cons c rest =>
        have hc : c.first = 0 := h.first c rfl
        have hvalues : ∀ d ∈ rest, d.labels.filterMap CaseLabel.expr? = [] := by
          intro d hd
          have hlt : c.first < d.first := (List.pairwise_cons.1 h.first_increasing).1 d hd
          have hnot := List.any_eq_false.1 hl d (List.mem_cons_of_mem _ hd)
          rw [hc] at hlt
          simpa [hlt] using hnot
        have hviews : rest.flatMap (Case.views statements) = (rest.flatMap (Stmt.segment statements)).map .stmt := by
          rw [List.map_flatMap]
          exact List.flatMap_congr fun d hd => by simp [Case.views, hvalues d hd]
        have hrest : caseValues rest = [] := by simpa [caseValues] using hvalues
        have hall : Stmt.segment statements c ++ rest.flatMap (Stmt.segment statements) = statements := h.partition
        have hfirst : caseValues (c :: rest) = c.labels.filterMap CaseLabel.expr? := by
          simpa [caseValues] using hrest
        rw [List.flatMap_cons, hviews, hfirst, Case.views, List.append_assoc, ← List.map_append, hall]
    rw [hcases]
    rfl
  · rfl

theorem Ordered.late {v : View} (h : v.Ordered) (hl : v.hasLateLabel = true) :
    ∃ e s, [e, s].Sublist v.children ∧ s.loc.offset < e.loc.offset := by
  unfold hasLateLabel at hl
  split at hl
  · next node subject body statements cases =>
    obtain ⟨allow, cs, hcut⟩ := h.cut
    obtain ⟨c, hc, hlate⟩ := List.any_eq_true.1 hl
    obtain ⟨hfirst, e, he⟩ : 0 < c.first ∧ ∃ e, e ∈ c.labels.filterMap CaseLabel.expr? := by
      simpa [List.isEmpty_iff, List.eq_nil_iff_forall_not_mem] using hlate
    cases cases with
    | nil => cases hc
    | cons d rest =>
      have hd : d.first = 0 := hcut.first d rfl
      obtain rfl | hc := List.mem_cons.1 hc
      · omega
      cases rest with
      | nil => cases hc
      | cons d' rest =>
        have hlt : d.first < d'.first := (List.pairwise_cons.1 hcut.first_increasing).1 d' List.mem_cons_self
        have hstop : d.stop = d'.first := (List.isChain_cons_cons.1 hcut.adjacent).1
        have hwithin := hcut.within d List.mem_cons_self
        obtain ⟨s, hs⟩ : ∃ s, s ∈ Stmt.segment statements d := by
          refine List.exists_mem_of_length_pos ?_
          simp [Stmt.segment]
          omega
        have hrising := (List.pairwise_cons.1 h.rising).2
        rw [List.flatMap_cons, List.pairwise_append] at hrising
        have hin : View.expr e ∈ (d' :: rest).flatMap (Case.views statements) :=
          List.mem_flatMap.2 ⟨c, hc, by simp [Case.views, List.mem_filterMap.1 he]⟩
        have hbefore : View.Precedes (.stmt s) (.expr e) := hrising.2.2 _ (by simp [Case.views, hs]) _ hin
        have hvalue : e ∈ caseValues (d :: d' :: rest) := List.mem_flatMap.2 ⟨c, List.mem_cons_of_mem _ hc, he⟩
        have hstatement : s ∈ statements := List.mem_of_mem_take (List.mem_of_mem_drop hs)
        refine ⟨.expr e, .stmt s, ?_, hbefore.lt⟩
        refine ((List.singleton_sublist.2 (List.mem_map_of_mem hvalue)).append
          (List.singleton_sublist.2 (List.mem_map_of_mem hstatement))).cons _
  · cases hl

theorem Ordered.children_rising_iff {v : View} (h : v.Ordered) :
    (v.children.Pairwise fun c d => c.loc.offset < d.loc.offset) ↔ v.hasLateLabel = false := by
  constructor
  · intro hc
    by_contra hl
    obtain ⟨e, s, hsub, hlt⟩ := h.late (by simpa using hl)
    have := hc.sublist hsub
    simp at this
    omega
  · intro hl
    rw [← parts_eq_children h.cut hl]
    exact h.rising.imp Precedes.lt

theorem Sequenced.start_le {v : View} (h : v.Sequenced) : ∀ u ∈ v.walk, v.loc.offset ≤ u.loc.offset := by
  induction v using View.walk.induct with
  | case1 v ih =>
    obtain ⟨hv, hparts⟩ := sequenced_iff.1 h
    intro u hu
    rw [walk_eq, List.mem_cons, List.mem_flatMap] at hu
    obtain rfl | ⟨c, hc, hu⟩ := hu
    · exact Nat.le_refl _
    · have hp : c ∈ v.parts := (perm_parts hv.cut).mem_iff.2 hc
      exact Nat.le_trans (hv.start c hp) (ih c hc (hparts c hp) u hu)

theorem children_sublist_walk (v : View) : v.children.Sublist v.walk := by
  have hroots : ∀ vs : List View, vs.Sublist (vs.flatMap walk) := by
    intro vs
    induction vs with
    | nil => exact .slnil
    | cons v vs ih =>
      rw [List.flatMap_cons, walk_eq, List.cons_append]
      exact (ih.trans (List.sublist_append_right _ _)).cons_cons v
  rw [walk_eq]
  exact (hroots _).cons v

theorem walk_sublist_walk {u v : View} (h : u ∈ v.walk) : u.walk.Sublist v.walk := by
  induction v using View.walk.induct with
  | case1 v ih =>
    rw [walk_eq, List.mem_cons, List.mem_flatMap] at h
    obtain rfl | ⟨c, hc, hu⟩ := h
    · exact .refl _
    · have hone : c.walk.Sublist (v.children.flatMap walk) := by
        simpa using (List.singleton_sublist.2 hc).flatMap walk
      rw [walk_eq v]
      exact ((ih c hc hu).trans hone).cons v

theorem Sequenced.of_mem {u v : View} (h : v.Sequenced) (hu : u ∈ v.walk) : u.Sequenced :=
  fun w hw => h w ((walk_sublist_walk hu).subset hw)

theorem Sequenced.walk_rising_iff {v : View} (h : v.Sequenced) :
    (v.walk.Pairwise fun c d => c.loc.offset ≤ d.loc.offset) ↔ ∀ u ∈ v.walk, u.hasLateLabel = false := by
  constructor
  · intro hw u hu
    by_contra hl
    obtain ⟨e, s, hsub, hlt⟩ := (h u hu).late (by simpa using hl)
    have := hw.sublist (hsub.trans (u.children_sublist_walk.trans (walk_sublist_walk hu)))
    simp at this
    omega
  · intro hl
    induction v using View.walk.induct with
    | case1 v ih =>
      have hstart := h.start_le
      rw [walk_eq] at hl hstart ⊢
      obtain ⟨hv, hparts⟩ := sequenced_iff.1 h
      obtain ⟨hlv, hlc⟩ := List.forall_mem_cons.1 hl
      rw [parts_eq_children hv.cut hlv] at hparts
      have hrising := hv.rising
      rw [parts_eq_children hv.cut hlv] at hrising
      refine List.pairwise_cons.2 ⟨fun u hu => hstart u (List.mem_cons_of_mem _ hu), List.pairwise_flatMap.2 ⟨?_, ?_⟩⟩
      · exact fun c hc => ih c hc (hparts c hc) fun u hu => hlc u (List.mem_flatMap.2 ⟨c, hc, hu⟩)
      · refine hrising.imp_of_mem fun {c d} _ hd hcd => ?_
        exact fun x hx y hy => Nat.le_trans (Nat.le_of_lt (hcd x hx)) ((hparts d hd).start_le y hy)

end View

namespace View

structure Replaces (v' v : View) : Prop where
  loc : v'.loc = v.loc
  before : ∀ stop, v.Before stop → v'.Before stop
  sequenced : v.Sequenced → v'.Sequenced

theorem Replaces.refl (v : View) : v.Replaces v :=
  ⟨rfl, fun _ => id, id⟩

theorem Replaces.forall_mem {vs ws : List View} {P Q : View → Prop} (h : List.Forall₂ Replaces ws vs)
    (hv : ∀ v ∈ vs, P v) (hPQ : ∀ w v, w.Replaces v → P v → Q w) : ∀ w ∈ ws, Q w := by
  induction h with
  | nil => simp
  | cons hw _ ih =>
    obtain ⟨hv, hvs⟩ := List.forall_mem_cons.1 hv
    exact List.forall_mem_cons.2 ⟨hPQ _ _ hw hv, ih hvs⟩

theorem Replaces.rising {vs ws : List View} (h : List.Forall₂ Replaces ws vs) (hv : vs.Pairwise Precedes) :
    ws.Pairwise Precedes := by
  induction h with
  | nil => exact .nil
  | cons hw hrest ih =>
    obtain ⟨hbefore, hv⟩ := List.pairwise_cons.1 hv
    refine List.pairwise_cons.2 ⟨forall_mem hrest hbefore fun w' v' hr hp => ?_, ih hv⟩
    rw [Precedes, hr.loc]
    exact hw.before _ hp

end View

open View

theorem Expr.replaces_of_children {e' e : Expr} (hl : e'.loc = e.loc)
    (hc : List.Forall₂ Replaces (e'.children.map .expr) (e.children.map .expr)) :
    (View.expr e').Replaces (.expr e) := by
  refine ⟨hl, fun stop h => ?_, fun h => ?_⟩
  · obtain ⟨hlt, h⟩ := before_iff.1 h
    refine before_iff.2 ⟨?_, Replaces.forall_mem hc h fun w v hr => hr.before stop⟩
    rwa [View.loc, hl]
  · obtain ⟨⟨hcut, hstart, hrising⟩, h⟩ := sequenced_iff.1 h
    refine sequenced_iff.2 ⟨⟨trivial, Replaces.forall_mem hc hstart fun w v hr hle => ?_, Replaces.rising hc hrising⟩,
      Replaces.forall_mem hc h fun w v hr => hr.sequenced⟩
    rw [hr.loc]
    rwa [View.loc, hl]

theorem Fold.noteRead_replaces (lookup : String → Option Value) :
    ∀ e : Expr, (View.expr (noteRead lookup e)).Replaces (.expr e)
  | .group n inner => Expr.replaces_of_children rfl (.cons (noteRead_replaces lookup inner) .nil)
  | .truple n x y z => by
    have hif (read : Prop) [Decidable read] {c : Expr} (h : (View.expr (noteRead lookup c)).Replaces (.expr c)) :
        (View.expr (if read then noteRead lookup c else c)).Replaces (.expr c) := by
      split
      · exact h
      · exact .refl _
    exact Expr.replaces_of_children rfl (.cons (noteRead_replaces lookup x)
      (.cons (hif _ (noteRead_replaces lookup y)) (.cons (hif _ (noteRead_replaces lookup z)) .nil)))
  | .unary n op operand => Expr.replaces_of_children rfl (.cons (noteRead_replaces lookup operand) .nil)
  | .binary n op left right => by
    have hright : (View.expr (if reachesRight lookup op left then noteRead lookup right else right)).Replaces
        (.expr right) := by
      split
      · exact noteRead_replaces lookup right
      · exact .refl _
    exact Expr.replaces_of_children rfl (.cons (noteRead_replaces lookup left) (.cons hright .nil))
  | .literal n l => Expr.replaces_of_children rfl .nil
  | .var .. | .func .. | .index .. | .member .. | .suffix .. | .array .. | .assign .. | .call ..
  | .pointerCall .. => .refl _

end GameScript
