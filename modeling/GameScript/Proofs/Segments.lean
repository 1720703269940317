import GameScript.Fold.Evaluate
import GameScript.Parser.SwitchLabels
import Mathlib.Data.List.Chain

namespace GameScript

/-- What a label is compared with, if its expression is constant. -/
def CaseLabel.folded? (cs : Constants) : CaseLabel → Option Value
  | value e => (Fold.evaluate cs.lookup? e).toOption
  | default _ => none

def allLabels (cases : List Case) : List CaseLabel :=
  cases.flatMap Case.labels

/-- The cases partition the statements, and the labels are distinct. -/
structure Segmented (allowDefaultWithCase : Bool) (cs : Constants) (statements : List Stmt)
    (cases : List Case) : Prop where
  increasing : cases.Pairwise fun c d => c.offset < d.offset
  starts : ∀ c ∈ cases, c.first = c.offset
  within : ∀ c ∈ cases, c.first ≤ c.stop ∧ c.stop ≤ statements.length
  adjacent : cases.IsChain fun c d => c.stop = d.first
  first : ∀ c ∈ cases.head?, c.first = 0
  last : ∀ c ∈ cases.getLast?, c.stop = statements.length
  partition : cases.flatMap (Stmt.segment statements) = statements
  empty : cases = [] → statements = []
  labelled : ∀ c ∈ cases, c.labels ≠ []
  oneDefault : (allLabels cases).countP CaseLabel.isDefault ≤ 1
  distinct : ((allLabels cases).filterMap (CaseLabel.folded? cs)).Pairwise fun u v => u.same v = false
  unmixed : allowDefaultWithCase = false → ∀ c ∈ cases, c.isDefault = true → c.labels.any isCaseValue = false

structure SwitchLabels.Orderly (allowDefaultWithCase : Bool) (cs : Constants) (count : Nat)
    (labels : SwitchLabels) : Prop where
  falling : labels.groups.Pairwise fun c d => d.offset < c.offset
  within : ∀ c ∈ labels.groups, c.offset ≤ count
  bottom : ∀ c ∈ labels.groups.getLast?, c.offset = 0
  empty : labels.groups = [] → count = 0
  labelled : ∀ c ∈ labels.groups, c.labels ≠ []
  defaults : (allLabels labels.groups.reverse).countP CaseLabel.isDefault = labels.hasDefault.toNat
  values : labels.values = (allLabels labels.groups.reverse).filterMap (CaseLabel.folded? cs)
  distinct : labels.values.Pairwise fun u v => u.same v = false
  unmixed : allowDefaultWithCase = false →
    ∀ c ∈ labels.groups, c.isDefault = true → c.labels.any isCaseValue = false

namespace Fold

theorem evaluate_noteRead (lookup : String → Option Value) :
    ∀ e : Expr, evaluate lookup (noteRead lookup e) = evaluate lookup e
  | .group _ inner => by simp only [noteRead, evaluate, evaluate_noteRead lookup inner]
  | .truple _ x y z => by
    simp only [noteRead, evaluate, apply_ite (evaluate lookup), evaluate_noteRead lookup x,
      evaluate_noteRead lookup y, evaluate_noteRead lookup z, ite_self]
  | .unary _ op operand => by simp only [noteRead, evaluate, evaluate_noteRead lookup operand]
  | .binary _ op left right => by
    simp only [noteRead, evaluate, apply_ite (evaluate lookup), evaluate_noteRead lookup left,
      evaluate_noteRead lookup right, ite_self]
  | .literal .. | .var .. | .func .. | .index .. | .member .. | .suffix .. | .array .. | .assign ..
  | .call .. | .pointerCall .. => rfl

end Fold

@[simp] theorem allLabels_append (cs ds : List Case) : allLabels (cs ++ ds) = allLabels cs ++ allLabels ds := by
  simp [allLabels]

@[simp] theorem allLabels_singleton (c : Case) : allLabels [c] = c.labels :=
  List.flatMap_singleton _ _

theorem allLabels_closeGroups (stop : Nat) (groups : List Case) :
    allLabels (closeGroups stop groups) = allLabels groups.reverse := by
  induction groups generalizing stop with
  | nil => rfl
  | cons c earlier ih => simp only [closeGroups, allLabels_append, ih, List.reverse_cons, allLabels_singleton]

theorem mem_closeGroups {stop : Nat} {groups : List Case} {c : Case} (h : c ∈ closeGroups stop groups) :
    ∃ d ∈ groups, c.offset = d.offset ∧ c.labels = d.labels := by
  induction groups generalizing stop with
  | nil => simp [closeGroups] at h
  | cons d earlier ih =>
    simp only [closeGroups, List.mem_append, List.mem_singleton] at h
    obtain h | rfl := h
    · obtain ⟨d', hd, he⟩ := ih h
      exact ⟨d', List.mem_cons_of_mem _ hd, he⟩
    · exact ⟨d, List.mem_cons_self, rfl, rfl⟩

theorem first_closeGroups {stop : Nat} {groups : List Case} {c : Case} (h : c ∈ closeGroups stop groups) :
    c.first = c.offset := by
  induction groups generalizing stop with
  | nil => simp [closeGroups] at h
  | cons d earlier ih =>
    simp only [closeGroups, List.mem_append, List.mem_singleton] at h
    obtain h | rfl := h
    · exact ih h
    · rfl

theorem closeGroups_eq_nil {stop : Nat} {groups : List Case} (h : closeGroups stop groups = []) : groups = [] := by
  cases groups with
  | nil => rfl
  | cons => simp [closeGroups] at h

theorem segments_closeGroups {groups : List Case} (statements : List Stmt) {stop : Nat}
    (hs : groups = [] → stop = 0) (hw : ∀ c ∈ groups, c.offset ≤ stop)
    (hf : groups.Pairwise fun c d => d.offset < c.offset) (hb : ∀ c ∈ groups.getLast?, c.offset = 0) :
    (closeGroups stop groups).flatMap (Stmt.segment statements) = statements.take stop := by
  induction groups generalizing stop with
  | nil => simp [closeGroups, hs rfl]
  | cons c earlier ih =>
    obtain ⟨hbelow, hf⟩ := List.pairwise_cons.1 hf
    have hc : c.offset ≤ stop := hw c List.mem_cons_self
    have hbottom : earlier = [] → c.offset = 0 := by
      rintro rfl
      exact hb c rfl
    have hearlier := ih hbottom (fun d hd => Nat.le_of_lt (hbelow d hd)) hf (by
      intro d hd
      cases earlier with
      | nil => simp at hd
      | cons => exact hb d (by simpa using hd))
    rw [closeGroups, List.flatMap_append, hearlier]
    have hsplit := List.take_append_drop c.offset (statements.take stop)
    rw [List.take_take, Nat.min_eq_left hc] at hsplit
    simpa [Stmt.segment] using hsplit

theorem getLast?_closeGroups {stop : Nat} {groups : List Case} {c : Case}
    (h : c ∈ (closeGroups stop groups).getLast?) : c.stop = stop := by
  cases groups with
  | nil => simp [closeGroups] at h
  | cons d earlier =>
    simp only [closeGroups, List.getLast?_concat, Option.mem_some_iff] at h
    rw [← h]

theorem head?_closeGroups {stop : Nat} {groups : List Case} {c : Case}
    (h : c ∈ (closeGroups stop groups).head?) : ∃ d ∈ groups.getLast?, c.first = d.offset := by
  induction groups generalizing stop with
  | nil => simp [closeGroups] at h
  | cons d earlier ih =>
    rw [closeGroups, List.head?_append] at h
    cases he : (closeGroups d.offset earlier).head? with
    | none =>
      obtain rfl : earlier = [] := closeGroups_eq_nil (List.head?_eq_none_iff.1 he)
      rw [he] at h
      simp only [Option.none_or, List.head?_cons, Option.mem_some_iff] at h
      exact ⟨d, rfl, by rw [← h]⟩
    | some c' =>
      rw [he] at h
      simp only [Option.some_or, Option.mem_some_iff] at h
      obtain rfl := h
      obtain ⟨d', hd, hfirst⟩ := ih (Option.mem_def.2 he)
      cases earlier with
      | nil => simp at hd
      | cons => exact ⟨d', by simpa using hd, hfirst⟩

theorem isChain_closeGroups (stop : Nat) (groups : List Case) :
    (closeGroups stop groups).IsChain fun c d => c.stop = d.first := by
  induction groups generalizing stop with
  | nil => exact .nil
  | cons c earlier ih =>
    refine List.isChain_append.2 ⟨ih c.offset, .singleton _, ?_⟩
    intro d hd e he
    simp only [List.head?_cons, Option.mem_some_iff] at he
    rw [getLast?_closeGroups hd, ← he]

theorem pairwise_closeGroups {stop : Nat} {groups : List Case} (h : groups.Pairwise fun c d => d.offset < c.offset) :
    (closeGroups stop groups).Pairwise fun c d => c.offset < d.offset := by
  induction groups generalizing stop with
  | nil => exact .nil
  | cons c earlier ih =>
    obtain ⟨hbelow, h⟩ := List.pairwise_cons.1 h
    refine List.pairwise_append.2 ⟨ih h, List.pairwise_singleton _ _, ?_⟩
    intro d hd e he
    obtain ⟨d', hd', hfirst, -⟩ := mem_closeGroups hd
    rw [List.mem_singleton.1 he, hfirst]
    exact hbelow d' hd'

theorem within_closeGroups {groups : List Case} {stop : Nat} (hw : ∀ c ∈ groups, c.offset ≤ stop)
    (hf : groups.Pairwise fun c d => d.offset < c.offset) :
    ∀ c ∈ closeGroups stop groups, c.first ≤ c.stop ∧ c.stop ≤ stop := by
  induction groups generalizing stop with
  | nil => simp [closeGroups]
  | cons d earlier ih =>
    obtain ⟨hbelow, hf⟩ := List.pairwise_cons.1 hf
    have hd : d.offset ≤ stop := hw d List.mem_cons_self
    intro c hc
    simp only [closeGroups, List.mem_append, List.mem_singleton] at hc
    obtain hc | rfl := hc
    · obtain ⟨h1, h2⟩ := ih (fun e he => Nat.le_of_lt (hbelow e he)) hf c hc
      exact ⟨h1, Nat.le_trans h2 hd⟩
    · exact ⟨hd, Nat.le_refl _⟩

namespace SwitchLabels

theorem groups_add (labels : SwitchLabels) (place : Nat) (label : CaseLabel) (v : Option Value) (loc : Location) :
    (∃ c earlier, labels.groups = c :: earlier ∧ c.offset = place ∧ labels.groupAt place = c.labels ∧
      (labels.add place label v loc).groups = { c with labels := c.labels ++ [label] } :: earlier) ∨
    (labels.groupAt place = [] ∧ (∀ c ∈ labels.groups.head?, c.offset ≠ place) ∧
      (labels.add place label v loc).groups = ⟨loc, place, [label], place, place⟩ :: labels.groups) := by
  obtain ⟨groups, values, hasDefault⟩ := labels
  cases groups with
  | nil => exact .inr ⟨rfl, by simp, rfl⟩
  | cons c earlier =>
    by_cases hc : c.offset = place
    · exact .inl ⟨c, earlier, rfl, hc, if_pos hc, by simp [add, hc]⟩
    · exact .inr ⟨if_neg hc, by simpa using hc, by simp [add, hc]⟩

theorem all_add (labels : SwitchLabels) (place : Nat) (label : CaseLabel) (v : Option Value) (loc : Location) :
    allLabels (labels.add place label v loc).groups.reverse = allLabels labels.groups.reverse ++ [label] := by
  obtain ⟨c, earlier, hg, -, -, hadd⟩ | ⟨-, -, hadd⟩ := labels.groups_add place label v loc
  · simp [hadd, hg]
  · simp [hadd]

theorem of_labelProblem? {allow : Bool} {labels : SwitchLabels} {group : List CaseLabel} {label : CaseLabel}
    {v : Option Value} (h : labelProblem? allow labels group label v = none) :
    (label.isDefault = true → labels.hasDefault = false) ∧
    (allow = false → (group ++ [label]).any CaseLabel.isDefault = true → (group ++ [label]).any isCaseValue = false) ∧
    (label.isDefault = false → ∀ u ∈ labels.values, ∀ w ∈ v, u.same w = false) := by
  cases label with
  | default loc =>
    simp only [labelProblem?] at h
    split at h
    · cases h
    next hd =>
    split at h
    · cases h
    next hm =>
    refine ⟨fun _ => by simpa using hd, fun ha _ => ?_, (by rintro ⟨⟩)⟩
    simpa [ha, isCaseValue] using hm
  | value e =>
    simp only [labelProblem?] at h
    split at h
    · cases h
    next hm =>
    refine ⟨(by rintro ⟨⟩), fun ha hd => ?_, fun _ u hu w hw => ?_⟩
    · simp only [ha, Bool.not_false, Bool.and_true] at hm
      simp only [List.any_append, List.any_cons, CaseLabel.isDefault, List.any_nil, Bool.or_false] at hd
      exact (hm hd).elim
    · rw [Option.mem_def.1 hw] at h
      simp only [ite_eq_right_iff, reduceCtorEq, imp_false, Bool.not_eq_true, List.any_eq_false] at h
      simpa using h u hu

end SwitchLabels

namespace SwitchLabels.Orderly

variable {allow : Bool} {cs : Constants} {count : Nat} {labels : SwitchLabels}

theorem start : SwitchLabels.Orderly allow cs 0 {} where
  falling := .nil
  within := by simp
  bottom := by simp
  empty _ := rfl
  labelled := by simp
  defaults := rfl
  values := rfl
  distinct := .nil
  unmixed := by simp

theorem add {label : CaseLabel} {v : Option Value} (h : labels.Orderly allow cs count)
    (hp : labelProblem? allow labels (labels.groupAt count) label v = none) (hv : v = label.folded? cs)
    (loc : Location) : (labels.add count label v loc).Orderly allow cs count := by
  obtain ⟨hdefault, hunmixed, hdistinct⟩ := of_labelProblem? hp
  have hall := all_add labels count label v loc
  have hdefaults : (allLabels (labels.add count label v loc).groups.reverse).countP CaseLabel.isDefault =
      (labels.add count label v loc).hasDefault.toNat := by
    rw [hall, List.countP_append, h.defaults]
    cases label with
    | value => simp [SwitchLabels.add, CaseLabel.isDefault]
    | default => simp [SwitchLabels.add, CaseLabel.isDefault, hdefault rfl]
  have hvalues : (labels.add count label v loc).values =
      (allLabels (labels.add count label v loc).groups.reverse).filterMap (CaseLabel.folded? cs) := by
    rw [hall, List.filterMap_append, ← h.values, hv]
    cases hl : label.folded? cs <;> simp [SwitchLabels.add, hl]
  have hpairs : (labels.add count label v loc).values.Pairwise fun u v => u.same v = false := by
    refine List.pairwise_append.2 ⟨h.distinct, ?_, ?_⟩
    · cases v <;> simp
    · intro u hu w hw
      have hw : w ∈ v := by simpa using hw
      refine hdistinct ?_ u hu w hw
      cases label with
      | value => rfl
      | default => simp [hv, CaseLabel.folded?] at hw
  obtain ⟨c, earlier, hg, hc, hat, hadd⟩ | ⟨hat, hne, hadd⟩ := labels.groups_add count label v loc
  · rw [hat] at hunmixed
    have hfalling := h.falling
    have hbottom := h.bottom
    have hlabelled := h.labelled
    have hmixed := h.unmixed
    rw [hg] at hfalling hbottom hlabelled hmixed
    obtain ⟨hbelow, hrest⟩ := List.pairwise_cons.1 hfalling
    obtain ⟨-, hlabelled⟩ := List.forall_mem_cons.1 hlabelled
    refine ⟨?_, ?_, ?_, ?_, ?_, hdefaults, hvalues, hpairs, fun ha => ?_⟩ <;> rw [hadd]
    · exact .cons hbelow hrest
    · exact List.forall_mem_cons.2 ⟨Nat.le_of_eq hc, fun d hd => h.within d (hg ▸ List.mem_cons_of_mem _ hd)⟩
    · cases earlier with
      | nil => simpa using hbottom
      | cons => simpa using hbottom
    · simp
    · exact List.forall_mem_cons.2 ⟨by simp, hlabelled⟩
    · exact List.forall_mem_cons.2 ⟨hunmixed ha, (List.forall_mem_cons.1 (hmixed ha)).2⟩
  · rw [hat] at hunmixed
    have hbelow : ∀ c ∈ labels.groups, c.offset < count := by
      intro c hc
      have hle := h.within c hc
      have hfalling := h.falling
      cases hg : labels.groups with
      | nil => simp [hg] at hc
      | cons d earlier =>
        rw [hg] at hc hfalling hne
        have hd := h.within d (hg ▸ List.mem_cons_self)
        have hd' : d.offset ≠ count := hne d rfl
        obtain rfl | hc := List.mem_cons.1 hc
        · omega
        · have := (List.pairwise_cons.1 hfalling).1 c hc
          omega
    refine ⟨?_, ?_, ?_, ?_, ?_, hdefaults, hvalues, hpairs, fun ha => ?_⟩ <;> rw [hadd]
    · exact .cons hbelow h.falling
    · exact List.forall_mem_cons.2 ⟨Nat.le_refl _, h.within⟩
    · cases hg : labels.groups with
      | nil => simpa using h.empty hg
      | cons =>
        have := h.bottom
        rw [hg] at this
        simpa using this
    · simp
    · exact List.forall_mem_cons.2 ⟨by simp, h.labelled⟩
    · exact List.forall_mem_cons.2 ⟨hunmixed ha, h.unmixed ha⟩

theorem statement (h : labels.Orderly allow cs count) (hg : labels.groups ≠ []) :
    labels.Orderly allow cs (count + 1) :=
  { h with
    within := fun c hc => Nat.le_succ_of_le (h.within c hc)
    empty := fun he => (hg he).elim }

theorem close {statements : List Stmt} (h : labels.Orderly allow cs statements.length) :
    Segmented allow cs statements (closeGroups statements.length labels.groups) where
  increasing := pairwise_closeGroups h.falling
  starts _ hc := first_closeGroups hc
  within := within_closeGroups h.within h.falling
  adjacent := isChain_closeGroups _ _
  first := by
    intro c hc
    obtain ⟨d, hd, he⟩ := head?_closeGroups hc
    rw [he]
    exact h.bottom d hd
  last _ hc := getLast?_closeGroups hc
  partition := by
    rw [segments_closeGroups statements h.empty h.within h.falling h.bottom, List.take_length]
  empty he := List.eq_nil_of_length_eq_zero (h.empty (closeGroups_eq_nil he))
  labelled := by
    intro c hc
    obtain ⟨d, hd, -, he⟩ := mem_closeGroups hc
    rw [he]
    exact h.labelled d hd
  oneDefault := by
    rw [allLabels_closeGroups, h.defaults]
    exact Bool.toNat_le _
  distinct := by
    rw [allLabels_closeGroups, ← h.values]
    exact h.distinct
  unmixed := by
    intro ha c hc
    obtain ⟨d, hd, -, he⟩ := mem_closeGroups hc
    rw [Case.isDefault, he]
    exact h.unmixed ha d hd

end SwitchLabels.Orderly

theorem Segmented.first_increasing {allow : Bool} {cs : Constants} {statements : List Stmt} {cases : List Case}
    (h : Segmented allow cs statements cases) : cases.Pairwise fun c d => c.first < d.first := by
  refine h.increasing.imp_of_mem fun {c d} hc hd hlt => ?_
  rwa [h.starts c hc, h.starts d hd]

end GameScript
