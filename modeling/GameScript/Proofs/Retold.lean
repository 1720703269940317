import GameScript.Proofs.Retelling

namespace GameScript

open Session

def switchPieces (labels : SwitchLabels) (statements : List Stmt) : List Piece :=
  (closeGroups statements.length labels.groups).flatMap (casePieces (groupPieces statements.reverse))

theorem casePieces_empty (groups : List (List Piece)) {c : Case} (h : c.stop ≤ c.first) :
    casePieces groups c = c.labels.flatMap CaseLabel.pieces := by
  have hnone : (groups.take c.stop).drop c.first = [] := by
    rw [List.drop_eq_nil_iff, List.length_take]
    omega
  simp [casePieces, hnone]

theorem switchPieces_add (labels : SwitchLabels) (statements : List Stmt) (label : CaseLabel) (v : Option Value)
    (loc : Location) : switchPieces (labels.add statements.length label v loc) statements =
      switchPieces labels statements ++ label.pieces := by
  unfold switchPieces
  obtain ⟨c, earlier, hg, hc, -, hadd⟩ | ⟨-, -, hadd⟩ := labels.groups_add statements.length label v loc
  · rw [hadd, hg]
    simp only [closeGroups, List.flatMap_append, List.flatMap_cons, List.flatMap_nil, List.append_nil]
    rw [casePieces_empty _ (Nat.le_of_eq hc.symm), casePieces_empty _ (Nat.le_of_eq hc.symm)]
    simp
  · rw [hadd]
    simp only [closeGroups, List.flatMap_append, List.flatMap_cons, List.flatMap_nil, List.append_nil]
    rw [casePieces_empty _ (Nat.le_refl _)]
    simp

theorem casePieces_snoc {groups : List (List Piece)} (ps : List Piece) {c : Case} (h : c.stop ≤ groups.length) :
    casePieces (groups ++ [ps]) c = casePieces groups c := by
  rw [casePieces, List.take_append_of_le_length h, casePieces]

theorem stop_le_of_mem_closeGroups {n stop : Nat} {groups : List Case} (hs : stop ≤ n) (h : ∀ c ∈ groups, c.offset ≤ n) :
    ∀ c ∈ closeGroups stop groups, c.stop ≤ n := by
  induction groups generalizing stop with
  | nil => simp [closeGroups]
  | cons c earlier ih =>
    obtain ⟨hc, hearlier⟩ := List.forall_mem_cons.1 h
    rw [closeGroups]
    exact List.forall_mem_append.2 ⟨ih hc hearlier, List.forall_mem_singleton.2 hs⟩

theorem switchPieces_cons {labels : SwitchLabels} {statements : List Stmt} (s : Stmt) (hg : labels.groups ≠ [])
    (hp : ∀ c ∈ labels.groups, c.offset ≤ statements.length) :
    switchPieces labels (s :: statements) = switchPieces labels statements ++ s.pieces := by
  obtain ⟨c, earlier, hgroups⟩ := List.exists_cons_of_ne_nil hg
  rw [hgroups] at hp
  obtain ⟨hc, hearlier⟩ := List.forall_mem_cons.1 hp
  have hlen : (groupPieces statements.reverse).length = statements.length := by simp [groupPieces_eq_map]
  have hsnoc : groupPieces (s :: statements).reverse = groupPieces statements.reverse ++ [s.pieces] := by
    simp [groupPieces_eq_map]
  have hbefore : ∀ d ∈ closeGroups c.offset earlier,
      casePieces (groupPieces statements.reverse ++ [s.pieces]) d = casePieces (groupPieces statements.reverse) d := by
    intro d hd
    refine casePieces_snoc _ ?_
    rw [hlen]
    exact stop_le_of_mem_closeGroups hc hearlier d hd
  have hlast : ((groupPieces statements.reverse ++ [s.pieces]).take (statements.length + 1)).drop c.offset =
      ((groupPieces statements.reverse).take statements.length).drop c.offset ++ [s.pieces] := by
    rw [List.take_of_length_le (by simp [hlen]), List.take_of_length_le (Nat.le_of_eq hlen),
      List.drop_append_of_le_length (by rwa [hlen])]
  simp only [switchPieces, hgroups, hsnoc, closeGroups, List.flatMap_append, List.flatMap_cons, List.flatMap_nil,
    List.append_nil, List.length_cons, List.append_assoc]
  rw [List.flatMap_congr hbefore]
  simp only [casePieces, hlast, List.flatten_append, List.flatten_singleton, List.append_assoc]

def Expr.NotArray (e : Expr) : Prop :=
  ∀ node items, e ≠ .array node items

theorem Expr.setsApart_of_notArray {e : Expr} (h : (View.expr e).Exprs NotArray) : (View.expr e).Exprs SetsApart := by
  intro v hv e' he
  have := h v hv e' he
  cases e' with
  | array node items => exact absurd rfl (this node items)
  | _ => trivial

theorem Fold.exprs_of_noteRead {lookup : String → Option Value} : ∀ {e : Expr},
    (View.expr (noteRead lookup e)).Exprs Expr.NotArray → (View.expr e).Exprs Expr.NotArray
  | .literal .., _ => View.exprs_node.2 ⟨by simp [Expr.NotArray], by simp [Expr.children]⟩
  | .group _ inner, h => by
    obtain ⟨-, hc⟩ := View.exprs_node.1 h
    simp only [noteRead, Expr.children, List.forall_mem_singleton] at hc
    refine View.exprs_node.2 ⟨by simp [Expr.NotArray], ?_⟩
    simpa only [Expr.children, List.forall_mem_singleton] using exprs_of_noteRead hc
  | .truple _ x y z, h => by
    obtain ⟨-, hc⟩ := View.exprs_node.1 h
    simp only [noteRead, Expr.children, List.forall_mem_cons] at hc
    obtain ⟨hx, hy, hz, -⟩ := hc
    refine View.exprs_node.2 ⟨by simp [Expr.NotArray], ?_⟩
    simp only [Expr.children, List.forall_mem_cons]
    refine ⟨exprs_of_noteRead hx, ?_, ?_, by simp⟩
    · split at hy
      · exact exprs_of_noteRead hy
      · exact hy
    · split at hz
      · exact exprs_of_noteRead hz
      · exact hz
  | .unary _ op operand, h => by
    obtain ⟨-, hc⟩ := View.exprs_node.1 h
    simp only [noteRead, Expr.children, List.forall_mem_singleton] at hc
    refine View.exprs_node.2 ⟨by simp [Expr.NotArray], ?_⟩
    simpa only [Expr.children, List.forall_mem_singleton] using exprs_of_noteRead hc
  | .binary _ op left right, h => by
    obtain ⟨-, hc⟩ := View.exprs_node.1 h
    simp only [noteRead, Expr.children, List.forall_mem_cons] at hc
    obtain ⟨hleft, hright, -⟩ := hc
    refine View.exprs_node.2 ⟨by simp [Expr.NotArray], ?_⟩
    simp only [Expr.children, List.forall_mem_cons]
    refine ⟨exprs_of_noteRead hleft, ?_, by simp⟩
    split at hright
    · exact exprs_of_noteRead hright
    · exact hright
  | .var .., h | .func .., h | .index .., h | .member .., h | .suffix .., h | .array .., h | .assign .., h
  | .call .., h | .pointerCall .., h => h

def SwitchLabels.Alike (l l' : SwitchLabels) : Prop :=
  Relabel.blank.labels l = Relabel.blank.labels l'

namespace SwitchLabels.Alike

variable {l l' : SwitchLabels} {label label' : CaseLabel}

theorem problem (h : l'.Alike l) (hl : Relabel.blank.label label' = Relabel.blank.label label) (allow : Bool) (place : Nat)
    (v : Option Value) :
    labelProblem? allow l' (l'.groupAt place) label' v = labelProblem? allow l (l.groupAt place) label v := by
  rw [← Relabel.blank.labelProblem?_label allow l', ← Relabel.blank.labelProblem?_label allow l,
    ← Relabel.blank.groupAt_labels l', ← Relabel.blank.groupAt_labels l, hl, h]

theorem add (h : l'.Alike l) (hl : Relabel.blank.label label' = Relabel.blank.label label) (place : Nat) (v : Option Value)
    (loc loc' : Location) : (l'.add place label' v loc').Alike (l.add place label v loc) := by
  unfold Alike at h ⊢
  rw [← Relabel.blank.add_labels l', ← Relabel.blank.add_labels l, hl, h]
  rfl

theorem groups_ne_nil (h : l'.Alike l) (hg : l.groups ≠ []) : l'.groups ≠ [] := by
  have hlen := congrArg (fun l : SwitchLabels => l.groups.length) h
  simp only [Relabel.labels, List.length_map] at hlen
  intro hnil
  rw [hnil] at hlen
  exact hg (List.eq_nil_of_length_eq_zero hlen.symm)

end SwitchLabels.Alike

section Labels

variable {b s : Session} {rest : List PendingStmt} {ps : List Piece} {node : Node} {t : Token} {labels labels' : SwitchLabels}
  {statements statements' : List Stmt} {label label' : CaseLabel} {loc : Location}

def InSwitchBody (node : Node) (rest : List PendingStmt) (labels : SwitchLabels) (statements : List Stmt)
    (stmts : List PendingStmt) : Prop :=
  ∃ labels' statements', stmts = .block ⟨node, .switchBody labels', statements'⟩ :: rest ∧ labels'.Alike labels ∧
    statements'.map Relabel.blank.stmt = statements.map Relabel.blank.stmt

theorem addLabel_inSwitchBody {v : Option Value} (loc loc' : Location)
    (hs : s.stmts = .block ⟨node, .switchBody labels', statements'⟩ :: rest) (hl : labels'.Alike labels)
    (hst : statements'.map Relabel.blank.stmt = statements.map Relabel.blank.stmt)
    (hlabel : Relabel.blank.label label' = Relabel.blank.label label)
    (hp : labelProblem? s.config.allowDefaultWithCase labels (labels.groupAt statements.length) label v = none) :
    ∃ stmts', s.addLabel label' v loc' = { s with stmts := stmts' } ∧
      InSwitchBody node rest (labels.add statements.length label v loc) statements stmts' := by
  have hlen : statements'.length = statements.length := by simpa using congrArg List.length hst
  refine ⟨_, ?_, _, _, rfl, hl.add hlabel statements.length v loc loc', hst⟩
  simp only [addLabel, hs, hlen, hl.problem hlabel, hp]

theorem bodyToken_label {k : Keyword} (hs : s.stmts = .block ⟨node, .switchBody labels, statements⟩ :: rest)
    (hk : t.keyword? s.gameMode = some k) : s.bodyToken t = (s.startKeyword? k t.loc).getD (s.startExprStmt t) :=
  (bodyToken_open hs rfl t).trans (startStmt_keyword hk)

theorem evaluate_alike {e e' : Expr} (h : e'.Alike e) (lookup : String → Option Value) :
    Fold.evaluate lookup e' = Fold.evaluate lookup e :=
  h.of_relabel (Relabel.blank.evaluate_expr lookup)

theorem noteRead_alike {e e' : Expr} (h : e'.Alike e) (lookup : String → Option Value) :
    (Fold.noteRead lookup e').Alike (Fold.noteRead lookup e) := by
  unfold Expr.Alike at h ⊢
  rw [← Relabel.blank.noteRead_expr, ← Relabel.blank.noteRead_expr, h]

theorem Session.Standing.caseLabel {e : Expr} {cs : Constants} {v : Value} {stmts : List PendingStmt} (hb : b.AtRest)
    (hcs : b.constants.Extends cs) (he : e.Told b.config .caseLabel) (hv : Fold.evaluate cs.lookup? e = .ok v)
    (hp : labelProblem? b.config.allowDefaultWithCase labels (labels.groupAt statements.length)
      (.value (Fold.noteRead cs.lookup? e)) (some v) = none) (hj : joined ps = [])
    (hin : InSwitchBody node rest labels statements stmts)
    (h : b.Standing s stmts ((CaseLabel.value (Fold.noteRead cs.lookup? e)).pieces ++ ps)) :
    b.Gets s ps (InSwitchBody node rest
      (labels.add statements.length (.value (Fold.noteRead cs.lookup? e)) (some v) loc) statements) := by
  obtain ⟨labels', statements', rfl, hl, hst⟩ := hin
  simp only [CaseLabel.pieces, Fold.pieces_noteRead, List.append_assoc, List.cons_append, List.nil_append] at h
  refine h.stepValue (P := fun stmts => ∃ loc,
    stmts = .caseLabel loc :: .block ⟨node, .switchBody labels', statements'⟩ :: rest) hb he (by decide) (ending_colon hj) ?_ ?_
  · intro s' t hsame hmode hs _
    refine ⟨s'.nextId, _, ?_, t.loc, rfl⟩
    rw [bodyToken_label hs (keyword_of_same (Keyword.reservedIn_of_both _ rfl) hsame)]
    simp [startKeyword?, startLabel, inSwitchBody, hs, pushStmt, beginExpr, fresh]
  · rintro s' e' t ⟨loc', hs⟩ ht ha hc hcs'
    have hvalue : Fold.evaluate s'.constants.lookup? e' = .ok v := by
      rw [hcs', evaluate_alike ha]
      exact Fold.evaluate_extends hcs hv
    have hlabel : Relabel.blank.label (.value (Fold.noteRead s'.constants.lookup? e')) =
        Relabel.blank.label (.value (Fold.noteRead cs.lookup? e)) := by
      have hnote := (noteRead_alike ha s'.constants.lookup?).eq
      rw [hcs', Fold.noteRead_extends hcs hv] at hnote
      rw [hcs', Relabel.label, Relabel.label, hnote]
    obtain ⟨stmts', hadd, hin⟩ := addLabel_inSwitchBody (s := { s' with
      stmts := .block ⟨node, .switchBody labels', statements'⟩ :: rest }) loc loc' rfl hl hst hlabel (hc ▸ hp)
    refine ⟨s'.nextId, s'.warned, stmts', ?_, hin⟩
    simp only [exprDone, caseLabelDone, hs, popStmt, expect, ht, if_true, List.tail_cons, caseValue, hvalue, hadd]

theorem Session.Standing.defaultLabel {stmts : List PendingStmt} (hb : b.AtRest)
    (hp : labelProblem? b.config.allowDefaultWithCase labels (labels.groupAt statements.length) (.default loc) none = none)
    (hin : InSwitchBody node rest labels statements stmts)
    (h : b.Standing s stmts ((CaseLabel.default loc).pieces ++ ps)) :
    b.Gets s ps (InSwitchBody node rest (labels.add statements.length (.default loc) none loc) statements) := by
  obtain ⟨labels', statements', rfl, hl, hst⟩ := hin
  have hopen : b.Gets s (symbolPiece false ':' :: ps) fun stmts' => ∃ loc,
      stmts' = .defaultLabel loc :: .block ⟨node, .switchBody labels', statements'⟩ :: rest := by
    refine h.step hb fun s' t hsame hmeets => ⟨s'.nextId, s'.warned, _, ?_, t.loc, rfl⟩
    rw [bodyToken_label hmeets.stmts_eq (keyword_of_same (Keyword.reservedIn_of_both _ rfl) hsame)]
    simp [startKeyword?, startLabel, inSwitchBody, hmeets.stmts_eq, pushStmt]
  refine hopen.trans fun s' stmts' hp' hst' => ?_
  obtain ⟨loc', rfl⟩ := hp'
  refine hst'.step hb fun s'' t hsame hmeets => ?_
  have hlabel : Relabel.blank.label (.default loc') = Relabel.blank.label (.default loc) := rfl
  obtain ⟨stmts', hadd, hin⟩ := addLabel_inSwitchBody (s := { s'' with
    stmts := .block ⟨node, .switchBody labels', statements'⟩ :: rest }) loc loc' rfl hl hst hlabel (hmeets.config_eq ▸ hp)
  have hcolon : t.isSymbol ':' = true := symbol_of_same hsame
  refine ⟨s''.nextId, s''.warned, stmts', ?_, hin⟩
  simp only [bodyToken, headerToken?, hmeets.stmts_eq, expect, hcolon, if_true, popStmt, List.tail_cons, hadd]

theorem SwitchBody.places {config : ParserConfig} {cs : Constants} (h : SwitchBody config cs labels statements) :
    ∀ c ∈ labels.groups, c.offset ≤ statements.length := by
  have hadd {labels : SwitchLabels} {place : Nat} {label : CaseLabel} {v : Option Value} {loc : Location}
      (ih : ∀ c ∈ labels.groups, c.offset ≤ place) : ∀ c ∈ (labels.add place label v loc).groups, c.offset ≤ place := by
    obtain ⟨c, earlier, hg, -, -, hadd⟩ | ⟨-, -, hadd⟩ := labels.groups_add place label v loc
    · rw [hg] at ih
      rw [hadd]
      exact List.forall_mem_cons.2 (List.forall_mem_cons.1 ih)
    · rw [hadd]
      exact List.forall_mem_cons.2 ⟨Nat.le_refl _, ih⟩
  induction h with
  | start => simp
  | value _ _ _ _ _ ih | default _ _ _ ih => exact hadd ih
  | statement _ _ _ ih => exact fun c hc => Nat.le_succ_of_le (ih c hc)

theorem SwitchBody.gets {cs : Constants} {targets : List FlowTarget} (h : SwitchBody b.config cs labels statements)
    (hb : b.AtRest) (hcs : b.constants.Extends cs) (hs : ∀ stmt ∈ statements, stmt.Retold b targets)
    (hl : ∀ l ∈ allLabels labels.groups.reverse, ∀ e ∈ l.expr?, (View.expr e).Exprs Expr.NotArray)
    (ht : (Session.targets rest).map FlowTarget.kind = targets.map FlowTarget.kind) ⦃s : Session⦄ ⦃ps : List Piece⦄
    (hn : NoElse b.gameMode ps)
    (hst : b.Standing s (.block ⟨node, .switchBody {}, []⟩ :: rest) (switchPieces labels statements ++ ps)) :
    b.Gets s ps (InSwitchBody node rest labels statements) := by
  -- The body grows at its end, so what the step adds is part of what follows.
  induction h generalizing ps with
  | start => exact hst.gets ⟨_, _, rfl, rfl, rfl⟩
  | @value labels statements e v _ he hv hp loc ih =>
    rw [SwitchLabels.all_add] at hl
    rw [switchPieces_add, List.append_assoc] at hst
    have hlabel : NoElse b.gameMode ((CaseLabel.value (Fold.noteRead cs.lookup? e)).pieces ++ ps) :=
      noElse_keyword (Keyword.reservedIn_of_both _ rfl) (by decide)
    refine (ih hs (fun l hm => hl l (List.mem_append_left _ hm)) hlabel hst).trans fun s' stmts hin hst' => ?_
    have hapart := Fold.exprs_of_noteRead (hl _ (List.mem_append_right _ (List.mem_singleton_self _)) _ rfl)
    exact hst'.caseLabel hb hcs ⟨he, Expr.setsApart_of_notArray hapart⟩ hv hp hn.joined_eq_nil hin
  | @default labels statements _ loc hp ih =>
    rw [SwitchLabels.all_add] at hl
    rw [switchPieces_add, List.append_assoc] at hst
    have hlabel : NoElse b.gameMode ((CaseLabel.default loc).pieces ++ ps) :=
      noElse_keyword (Keyword.reservedIn_of_both _ rfl) (by decide)
    refine (ih hs (fun l hm => hl l (List.mem_append_left _ hm)) hlabel hst).trans fun s' stmts hin hst' => ?_
    exact hst'.defaultLabel hb hp hin
  | @statement labels statements h hg stmt ih =>
    obtain ⟨hstmt, hrest⟩ := List.forall_mem_cons.1 hs
    rw [switchPieces_cons stmt hg h.places, List.append_assoc] at hst
    refine (ih hrest hl hstmt.begins.append hst).trans fun s' stmts hin hst' => ?_
    obtain ⟨labels', statements', rfl, ha, hst⟩ := hin
    have hrole : ∀ l, BlockRole.switchBody labels' = .switchBody l → l.groups ≠ [] := by
      rintro _ ⟨⟩
      exact ha.groups_ne_nil hg
    refine (hstmt.inBlock hrole ht hn hst').trans fun s'' stmts' hp hst'' => hst''.gets ?_
    obtain ⟨stmt', rfl, hstmt'⟩ := hp
    exact ⟨labels', stmt' :: statements', rfl, ha, by simpa [hst] using hstmt'.eq⟩

theorem caseValues_eq (cases : List Case) : caseValues cases = (allLabels cases).filterMap CaseLabel.expr? :=
  List.filterMap_flatMap.symm

theorem bodyToken_openSwitch {subject : Expr} (hs : s.stmts = .switch node (.body subject) :: rest)
    (ht : t.isSymbol '\x7b' = true) : s.bodyToken t = { s with
      nextId := s.nextId + 1, stmts := .block ⟨⟨s.nextId, t.loc⟩, .switchBody {}, []⟩ :: s.stmts } := by
  simp [bodyToken, headerToken?, hs, openSwitchBody, expect, ht, withNode, pushStmt]

theorem closeBlock_switch {bodyNode : Node} {subject : Expr}
    (hs : s.stmts = .block ⟨bodyNode, .switchBody labels, statements⟩ :: .switch node (.body subject) :: rest) :
    s.closeBlock ⟨bodyNode, .switchBody labels, statements⟩ t =
      ({ s with stmts := rest }.noteSwitch node labels statements t).finishStmt
        (.switch node subject bodyNode statements.reverse (closeGroups statements.length labels.groups)) := by
  have hpop : s.popStmt = { s with stmts := .switch node (.body subject) :: rest } := by rw [popStmt, hs, List.tail_cons]
  have hrole : s.closeBlock ⟨bodyNode, .switchBody labels, statements⟩ t =
      s.popStmt.closeSwitch ⟨bodyNode, .switchBody labels, statements⟩ labels t := rfl
  rw [hrole, hpop]
  rfl

theorem SwitchLabels.Alike.cases (h : labels'.Alike labels) (stop : Nat) :
    (closeGroups stop labels'.groups).map Relabel.blank.switchCase =
      (closeGroups stop labels.groups).map Relabel.blank.switchCase := by
  have hgroups := congrArg SwitchLabels.groups h
  simp only [Relabel.labels] at hgroups
  rw [← Relabel.blank.closeGroups_switchCase, ← Relabel.blank.closeGroups_switchCase, hgroups]

theorem retold_switch {cs : Constants} {targets : List FlowTarget} {bodyNode : Node} {subject : Expr} (hb : b.AtRest)
    (he : subject.Told b.config .condition) (h : SwitchBody b.config cs labels statements) (hcs : b.constants.Extends cs)
    (hs : ∀ stmt ∈ statements, stmt.Retold b (⟨.switch, node.id⟩ :: targets))
    (hl : ∀ e ∈ caseValues (closeGroups statements.length labels.groups), (View.expr e).Exprs Expr.NotArray) :
    (Stmt.switch node subject bodyNode statements.reverse (closeGroups statements.length labels.groups)).Retold b
      targets := by
  refine ⟨noElse_keyword (Keyword.reservedIn_of_both _ rfl) (by decide), fun s stmts ps hr ht _ hst => ?_⟩
  simp only [Stmt.pieces, bracedPieces, List.append_assoc, List.cons_append, List.nil_append] at hst
  refine (hst.header (.switch · .start) (.switch · .condition) (fun node e => .switch node (.body e)) hb rfl
    (fun _ => rfl) (fun _ => rfl) (fun _ => rfl) (fun _ _ => rfl) he hr).trans fun s₁ stmts₁ hp hst₁ => ?_
  obtain ⟨node', e', rfl, ha⟩ := hp
  have hopen : b.Gets s₁ (switchPieces labels statements ++ symbolPiece true '\x7d' :: ps) fun stmts' => ∃ bodyNode',
      stmts' = .block ⟨bodyNode', .switchBody {}, []⟩ :: .switch node' (.body e') :: stmts := by
    refine hst₁.step hb fun s' t hsame hmeets => ?_
    refine ⟨_, s'.warned, _, bodyToken_openSwitch hmeets.stmts_eq (symbol_of_same hsame), ⟨s'.nextId, t.loc⟩, ?_⟩
    rw [hmeets.stmts_eq]
  refine hopen.trans fun s₂ stmts₂ hp hst₂ => ?_
  obtain ⟨bodyNode', rfl⟩ := hp
  have htargets : (Session.targets (.switch node' (.body e') :: stmts)).map FlowTarget.kind =
      (⟨.switch, node.id⟩ :: targets : List FlowTarget).map FlowTarget.kind := by
    simpa [PendingStmt.flowTarget?] using ht
  have hlabels : ∀ l ∈ allLabels labels.groups.reverse, ∀ e ∈ l.expr?, (View.expr e).Exprs Expr.NotArray := by
    intro l hm e hl'
    refine hl e ?_
    rw [caseValues_eq, allLabels_closeGroups]
    exact List.mem_filterMap.2 ⟨l, hm, hl'⟩
  refine (h.gets hb hcs hs hlabels htargets noElse_symbol hst₂).trans fun s₃ stmts₃ hp hst₃ => ?_
  obtain ⟨labels', statements', rfl, hla, hsa⟩ := hp
  obtain ⟨stmts', hstowed⟩ := hr
    (.switch node' e' bodyNode' statements'.reverse (closeGroups statements'.length labels'.groups))
  refine hst₃.step hb fun s₄ t hsame hmeets => ?_
  obtain ⟨warned, hw⟩ := noteSwitch_warned (s := { s₄ with stmts := stmts }) node' labels' statements' t
  refine ⟨s₄.nextId, warned, stmts', ?_, _, hstowed, ?_⟩
  · rw [bodyToken_closeBrace hmeets.stmts_eq (symbol_of_same hsame), closeBlock_switch hmeets.stmts_eq, hw, finishStmt,
      hstowed.bind]
  · have hlen : statements'.length = statements.length := by simpa using congrArg List.length hsa
    simp [Stmt.Alike, Relabel.stmt, ha.eq, hsa, hlen, hla.cases]

end Labels

theorem Stmt.Composed.retold {b : Session} {cs cs' : Constants} {allow behind : Bool} {stmt : Stmt}
    {targets : List FlowTarget} (h : stmt.Composed b.config cs behind) (hb : b.AtRest) (hcs : b.constants.Extends cs)
    (hbuilt : stmt.Built allow cs' targets) (hm : (View.stmt stmt).Stmts Stmt.Matched)
    (ha : (View.stmt stmt).Exprs Expr.NotArray) : stmt.Retold b targets := by
  have told {e : Expr} {c : ExprContext} (he : e.Composed b.config c) (ha : (View.expr e).Exprs Expr.NotArray) :
      e.Told b.config c := ⟨he, Expr.setsApart_of_notArray ha⟩
  induction h generalizing targets <;> rw [View.exprs_stmt] at ha <;> rw [View.stmts_stmt] at hm <;> cases hbuilt <;>
    obtain ⟨hself, hm⟩ := hm
  case expr he _ hf => exact retold_expr hb (told he (ha _ (by simp [Stmt.children]))) hf
  case keywordCall hk he hp =>
    exact retold_keywordCall hb hk (fun e hmem => told (he e hmem) (ha _ (by simpa [Stmt.children] using hmem))) hp
  case flow hf => exact retold_flow hb hf
  case block ih hs =>
    exact retold_block hb fun stmt hmem =>
      ih stmt hmem (hs stmt hmem) (hm _ (by simpa [Stmt.children] using hmem)) (ha _ (by simpa [Stmt.children] using hmem))
  case ifThen hc _ ih hs =>
    exact retold_ifThen hb (told hc (ha _ (by simp [Stmt.children])))
      (ih hs (hm _ (by simp [Stmt.children])) (ha _ (by simp [Stmt.children])))
  case ifElse hc _ _ ih ih' hs hs' =>
    exact retold_ifElse hb (told hc (ha _ (by simp [Stmt.children])))
      (ih hs (hm _ (by simp [Stmt.children])) (ha _ (by simp [Stmt.children]))) hself
      (ih' hs' (hm _ (by simp [Stmt.children])) (ha _ (by simp [Stmt.children])))
  case whileLoop hc _ ih hs =>
    exact retold_whileLoop hb (told hc (ha _ (by simp [Stmt.children])))
      (ih hs (hm _ (by simp [Stmt.children])) (ha _ (by simp [Stmt.children])))
  case forLoop hf hc hp _ ih hs =>
    refine retold_forLoop hb (fun e he => told (hf e he) (ha _ ?_)) (fun e he => told (hc e he) (ha _ ?_))
      (fun e he => told (hp e he) (ha _ ?_))
      (ih hs (hm _ (by simp [Stmt.children])) (ha _ (by simp [Stmt.children]))) <;> simp_all [Stmt.children]
  case foreachLoop hk hv hc _ ih hs =>
    exact retold_foreachLoop hb hk hv (told hc (ha _ (by simp [Stmt.children])))
      (ih hs (hm _ (by simp [Stmt.children])) (ha _ (by simp [Stmt.children])))
  case switch he hbody _ ih hs _ =>
    refine retold_switch hb (told he (ha _ (by simp [Stmt.children]))) hbody hcs (fun stmt hmem => ?_) fun e he => ?_
    · exact ih stmt hmem (hs stmt (List.mem_reverse.2 hmem)) (hm _ (by simp [Stmt.children, hmem]))
        (ha _ (by simp [Stmt.children, hmem]))
    · exact ha _ (by simp [Stmt.children, he])

end GameScript
