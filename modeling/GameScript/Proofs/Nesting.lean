import GameScript.Proofs.Bodies

namespace GameScript

namespace View

/-- The way from the root of a tree to a node: all nodes around it, the innermost first. -/
inductive Path (root : View) : List View → View → Prop
  | root : Path root [] root
  | child {above : List View} {v c : View} (h : Path root above v) (hc : c ∈ v.children) : Path root (v :: above) c

theorem Path.append {root v u : View} {above inner : List View} (h : root.Path above v) (hu : v.Path inner u) :
    root.Path (inner ++ above) u := by
  induction hu with
  | root => exact h
  | child _ hc ih => exact .child ih hc

theorem child_mem_walk {root v c : View} (h : v ∈ root.walk) (hc : c ∈ v.children) : c ∈ root.walk := by
  induction root using View.walk.induct with
  | case1 root ih =>
    rw [walk_eq, List.mem_cons, List.mem_flatMap] at h ⊢
    right
    obtain rfl | ⟨d, hd, h⟩ := h
    · refine ⟨c, hc, ?_⟩
      rw [walk_eq]
      exact List.mem_cons_self
    · exact ⟨d, hd, ih d hd h⟩

theorem mem_walk_iff_path {root v : View} : v ∈ root.walk ↔ ∃ above, root.Path above v := by
  constructor
  · intro h
    induction root using View.walk.induct with
    | case1 root ih =>
      rw [walk_eq, List.mem_cons, List.mem_flatMap] at h
      obtain rfl | ⟨c, hc, h⟩ := h
      · exact ⟨[], .root⟩
      · obtain ⟨above, hpath⟩ := ih c hc h
        exact ⟨_, (Path.child .root hc).append hpath⟩
  · rintro ⟨above, h⟩
    induction h with
    | root =>
      rw [walk_eq]
      exact List.mem_cons_self
    | child _ hc ih => exact child_mem_walk ih hc

end View

def Stmt.flowTarget? : Stmt → Option FlowTarget
  | whileLoop node .. | forLoop node .. | foreachLoop node .. => some ⟨.loop, node.id⟩
  | switch node .. => some ⟨.switch, node.id⟩
  | _ => none

def View.flowTarget? : View → Option FlowTarget
  | stmt s => s.flowTarget?
  | _ => none

theorem Stmt.Built.child {allow : Bool} {cs : Constants} {targets : List FlowTarget} {s c : Stmt}
    (h : s.Built allow cs targets) (hc : View.stmt c ∈ s.children) :
    c.Built allow cs (s.flowTarget?.toList ++ targets) := by
  cases h with
  | expr | flow => simp [Stmt.children] at hc
  | keywordCall => simp [Stmt.children] at hc
  | block h => exact h c (by simpa [Stmt.children] using hc)
  | ifThen h =>
    obtain rfl : c = _ := by simpa [Stmt.children] using hc
    exact h
  | ifElse h h' =>
    obtain rfl | rfl : c = _ ∨ c = _ := by simpa [Stmt.children] using hc
    · exact h
    · exact h'
  | whileLoop h | forLoop h | foreachLoop h =>
    obtain rfl : c = _ := by simpa [Stmt.children] using hc
    exact h
  | switch _ h => exact h c (by simpa [Stmt.children] using hc)

def View.Placed (allowDefaultWithCase : Bool) (g : Graph) (above : List View) : View → Prop
  | stmt s => ∃ f ∈ g.functions, View.function f ∈ above ∧
    s.Built allowDefaultWithCase (g.constantsBefore f) (above.filterMap View.flowTarget?)
  | function f => f ∈ g.functions ∧ above.filterMap View.flowTarget? = []
  | script s => g = .script s ∧ above = []
  | _ => True

theorem Stmt.children_cases {s : Stmt} {c : View} (h : c ∈ s.children) : (∃ e, c = .expr e) ∨ ∃ b, c = .stmt b := by
  cases s <;> simp only [Stmt.children, List.mem_append, List.mem_cons, List.mem_map, List.not_mem_nil] at h <;> grind

theorem View.Placed.child {allow : Bool} {g : Graph} (hg : g.Built allow) {above : List View} {v c : View}
    (h : v.Placed allow g above) (hc : c ∈ v.children) : c.Placed allow g (v :: above) := by
  cases v with
  | stmt s =>
    obtain ⟨f, hf, hmem, hs⟩ := h
    obtain ⟨e, rfl⟩ | ⟨b, rfl⟩ := Stmt.children_cases hc
    · exact trivial
    · refine ⟨f, hf, List.mem_cons_of_mem _ hmem, ?_⟩
      have hb := hs.child hc
      cases ht : s.flowTarget? <;> simpa [View.flowTarget?, ht] using hb
  | function f =>
    obtain ⟨hf, habove⟩ := h
    obtain hc | hc := List.mem_append.1 hc
    · obtain ⟨p, -, rfl⟩ := List.mem_map.1 hc
      exact trivial
    · obtain ⟨s, hs, rfl⟩ := List.mem_map.1 hc
      refine ⟨f, hf, List.mem_cons_self, ?_⟩
      rw [List.filterMap_cons_none (by rfl), habove]
      exact (hg f hf).statements s hs
  | script s =>
    obtain ⟨rfl, rfl⟩ := h
    simp only [View.children, List.mem_append, List.mem_map] at hc
    obtain (⟨d, -, rfl⟩ | ⟨d, hd, rfl⟩) | ⟨d, -, rfl⟩ := hc
    · exact trivial
    · cases d with
      | function f => exact ⟨List.mem_filterMap.2 ⟨_, hd, rfl⟩, rfl⟩
      | directive d => exact trivial
    · exact trivial
  | expr | directive =>
    obtain ⟨x, -, rfl⟩ := List.mem_map.1 hc
    exact trivial
  | param => cases hc
  | constant d =>
    obtain rfl : c = .expr d.value := List.mem_singleton.1 hc
    exact trivial

theorem Graph.Built.placed {allow : Bool} {g : Graph} (hg : g.Built allow) {above : List View} {v : View}
    (h : g.view.Path above v) : v.Placed allow g above := by
  induction h with
  | root =>
    cases g with
    | script s => exact ⟨rfl, rfl⟩
    | function f => exact ⟨List.mem_singleton_self f, rfl⟩
    | expression e => exact trivial
  | child _ hc ih => exact ih.child hg hc

/-- The target is the innermost of the nodes around a flow statement that it can refer to: a loop, or a
switch if it is a `break`. -/
def FlowKind.Nearest (kind : FlowKind) (above : List View) (target : FlowTarget) : Prop :=
  ∃ inner v outer, above = inner ++ v :: outer ∧ v.flowTarget? = some target ∧
    (kind = .continueFlow → target.kind = .loop) ∧
    ∀ u ∈ inner, ∀ other ∈ u.flowTarget?, kind = .continueFlow ∧ other.kind = .switch

theorem FlowKind.nearest_of_target? {kind : FlowKind} {above : List View} {target : FlowTarget}
    (h : kind.target? (above.filterMap View.flowTarget?) = some target) :
    kind.Nearest above target := by
  induction above with
  | nil => simp [FlowKind.target?] at h
  | cons v above ih =>
    -- The node goes to the inner ones unless it is the target itself.
    have hfurther (hv : ∀ other ∈ v.flowTarget?, kind = .continueFlow ∧ other.kind = .switch)
        (h : kind.target? (above.filterMap View.flowTarget?) = some target) : kind.Nearest (v :: above) target := by
      obtain ⟨inner, w, outer, habove, hw, hloop, hinner⟩ := ih h
      exact ⟨v :: inner, w, outer, by rw [habove]; rfl, hw, hloop, List.forall_mem_cons.2 ⟨hv, hinner⟩⟩
    cases hv : v.flowTarget? with
    | none =>
      rw [List.filterMap_cons_none hv] at h
      exact hfurther (by simp [hv]) h
    | some other =>
      rw [List.filterMap_cons_some hv, FlowKind.target?, List.find?_cons] at h
      split at h
      · next hfits =>
        obtain rfl := Option.some.inj h
        refine ⟨[], v, above, rfl, hv, ?_, by simp⟩
        rintro rfl
        simpa using hfits
      · next hfits =>
        refine hfurther ?_ h
        simp only [hv, Option.mem_some_iff, forall_eq']
        cases kind <;> cases hk : other.kind <;> simp_all

/-- A `break` refers to the innermost loop or switch around it, and a `continue` to the innermost loop. -/
theorem parse_flow {tokens : List Token} {config : ParserConfig} {g : Graph} {above : List View} {node : Node}
    {kind : FlowKind} {target : FlowTarget} (h : (parse tokens config).graph = some g)
    (hp : g.view.Path above (.stmt (.flow node kind target))) :
    kind.Nearest above target := by
  obtain ⟨f, -, -, hb⟩ := (parse_built h).placed hp
  cases hb with
  | flow ht => exact FlowKind.nearest_of_target? ht

theorem parse_flow_while :
    let flow : Stmt := .flow ⟨4, ⟨1, 13, 12⟩⟩ .breakFlow ⟨.loop, 2⟩
    let loop : Stmt := .whileLoop ⟨2, ⟨1, 5, 4⟩⟩ (.var ⟨3, ⟨1, 11, 10⟩⟩ ⟨"a", ⟨1, 11, 10⟩⟩) flow
    let f : FunctionDef := ⟨⟨0, .start⟩, ⟨"f", .start⟩, [], some ⟨⟨1, ⟨1, 4, 3⟩⟩, [loop]⟩, false, 0⟩
    let s : Script := { declarations := [.function f] }
    (parse
      [⟨.identifier, "f", .start⟩, ⟨.symbol, "(", ⟨1, 2, 1⟩⟩, ⟨.symbol, ")", ⟨1, 3, 2⟩⟩,
        ⟨.symbol, "\x7b", ⟨1, 4, 3⟩⟩, ⟨.identifier, "while", ⟨1, 5, 4⟩⟩, ⟨.symbol, "(", ⟨1, 10, 9⟩⟩,
        ⟨.identifier, "a", ⟨1, 11, 10⟩⟩, ⟨.symbol, ")", ⟨1, 12, 11⟩⟩, ⟨.identifier, "break", ⟨1, 13, 12⟩⟩,
        ⟨.symbol, ";", ⟨1, 18, 17⟩⟩, ⟨.symbol, "\x7d", ⟨1, 19, 18⟩⟩] {}).graph = some (.script s) ∧
      FlowKind.breakFlow.Nearest [.stmt loop, .function f, .script s] ⟨.loop, 2⟩ := by
  intro flow loop f s
  have hscript : (Graph.script s).view.Path [.script s] (.function f) :=
    .child .root (by simp [s, View.children, Declaration.view])
  have hloop := hscript.child (c := .stmt loop) (by simp [f, View.children, FunctionDef.statements])
  have hflow := hloop.child (c := .stmt flow) (by simp [loop, View.children, Stmt.children])
  exact (and_iff_left_of_imp fun h => parse_flow h hflow).2 rfl

/-- Every switch is in a function, its cases partition its body, and its labels are distinct under the
constants in front of the function. -/
theorem parse_segments {tokens : List Token} {config : ParserConfig} {g : Graph} {above : List View}
    {node bodyNode : Node} {subject : Expr} {statements : List Stmt} {cases : List Case}
    (h : (parse tokens config).graph = some g)
    (hp : g.view.Path above (.stmt (.switch node subject bodyNode statements cases))) :
    ∃ f ∈ g.functions, View.function f ∈ above ∧
      Segmented config.allowDefaultWithCase (g.constantsBefore f) statements cases := by
  obtain ⟨f, hf, hmem, hb⟩ := (parse_built h).placed hp
  cases hb with
  | switch hc => exact ⟨f, hf, hmem, hc⟩

theorem parse_segments_default :
    let flow : Stmt := .flow ⟨6, ⟨1, 22, 21⟩⟩ .breakFlow ⟨.switch, 2⟩
    let cases : List Case :=
      [⟨⟨1, 15, 14⟩, 0, [.value (.literal ⟨5, ⟨1, 20, 19⟩⟩ ⟨.integer, "1", true⟩)], 0, 1⟩,
        ⟨⟨1, 28, 27⟩, 1, [.default ⟨1, 28, 27⟩], 1, 1⟩]
    let switch : Stmt := .switch ⟨2, ⟨1, 5, 4⟩⟩ (.var ⟨3, ⟨1, 12, 11⟩⟩ ⟨"a", ⟨1, 12, 11⟩⟩) ⟨4, ⟨1, 14, 13⟩⟩ [flow] cases
    let f : FunctionDef := ⟨⟨0, .start⟩, ⟨"f", .start⟩, [], some ⟨⟨1, ⟨1, 4, 3⟩⟩, [switch]⟩, false, 0⟩
    let s : Script := { declarations := [.function f] }
    (parse
      [⟨.identifier, "f", .start⟩, ⟨.symbol, "(", ⟨1, 2, 1⟩⟩, ⟨.symbol, ")", ⟨1, 3, 2⟩⟩,
        ⟨.symbol, "\x7b", ⟨1, 4, 3⟩⟩, ⟨.identifier, "switch", ⟨1, 5, 4⟩⟩, ⟨.symbol, "(", ⟨1, 11, 10⟩⟩,
        ⟨.identifier, "a", ⟨1, 12, 11⟩⟩, ⟨.symbol, ")", ⟨1, 13, 12⟩⟩, ⟨.symbol, "\x7b", ⟨1, 14, 13⟩⟩,
        ⟨.identifier, "case", ⟨1, 15, 14⟩⟩, ⟨.number, "1", ⟨1, 20, 19⟩⟩, ⟨.symbol, ":", ⟨1, 21, 20⟩⟩,
        ⟨.identifier, "break", ⟨1, 22, 21⟩⟩, ⟨.symbol, ";", ⟨1, 27, 26⟩⟩, ⟨.identifier, "default", ⟨1, 28, 27⟩⟩,
        ⟨.symbol, ":", ⟨1, 35, 34⟩⟩, ⟨.symbol, "\x7d", ⟨1, 36, 35⟩⟩, ⟨.symbol, "\x7d", ⟨1, 37, 36⟩⟩] {}).graph =
        some (.script s) ∧
      ∃ f ∈ s.functions, Segmented false (s.constantsBefore f) [flow] cases := by
  intro flow cases switch f s
  have hscript : (Graph.script s).view.Path [.script s] (.function f) :=
    .child .root (by simp [s, View.children, Declaration.view])
  have hswitch := hscript.child (c := .stmt switch) (by simp [f, View.children, FunctionDef.statements])
  refine (and_iff_left_of_imp fun h => ?_).2 rfl
  obtain ⟨f, hf, -, hcases⟩ := parse_segments h hswitch
  exact ⟨f, hf, hcases⟩

end GameScript
