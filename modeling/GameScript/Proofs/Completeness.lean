import GameScript.Proofs.Inside

/-!
The text of an expression is read as the expression. Whatever is open in front of it, the pieces of an
expression lead to its operators and its last operand on top of what was open.
-/

namespace GameScript

open Token Session

section Heads

variable {mode : GameMode} {ts : List Token} {ps : List Piece}

def Heads (apart : Bool) (qs : List Piece) (text : List Char) : Prop :=
  ∃ t rest, qs = (apart, t) :: rest ∧ t.text.toList <+: text

theorem Heads.append {apart : Bool} {qs rs : List Piece} {text more : List Char} (h : Heads apart qs text) :
    Heads apart (qs ++ rs) (text ++ more) := by
  obtain ⟨t, rest, rfl, hp⟩ := h
  exact ⟨t, rest ++ rs, rfl, hp.trans (List.prefix_append _ _)⟩

theorem heads_word (apart : Bool) (w : String) : Heads apart [wordPiece apart w] w.toList :=
  ⟨_, [], rfl, List.prefix_rfl⟩

theorem heads_symbol (apart : Bool) (c : Char) (qs : List Piece) (cs : List Char) :
    Heads apart (symbolPiece apart c :: qs) (c :: cs) :=
  ⟨_, qs, rfl, by simp⟩

theorem SpellsPath.heads {path : ModulePath} (h : SpellsPath mode path ts) (apart : Bool) :
    Heads apart (pathPieces apart path) (pathText path).toList := by
  obtain ⟨first, rest, rfl⟩ := List.exists_cons_of_ne_nil h.ne_nil
  refine ⟨_, _, rfl, ?_⟩
  rw [pathText, List.map_cons, intercalate_toList]
  exact List.prefix_append _ _

theorem SpellsTarget.heads {target : FunctionRef} (h : SpellsTarget mode target ts) (apart : Bool) :
    Heads apart (target.pieces apart) target.text.toList := by
  cases h with
  | plain => exact heads_word apart _
  | qualified hq =>
    cases hq with
    | own =>
      simp only [FunctionRef.pieces, FunctionRef.text, symbolPieces, String.toList_append]
      exact heads_symbol apart ':' _ _
    | path hp =>
      simp only [FunctionRef.pieces, FunctionRef.text, String.toList_append, List.append_assoc]
      exact (hp.heads apart).append

theorem heads_front {apart : Bool} {receiver : Option Expr} {modifier : Option CallModifier} {qs : List Piece}
    {text : List Char} (hr : ∀ e ∈ receiver, ∀ apart, Heads apart (e.pieces apart) e.text.toList)
    (h : Heads (apart || receiver.isSome || modifier.isSome) qs text) :
    Heads apart (receiverPieces apart receiver ++ (modifierPieces (apart || receiver.isSome) modifier ++ qs))
      ((receiverText receiver).toList ++ ((modifierText modifier).toList ++ text)) := by
  cases receiver with
  | some e =>
    simp only [receiverPieces, receiverText, String.toList_append, List.append_assoc]
    exact (hr e rfl apart).append
  | none =>
    cases modifier with
    | some m =>
      simp only [modifierPieces, modifierText, Option.isSome_none, Bool.or_false, CallModifier.text,
        String.toList_append, List.append_assoc]
      exact (heads_word apart _).append
    | none => simpa [receiverPieces, receiverText, modifierPieces, modifierText] using h

theorem Spells.heads {e : Expr} (h : Spells mode e ts) (apart : Bool) :
    Heads apart (e.pieces apart) e.text.toList := by
  induction h generalizing apart with
  | var => exact heads_word apart _
  | func _ hq ht => exact (SpellsTarget.qualified hq ht).heads apart
  | literal => exact ⟨_, _, rfl, List.prefix_rfl⟩
  | index _ _ _ _ _ iht =>
    simp only [Expr.pieces, Expr.text, indexText, String.toList_append, List.append_assoc]
    exact (iht apart).append
  | member _ _ _ _ iht | suffix _ _ _ _ iht =>
    simp only [Expr.pieces, Expr.text, String.toList_append, List.append_assoc]
    exact (iht apart).append
  | binary _ _ _ _ _ ihl | assign _ _ _ _ _ ihl =>
    simp only [Expr.pieces, Expr.text, String.toList_append, List.append_assoc]
    exact (ihl apart).append
  | @unary _ op _ _ _ _ hf =>
    obtain ⟨c, cs, hop⟩ := List.exists_cons_of_ne_nil op.spelling_chars.2.2
    simp only [Expr.pieces, Expr.text, unaryText_toList, hop, symbolPieces, List.append_assoc, List.cons_append]
    exact heads_symbol apart c _ _
  | group | truple =>
    simp only [Expr.pieces, Expr.text, String.toList_append, List.append_assoc]
    exact heads_symbol apart '(' _ _
  | array =>
    simp only [Expr.pieces, Expr.text, String.toList_append, List.append_assoc]
    exact heads_symbol apart '[' _ _
  | @call _ _ _ _ _ _ _ _ _ _ _ _ _ _ _ ht _ _ _ _ ihr =>
    simp only [Expr.pieces, Expr.text, String.toList_append, List.append_assoc]
    exact heads_front ihr (ht.heads _).append
  | @pointerCall _ _ _ _ _ _ _ _ _ _ _ _ _ _ _ _ _ _ _ _ _ _ _ _ ihr =>
    simp only [Expr.pieces, Expr.text, String.toList_append, List.append_assoc]
    exact heads_front ihr (heads_symbol _ '[' _ _)

theorem Heads.joined_eq_nil {qs : List Piece} {text : List Char} (h : Heads true qs text) :
    joined (qs ++ ps) = [] := by
  obtain ⟨t, rest, rfl, -⟩ := h
  rfl

theorem Heads.joined_head? {qs : List Piece} {text : List Char} {c : Char} (h : Heads false qs text)
    (hc : text.head? ≠ some c) : (joined (qs ++ ps)).head? ≠ some c := by
  obtain ⟨t, rest, rfl, hp⟩ := h
  rw [List.cons_append, joined]
  split
  · next d hd =>
    rintro ⟨⟩
    unfold Token.symbol? at hd
    split at hd
    · obtain ⟨cs, rfl⟩ := hp
      cases ht : t.text.toList with
      | nil => simp [ht] at hd
      | cons d ds =>
        simp only [ht, List.head?_cons, Option.some.injEq] at hd
        simp [ht, hd] at hc
    · cases hd
  · simp

end Heads

theorem calm_apart {ps : List Piece} (h : joined ps = []) : Calm ps := by
  simp [Calm, h]

theorem calm_symbol {c : Char} {ps : List Piece} (h : c ∉ Operator.spellingChars) (apart : Bool) :
    Calm (symbolPiece apart c :: ps) := by
  intro d hd
  cases apart with
  | true => cases hd
  | false =>
    rw [symbolPiece, joined, Token.symbol?, if_pos rfl] at hd
    simp only [String.toList_ofList, List.head?_cons, Option.mem_some_iff] at hd
    rwa [← hd]

def PendingExpr.encloses : PendingExpr → Bool
  | group .. | call .. | pointerOpen .. | index _ | array .. => true
  | _ => false

theorem PendingExpr.encloses_spec {p : PendingExpr} (h : p.encloses = true) :
    p.isOperator = false ∧ p.refusesCallee = false ∧ p.isLead = false := by
  cases p with
  | group | call | pointerOpen | index | array => exact ⟨rfl, rfl, rfl⟩
  | _ => cases h

/-- An item that begins with a bracket stands apart from the bracket of the array. -/
def Expr.SetsApart : Expr → Prop
  | array _ items => startsWithArray items = true ∨ ∀ e ∈ items.head?, e.text.toList.head? ≠ some '['
  | _ => True

theorem View.exprs_node {F : Expr → Prop} {e : Expr} :
    (View.expr e).Exprs F ↔ F e ∧ ∀ c ∈ e.children, (View.expr c).Exprs F := by
  unfold View.Exprs
  rw [View.everywhere_expr]
  simp

structure Expr.Legible (allowed : Bool) (e : Expr) : Prop where
  binds : e.BindsThroughout
  formed : e.FormedThroughout allowed
  apart : (View.expr e).Exprs SetsApart

namespace Expr.Legible

variable {allowed : Bool} {e c : Expr}

theorem child (h : e.Legible allowed) (hc : c ∈ e.children) :
    c.Legible allowed ∧ (c.isAssign = true → allowed = true) :=
  ⟨⟨(bindsThroughout_iff.1 h.binds).2 c hc, (h.formed.parts c hc).1, (View.exprs_node.1 h.apart).2 c hc⟩,
    (h.formed.parts c hc).2⟩

theorem here (h : e.Legible allowed) : e.Binds ∧ e.Formed ∧ e.SetsApart :=
  ⟨(bindsThroughout_iff.1 h.binds).1, (formedThroughout_iff.1 h.formed).1.1, (View.exprs_node.1 h.apart).1⟩

end Expr.Legible

/-- Wherever an operand may start that what is open takes, the pieces of the expression lead to it. -/
def Parses (b : Session) (e : Expr) : Prop :=
  ∀ ⦃s : Session⦄ ⦃x : ExprState⦄ ⦃apart : Bool⦄ ⦃ps : List Piece⦄, x.operandAllowed = true →
    (∀ top ∈ x.stack.head?, top.Takes e) →
    (e.isAssign = true →
      b.config.allowAssignmentExpressions = true ∨ x.stack = [] ∧ x.context.takesAssignment = true) →
    (e.isAssignable = true ∨ Calm ps) → b.Inside s x (e.pieces apart ++ ps) →
    b.Comes s ps (Leaves x.context x.stack e)

section Reading

variable {b s : Session} {x : ExprState} {e : Expr} {c : ExprContext} {stack : List PendingExpr}
  {top : PendingExpr} {apart : Bool} {ps : List Piece}

theorem Parses.primary (h : Parses b e) (he : e.isPrimary) (hx : x.operandAllowed = true)
    (hp : e.isAssignable = true ∨ Calm ps) (hin : b.Inside s x (e.pieces apart ++ ps)) :
    b.Comes s ps (Holds x.context x.stack e) :=
  (h hx (fun top _ => PendingExpr.takes_of_isPrimary he top) (by simp [he.1]) hp hin).imp fun _ hz => hz.holds he

theorem Parses.part (h : Parses b e) (ha : e.isAssign = true → b.config.allowAssignmentExpressions = true)
    (ht : top.encloses = true) (hp : Calm ps) (hin : b.Inside s ⟨c, true, top :: stack, none⟩ (e.pieces apart ++ ps)) :
    b.Comes s ps fun z => ∀ id, ∃ id' y, Folds PendingExpr.isOperator id z id' y ∧ Holds c (top :: stack) e y := by
  obtain ⟨hop, hcallee, hlead⟩ := PendingExpr.encloses_spec ht
  refine (h ?_ ?_ (fun hassign => .inl (ha hassign)) (.inr hp) hin).imp fun z hz => hz.folds (by simpa using hop)
  · exact ExprState.operandAllowed_iff.2 ⟨rfl, by simp [hcallee, hlead]⟩
  · rintro _ ⟨⟩
    cases top <;> trivial

structure Collects (config : ParserConfig) (holder : List Expr → PendingExpr) : Prop where
  encloses : ∀ items, (holder items).encloses = true
  next : ∀ {t : Token} {id id' : Nat} {z : ExprState} {c : ExprContext} {stack : List PendingExpr}
    {items : List Expr} {item : Expr}, t.isSymbol ',' = true →
    Folds PendingExpr.isOperator id z id' ⟨c, true, holder items :: stack, some item⟩ →
    Shift config id z [t] id' ⟨c, true, holder (items ++ [item]) :: stack, none⟩

theorem collects_array (config : ParserConfig) (loc : Location) : Collects config (.array loc) :=
  ⟨fun _ => rfl, fun ht hf => .nextElement hf rfl rfl ht⟩

theorem collects_call (config : ParserConfig) (loc : Location) (l : CallLead) (callee : Callee) :
    Collects config (.call loc l callee) :=
  ⟨fun _ => rfl, fun ht hf => .nextArg hf rfl rfl ht⟩

def Collected (c : ExprContext) (holder : List Expr → PendingExpr) (stack : List PendingExpr) (items : List Expr)
    (z : ExprState) : Prop :=
  ∀ id, ∃ id' done last, Folds PendingExpr.isOperator id z id' ⟨c, true, holder done :: stack, last⟩ ∧
    (done ++ last.toList).map Relabel.blank.expr = items.map Relabel.blank.expr ∧ (last = none → done = [])

theorem parses_further {holder : List Expr → PendingExpr} (done : List Expr) (hb : b.Active)
    (hc : Collects b.config holder) {items : List Expr} (hn : items ≠ [])
    (hi : ∀ e ∈ items, Parses b e ∧ (e.isAssign = true → b.config.allowAssignmentExpressions = true))
    (hp : Calm ps) {done' : List Expr} (hd : done'.map Relabel.blank.expr = done.map Relabel.blank.expr)
    (hin : b.Inside s ⟨c, true, holder done' :: stack, none⟩ (exprPieces apart items ++ ps)) :
    b.Comes s ps (Collected c holder stack (done ++ items)) := by
  induction items generalizing s apart done done' with
  | nil => exact absurd rfl hn
  | cons e es ih =>
    obtain ⟨⟨he, ha⟩, hes⟩ := List.forall_mem_cons.1 hi
    rw [exprPieces, List.append_assoc] at hin
    cases es with
    | nil =>
      refine (he.part ha (hc.encloses _) hp hin).imp fun z hz id => ?_
      obtain ⟨id', y, hf, e', rfl, hae⟩ := hz id
      exact ⟨id', done', some e', hf, by simp [hd, hae.eq], by simp⟩
    | cons f fs =>
      refine (he.part ha (hc.encloses _) (calm_symbol (by decide) false) hin).trans fun s' z hz hin' => ?_
      refine (hin'.symbol hb (by decide) (by simp) (P := fun y => ∃ e',
        y = ⟨c, true, holder (done' ++ [e']) :: stack, none⟩ ∧ e'.Alike e) fun t id ht => ?_).trans
        fun s'' y hy hin'' => ?_
      · obtain ⟨id', y, hf, e', rfl, hae⟩ := hz id
        exact ⟨id', _, hc.next ht hf, e', rfl, hae⟩
      · obtain ⟨e', rfl, hae⟩ := hy
        have := ih (done ++ [e]) (by simp) hes (by simp [hd, hae.eq]) hin''
        simpa using this

theorem parses_items {holder : List Expr → PendingExpr} (hb : b.Active) (hc : Collects b.config holder)
    {items : List Expr}
    (hi : ∀ e ∈ items, Parses b e ∧ (e.isAssign = true → b.config.allowAssignmentExpressions = true))
    (hp : Calm ps) (hin : b.Inside s ⟨c, true, holder [] :: stack, none⟩ (exprPieces apart items ++ ps)) :
    b.Comes s ps (Collected c holder stack items) := by
  cases items with
  | nil =>
    refine hin.comes fun id => ⟨id, [], none, .done ?_, rfl, fun _ => rfl⟩
    simpa using (PendingExpr.encloses_spec (hc.encloses [])).1
  | cons e es =>
    have := parses_further [] hb hc (by simp) hi hp rfl hin
    simpa using this

theorem isPlain_of_text {t u : Token} {mode : GameMode} (h : t.IsPlain mode) (hk : u.kind = .identifier)
    (ht : u.text = t.text) : u.IsPlain mode := by
  refine ⟨hk, ?_⟩
  have := h.keyword
  simp only [Token.keyword?, h.kind, hk, ht] at this ⊢
  exact this

def StartsName (config : ParserConfig) (x : ExprState) (stack : List PendingExpr) : Prop :=
  ∀ t id, t.IsPlain config.dialect.mode → ∃ id' node,
    Shift config id x [t] id' { x with stack := stack, slot := some (.var node ⟨t.text, t.loc⟩) }

theorem startsName_of_calleeAllowed (config : ParserConfig) (hx : x.calleeAllowed = true) :
    StartsName config x x.stack :=
  fun _ _ ht => ⟨_, _, .plainName hx ht⟩

theorem startsName_of_receiver (config : ParserConfig) (hs : x.slot = some e)
    (hx : ∀ top ∈ x.stack.head?, top.isLead = false ∧ top.refusesCallee = false) :
    StartsName config x (.lead e.loc ⟨some e, none⟩ :: x.stack) :=
  fun _ _ ht => ⟨_, _, .receiver hs hx ht⟩

inductive Scopes (c : ExprContext) (stack : List PendingExpr) (path : ModulePath) : ExprState → Prop
  | name {node : Node} {name : Ident} (h : Relabel.blank.path [name] = Relabel.blank.path path) :
      Scopes c stack path ⟨c, true, stack, some (.var node name)⟩
  | path {loc : Location} {segments : ModulePath} (h : Relabel.blank.path segments = Relabel.blank.path path) :
      Scopes c stack path ⟨c, true, .path loc segments false :: stack, none⟩

def Names (c : ExprContext) (stack : List PendingExpr) (target : FunctionRef) (z : ExprState) : Prop :=
  ∃ e target', z = ⟨c, true, stack, some e⟩ ∧ callTarget? e = some target' ∧
    Relabel.blank.target target' = Relabel.blank.target target

theorem parses_path {path : ModulePath} {ts : List Token} (hb : b.Active) (h : SpellsPath b.gameMode path ts)
    (hx : StartsName b.config x stack) (hin : b.Inside s x (pathPieces apart path ++ ps)) :
    b.Comes s ps (Scopes x.context stack path) := by
  induction h generalizing s ps with
  | @one t ht =>
    refine hin.token hb (by simp) fun u id hk htext => ?_
    obtain ⟨id', node, hs⟩ := hx u id (isPlain_of_text ht hk htext)
    exact ⟨id', _, hs, .name (by simp [Relabel.path, htext])⟩
  | @more segments us b' t h _ ht ih =>
    rw [pathPieces_snoc _ _ h.ne_nil, List.append_assoc] at hin
    refine (ih hin).trans fun s' z hz hin' => ?_
    refine (hin'.symbol hb (by decide) (by simp) (P := fun y => ∃ loc segments',
      y = ⟨x.context, true, .path loc segments' true :: stack, none⟩ ∧
        Relabel.blank.path segments' = Relabel.blank.path segments) fun u id hu => ?_).trans
      fun s'' y hy hin'' => ?_
    · cases hz with
      | name hp => exact ⟨_, _, .firstBackslash rfl hu, _, _, rfl, hp⟩
      | path hp => exact ⟨_, _, .backslash rfl rfl hu, _, _, rfl, hp⟩
    · obtain ⟨loc, segments', rfl, hp⟩ := hy
      refine hin''.token hb (by simp) fun u id hk htext => ?_
      refine ⟨_, _, .segment rfl (isPlain_of_text ht hk htext), .path ?_⟩
      simp only [Relabel.path, List.map_append] at hp ⊢
      simp [hp, htext]

theorem parses_target {target : FunctionRef} {ts : List Token} (hb : b.Active)
    (h : SpellsTarget b.gameMode target ts) (hx : StartsName b.config x stack)
    (ho : target.isOwn = true → x.calleeAllowed = true ∧ stack = x.stack)
    (hin : b.Inside s x (target.pieces apart ++ ps)) : b.Comes s ps (Names x.context stack target) := by
  cases h with
  | @plain t ht =>
    refine hin.token hb (by simp) fun u id hk htext => ?_
    obtain ⟨id', node, hs⟩ := hx u id (isPlain_of_text ht hk htext)
    exact ⟨id', _, hs, _, _, rfl, rfl, by simp [Relabel.target, Relabel.qualifier, htext]⟩
  | @qualified qualifier us t hq ht =>
    suffices hscope : b.Comes s (wordPiece false t.text :: ps) fun z => ∃ loc qualifier',
        z = ⟨x.context, true, .qualified loc qualifier' :: stack, none⟩ ∧
          Relabel.blank.qualifier qualifier' = Relabel.blank.qualifier qualifier by
      refine hscope.trans fun s' z hz hin' => ?_
      obtain ⟨loc, qualifier', rfl, hqual⟩ := hz
      refine hin'.token hb (by simp) fun u id hk htext => ?_
      refine ⟨_, _, .functionName rfl (isPlain_of_text ht hk htext), _, _, rfl, rfl, ?_⟩
      simp [Relabel.target, hqual, htext]
    cases hq with
    | own =>
      obtain ⟨hcallee, rfl⟩ := ho rfl
      rw [FunctionRef.pieces, List.append_assoc] at hin
      exact hin.pair "::" hb (by decide) rfl fun u v id hu => ⟨_, _, .qualifyOwn hcallee hu, _, _, rfl, rfl⟩
    | path hp =>
      rw [FunctionRef.pieces, List.append_assoc, List.append_assoc] at hin
      refine (parses_path hb hp hx hin).trans fun s' z hz hin' => ?_
      refine hin'.pair "::" hb (by decide) rfl fun u v id hu => ?_
      cases hz with
      | name hpath => exact ⟨_, _, .qualifyName rfl hu, _, _, rfl, by simp [Relabel.qualifier, hpath]⟩
      | path hpath => exact ⟨_, _, .qualifyPath rfl rfl hu, _, _, rfl, by simp [Relabel.qualifier, hpath]⟩

def CallLead.Alike (l : CallLead) (receiver : Option Expr) (modifier : Option CallModifier) : Prop :=
  Relabel.blank.expr? l.receiver = Relabel.blank.expr? receiver ∧ l.modifier = modifier

inductive Fronted (x : ExprState) (receiver : Option Expr) (modifier : Option CallModifier) : ExprState → Prop
  | bare (hr : receiver = none) (hm : modifier = none) : Fronted x receiver modifier x
  | receiver {r r' : Expr} (hr : receiver = some r) (ha : r'.Alike r) (hm : modifier = none) :
      Fronted x receiver modifier ⟨x.context, true, x.stack, some r'⟩
  | lead {loc : Location} {l : CallLead} (hl : l.Alike receiver modifier) :
      Fronted x receiver modifier ⟨x.context, true, .lead loc l :: x.stack, none⟩

theorem modifier_keyword {m : CallModifier} {mode : GameMode} {t u : Token} (h : t.keyword? mode = some m.keyword)
    (hk : u.kind = .identifier) (hu : u.text = m.keyword.spelling) : u.keyword? mode = some m.keyword := by
  have hword : Keyword.ofWord? t.text mode = some m.keyword := by
    have := h
    rwa [Token.keyword?, if_pos (Token.kind_of_keyword h)] at this
  have hsame := sameWord_keyword h
  simp only [sameWord, beq_iff_eq] at hsame
  rw [Token.keyword?, if_pos hk, hu, Keyword.ofWord?_lower hsame]
  exact hword

theorem parses_front {receiver : Option Expr} {modifier : Option CallModifier} {ms : List Token} (hb : b.Active)
    (hx : x.operandAllowed = true) (hr : ∀ e ∈ receiver, Parses b e ∧ e.isPrimary)
    (hm : SpellsModifier b.gameMode modifier ms) (hp : receiver.isSome = true → modifier = none → Calm ps)
    (hin : b.Inside s x
      (receiverPieces apart receiver ++ (modifierPieces (apart || receiver.isSome) modifier ++ ps))) :
    b.Comes s ps (Fronted x receiver modifier) := by
  obtain ⟨hslot, htop⟩ := ExprState.operandAllowed_iff.1 hx
  have hlead := topIsLead_eq_false_iff.2 fun top ht => (htop top ht).2
  cases receiver with
  | none =>
    cases modifier with
    | none => exact hin.comes (.bare rfl rfl)
    | some m =>
      obtain ⟨t, -, ht⟩ := hm
      exact hin.token hb (by simp) fun u id hk hu =>
        ⟨_, _, .modifier hx (modifier_keyword ht hk hu), .lead ⟨rfl, rfl⟩⟩
  | some r =>
    obtain ⟨hparse, hprim⟩ := hr r rfl
    cases modifier with
    | none =>
      refine (hparse.primary hprim hx (.inr (hp rfl rfl)) hin).imp ?_
      rintro _ ⟨r', rfl, ha⟩
      exact .receiver rfl ha rfl
    | some m =>
      obtain ⟨t, -, ht⟩ := hm
      have hcalm : Calm (modifierPieces (apart || (some r).isSome) (some m) ++ ps) := by
        simp [Calm, modifierPieces, wordPiece]
      refine (hparse.primary hprim hx (.inr hcalm) hin).trans fun s' z hz hin' => ?_
      obtain ⟨r', rfl, ha⟩ := hz
      refine hin'.token hb (by simp) fun u id hk hu => ⟨_, _, .modifierBehind rfl hlead ?_ (modifier_keyword ht hk hu),
        .lead ⟨?_, rfl⟩⟩
      · intro target rest hst
        have := (htop _ (by rw [show x.stack = _ from hst]; rfl)).1
        cases this
      · simp [ha.eq]

def OpensArgs (x : ExprState) (receiver : Option Expr) (modifier : Option CallModifier) (P : Callee → Prop)
    (z : ExprState) : Prop :=
  ∃ loc l callee, z = ⟨x.context, true, .call loc l callee [] :: x.stack, none⟩ ∧ l.Alike receiver modifier ∧ P callee

theorem parses_named {target : FunctionRef} {ts : List Token} (hb : b.Active) (h : SpellsTarget b.gameMode target ts)
    (hx : StartsName b.config x stack) (ho : target.isOwn = true → x.calleeAllowed = true ∧ stack = x.stack)
    (hs : ∀ top ∈ stack.head?, top.refusesCallee = false)
    (hin : b.Inside s x (target.pieces apart ++ symbolPiece false '(' :: ps)) :
    b.Comes s ps fun z => ∃ e target', z = openCall ⟨x.context, true, stack, some e⟩ e.loc (.function target') ∧
      Relabel.blank.target target' = Relabel.blank.target target := by
  refine (parses_target hb h hx ho hin).trans fun s' z hz hin' => ?_
  obtain ⟨e, target', rfl, he, ht⟩ := hz
  refine hin'.symbol hb (by decide) (by simp) fun t id hsym => ⟨_, _, .openArgs rfl hs he hsym, e, target', ?_, ht⟩
  unfold openCall
  split <;> rfl

theorem parses_callee {receiver : Option Expr} {modifier : Option CallModifier} {z : ExprState} {target : FunctionRef}
    {ts : List Token} (hb : b.Active) (hx : x.operandAllowed = true) (hz : Fronted x receiver modifier z)
    (h : SpellsTarget b.gameMode target ts) (ho : receiver.isSome = true → modifier = none → target.isOwn = false)
    (hin : b.Inside s z (target.pieces apart ++ symbolPiece false '(' :: ps)) :
    b.Comes s ps (OpensArgs x receiver modifier fun callee => ∃ target', callee = .function target' ∧
      Relabel.blank.target target' = Relabel.blank.target target) := by
  obtain ⟨hslot, htop⟩ := ExprState.operandAllowed_iff.1 hx
  cases hz with
  | bare hr hm =>
    have hcallee := calleeAllowed_iff.2 ⟨hslot, fun top ht => (htop top ht).1⟩
    refine (parses_named hb h (startsName_of_calleeAllowed _ hcallee) (fun _ => ⟨hcallee, rfl⟩)
      (fun top ht => (htop top ht).1) hin).imp ?_
    rintro _ ⟨e, target', rfl, ht⟩
    refine ⟨e.loc, {}, _, ?_, ⟨by simp [hr], hm.symm⟩, target', rfl, ht⟩
    unfold openCall
    split
    · next hst =>
      have := (htop _ (by rw [show x.stack = _ from hst]; rfl)).2
      cases this
    · rfl
  | @receiver r r' hr ha hm =>
    have hown := ho (by simp [hr]) hm
    refine (parses_named hb h (startsName_of_receiver (x := ⟨x.context, true, x.stack, some r'⟩) _ rfl
      fun top ht => ⟨(htop top ht).2, (htop top ht).1⟩) (by simp [hown])
      (by simp [PendingExpr.refusesCallee, PendingExpr.expectsName]) hin).imp ?_
    rintro _ ⟨e, target', rfl, ht⟩
    exact ⟨_, _, _, rfl, ⟨by simp [hr, ha.eq], hm.symm⟩, target', rfl, ht⟩
  | @lead loc l hl =>
    have hcallee : ExprState.calleeAllowed ⟨x.context, true, .lead loc l :: x.stack, none⟩ = true := rfl
    refine (parses_named hb h (startsName_of_calleeAllowed _ hcallee) (fun _ => ⟨hcallee, rfl⟩)
      (by simp [PendingExpr.refusesCallee, PendingExpr.expectsName]) hin).imp ?_
    rintro _ ⟨e, target', rfl, ht⟩
    exact ⟨_, _, _, rfl, hl, target', rfl, ht⟩

theorem parses_pointer {receiver : Option Expr} {modifier : Option CallModifier} {z : ExprState} {pointer : Expr}
    (hb : b.Active) (hx : x.operandAllowed = true) (hz : Fronted x receiver modifier z) (h : Parses b pointer)
    (ha : pointer.isAssign = true → b.config.allowAssignmentExpressions = true)
    (hin : b.Inside s z (symbolPieces apart ['[', '['] ++ (pointer.pieces false ++
      (symbolPieces false [']', ']'] ++ symbolPiece false '(' :: ps)))) :
    b.Comes s ps (OpensArgs x receiver modifier fun callee => ∃ pointer', callee = .pointer pointer' ∧
      pointer'.Alike pointer) := by
  obtain ⟨hslot, htop⟩ := ExprState.operandAllowed_iff.1 hx
  have hopen := hin.pair "[[" hb (by decide) rfl (P := fun y => ∃ loc l,
      y = ⟨x.context, true, .pointerOpen loc l :: x.stack, none⟩ ∧ l.Alike receiver modifier) fun t u id ht => by
    cases hz with
    | bare hr hm => exact ⟨_, _, .openPointer hx ht, t.loc, {}, rfl, by simp [hr], hm.symm⟩
    | receiver hr ha' hm =>
      exact ⟨_, _, .pointerBehind rfl (fun top ht => ⟨(htop top ht).2, (htop top ht).1⟩) ht, _, _, rfl,
        by simp [hr, ha'.eq], hm.symm⟩
    | lead hl => exact ⟨_, _, .pointerInLead rfl rfl ht, _, _, rfl, hl⟩
  refine hopen.trans fun s₁ y hy hin₁ => ?_
  obtain ⟨loc, l, rfl, hl⟩ := hy
  have hcalm : Calm (symbolPieces false [']', ']'] ++ symbolPiece false '(' :: ps) := calm_symbol (by decide) false
  refine (h.part ha rfl hcalm hin₁).trans fun s₂ y hy hin₂ => ?_
  have hclose := hin₂.pair "]]" hb (by decide) rfl (P := fun y => ∃ pointer',
      y = ⟨x.context, true, .pointerReady loc l pointer' :: x.stack, none⟩ ∧ pointer'.Alike pointer) fun t u id ht => by
    obtain ⟨id', _, hf, e', rfl, he⟩ := hy id
    exact ⟨_, _, .closePointer hf rfl rfl ht, e', rfl, he⟩
  refine hclose.trans fun s₃ y hy hin₃ => ?_
  obtain ⟨pointer', rfl, he⟩ := hy
  exact hin₃.symbol hb (by decide) (by simp) fun t id ht =>
    ⟨_, _, .openPointerArgs rfl ht, loc, l, _, rfl, hl, pointer', rfl, he⟩

theorem parses_args {args : List Expr} {loc : Location} {l : CallLead} {callee : Callee} (hb : b.Active)
    (ha : ∀ e ∈ args, Parses b e ∧ (e.isAssign = true → b.config.allowAssignmentExpressions = true))
    (hin : b.Inside s ⟨c, true, .call loc l callee [] :: stack, none⟩
      (exprPieces false args ++ symbolPiece false ')' :: ps)) :
    b.Comes s ps fun z => ∃ node args', z = ⟨c, true, stack, some (sealCall node l callee args')⟩ ∧
      args'.map Relabel.blank.expr = args.map Relabel.blank.expr := by
  refine (parses_items hb (collects_call _ loc l callee) ha (calm_symbol (by decide) false) hin).trans
    fun s' z hz hin' => ?_
  refine hin'.symbol hb (by decide) (by simp) fun t id ht => ?_
  obtain ⟨id', done, last, hf, hargs, hlast⟩ := hz id
  exact ⟨_, _, .closeArgs hf rfl hlast ht, _, _, rfl, hargs⟩

section Kinds

variable {node : Node} {op : Operator}

theorem parses_word {t : Token} (hb : b.Active) (ht : t.IsPlain b.gameMode) {loc : Location} :
    Parses b (.var node ⟨t.text, loc⟩) := by
  intro s x apart ps hx _ _ _ hin
  obtain ⟨hslot, htop⟩ := ExprState.operandAllowed_iff.1 hx
  have hcallee := calleeAllowed_iff.2 ⟨hslot, fun top htop' => (htop top htop').1⟩
  refine hin.token hb (by simp) fun u id hk hu => ⟨_, _, .plainName hcallee (isPlain_of_text ht hk hu), ?_⟩
  exact Holds.leaves ⟨_, rfl, by simp [Expr.Alike, Relabel.expr, hu]⟩

theorem parses_func {target : FunctionRef} {ts : List Token} (hb : b.Active)
    (h : SpellsTarget b.gameMode target ts) (hq : target.qualifier ≠ .unqualified) : Parses b (.func node target) := by
  intro s x apart ps hx _ _ _ hin
  obtain ⟨hslot, htop⟩ := ExprState.operandAllowed_iff.1 hx
  have hcallee := calleeAllowed_iff.2 ⟨hslot, fun top htop' => (htop top htop').1⟩
  refine (parses_target hb h (startsName_of_calleeAllowed _ hcallee) (fun _ => ⟨hcallee, rfl⟩) hin).imp ?_
  rintro _ ⟨e, target', rfl, he, ht⟩
  refine Holds.leaves ⟨e, rfl, ?_⟩
  unfold callTarget? at he
  split at he
  · cases he
    cases target with
    | mk name qualifier => cases qualifier <;> simp [Relabel.target, Relabel.qualifier] at ht hq
  · cases he
    simp [Expr.Alike, Relabel.expr, ht]
  · cases he

theorem parses_literal {value : Literal} {t : Token} (hb : b.Active)
    (ht : t.literalKind? b.gameMode = some value.kind) (hr : value.raw = t.text) (hf : value.folded = false) :
    Parses b (.literal node value) := by
  intro s x apart ps hx _ _ _ hin
  have hkind := Token.kind_of_literalKind ht
  have hlit (u : Token) (hk : u.kind = value.kind.tokenKind) (hu : u.text = value.raw) :
      u.literalKind? b.gameMode = some value.kind := by
    have := ht
    simp only [Token.literalKind?, Token.keyword?, hkind, hk, hu, hr] at this ⊢
    exact this
  refine hin.token hb (by cases value.kind <;> simp [LiteralKind.tokenKind]) fun u id hk hu =>
    ⟨_, _, .literal hx (hlit u hk hu), ?_⟩
  exact Holds.leaves ⟨_, rfl, by simp [Expr.Alike, Relabel.expr, hu, ← hf]⟩

theorem parses_member {target : Expr} {name : Ident} (hb : b.Active) (h : Parses b target) (hp : target.isPrimary) :
    Parses b (.member node target name) := by
  intro s x apart ps hx _ _ _ hin
  rw [Expr.pieces, List.append_assoc] at hin
  refine (h.primary hp hx (.inr (calm_symbol (by decide) false)) hin).trans fun s₁ y hy hin₁ => ?_
  obtain ⟨target', rfl, ha⟩ := hy
  have htop := fun top ht => ((ExprState.operandAllowed_iff.1 hx).2 top ht).1
  refine (hin₁.symbol hb (by decide) (by simp) (P := fun y =>
    y = ⟨x.context, true, .member target' :: x.stack, none⟩) fun t id ht => ?_).trans fun s₂ y hy hin₂ => ?_
  · exact ⟨_, _, .point rfl htop ht, rfl⟩
  · subst hy
    refine hin₂.token hb (by simp) fun t id hk ht => ⟨_, _, .memberName rfl hk, ?_⟩
    exact Holds.leaves ⟨_, rfl, by simp [Expr.Alike, Relabel.expr, ha.eq, ht]⟩

theorem parses_index {target index : Expr} (hb : b.Active) (h : Parses b target) (hp : target.isPrimary)
    (hi : Parses b index) (ha : index.isAssign = true → b.config.allowAssignmentExpressions = true)
    (hh : ∀ apart, Heads apart (index.pieces apart) index.text.toList) : Parses b (.index node target index) := by
  intro s x apart ps hx _ _ _ hin
  rw [Expr.pieces, List.append_assoc, List.append_assoc] at hin
  refine (h.primary hp hx (.inr (calm_symbol (by decide) false)) hin).trans fun s₁ y hy hin₁ => ?_
  obtain ⟨target', rfl, hat⟩ := hy
  have htop := fun top ht => ((ExprState.operandAllowed_iff.1 hx).2 top ht).1
  have hbracket : (joined (index.pieces (index.text.toList.head? = some '[') ++ ([symbolPiece false ']'] ++ ps))).head? ≠
      some '[' := by
    by_cases hc : index.text.toList.head? = some '['
    · rw [decide_eq_true hc, (hh true).joined_eq_nil]
      simp
    · rw [decide_eq_false hc]
      exact (hh false).joined_head? hc
  refine (hin₁.symbol hb (by decide) (fun _ => hbracket) (P := fun y =>
    y = ⟨x.context, true, .index target' :: x.stack, none⟩) fun t id ht => ?_).trans fun s₂ y hy hin₂ => ?_
  · exact ⟨_, _, .openIndex rfl htop ht, rfl⟩
  subst hy
  refine (hi.part ha rfl (calm_symbol (by decide) false) hin₂).trans fun s₃ y hy hin₃ => ?_
  refine hin₃.symbol hb (by decide) (by simp) fun t id ht => ?_
  obtain ⟨id', _, hf, index', rfl, hai⟩ := hy id
  exact ⟨_, _, .closeIndex hf rfl rfl ht, Holds.leaves ⟨_, rfl, by simp [Expr.Alike, Relabel.expr, hat.eq, hai.eq]⟩⟩

theorem parses_suffix {operand : Expr} (hb : b.Active) (hf : op.fixity = .after) (h : Parses b operand)
    (ha : operand.isAssignable = true) : Parses b (.suffix node op operand) := by
  intro s x apart ps hx _ _ hp hin
  have hcalm : Calm ps := hp.resolve_left (by simp [Expr.isAssignable])
  rw [Expr.pieces, List.append_assoc] at hin
  refine (h.primary (Expr.isPrimary_of_isAssignable ha) hx (.inl ha) hin).trans fun s₁ y hy hin₁ => ?_
  obtain ⟨operand', rfl, hao⟩ := hy
  have htop := fun top ht => ((ExprState.operandAllowed_iff.1 hx).2 top ht).1
  refine hin₁.operator hb (fun _ => hcalm) fun ts id ht => ?_
  refine ⟨_, _, .suffix rfl htop (hao.isAssignable.trans ha) hf ht, Holds.leaves ⟨_, rfl, ?_⟩⟩
  simp [Expr.Alike, Relabel.expr, hao.eq]

theorem parses_unary {operand : Expr} (hb : b.Active) (hf : op.fixity = .before) (ho : op.spelling.length = 1)
    (h : Parses b operand) (hn : operand.isAssign = false ∧ operand.infix? = none) :
    Parses b (.unary node op operand) := by
  intro s x apart ps hx _ _ hp hin
  have hcalm : Calm ps := hp.resolve_left (by simp [Expr.isAssignable])
  have hslot := (ExprState.operandAllowed_iff.1 hx).1
  rw [Expr.pieces, List.append_assoc] at hin
  refine (hin.operator hb (by simp [hslot]) (P := fun y => ∃ loc,
    y = ⟨x.context, true, .unary loc op :: x.stack, none⟩) fun ts id ht => ?_).trans fun s₁ y hy hin₁ => ?_
  · obtain ⟨t, rfl⟩ : ∃ t, ts = [t] := by
      have := congrArg List.length ht
      simp only [List.length_map, String.length_toList, ho] at this
      exact List.length_eq_one_iff.1 this
    exact ⟨_, _, .unary hx hf ht, t.loc, rfl⟩
  obtain ⟨loc, rfl⟩ := hy
  refine (h (by rfl) ?_ (by simp [hn.1]) (.inr hcalm) hin₁).imp fun z hz => ?_
  · simp [PendingExpr.Takes, hn]
  refine hz.under rfl ?_ (by simp [Expr.isPrimary, Expr.isUnary]) fun op' _ => ⟨⟨hn.1, by simp [hn.2]⟩, rfl⟩
  rintro id e' ha _ ⟨⟩
  simp [Expr.Alike, Relabel.expr, ha.eq]

theorem parses_binary {left right : Expr} (hb : b.Active) (hf : op.fixity = .between) (hl : Parses b left)
    (hleft : left.BindsLeftOf op) (hr : Parses b right) (hright : right.BindsRightOf op)
    (hh : Heads true (right.pieces true) right.text.toList) : Parses b (.binary node op left right) := by
  intro s x apart ps hx htakes _ hp hin
  have hcalm : Calm ps := hp.resolve_left (by simp [Expr.isAssignable])
  have hopen := (ExprState.operandAllowed_iff.1 hx).2
  -- What is open takes the whole operation, so it takes the left operand and does not join it with the operator.
  have hbelow : ∀ top ∈ x.stack.head?, top.Takes left ∧ ExprState.bindsBefore op top = false := by
    intro top ht
    have htop := htakes top ht
    cases top with
    | binary lower _ =>
      have hlt : lower.precedence < op.precedence := by simpa [PendingExpr.Takes, Expr.BindsRightOf, Expr.infix?] using htop.2
      refine ⟨⟨hleft.1, fun inner hi => ?_⟩, by simpa [ExprState.bindsBefore] using hlt⟩
      exact Nat.lt_of_lt_of_le hlt (hleft.2 inner hi)
    | unary => simp [PendingExpr.Takes, Expr.infix?] at htop
    | _ => exact ⟨trivial, rfl⟩
  rw [Expr.pieces, List.append_assoc, List.append_assoc] at hin
  have hoperator {qs : List Piece} : Calm (symbolPieces true op.spelling.toList ++ qs) := by
    obtain ⟨c, cs, hop⟩ := List.exists_cons_of_ne_nil op.spelling_chars.2.2
    rw [hop]
    exact calm_apart rfl
  refine (hl hx (fun top ht => (hbelow top ht).1) (by simp [hleft.1]) (.inr hoperator) hin).trans
    fun s₁ y hy hin₁ => ?_
  refine (hin₁.operator hb (fun _ => calm_apart hh.joined_eq_nil) (P := fun z => ∃ left',
    z = ⟨x.context, true, .binary op left' :: x.stack, none⟩ ∧ left'.Alike left) fun ts id ht => ?_).trans
    fun s₂ z hz hin₂ => ?_
  · obtain ⟨id', _, hfold, left', rfl, hal⟩ := hy.bindsBefore hleft (fun top ht => (hbelow top ht).2) id
    exact ⟨_, _, .binary hfold hy.slot_isSome rfl hf ht, left', rfl, hal⟩
  obtain ⟨left', rfl, hal⟩ := hz
  refine (hr (by rfl) (by simpa [PendingExpr.Takes] using hright) (by simp [hright.1]) (.inr hcalm) hin₂).imp
    fun z hz => ?_
  refine hz.under rfl ?_ (by simp [Expr.isPrimary, Expr.infix?]) fun op' hop => ?_
  · rintro id e' ha _ ⟨⟩
    simp [Expr.Alike, Relabel.expr, ha.eq, hal.eq]
  · have hle : op'.precedence ≤ op.precedence := hop.2 op rfl
    refine ⟨⟨hright.1, fun inner hi => ?_⟩, by simpa [ExprState.bindsBefore] using hle⟩
    exact Nat.le_of_lt (Nat.lt_of_le_of_lt hle (hright.2 inner hi))

theorem parses_assign {target value : Expr} (hb : b.Active) (hf : op.fixity = .assigning) (ht : Parses b target)
    (ha : target.isAssignable = true) (hv : Parses b value)
    (hn : value.isAssign = true → b.config.allowAssignmentExpressions = true)
    (hh : Heads true (value.pieces true) value.text.toList) : Parses b (.assign node op target value) := by
  intro s x apart ps hx htakes hplace hp hin
  have hcalm : Calm ps := hp.resolve_left (by simp [Expr.isAssignable])
  have hopen := (ExprState.operandAllowed_iff.1 hx).2
  have hbelow : ∀ top ∈ x.stack.head?, top.refusesCallee = false ∧ top.isLead = false ∧
      (top.isOperator = true → ∃ op' target', top = .assign op' target') := by
    intro top htop
    refine ⟨(hopen top htop).1, (hopen top htop).2, fun hop => ?_⟩
    have := htakes top htop
    cases top with
    | binary | unary => simp [PendingExpr.Takes, Expr.BindsRightOf, Expr.isAssign] at this
    | assign op' target' => exact ⟨op', target', rfl⟩
    | _ => cases hop
  rw [Expr.pieces, List.append_assoc, List.append_assoc] at hin
  refine (ht.primary (Expr.isPrimary_of_isAssignable ha) hx (.inl ha) hin).trans fun s₁ y hy hin₁ => ?_
  obtain ⟨target', rfl, hat⟩ := hy
  refine (hin₁.operator hb (fun _ => calm_apart hh.joined_eq_nil) (P := fun z =>
    z = ⟨x.context, true, .assign op target' :: x.stack, none⟩) fun ts id hts => ?_).trans fun s₂ z hz hin₂ => ?_
  · exact ⟨_, _, .assign rfl hbelow (hplace rfl).symm (hat.isAssignable.trans ha) hf hts, rfl⟩
  subst hz
  refine (hv (by rfl) (by simp [PendingExpr.Takes]) (fun h => .inl (hn h)) (.inr hcalm) hin₂).imp fun z hz => ?_
  refine hz.under rfl ?_ (by simp [Expr.isPrimary, Expr.isAssign]) fun op' hop =>
    absurd hop.1 Bool.noConfusion
  rintro id e' hae _ ⟨⟩
  simp [Expr.Alike, Relabel.expr, hae.eq, hat.eq]

theorem parses_group {inner : Expr} (hb : b.Active) (h : Parses b inner)
    (ha : inner.isAssign = true → b.config.allowAssignmentExpressions = true) : Parses b (.group node inner) := by
  intro s x apart ps hx _ _ _ hin
  rw [Expr.pieces, List.append_assoc] at hin
  refine (hin.symbol hb (by decide) (by simp) (P := fun y => ∃ loc,
    y = ⟨x.context, true, .group loc [] :: x.stack, none⟩) fun t id ht => ⟨_, _, .openGroup hx ht, _, rfl⟩).trans
    fun s₁ y hy hin₁ => ?_
  obtain ⟨loc, rfl⟩ := hy
  refine (h.part ha rfl (calm_symbol (by decide) false) hin₁).trans fun s₂ y hy hin₂ => ?_
  refine hin₂.symbol hb (by decide) (by simp) fun t id ht => ?_
  obtain ⟨id', _, hf, inner', rfl, hai⟩ := hy id
  exact ⟨_, _, .closeGroup hf rfl rfl ht, Holds.leaves ⟨_, rfl, by simp [Expr.Alike, Relabel.expr, hai.eq]⟩⟩

theorem Parses.item {items' : List Expr} {loc : Location} (items : List Expr) (hb : b.Active) (h : Parses b e)
    (ha : e.isAssign = true → b.config.allowAssignmentExpressions = true) (hl : items'.length ≠ 2)
    (hi : items'.map Relabel.blank.expr = items.map Relabel.blank.expr)
    (hin : b.Inside s ⟨c, true, .group loc items' :: stack, none⟩ (e.pieces apart ++ symbolPiece false ',' :: ps)) :
    b.Comes s ps fun z => ∃ items', z = ⟨c, true, .group loc items' :: stack, none⟩ ∧
      items'.map Relabel.blank.expr = (items ++ [e]).map Relabel.blank.expr := by
  refine (h.part ha rfl (calm_symbol (by decide) false) hin).trans fun s₁ y hy hin₁ => ?_
  refine hin₁.symbol hb (by decide) (by simp) fun t id ht => ?_
  obtain ⟨id', _, hf, e', rfl, hae⟩ := hy id
  exact ⟨_, _, .nextItem hf rfl rfl hl ht, items' ++ [e'], rfl, by simp [hi, hae.eq]⟩

theorem parses_truple {u v w : Expr} (hb : b.Active) (hu : Parses b u) (hv : Parses b v) (hw : Parses b w)
    (ha : ∀ e ∈ [u, v, w], e.isAssign = true → b.config.allowAssignmentExpressions = true) :
    Parses b (.truple node u v w) := by
  intro s x apart ps hx _ _ _ hin
  simp only [Expr.pieces, List.append_assoc, List.cons_append] at hin
  refine (hin.symbol hb (by decide) (by simp) (P := fun y => ∃ loc,
    y = ⟨x.context, true, .group loc [] :: x.stack, none⟩) fun t id ht => ⟨_, _, .openGroup hx ht, _, rfl⟩).trans
    fun s₁ y hy hin₁ => ?_
  obtain ⟨loc, rfl⟩ := hy
  refine (hu.item [] hb (ha u (by simp)) (by simp) rfl hin₁).trans fun s₂ y hy hin₂ => ?_
  obtain ⟨items₁, rfl, h₁⟩ := hy
  have hlen₁ : items₁.length = 1 := by simpa using congrArg List.length h₁
  refine (hv.item _ hb (ha v (by simp)) (by simp [hlen₁]) h₁ hin₂).trans fun s₃ y hy hin₃ => ?_
  obtain ⟨items₂, rfl, h₂⟩ := hy
  obtain ⟨u', v', rfl⟩ := List.length_eq_two.1 (by simpa using congrArg List.length h₂)
  refine (hw.part (ha w (by simp)) rfl (calm_symbol (by decide) false) hin₃).trans fun s₄ y hy hin₄ => ?_
  refine hin₄.symbol hb (by decide) (by simp) fun t id ht => ?_
  obtain ⟨id', _, hf, w', rfl, haw⟩ := hy id
  refine ⟨_, _, .closeTruple hf rfl rfl ht, Holds.leaves ⟨_, rfl, ?_⟩⟩
  have h₂ : Relabel.blank.expr u' = Relabel.blank.expr u ∧ Relabel.blank.expr v' = Relabel.blank.expr v := by
    simpa using h₂
  simp [Expr.Alike, Relabel.expr, h₂, haw.eq]

theorem parses_array {items : List Expr} (hb : b.Active)
    (hi : ∀ e ∈ items, Parses b e ∧ (e.isAssign = true → b.config.allowAssignmentExpressions = true))
    (hh : ∀ e ∈ items, ∀ apart, Heads apart (e.pieces apart) e.text.toList)
    (hs : (Expr.array node items).SetsApart) : Parses b (.array node items) := by
  intro s x apart ps hx _ _ _ hin
  rw [Expr.pieces, List.append_assoc] at hin
  have hbracket : (joined (exprPieces (startsWithArray items) items ++ ([symbolPiece false ']'] ++ ps))).head? ≠
      some '[' := by
    cases items with
    | nil => simp [exprPieces, symbolPiece, joined, Token.symbol?]
    | cons e es =>
      rw [exprPieces, List.append_assoc]
      cases ha : startsWithArray (e :: es) with
      | true =>
        rw [(hh e (by simp) true).joined_eq_nil]
        simp
      | false =>
        refine (hh e (by simp) false).joined_head? ?_
        simpa [Expr.SetsApart, ha] using hs
  refine (hin.symbol hb (by decide) (fun _ => hbracket) (P := fun y => ∃ loc,
    y = ⟨x.context, true, .array loc [] :: x.stack, none⟩) fun t id ht => ⟨_, _, .openArray hx ht, _, rfl⟩).trans
    fun s₁ y hy hin₁ => ?_
  obtain ⟨loc, rfl⟩ := hy
  refine (parses_items hb (collects_array _ loc) hi (calm_symbol (by decide) false) hin₁).trans
    fun s₂ y hy hin₂ => ?_
  refine hin₂.symbol hb (by decide) (by simp) fun t id ht => ?_
  obtain ⟨id', done, last, hf, hitems, hlast⟩ := hy id
  exact ⟨_, _, .closeArray hf rfl hlast ht, Holds.leaves ⟨_, rfl, by simpa [Expr.Alike, Relabel.expr] using hitems⟩⟩

theorem parses_call {receiver : Option Expr} {modifier : Option CallModifier} {target : FunctionRef} {args : List Expr}
    {ms ts : List Token} (hb : b.Active) (hr : ∀ e ∈ receiver, Parses b e ∧ e.isPrimary)
    (hm : SpellsModifier b.gameMode modifier ms) (ht : SpellsTarget b.gameMode target ts)
    (ho : receiver.isSome = true → modifier = none → target.isOwn = false)
    (ha : ∀ e ∈ args, Parses b e ∧ (e.isAssign = true → b.config.allowAssignmentExpressions = true)) :
    Parses b (.call node receiver modifier target args) := by
  intro s x apart ps hx _ _ _ hin
  simp only [Expr.pieces, List.append_assoc, List.cons_append] at hin
  have hcalm : receiver.isSome = true → modifier = none → Calm (target.pieces
      (apart || receiver.isSome || modifier.isSome) ++ symbolPiece false '(' :: (exprPieces false args ++
        ([symbolPiece false ')'] ++ ps))) := by
    intro hsome _
    rw [hsome, Bool.or_true, Bool.true_or]
    exact calm_apart (ht.heads true).joined_eq_nil
  refine (parses_front hb hx hr hm hcalm hin).trans fun s₁ y hy hin₁ => ?_
  refine (parses_callee hb hx hy ht ho hin₁).trans fun s₂ y hy hin₂ => ?_
  obtain ⟨loc, l, _, rfl, hl, target', rfl, htarget⟩ := hy
  refine (parses_args hb ha hin₂).imp ?_
  rintro _ ⟨node', args', rfl, hargs⟩
  exact Holds.leaves ⟨_, rfl, by simpa [Expr.Alike, sealCall, Relabel.expr, htarget, hargs, CallLead.Alike] using hl⟩

theorem parses_pointerCall {receiver : Option Expr} {modifier : Option CallModifier} {pointer : Expr}
    {args : List Expr} {ms : List Token} (hb : b.Active) (hr : ∀ e ∈ receiver, Parses b e ∧ e.isPrimary)
    (hm : SpellsModifier b.gameMode modifier ms) (h : Parses b pointer)
    (hn : pointer.isAssign = true → b.config.allowAssignmentExpressions = true)
    (ha : ∀ e ∈ args, Parses b e ∧ (e.isAssign = true → b.config.allowAssignmentExpressions = true)) :
    Parses b (.pointerCall node receiver modifier pointer args) := by
  intro s x apart ps hx _ _ _ hin
  simp only [Expr.pieces, List.append_assoc, List.cons_append] at hin
  refine (parses_front hb hx hr hm (fun _ _ => calm_symbol (by decide) _) hin).trans fun s₁ y hy hin₁ => ?_
  refine (parses_pointer hb hx hy h hn hin₁).trans fun s₂ y hy hin₂ => ?_
  obtain ⟨loc, l, _, rfl, hl, pointer', rfl, hpointer⟩ := hy
  refine (parses_args hb ha hin₂).imp ?_
  rintro _ ⟨node', args', rfl, hargs⟩
  exact Holds.leaves ⟨_, rfl, by simpa [Expr.Alike, sealCall, Relabel.expr, hpointer.eq, hargs, CallLead.Alike] using hl⟩

end Kinds

theorem items_parse {items : List (Expr × List Token)}
    (h : ∀ item ∈ items, item.1.Legible b.config.allowAssignmentExpressions → Parses b item.1)
    (he : e.Legible b.config.allowAssignmentExpressions) (hc : ∀ c ∈ items.map Prod.fst, c ∈ e.children) :
    ∀ c ∈ items.map Prod.fst, Parses b c ∧ (c.isAssign = true → b.config.allowAssignmentExpressions = true) := by
  intro c hmem
  obtain ⟨hlegible, ha⟩ := he.child (hc c hmem)
  obtain ⟨item, hitem, rfl⟩ := List.mem_map.1 hmem
  exact ⟨h item hitem hlegible, ha⟩

theorem Spells.parses {ts : List Token} (hb : b.Active) (h : Spells b.gameMode e ts)
    (he : e.Legible b.config.allowAssignmentExpressions) : Parses b e := by
  induction h with
  | var ht => exact parses_word hb ht
  | func _ hq ht =>
    refine parses_func hb (.qualified hq ht) ?_
    cases hq <;> simp
  | literal ht => exact parses_literal hb ht rfl he.here.2.1
  | index _ _ _ hi _ iht ihi =>
    obtain ⟨ht, -⟩ := he.child (c := _) (List.mem_cons_self)
    obtain ⟨hi', ha⟩ := he.child (c := _) (List.mem_cons_of_mem _ List.mem_cons_self)
    exact parses_index hb (iht ht) he.here.1 (ihi hi') ha hi.heads
  | member _ _ _ _ iht => exact parses_member hb (iht (he.child List.mem_cons_self).1) he.here.1
  | binary _ _ hf _ hright ihl ihr =>
    obtain ⟨hl, -⟩ := he.child (c := _) (List.mem_cons_self)
    obtain ⟨hr, -⟩ := he.child (c := _) (List.mem_cons_of_mem _ List.mem_cons_self)
    exact parses_binary hb hf (ihl hl) he.here.1.1 (ihr hr) he.here.1.2 (hright.heads true)
  | @unary _ op _ _ _ _ hf ho _ iht =>
    have hlen : op.spelling.length = 1 := by
      rw [← String.length_toList]
      simpa using (congrArg List.length ho).symm
    exact parses_unary hb hf hlen (iht (he.child List.mem_cons_self).1) he.here.1
  | suffix _ _ hf _ iht => exact parses_suffix hb hf (iht (he.child List.mem_cons_self).1) he.here.2.1
  | group _ _ _ _ iht =>
    obtain ⟨hi, ha⟩ := he.child (c := _) (List.mem_cons_self)
    exact parses_group hb (iht hi) ha
  | truple _ _ _ _ _ _ _ _ ihx ihy ihz =>
    have hchild := fun c hc => he.child (c := c) hc
    simp only [Expr.children, List.forall_mem_cons] at hchild
    obtain ⟨hx, hy, hz, -⟩ := hchild
    exact parses_truple hb (ihx hx.1) (ihy hy.1) (ihz hz.1) (by simpa using ⟨hx.2, hy.2, hz.2⟩)
  | array _ _ hi _ _ ihi =>
    refine parses_array hb (items_parse ihi he fun _ hc => hc) (fun c hc => ?_) he.here.2.2
    obtain ⟨item, hitem, rfl⟩ := List.mem_map.1 hc
    exact (hi item hitem).heads
  | assign _ _ hf _ hv iht ihv =>
    obtain ⟨ht, -⟩ := he.child (c := _) (List.mem_cons_self)
    obtain ⟨hv', ha⟩ := he.child (c := _) (List.mem_cons_of_mem _ List.mem_cons_self)
    exact parses_assign hb hf (iht ht) he.here.2.1 (ihv hv') ha (hv.heads true)
  | @call _ receiver modifier target _ _ _ _ _ _ _ _ _ _ hm ht _ _ _ _ ihr iha =>
    refine parses_call hb (fun r hr => ?_) hm ht (fun hr hm' => ?_) (items_parse iha he fun c hc => ?_)
    · exact ⟨ihr r hr (he.child (by simp [Expr.children, Option.mem_def.1 hr])).1, he.here.1 r hr⟩
    · obtain ⟨r, rfl⟩ := Option.isSome_iff_exists.1 hr
      subst hm'
      exact he.here.2.1
    · exact List.mem_append_right _ hc
  | @pointerCall _ receiver modifier pointer args _ _ _ _ _ _ _ _ _ _ _ hm _ _ _ _ _ _ _ ihr iht iha =>
    obtain ⟨hp, ha⟩ := he.child (c := pointer) (by simp [Expr.children])
    refine parses_pointerCall hb (fun r hr => ?_) hm (iht hp) ha (items_parse iha he fun c hc => ?_)
    · exact ⟨ihr r hr (he.child (by simp [Expr.children, Option.mem_def.1 hr])).1, he.here.1 r hr⟩
    · exact List.mem_append_right _ (List.mem_cons_of_mem _ hc)

end Reading

end GameScript
