import GameScript.Proofs.Precedence

namespace GameScript

def FunctionRef.isOwn (f : FunctionRef) : Bool :=
  f.qualifier == .own

namespace Expr

def Formed : Expr → Prop
  | assign _ _ target _ | suffix _ _ target => target.isAssignable = true
  | call _ (some _) none target _ => target.isOwn = false
  | literal _ value => value.folded = false
  | _ => True

def FormedThroughout (allowed : Bool) (e : Expr) : Prop :=
  (View.expr e).Everywhere fun v => ∀ e, v = .expr e →
    e.Formed ∧ ∀ c ∈ e.children, c.isAssign = true → allowed = true

theorem formedThroughout_iff {allowed : Bool} {e : Expr} : e.FormedThroughout allowed ↔
    (e.Formed ∧ ∀ c ∈ e.children, c.isAssign = true → allowed = true) ∧
      ∀ c ∈ e.children, c.FormedThroughout allowed := by
  unfold FormedThroughout
  rw [View.everywhere_expr]
  simp

def IsPart (allowed : Bool) (e : Expr) : Prop :=
  e.FormedThroughout allowed ∧ (e.isAssign = true → allowed = true)

theorem formedThroughout_of_parts {allowed : Bool} {e : Expr} (h : e.Formed)
    (hc : ∀ c ∈ e.children, c.IsPart allowed) : e.FormedThroughout allowed :=
  formedThroughout_iff.2 ⟨⟨h, fun c hm => (hc c hm).2⟩, fun c hm => (hc c hm).1⟩

theorem FormedThroughout.parts {allowed : Bool} {e : Expr} (h : e.FormedThroughout allowed) :
    ∀ c ∈ e.children, c.IsPart allowed := by
  have h := formedThroughout_iff.1 h
  exact fun c hm => ⟨h.2 c hm, h.1.2 c hm⟩

def isOwn : Expr → Bool
  | func _ target => target.isOwn
  | _ => false

end Expr

namespace PendingExpr

def isAssign : PendingExpr → Bool
  | assign .. => true
  | _ => false

def isReceiver : PendingExpr → Bool
  | lead _ ⟨some _, none⟩ => true
  | _ => false

def isOwn : PendingExpr → Bool
  | qualified _ .own => true
  | _ => false

def Formed : PendingExpr → Prop
  | assign _ target => target.isAssignable = true
  | call _ ⟨some _, none⟩ (.function target) _ => target.isOwn = false
  | _ => True

theorem formed_args {loc : Location} {l : CallLead} {callee : Callee} {args : List Expr}
    (h : (call loc l callee args).Formed) (args' : List Expr) : (call loc l callee args').Formed := by
  obtain ⟨receiver, modifier⟩ := l
  cases receiver <;> cases modifier <;> cases callee <;> exact h

theorem formed_pointer (loc : Location) (l : CallLead) (pointer : Expr) (args : List Expr) :
    (call loc l (.pointer pointer) args).Formed := by
  obtain ⟨receiver, modifier⟩ := l
  cases receiver <;> cases modifier <;> trivial

end PendingExpr

/-- The unfinished parts. Without permission an assignment is the lowest of them, in a place for one. -/
inductive StackFormed (allowed place : Bool) : List PendingExpr → Prop
  | nil : StackFormed allowed place []
  | cons {top : PendingExpr} {rest : List PendingExpr} (h : StackFormed allowed place rest) (hf : top.Formed)
      (hp : ∀ e ∈ top.parts, e.IsPart allowed)
      (ha : top.isAssign = true → allowed = true ∨ rest = [] ∧ place = true)
      (ho : top.isOwn = true → ∀ below ∈ rest.head?, below.isReceiver = false) :
      StackFormed allowed place (top :: rest)

theorem StackFormed.top {allowed place : Bool} {stack rest : List PendingExpr} {top : PendingExpr}
    (h : StackFormed allowed place stack) (hx : stack = top :: rest) :
    top.Formed ∧ (∀ e ∈ top.parts, e.IsPart allowed) ∧ StackFormed allowed place rest := by
  subst hx
  cases h with
  | cons h hf hp => exact ⟨hf, hp, h⟩

theorem StackFormed.plain {allowed place : Bool} {rest : List PendingExpr} {top : PendingExpr}
    (h : StackFormed allowed place rest) (hn : top.isAssign = false ∧ top.isOwn = false) (hf : top.Formed)
    (hp : ∀ e ∈ top.parts, e.IsPart allowed) : StackFormed allowed place (top :: rest) :=
  .cons h hf hp (by simp [hn.1]) (by simp [hn.2])

def SlotFormed (allowed place : Bool) (stack : List PendingExpr) (e : Expr) : Prop :=
  e.FormedThroughout allowed ∧ (e.isAssign = true → allowed = true ∨ stack = [] ∧ place = true)

theorem SlotFormed.part {allowed place : Bool} {stack rest : List PendingExpr} {top : PendingExpr} {e : Expr}
    (h : SlotFormed allowed place stack e) (hs : stack = top :: rest) : e.IsPart allowed :=
  ⟨h.1, fun ha => (h.2 ha).resolve_right fun hn => by simp [hs] at hn⟩

structure ExprState.Formed (allowed : Bool) (x : ExprState) : Prop where
  stack : StackFormed allowed x.context.takesAssignment x.stack
  slot : ∀ e ∈ x.slot, SlotFormed allowed x.context.takesAssignment x.stack e
  receiver : ∀ top ∈ x.stack.head?, top.isReceiver = true → ∃ e, x.slot = some e ∧ e.isOwn = false

namespace ExprState.Formed

variable {allowed : Bool} {x : ExprState}

theorem fresh (allowed : Bool) (context : ExprContext) : (Session.fresh context).Formed allowed :=
  ⟨.nil, by simp [Session.fresh], by simp [Session.fresh]⟩

theorem of_none (hs : x.slot = none) (h : StackFormed allowed x.context.takesAssignment x.stack)
    (ht : ∀ top ∈ x.stack.head?, top.isReceiver = false) : x.Formed allowed :=
  ⟨h, by simp [hs], fun top hm hr => by simp [ht top hm] at hr⟩

theorem of_some {e : Expr} (hs : x.slot = some e) (h : StackFormed allowed x.context.takesAssignment x.stack)
    (he : e.FormedThroughout allowed) (hn : e.isAssign = false) (ho : e.isOwn = false) : x.Formed allowed := by
  refine ⟨h, ?_, fun _ _ _ => ⟨e, hs, ho⟩⟩
  rw [hs]
  rintro _ ⟨⟩
  exact ⟨he, by simp [hn]⟩

theorem of_top {top : PendingExpr} {rest : List PendingExpr} (hs : x.slot = none) (hx : x.stack = top :: rest)
    (h : StackFormed allowed x.context.takesAssignment rest)
    (hn : top.isAssign = false ∧ top.isOwn = false ∧ top.isReceiver = false) (hf : top.Formed)
    (hp : ∀ e ∈ top.parts, e.IsPart allowed) : x.Formed allowed :=
  of_none hs (by rw [hx]; exact h.plain ⟨hn.1, hn.2.1⟩ hf hp) (by simp [hx, hn.2.2])

end ExprState.Formed

theorem Folds.formed {p : PendingExpr → Bool} {allowed : Bool} {id id' : Nat} {x y : ExprState}
    (h : Folds p id x id' y) (hx : x.Formed allowed) : y.Formed allowed ∧ y.context = x.context := by
  induction h with
  | done => exact ⟨hx, rfl⟩
  | @join id id' context started top rest operand e y hp he _ ih =>
    obtain ⟨hstack, hslot, -⟩ := hx
    have hoperand := (hslot operand rfl).part rfl
    cases hstack with
    | cons hrest hf hparts ha =>
      suffices hnew : e.FormedThroughout allowed ∧ e.isOwn = false ∧
          (e.isAssign = true → allowed = true ∨ rest = [] ∧ context.takesAssignment = true) by
        refine ih ⟨hrest, ?_, fun _ _ _ => ⟨e, rfl, hnew.2.1⟩⟩
        rintro _ ⟨⟩
        exact ⟨hnew.1, hnew.2.2⟩
      cases top with
      | binary op left =>
        simp only [PendingExpr.complete?, Option.some.injEq] at he
        subst he
        refine ⟨Expr.formedThroughout_of_parts trivial ?_, rfl, by simp [Expr.isAssign]⟩
        simpa [Expr.children, hoperand] using hparts left (by simp [PendingExpr.parts])
      | unary loc op =>
        simp only [PendingExpr.complete?, Option.some.injEq] at he
        subst he
        exact ⟨Expr.formedThroughout_of_parts trivial (by simpa [Expr.children] using hoperand), rfl,
          by simp [Expr.isAssign]⟩
      | assign op target =>
        simp only [PendingExpr.complete?, Option.some.injEq] at he
        subst he
        refine ⟨Expr.formedThroughout_of_parts hf ?_, rfl, fun _ => ha rfl⟩
        simpa [Expr.children, hoperand] using hparts target (by simp [PendingExpr.parts])
      | _ => simp [PendingExpr.complete?] at he

namespace ExprState.Formed

variable {allowed : Bool} {x : ExprState}

theorem openCall (h : x.Formed allowed) (loc : Location) {e : Expr} {target : FunctionRef} (hs : x.slot = some e)
    (he : Session.callTarget? e = some target) : (Session.openCall x loc (.function target)).Formed allowed := by
  have htarget : e.isOwn = target.isOwn := by
    cases e <;> simp only [Session.callTarget?, Option.some.injEq, reduceCtorEq] at he
    · subst he
      rfl
    · subst he
      rfl
  unfold Session.openCall
  split
  · next lead rest hx =>
    obtain ⟨hf, hp, hrest⟩ := h.stack.top hx
    refine of_top rfl rfl hrest ⟨rfl, rfl, rfl⟩ ?_ (by simpa [PendingExpr.parts] using hp)
    obtain ⟨receiver, modifier⟩ := lead
    cases receiver with
    | none => trivial
    | some r =>
      cases modifier with
      | some m => trivial
      | none =>
        obtain ⟨e', hs', ho⟩ := h.receiver _ (by rw [hx]; rfl) rfl
        obtain rfl := Option.some.inj (hs.symm.trans hs')
        exact htarget.symm.trans ho
  · exact of_top rfl rfl h.stack ⟨rfl, rfl, rfl⟩ trivial (by simp [PendingExpr.parts])

theorem part {e : Expr} (h : x.Formed allowed) (hb : x.Binds) (hs : x.slot = some e) : e.IsPart allowed :=
  ⟨(h.slot e hs).1, by simp [(hb.slot e hs).1.1]⟩

end ExprState.Formed

theorem Shift.formed {config : ParserConfig} {id id' : Nat} {x y : ExprState} {ts : List Token}
    (h : Shift config id x ts id' y) (hb : x.Binds) (hx : x.Formed config.allowAssignmentExpressions) :
    y.Formed config.allowAssignmentExpressions ∧ y.context = x.context := by
  have hleaf {e : Expr} (hf : e.Formed) (he : e.children = []) :
      e.FormedThroughout config.allowAssignmentExpressions :=
    Expr.formedThroughout_of_parts hf (by simp [he])
  have hkeep {top : PendingExpr} {rest : List PendingExpr} (hrest : StackFormed config.allowAssignmentExpressions
      x.context.takesAssignment rest) (hn : top.isAssign = false ∧ top.isOwn = false ∧ top.isReceiver = false)
      (hf : top.Formed) (hp : ∀ e ∈ top.parts, e.IsPart config.allowAssignmentExpressions) :
      ExprState.Formed config.allowAssignmentExpressions { x with stack := top :: rest } := by
    refine ⟨hrest.plain ⟨hn.1, hn.2.1⟩ hf hp, fun e he => ?_, by simp [hn.2.2]⟩
    have := hx.part hb he
    exact ⟨this.1, fun ha => .inl (this.2 ha)⟩
  cases h with
  | literal => exact ⟨.of_some rfl hx.stack (hleaf rfl rfl) rfl rfl, rfl⟩
  | plainName => exact ⟨.of_some rfl hx.stack (hleaf trivial rfl) rfl rfl, rfl⟩
  | receiver hs =>
    have hpart := hx.part hb hs
    refine ⟨.of_some rfl (hx.stack.plain ⟨rfl, rfl⟩ trivial ?_) (hleaf trivial rfl) rfl rfl, rfl⟩
    simpa [PendingExpr.parts] using hpart
  | memberName ht =>
    obtain ⟨-, hp, hrest⟩ := hx.stack.top ht
    exact ⟨.of_some rfl (by simpa [ExprState.close, ht] using hrest) (Expr.formedThroughout_of_parts trivial hp)
      rfl rfl, rfl⟩
  | @functionName _ _ _ qualifier rest ht =>
    have hstack := hx.stack
    rw [ht] at hstack
    cases hstack with
    | cons hrest _ _ _ ho =>
      refine ⟨⟨by simpa [ExprState.close, ht] using hrest, ?_, ?_⟩, rfl⟩
      · rintro _ ⟨⟩
        exact ⟨hleaf trivial rfl, by simp [Expr.isAssign]⟩
      · intro below hbelow hr
        refine ⟨_, rfl, ?_⟩
        simp only [ExprState.close, ht, List.tail_cons] at hbelow
        cases qualifier with
        -- A name that begins with colons stands behind no receiver.
        | own => simp [ho rfl below hbelow] at hr
        | _ => rfl
  | segment ht =>
    obtain ⟨-, -, hrest⟩ := hx.stack.top ht
    exact ⟨hkeep hrest ⟨rfl, rfl, rfl⟩ trivial (by simp [PendingExpr.parts]), rfl⟩
  | openPointerArgs ht =>
    obtain ⟨-, hp, hrest⟩ := hx.stack.top ht
    exact ⟨hkeep hrest ⟨rfl, rfl, rfl⟩ (PendingExpr.formed_pointer ..) (by simpa [PendingExpr.parts] using hp), rfl⟩
  | modifierBehind hs | pointerBehind hs | openIndex hs | point hs =>
    have hpart := hx.part hb hs
    exact ⟨.of_top rfl rfl hx.stack ⟨rfl, rfl, rfl⟩ trivial (by simpa [PendingExpr.parts] using hpart), rfl⟩
  | @modifierInLead _ _ _ lead _ _ hs ht =>
    obtain ⟨-, hp, hrest⟩ := hx.stack.top ht
    refine ⟨.of_top hs rfl hrest ⟨rfl, rfl, ?_⟩ trivial hp, rfl⟩
    obtain ⟨receiver, modifier⟩ := lead
    cases receiver <;> rfl
  | pointerInLead hs ht =>
    obtain ⟨-, hp, hrest⟩ := hx.stack.top ht
    exact ⟨.of_top hs rfl hrest ⟨rfl, rfl, rfl⟩ trivial hp, rfl⟩
  | backslash hs ht =>
    obtain ⟨-, -, hrest⟩ := hx.stack.top ht
    exact ⟨.of_top hs rfl hrest ⟨rfl, rfl, rfl⟩ trivial (by simp [PendingExpr.parts]), rfl⟩
  | qualifyPath hs ht =>
    obtain ⟨-, -, hrest⟩ := hx.stack.top ht
    exact ⟨.of_top hs rfl hrest ⟨rfl, rfl, rfl⟩ trivial (by simp [PendingExpr.parts]), rfl⟩
  | modifier | openGroup | openPointer | openArray | firstBackslash | qualifyName | unary =>
    exact ⟨.of_top rfl rfl hx.stack ⟨rfl, rfl, rfl⟩ trivial (by simp [PendingExpr.parts]), rfl⟩
  | qualifyOwn ho =>
    obtain ⟨hslot, -⟩ := Session.calleeAllowed_iff.1 ho
    refine ⟨.of_none rfl (.cons hx.stack trivial (by simp [PendingExpr.parts]) (by simp [PendingExpr.isAssign]) ?_)
      (by simp [ExprState.push, PendingExpr.isReceiver]), rfl⟩
    -- A receiver is on the stack only as long as its callee is in the slot.
    rintro - below hbelow
    refine Bool.eq_false_iff.2 fun hr => ?_
    obtain ⟨e, he, -⟩ := hx.receiver below hbelow hr
    rw [hslot] at he
    cases he
  | openArgs hs _ he =>
    refine ⟨hx.openCall _ hs he, ?_⟩
    unfold Session.openCall
    split <;> rfl
  | closeGroup hf hy hs =>
    obtain ⟨hz, hctx⟩ := hf.formed hx
    obtain ⟨-, -, hrest⟩ := hz.stack.top hy
    have hpart := (hz.slot _ hs).part hy
    exact ⟨.of_some rfl (by simpa [ExprState.close, hy] using hrest)
      (Expr.formedThroughout_of_parts trivial (by simpa [Expr.children] using hpart)) rfl rfl, hctx⟩
  | closeTruple hf hy hs =>
    obtain ⟨hz, hctx⟩ := hf.formed hx
    obtain ⟨-, hp, hrest⟩ := hz.stack.top hy
    have hpart := (hz.slot _ hs).part hy
    refine ⟨.of_some rfl (by simpa [ExprState.close, hy] using hrest)
      (Expr.formedThroughout_of_parts trivial ?_) rfl rfl, hctx⟩
    simpa [Expr.children, PendingExpr.parts, hpart] using hp
  | @closeArgs _ _ z _ _ lead callee args _ hf hy hs =>
    obtain ⟨hz, hctx⟩ := hf.formed hx
    obtain ⟨hform, hp, hrest⟩ := hz.stack.top hy
    have hl : ∀ e ∈ z.slot, e.IsPart config.allowAssignmentExpressions := fun e he => (hz.slot e he).part hy
    cases callee with
    | function target =>
      refine ⟨.of_some rfl (by simpa [ExprState.close, hy] using hrest)
        (Expr.formedThroughout_of_parts ?_ ?_) rfl rfl, hctx⟩
      · obtain ⟨receiver, modifier⟩ := lead
        cases receiver <;> cases modifier <;> exact hform
      · simp only [Session.sealCall, Expr.children]
        grind [PendingExpr.parts]
    | pointer =>
      refine ⟨.of_some rfl (by simpa [ExprState.close, hy] using hrest)
        (Expr.formedThroughout_of_parts trivial ?_) rfl rfl, hctx⟩
      simp only [Session.sealCall, Expr.children]
      grind [PendingExpr.parts]
  | nextItem hf hy hs | nextElement hf hy hs =>
    obtain ⟨hz, hctx⟩ := hf.formed hx
    obtain ⟨-, hp, hrest⟩ := hz.stack.top hy
    have hpart := (hz.slot _ hs).part hy
    refine ⟨.of_top rfl rfl hrest ⟨rfl, rfl, rfl⟩ trivial ?_, hctx⟩
    grind [PendingExpr.parts]
  | @nextArg _ _ _ _ _ lead callee _ _ _ hf hy hs =>
    obtain ⟨hz, hctx⟩ := hf.formed hx
    obtain ⟨hform, hp, hrest⟩ := hz.stack.top hy
    have hpart := (hz.slot _ hs).part hy
    refine ⟨.of_top rfl rfl hrest ⟨rfl, rfl, rfl⟩ (PendingExpr.formed_args hform _) ?_, hctx⟩
    cases callee <;> grind [PendingExpr.parts]
  | closePointer hf hy hs =>
    obtain ⟨hz, hctx⟩ := hf.formed hx
    obtain ⟨-, hp, hrest⟩ := hz.stack.top hy
    have hpart := (hz.slot _ hs).part hy
    refine ⟨.of_top rfl rfl hrest ⟨rfl, rfl, rfl⟩ trivial ?_, hctx⟩
    grind [PendingExpr.parts]
  | closeIndex hf hy hs =>
    obtain ⟨hz, hctx⟩ := hf.formed hx
    obtain ⟨-, hp, hrest⟩ := hz.stack.top hy
    have hpart := (hz.slot _ hs).part hy
    refine ⟨.of_some rfl (by simpa [ExprState.close, hy] using hrest)
      (Expr.formedThroughout_of_parts trivial ?_) rfl rfl, hctx⟩
    simpa [Expr.children, PendingExpr.parts, hpart] using hp
  | @closeArray _ _ z _ _ _ _ hf hy =>
    obtain ⟨hz, hctx⟩ := hf.formed hx
    obtain ⟨-, hp, hrest⟩ := hz.stack.top hy
    have hl : ∀ e ∈ z.slot, e.IsPart config.allowAssignmentExpressions := fun e he => (hz.slot e he).part hy
    refine ⟨.of_some rfl (by simpa [ExprState.close, hy] using hrest)
      (Expr.formedThroughout_of_parts trivial ?_) rfl rfl, hctx⟩
    simp only [Expr.children]
    grind [PendingExpr.parts]
  | suffix hs _ he =>
    have hpart := hx.part hb hs
    exact ⟨.of_some rfl hx.stack (Expr.formedThroughout_of_parts he (by simpa [Expr.children] using hpart))
      rfl rfl, rfl⟩
  | assign hs _ hc he =>
    have hpart := hx.part hb hs
    exact ⟨.of_none rfl (.cons hx.stack he (by simpa [PendingExpr.parts] using hpart) (fun _ => hc.symm)
      (by simp [PendingExpr.isOwn])) (by simp [ExprState.push, PendingExpr.isReceiver]), rfl⟩
  | binary hf hs hy =>
    obtain ⟨hz, hctx⟩ := hf.formed hx
    -- What was joined binds tighter than any assignment.
    have hleft := (hf.bindsLeft fun e he => (hb.slot e he).1.left _) _ hy
    refine ⟨.of_top rfl rfl hz.stack ⟨rfl, rfl, rfl⟩ trivial ?_, hctx⟩
    rintro e he
    obtain rfl := List.mem_singleton.1 he
    exact ⟨(hz.slot _ hy).1, by simp [hleft.1]⟩

end GameScript
