import GameScript.Proofs.Shift

namespace GameScript

namespace Token

def StartsAt (ts : List Token) (loc : Location) : Prop :=
  ts.head?.map Token.loc = some loc

theorem StartsAt.append {ts us : List Token} {loc : Location} (h : StartsAt ts loc) :
    StartsAt (ts ++ us) loc := by
  cases ts with
  | nil => cases h
  | cons t ts => exact h

theorem StartsAt.of_append {ts us : List Token} {loc : Location} (h : StartsAt (ts ++ us) loc)
    (hn : ts ≠ []) : StartsAt ts loc := by
  cases ts with
  | nil => exact absurd rfl hn
  | cons t ts => exact h

theorem Spell.ne_nil {ts : List Token} {text : String} (h : Spell ts text) (ht : text.toList ≠ []) : ts ≠ [] := by
  rintro rfl
  exact ht (by simpa [Spell] using h)

theorem startsAt_cons (t : Token) (ts : List Token) : StartsAt (t :: ts) t.loc := rfl

inductive Trailing : List (List Token) → List Token → Prop
  | nil : Trailing [] []
  | snoc {ls : List (List Token)} {ts us : List Token} {c : Token} (h : Trailing ls ts)
      (hc : c.isSymbol ',' = true) : Trailing (ls ++ [us]) (ts ++ us ++ [c])

def Commas (ls : List (List Token)) (ts : List Token) : Prop :=
  (ls = [] ∧ ts = []) ∨ ∃ init last us, ls = init ++ [last] ∧ Trailing init us ∧ ts = us ++ last

end Token

open Token

inductive SpellsPath (mode : GameMode) : ModulePath → List Token → Prop
  | one {t : Token} (ht : t.IsPlain mode) : SpellsPath mode [⟨t.text, t.loc⟩] [t]
  | more {segments : ModulePath} {ts : List Token} {b t : Token} (h : SpellsPath mode segments ts)
      (hb : b.isSymbol '\\' = true) (ht : t.IsPlain mode) :
      SpellsPath mode (segments ++ [⟨t.text, t.loc⟩]) (ts ++ [b, t])

inductive SpellsQualifier (mode : GameMode) : Qualifier → List Token → Prop
  | own {c d : Token} (h : Spell [c, d] "::") : SpellsQualifier mode .own [c, d]
  | path {segments : ModulePath} {ts : List Token} {c d : Token} (hp : SpellsPath mode segments ts)
      (h : Spell [c, d] "::") : SpellsQualifier mode (.path segments) (ts ++ [c, d])

inductive SpellsTarget (mode : GameMode) : FunctionRef → List Token → Prop
  | plain {t : Token} (ht : t.IsPlain mode) : SpellsTarget mode ⟨⟨t.text, t.loc⟩, .unqualified⟩ [t]
  | qualified {qualifier : Qualifier} {ts : List Token} {t : Token}
      (hq : SpellsQualifier mode qualifier ts) (ht : t.IsPlain mode) :
      SpellsTarget mode ⟨⟨t.text, t.loc⟩, qualifier⟩ (ts ++ [t])

def SpellsModifier (mode : GameMode) (modifier : Option CallModifier) (ts : List Token) : Prop :=
  match modifier with
  | some m => ∃ t, ts = [t] ∧ t.keyword? mode = some m.keyword
  | none => ts = []

/-- The expression is read from the tokens, and begins where they do. -/
inductive Spells (mode : GameMode) : Expr → List Token → Prop
  | var {id : Nat} {t : Token} (ht : t.IsPlain mode) : Spells mode (.var ⟨id, t.loc⟩ ⟨t.text, t.loc⟩) [t]
  | func {node : Node} {qualifier : Qualifier} {ts : List Token} {t : Token}
      (hl : StartsAt ts node.loc) (hq : SpellsQualifier mode qualifier ts) (ht : t.IsPlain mode) :
      Spells mode (.func node ⟨⟨t.text, t.loc⟩, qualifier⟩) (ts ++ [t])
  | index {node : Node} {target index : Expr} {ts us : List Token} {b c : Token}
      (hl : StartsAt ts node.loc) (ht : Spells mode target ts) (hb : b.isSymbol '[' = true)
      (hi : Spells mode index us) (hc : c.isSymbol ']' = true) :
      Spells mode (.index node target index) (ts ++ b :: us ++ [c])
  | member {node : Node} {target : Expr} {ts : List Token} {p t : Token} (hl : StartsAt ts node.loc)
      (hs : Spells mode target ts) (hp : p.isSymbol '.' = true) (ht : t.kind = .identifier) :
      Spells mode (.member node target ⟨t.text, t.loc⟩) (ts ++ [p, t])
  | literal {id : Nat} {kind : LiteralKind} {folded : Bool} {t : Token}
      (ht : t.literalKind? mode = some kind) :
      Spells mode (.literal ⟨id, t.loc⟩ ⟨kind, t.text, folded⟩) [t]
  | binary {node : Node} {op : Operator} {left right : Expr} {ts os us : List Token}
      (hl : StartsAt ts node.loc) (hleft : Spells mode left ts) (hf : op.fixity = .between)
      (ho : Spell os op.spelling) (hright : Spells mode right us) :
      Spells mode (.binary node op left right) (ts ++ os ++ us)
  | unary {node : Node} {op : Operator} {operand : Expr} {o : Token} {ts : List Token}
      (hl : o.loc = node.loc) (hf : op.fixity = .before) (ho : Spell [o] op.spelling)
      (ht : Spells mode operand ts) : Spells mode (.unary node op operand) (o :: ts)
  | suffix {node : Node} {op : Operator} {operand : Expr} {ts os : List Token}
      (hl : StartsAt ts node.loc) (ht : Spells mode operand ts) (hf : op.fixity = .after)
      (ho : Spell os op.spelling) : Spells mode (.suffix node op operand) (ts ++ os)
  | group {node : Node} {inner : Expr} {ts : List Token} {p q : Token} (hl : p.loc = node.loc)
      (hp : p.isSymbol '(' = true) (ht : Spells mode inner ts) (hq : q.isSymbol ')' = true) :
      Spells mode (.group node inner) (p :: ts ++ [q])
  | truple {node : Node} {x y z : Expr} {ts us vs : List Token} {p c c' q : Token}
      (hl : p.loc = node.loc) (hp : p.isSymbol '(' = true) (hx : Spells mode x ts)
      (hc : c.isSymbol ',' = true) (hy : Spells mode y us) (hc' : c'.isSymbol ',' = true)
      (hz : Spells mode z vs) (hq : q.isSymbol ')' = true) :
      Spells mode (.truple node x y z) (p :: ts ++ c :: us ++ c' :: vs ++ [q])
  | array {node : Node} {items : List (Expr × List Token)} {ts : List Token} {b c : Token}
      (hl : b.loc = node.loc) (hb : b.isSymbol '[' = true)
      (hi : ∀ item ∈ items, Spells mode item.1 item.2) (ht : Commas (items.map Prod.snd) ts)
      (hc : c.isSymbol ']' = true) : Spells mode (.array node (items.map Prod.fst)) (b :: ts ++ [c])
  | assign {node : Node} {op : Operator} {target value : Expr} {ts os us : List Token}
      (hl : StartsAt ts node.loc) (ht : Spells mode target ts) (hf : op.fixity = .assigning)
      (ho : Spell os op.spelling) (hv : Spells mode value us) :
      Spells mode (.assign node op target value) (ts ++ os ++ us)
  | call {node : Node} {receiver : Option Expr} {modifier : Option CallModifier} {target : FunctionRef}
      {args : List (Expr × List Token)} {rs ms ts us : List Token} {p q : Token}
      (hl : StartsAt (rs ++ ms ++ ts) node.loc) (hn : receiver = none → rs = [])
      (hr : ∀ e ∈ receiver, Spells mode e rs) (hm : SpellsModifier mode modifier ms)
      (ht : SpellsTarget mode target ts) (hp : p.isSymbol '(' = true)
      (ha : ∀ arg ∈ args, Spells mode arg.1 arg.2) (hu : Commas (args.map Prod.snd) us)
      (hq : q.isSymbol ')' = true) :
      Spells mode (.call node receiver modifier target (args.map Prod.fst))
        (rs ++ ms ++ ts ++ p :: us ++ [q])
  | pointerCall {node : Node} {receiver : Option Expr} {modifier : Option CallModifier} {pointer : Expr}
      {args : List (Expr × List Token)} {rs ms bs ts cs us : List Token} {p q : Token}
      (hl : StartsAt (rs ++ ms ++ bs) node.loc) (hn : receiver = none → rs = [])
      (hr : ∀ e ∈ receiver, Spells mode e rs) (hm : SpellsModifier mode modifier ms)
      (hb : Spell bs "[[") (ht : Spells mode pointer ts) (hc : Spell cs "]]")
      (hp : p.isSymbol '(' = true) (ha : ∀ arg ∈ args, Spells mode arg.1 arg.2)
      (hu : Commas (args.map Prod.snd) us) (hq : q.isSymbol ')' = true) :
      Spells mode (.pointerCall node receiver modifier pointer (args.map Prod.fst))
        (rs ++ ms ++ bs ++ ts ++ cs ++ p :: us ++ [q])

theorem Token.Trailing.eq_nil {ls : List (List Token)} {ts : List Token} (h : Trailing ls ts)
    (hl : ls = []) : ts = [] := by
  cases h with
  | nil => rfl
  | snoc => simp at hl

theorem Token.Trailing.inv {ks ls : List (List Token)} {us ts : List Token} (h : Trailing ks ts)
    (hk : ks = ls ++ [us]) : ∃ ts' c, ts = ts' ++ us ++ [c] ∧ Trailing ls ts' ∧ c.isSymbol ',' = true := by
  cases h with
  | nil => simp at hk
  | snoc h hc =>
    obtain ⟨rfl, he⟩ := List.append_inj' hk rfl
    obtain rfl := List.singleton_inj.1 he
    exact ⟨_, _, rfl, h, hc⟩

theorem Token.Trailing.commas {ls : List (List Token)} {ts us : List Token} (h : Trailing ls ts) :
    Commas (ls ++ [us]) (ts ++ us) :=
  .inr ⟨ls, us, ts, rfl, h, rfl⟩

section Pending

variable (mode : GameMode)

def SpellsLead (l : CallLead) (ts : List Token) : Prop :=
  ∃ rs ms, ts = rs ++ ms ∧ (l.receiver = none → rs = []) ∧ (∀ e ∈ l.receiver, Spells mode e rs) ∧
    SpellsModifier mode l.modifier ms

def SpellsCallee (callee : Callee) (ts : List Token) : Prop :=
  match callee with
  | .function target => SpellsTarget mode target ts
  | .pointer e => ∃ bs us cs, ts = bs ++ us ++ cs ∧ Spell bs "[[" ∧ Spells mode e us ∧ Spell cs "]]"

def SpellsItems (items : List Expr) (ts : List Token) : Prop :=
  ∃ ps : List (Expr × List Token), items = ps.map Prod.fst ∧ (∀ p ∈ ps, Spells mode p.1 p.2) ∧
    Trailing (ps.map Prod.snd) ts

def PendingExpr.Spells (p : PendingExpr) (ts : List Token) : Prop :=
  match p with
  | group loc items => ∃ b us, ts = b :: us ∧ b.loc = loc ∧ b.isSymbol '(' = true ∧ SpellsItems mode items us
  | call loc l callee args => ∃ ls cs b us, ts = ls ++ cs ++ b :: us ∧ StartsAt (ls ++ cs) loc ∧
      SpellsLead mode l ls ∧ SpellsCallee mode callee cs ∧ b.isSymbol '(' = true ∧ SpellsItems mode args us
  | lead loc l => StartsAt ts loc ∧ SpellsLead mode l ts
  | pointerOpen loc l => ∃ ls bs, ts = ls ++ bs ∧ StartsAt ts loc ∧ SpellsLead mode l ls ∧ Spell bs "[["
  | pointerReady loc l pointer => ∃ ls cs, ts = ls ++ cs ∧ StartsAt ts loc ∧ SpellsLead mode l ls ∧
      SpellsCallee mode (.pointer pointer) cs
  | index target => ∃ us b, ts = us ++ [b] ∧ GameScript.Spells mode target us ∧ b.isSymbol '[' = true
  | array loc items => ∃ b us, ts = b :: us ∧ b.loc = loc ∧ b.isSymbol '[' = true ∧ SpellsItems mode items us
  | binary op left => ∃ us os, ts = us ++ os ∧ GameScript.Spells mode left us ∧ op.fixity = .between ∧
      Spell os op.spelling
  | unary loc op => ∃ o, ts = [o] ∧ o.loc = loc ∧ op.fixity = .before ∧ Spell [o] op.spelling
  | assign op target => ∃ us os, ts = us ++ os ∧ GameScript.Spells mode target us ∧
      op.fixity = .assigning ∧ Spell os op.spelling
  | member target => ∃ us b, ts = us ++ [b] ∧ GameScript.Spells mode target us ∧ b.isSymbol '.' = true
  | path loc segments awaiting => ∃ us bs, ts = us ++ bs ∧ StartsAt us loc ∧ SpellsPath mode segments us ∧
      if awaiting = true then ∃ b, bs = [b] ∧ b.isSymbol '\\' = true else bs = []
  | qualified loc qualifier => StartsAt ts loc ∧ SpellsQualifier mode qualifier ts

inductive SpellsStack : List PendingExpr → List Token → Prop
  | nil : SpellsStack [] []
  | cons {top : PendingExpr} {rest : List PendingExpr} {ts us : List Token} (h : SpellsStack rest ts)
      (hp : top.Spells mode us) : SpellsStack (top :: rest) (ts ++ us)

def SpellsSlot (slot : Option Expr) (ts : List Token) : Prop :=
  match slot with
  | some e => Spells mode e ts
  | none => ts = []

def ExprState.Spells (x : ExprState) (ts : List Token) : Prop :=
  ∃ us vs, ts = us ++ vs ∧ SpellsStack mode x.stack us ∧ SpellsSlot mode x.slot vs

end Pending

theorem SpellsStack.inv {mode : GameMode} {stack rest : List PendingExpr} {top : PendingExpr} {ts : List Token}
    (h : SpellsStack mode stack ts) (hx : stack = top :: rest) :
    ∃ us vs, ts = us ++ vs ∧ SpellsStack mode rest us ∧ top.Spells mode vs := by
  subst hx
  cases h with
  | cons h hp => exact ⟨_, _, rfl, h, hp⟩

namespace ExprState

variable {mode : GameMode} {x : ExprState} {ts us : List Token}

theorem Spells.of_none (h : x.Spells mode ts) (hs : x.slot = none) : SpellsStack mode x.stack ts := by
  obtain ⟨us, vs, rfl, hstack, hslot⟩ := h
  rw [hs] at hslot
  obtain rfl := hslot
  simpa using hstack

theorem Spells.of_some {e : Expr} (h : x.Spells mode ts) (hs : x.slot = some e) :
    ∃ us vs, ts = us ++ vs ∧ SpellsStack mode x.stack us ∧ GameScript.Spells mode e vs := by
  obtain ⟨us, vs, rfl, hstack, hslot⟩ := h
  rw [hs] at hslot
  exact ⟨us, vs, rfl, hstack, hslot⟩

theorem spells_some {e : Expr} (h : SpellsStack mode x.stack ts) (he : GameScript.Spells mode e us)
    (hs : x.slot = some e) : x.Spells mode (ts ++ us) :=
  ⟨ts, us, rfl, h, by rw [hs]; exact he⟩

theorem spells_none (h : SpellsStack mode x.stack ts) (hs : x.slot = none) : x.Spells mode ts :=
  ⟨ts, [], by simp, h, by rw [hs]; rfl⟩

theorem Spells.push {e : Expr} {p : PendingExpr} (h : x.Spells mode ts) (hs : x.slot = some e)
    (hp : ∀ vs, GameScript.Spells mode e vs → p.Spells mode (vs ++ us)) : (x.push p).Spells mode (ts ++ us) := by
  obtain ⟨vs, ws, rfl, hstack, he⟩ := h.of_some hs
  rw [List.append_assoc]
  exact spells_none (hstack.cons (hp _ he)) rfl

theorem Spells.start {p : PendingExpr} (h : x.Spells mode ts) (hs : x.slot = none) (hp : p.Spells mode us) :
    (x.push p).Spells mode (ts ++ us) :=
  spells_none ((h.of_none hs).cons hp) rfl

theorem Spells.replace {y : ExprState} {top top' : PendingExpr} {rest : List PendingExpr}
    (h : x.Spells mode ts) (hx : x.stack = top :: rest) (hy : y.stack = top' :: rest) (hs : y.slot = none)
    (hp : ∀ vs ws, top.Spells mode vs → SpellsSlot mode x.slot ws → top'.Spells mode (vs ++ ws ++ us)) :
    y.Spells mode (ts ++ us) := by
  obtain ⟨vs, ws, rfl, hstack, hslot⟩ := h
  obtain ⟨vs, vs', rfl, hrest, htop⟩ := hstack.inv hx
  have := hrest.cons (hp _ _ htop hslot)
  rw [← hy] at this
  simpa using spells_none this hs

theorem Spells.close {top : PendingExpr} {rest : List PendingExpr} {e : Expr} (h : x.Spells mode ts)
    (hx : x.stack = top :: rest) (hp : ∀ vs ws, top.Spells mode vs → SpellsSlot mode x.slot ws →
      GameScript.Spells mode e (vs ++ ws ++ us)) : (x.close e).Spells mode (ts ++ us) := by
  obtain ⟨vs, ws, rfl, hstack, hslot⟩ := h
  obtain ⟨vs, vs', rfl, hrest, htop⟩ := hstack.inv hx
  have : SpellsStack mode (x.close e).stack vs := by simpa [ExprState.close, hx] using hrest
  simpa using spells_some this (hp _ _ htop hslot) rfl

end ExprState

theorem Spells.startsAt {mode : GameMode} {e : Expr} {ts : List Token} (h : Spells mode e ts) :
    StartsAt ts e.loc := by
  cases h with
  | var | literal => rfl
  | func hl | suffix hl | member hl => exact hl.append
  | index hl | binary hl | assign hl =>
    rw [List.append_assoc]
    exact hl.append
  | unary hl | group hl | truple hl | array hl =>
    simp only [StartsAt, List.cons_append, List.head?_cons, Option.map_some, hl]
    rfl
  | call hl =>
    rw [List.append_assoc _ _ [_]]
    exact hl.append
  | pointerCall hl =>
    rw [List.append_assoc _ _ [_], List.append_assoc _ _ (_ :: _ ++ _), List.append_assoc _ _ (_ ++ _)]
    exact hl.append

theorem callTarget_spells {mode : GameMode} {e : Expr} {target : FunctionRef} {ts : List Token}
    (h : Spells mode e ts) (he : Session.callTarget? e = some target) : SpellsTarget mode target ts := by
  cases h with
  | var ht =>
    cases he
    exact .plain ht
  | func _ hq ht =>
    cases he
    exact .qualified hq ht
  | _ => cases he

theorem SpellsItems.snoc {mode : GameMode} {items : List Expr} {e : Expr} {ts us : List Token} {c : Token}
    (h : SpellsItems mode items ts) (he : Spells mode e us) (hc : c.isSymbol ',' = true) :
    SpellsItems mode (items ++ [e]) (ts ++ us ++ [c]) := by
  obtain ⟨ps, rfl, hs, ht⟩ := h
  refine ⟨ps ++ [(e, us)], by simp, ?_, by simpa using ht.snoc hc⟩
  simp only [List.mem_append, List.mem_singleton]
  rintro p (hp | rfl)
  · exact hs p hp
  · exact he

theorem SpellsItems.two {mode : GameMode} {a b : Expr} {ts : List Token} (h : SpellsItems mode [a, b] ts) :
    ∃ us c vs d, ts = us ++ [c] ++ vs ++ [d] ∧ Spells mode a us ∧ c.isSymbol ',' = true ∧ Spells mode b vs ∧
      d.isSymbol ',' = true := by
  obtain ⟨ps, hps, hspells, ht⟩ := h
  match ps, hps with
  | [(a', us), (b', vs)], hps =>
    simp only [List.map_cons, List.map_nil, List.cons.injEq, and_true] at hps
    obtain ⟨rfl, rfl⟩ := hps
    obtain ⟨ts, d, rfl, ht, hd⟩ := ht.inv (rfl : _ = [us] ++ [vs])
    obtain ⟨ts, c, rfl, ht, hc⟩ := ht.inv (rfl : _ = [] ++ [us])
    obtain rfl := ht.eq_nil rfl
    exact ⟨us, c, vs, d, by simp, hspells (a, us) (by simp), hc, hspells (b, vs) (by simp), hd⟩

theorem SpellsItems.close {mode : GameMode} {items : List Expr} {slot : Option Expr} {ts us : List Token}
    (h : SpellsItems mode items ts) (hs : SpellsSlot mode slot us) (hn : slot = none → items = []) :
    ∃ ps : List (Expr × List Token), items ++ slot.toList = ps.map Prod.fst ∧
      (∀ p ∈ ps, Spells mode p.1 p.2) ∧ Commas (ps.map Prod.snd) (ts ++ us) := by
  obtain ⟨ps, rfl, hps, ht⟩ := h
  cases slot with
  | none =>
    obtain rfl : ps = [] := by simpa using hn rfl
    obtain rfl := ht.eq_nil rfl
    obtain rfl : us = [] := hs
    exact ⟨[], rfl, by simp, .inl ⟨rfl, rfl⟩⟩
  | some e =>
    refine ⟨ps ++ [(e, us)], by simp, ?_, by simpa using ht.commas⟩
    simp only [List.mem_append, List.mem_singleton]
    rintro p (hp | rfl)
    · exact hps p hp
    · exact hs

theorem complete_spells {mode : GameMode} {top : PendingExpr} {operand e : Expr} {id : Nat}
    {ts us : List Token} (hc : top.complete? id operand = some e) (hp : top.Spells mode ts)
    (ho : Spells mode operand us) : Spells mode e (ts ++ us) := by
  cases top with
  | binary op left =>
    cases hc
    obtain ⟨us, os, rfl, hl, hf, hs⟩ := hp
    exact .binary hl.startsAt hl hf hs ho
  | unary loc op =>
    cases hc
    obtain ⟨o, rfl, hl, hf, hs⟩ := hp
    exact .unary hl hf hs ho
  | assign op target =>
    cases hc
    obtain ⟨us, os, rfl, hl, hf, hs⟩ := hp
    exact .assign hl.startsAt hl hf hs ho
  | _ => cases hc

theorem Folds.spells {mode : GameMode} {p : PendingExpr → Bool} {id id' : Nat} {x y : ExprState}
    {ts : List Token} (h : Folds p id x id' y) (hx : x.Spells mode ts) : y.Spells mode ts := by
  induction h with
  | done => exact hx
  | join hp he _ ih =>
    apply ih
    obtain ⟨us, vs, rfl, hstack, hslot⟩ := hx.of_some rfl
    obtain ⟨us, ws, rfl, hrest, htop⟩ := hstack.inv rfl
    rw [List.append_assoc]
    exact ExprState.spells_some hrest (complete_spells he htop hslot) rfl

structure ExprState.Settled (x : ExprState) : Prop where
  vacant : ∀ top ∈ x.stack.head?, top.refusesCallee = true → x.slot = none
  below : ∀ p ∈ x.stack.tail, p.refusesCallee = false

namespace ExprState.Settled

variable {x : ExprState}

theorem open_of_some {e : Expr} (h : x.Settled) (hs : x.slot = some e) :
    ∀ top ∈ x.stack.head?, top.refusesCallee = false := by
  intro top ht
  refine Bool.eq_false_iff.2 fun hr => ?_
  rw [h.vacant top ht hr] at hs
  cases hs

theorem slot_eq_none (h : x.Settled) {top : PendingExpr} {rest : List PendingExpr} (hx : x.stack = top :: rest)
    (hr : top.refusesCallee = true) : x.slot = none :=
  h.vacant top (by rw [hx]; rfl) hr

theorem all_open (h : x.Settled) (ho : ∀ top ∈ x.stack.head?, top.refusesCallee = false) :
    ∀ p ∈ x.stack, p.refusesCallee = false := by
  intro p hp
  cases hx : x.stack with
  | nil => simp [hx] at hp
  | cons top rest =>
    have hb := h.below
    simp only [hx, List.head?_cons, Option.mem_some_iff, forall_eq', List.tail_cons, List.mem_cons] at ho hp hb
    obtain rfl | hp := hp
    · exact ho
    · exact hb p hp

theorem push (h : x.Settled) (ho : ∀ top ∈ x.stack.head?, top.refusesCallee = false) (p : PendingExpr) :
    (x.push p).Settled :=
  ⟨fun _ _ _ => rfl, h.all_open ho⟩

theorem fill (h : x.Settled) (ho : ∀ top ∈ x.stack.head?, top.refusesCallee = false) (e : Expr) :
    Settled { x with slot := some e } := by
  refine ⟨fun top ht hr => ?_, h.below⟩
  rw [ho top ht] at hr
  cases hr

theorem close (h : x.Settled) (e : Expr) : (x.close e).Settled := by
  have hb := h.below
  refine ⟨fun top ht hr => ?_, fun p hp => hb p (List.mem_of_mem_tail hp)⟩
  simp only [ExprState.close] at ht
  rw [hb top (List.mem_of_mem_head? ht)] at hr
  cases hr

theorem replace (h : x.Settled) {top : PendingExpr} {rest : List PendingExpr} (hx : x.stack = top :: rest)
    (top' : PendingExpr) : Settled { x with stack := top' :: rest, slot := none } :=
  ⟨fun _ _ _ => rfl, by have := h.below; rwa [hx] at this⟩

end ExprState.Settled

theorem Folds.settled {p : PendingExpr → Bool} {id id' : Nat} {x y : ExprState}
    (h : Folds p id x id' y) (hx : x.Settled) : y.Settled := by
  induction h with
  | done => exact hx
  | join _ _ _ ih => exact ih (hx.close _)

theorem ExprState.operandAllowed_iff {x : ExprState} : x.operandAllowed = true ↔
    x.slot = none ∧ ∀ top ∈ x.stack.head?, top.refusesCallee = false ∧ top.isLead = false := by
  unfold operandAllowed
  simp only [Bool.and_eq_true, Bool.not_eq_true', Session.calleeAllowed_iff, Session.topIsLead_eq_false_iff]
  exact ⟨fun h => ⟨h.1.1, fun top ht => ⟨h.1.2 top ht, h.2 top ht⟩⟩,
    fun h => ⟨⟨h.1, fun top ht => (h.2 top ht).1⟩, fun top ht => (h.2 top ht).2⟩⟩

theorem Shift.settled {config : ParserConfig} {id id' : Nat} {x y : ExprState} {ts : List Token}
    (h : Shift config id x ts id' y) (hx : x.Settled) : y.Settled := by
  have hcallee (ho : x.calleeAllowed = true) : ∀ top ∈ x.stack.head?, top.refusesCallee = false :=
    (Session.calleeAllowed_iff.1 ho).2
  have hoperand (ho : x.operandAllowed = true) : ∀ top ∈ x.stack.head?, top.refusesCallee = false :=
    fun top ht => ((ExprState.operandAllowed_iff.1 ho).2 top ht).1
  have hreplace {top : PendingExpr} {rest : List PendingExpr} (top' : PendingExpr) (hs : x.slot = none)
      (ht : x.stack = top :: rest) : ExprState.Settled { x with stack := top' :: rest } := by
    have := hx.replace ht top'
    rwa [← hs] at this
  cases h with
  | literal ho => exact hx.fill (hoperand ho) _
  | plainName ho => exact hx.fill (hcallee ho) _
  | receiver hs ho =>
    refine (hx.push (hx.open_of_some hs) _).fill ?_ _
    simp [ExprState.push, PendingExpr.refusesCallee, PendingExpr.expectsName]
  | memberName ht | functionName ht => exact hx.close _
  | segment ht | openPointerArgs ht =>
    exact hreplace _ (hx.slot_eq_none ht rfl) ht
  | modifierBehind hs | pointerBehind hs | openIndex hs | point hs | firstBackslash hs | qualifyName hs =>
    exact hx.push (hx.open_of_some hs) _
  | modifierInLead hs ht | pointerInLead hs ht | backslash hs ht | qualifyPath hs ht =>
    exact hreplace _ hs ht
  | modifier ho | openGroup ho | openPointer ho | openArray ho | unary ho => exact hx.push (hoperand ho) _
  | qualifyOwn ho => exact hx.push (hcallee ho) _
  | openArgs hs =>
    unfold Session.openCall
    split
    · next ht => exact hx.replace ht _
    · exact hx.push (hx.open_of_some hs) _
  | closeGroup hf | closeTruple hf | closeArgs hf | closeIndex hf | closeArray hf =>
    exact (hf.settled hx).close _
  | nextItem hf hy | nextArg hf hy | nextElement hf hy | closePointer hf hy =>
    exact (hf.settled hx).replace hy _
  | suffix hs _ _ => exact hx.fill (hx.open_of_some hs) _
  | assign hs => exact hx.push (hx.open_of_some hs) _
  | binary hf _ hs => exact (hf.settled hx).push ((hf.settled hx).open_of_some hs) _

theorem Shift.spells {config : ParserConfig} {id id' : Nat} {x y : ExprState} {ts us : List Token}
    (h : Shift config id x us id' y) (hx : x.Spells config.dialect.mode ts) (hs : x.Settled) :
    y.Spells config.dialect.mode (ts ++ us) := by
  -- A part that waits for a name, and one in front of an empty slot, has no tokens behind it.
  have hvacant {top : PendingExpr} {rest : List PendingExpr} (hst : x.stack = top :: rest)
      (hr : top.refusesCallee = true) {ws : List Token} (hw : SpellsSlot config.dialect.mode x.slot ws) : ws = [] := by
    rwa [hs.slot_eq_none hst hr] at hw
  have hnone {ws : List Token} (hsl : x.slot = none) (hw : SpellsSlot config.dialect.mode x.slot ws) : ws = [] := by
    rwa [hsl] at hw
  cases h with
  | literal ho ht =>
    have := hx.of_none (ExprState.operandAllowed_iff.1 ho).1
    exact ExprState.spells_some this (.literal ht) rfl
  | plainName ho ht =>
    have := hx.of_none (Session.calleeAllowed_iff.1 ho).1
    exact ExprState.spells_some this (.var ht) rfl
  | receiver hsl ho ht =>
    obtain ⟨us, vs, rfl, hstack, he⟩ := hx.of_some hsl
    refine ExprState.spells_some (hstack.cons ⟨he.startsAt, vs, [], by simp, by simp, ?_, rfl⟩) (.var ht) rfl
    rintro _ ⟨⟩
    exact he
  | memberName hst ht =>
    refine hx.close hst fun vs ws hp hw => ?_
    obtain rfl := hvacant hst rfl hw
    obtain ⟨us, b, rfl, he, hb⟩ := hp
    rw [List.append_nil, List.append_assoc]
    exact .member he.startsAt he hb ht
  | functionName hst ht =>
    refine hx.close hst fun vs ws hp hw => ?_
    obtain rfl := hvacant hst rfl hw
    obtain ⟨hl, hq⟩ := hp
    simpa using Spells.func hl hq ht
  | segment hst ht =>
    have hsl := hs.slot_eq_none hst rfl
    refine hx.replace hst rfl hsl fun vs ws hp hw => ?_
    obtain rfl := hnone hsl hw
    obtain ⟨us, bs, rfl, hl, hpath, b, rfl, hb⟩ := hp
    exact ⟨_, [], by simp, hl.append, hpath.more hb ht, rfl⟩
  | modifierBehind hsl _ _ ht =>
    refine hx.push hsl fun vs he => ⟨he.startsAt.append, vs, _, rfl, by simp, ?_, _, rfl, ht⟩
    rintro _ ⟨⟩
    exact he
  | modifierInLead hsl hst hl ht =>
    refine hx.replace hst rfl hsl fun vs ws hp hw => ?_
    obtain rfl := hnone hsl hw
    obtain ⟨hloc, rs, ms, rfl, hn, hr, hm⟩ := hp
    unfold SpellsModifier at hm
    rw [hl] at hm
    subst hm
    exact ⟨by simpa using hloc.append, rs, _, by simp, hn, hr, _, rfl, ht⟩
  | modifier ho ht =>
    exact hx.start (ExprState.operandAllowed_iff.1 ho).1
      ⟨startsAt_cons _ _, [], _, rfl, by simp, by simp, _, rfl, ht⟩
  | openPointerArgs hst ht =>
    have hsl := hs.slot_eq_none hst rfl
    refine hx.replace hst rfl hsl fun vs ws hp hw => ?_
    obtain rfl := hnone hsl hw
    obtain ⟨ls, cs, rfl, hl, hlead, hc⟩ := hp
    exact ⟨ls, cs, _, [], by simp, hl, hlead, hc, ht, [], rfl, by simp, .nil⟩
  | openGroup ho ht =>
    exact hx.start (ExprState.operandAllowed_iff.1 ho).1 ⟨_, [], rfl, rfl, ht, [], rfl, by simp, .nil⟩
  | openArgs hsl ho he ht =>
    unfold Session.openCall
    split
    · next loc l rest hst =>
      refine hx.replace hst rfl rfl fun vs ws hp hw => ?_
      obtain ⟨hloc, hlead⟩ := hp
      rw [hsl] at hw
      exact ⟨vs, ws, _, [], rfl, hloc.append, hlead, callTarget_spells hw he, ht, [], rfl, by simp, .nil⟩
    · refine hx.push hsl fun vs hv => ?_
      exact ⟨[], vs, _, [], rfl, hv.startsAt, ⟨[], [], rfl, by simp, by simp, rfl⟩, callTarget_spells hv he, ht,
        [], rfl, by simp, .nil⟩
  | closeGroup hf hy hsl ht =>
    refine (hf.spells hx).close hy fun vs ws hp hw => ?_
    obtain ⟨b, us, rfl, hl, hb, ps, hps, -, hu⟩ := hp
    obtain rfl := hu.eq_nil (by simpa using hps)
    rw [hsl] at hw
    simpa using Spells.group hl hb hw ht
  | closeTruple hf hy hsl ht =>
    refine (hf.spells hx).close hy fun vs ws hp hw => ?_
    obtain ⟨b, us, rfl, hl, hb, hitems⟩ := hp
    obtain ⟨xs, c, ys, c', rfl, hxs, hc, hys, hc'⟩ := hitems.two
    rw [hsl] at hw
    simpa using Spells.truple hl hb hxs hc hys hc' hw ht
  | @closeArgs _ _ _ _ loc _ callee _ _ hf hy hsl ht =>
    refine (hf.spells hx).close hy fun vs ws hp hw => ?_
    obtain ⟨ls, cs, b, us, rfl, hl, ⟨rs, ms, rfl, hn, hr, hm⟩, hc, hb, hitems⟩ := hp
    obtain ⟨ps, hps, hspells, hcommas⟩ := hitems.close hw hsl
    rw [hps]
    cases callee with
    | function target => simpa [Session.sealCall] using Spells.call hl hn hr hm hc hb hspells hcommas ht
    | pointer e =>
      obtain ⟨bs, es, cs, rfl, hopen, he, hclose⟩ := hc
      -- The opening brackets are there, so the call begins in front of what they enclose.
      have hstart : StartsAt (rs ++ ms ++ bs) loc := by
        have hl' : StartsAt (rs ++ ms ++ bs ++ (es ++ cs)) loc := by simpa using hl
        refine hl'.of_append ?_
        simp [hopen.ne_nil (by decide)]
      simpa [Session.sealCall] using
        Spells.pointerCall hstart hn hr hm hopen he hclose hb hspells hcommas ht
  | nextItem hf hy hsl _ ht =>
    refine (hf.spells hx).replace hy rfl rfl fun vs ws hp hw => ?_
    obtain ⟨b, us, rfl, hl, hb, hitems⟩ := hp
    rw [hsl] at hw
    exact ⟨b, _, by simp, hl, hb, hitems.snoc hw ht⟩
  | nextArg hf hy hsl ht =>
    refine (hf.spells hx).replace hy rfl rfl fun vs ws hp hw => ?_
    obtain ⟨ls, cs, b, us, rfl, hl, hlead, hc, hb, hitems⟩ := hp
    rw [hsl] at hw
    exact ⟨ls, cs, b, _, by simp, hl, hlead, hc, hb, hitems.snoc hw ht⟩
  | nextElement hf hy hsl ht =>
    refine (hf.spells hx).replace hy rfl rfl fun vs ws hp hw => ?_
    obtain ⟨b, us, rfl, hl, hb, hitems⟩ := hp
    rw [hsl] at hw
    exact ⟨b, _, by simp, hl, hb, hitems.snoc hw ht⟩
  | pointerBehind hsl ho ht =>
    refine hx.push hsl fun vs he => ⟨vs, _, rfl, he.startsAt.append, ⟨vs, [], by simp, by simp, ?_, rfl⟩, ht⟩
    rintro _ ⟨⟩
    exact he
  | pointerInLead hsl hst ht =>
    refine hx.replace hst rfl hsl fun vs ws hp hw => ?_
    obtain rfl := hnone hsl hw
    obtain ⟨hloc, hlead⟩ := hp
    exact ⟨vs, _, by simp, by simpa using hloc.append, hlead, ht⟩
  | openPointer ho ht =>
    exact hx.start (ExprState.operandAllowed_iff.1 ho).1
      ⟨[], _, rfl, startsAt_cons _ _, ⟨[], [], rfl, by simp, by simp, rfl⟩, ht⟩
  | openIndex hsl ho ht => exact hx.push hsl fun vs he => ⟨vs, _, rfl, he, ht⟩
  | openArray ho ht =>
    exact hx.start (ExprState.operandAllowed_iff.1 ho).1 ⟨_, [], rfl, rfl, ht, [], rfl, by simp, .nil⟩
  | closePointer hf hy hsl ht =>
    refine (hf.spells hx).replace hy rfl rfl fun vs ws hp hw => ?_
    obtain ⟨ls, bs, rfl, hl, hlead, hb⟩ := hp
    rw [hsl] at hw
    refine ⟨ls, bs ++ ws ++ _, by simp, ?_, hlead, bs, ws, _, rfl, hb, hw, ht⟩
    rw [List.append_assoc]
    exact hl.append
  | closeIndex hf hy hsl ht =>
    refine (hf.spells hx).close hy fun vs ws hp hw => ?_
    obtain ⟨us, b, rfl, he, hb⟩ := hp
    rw [hsl] at hw
    rw [List.append_assoc us]
    exact .index he.startsAt he hb hw ht
  | closeArray hf hy hsl ht =>
    refine (hf.spells hx).close hy fun vs ws hp hw => ?_
    obtain ⟨b, us, rfl, hl, hb, hitems⟩ := hp
    obtain ⟨ps, hps, hspells, hcommas⟩ := hitems.close hw hsl
    rw [hps]
    simpa using Spells.array hl hb hspells hcommas ht
  | point hsl ho ht => exact hx.push hsl fun vs he => ⟨vs, _, rfl, he, ht⟩
  | backslash hsl hst ht =>
    refine hx.replace hst rfl hsl fun vs ws hp hw => ?_
    obtain rfl := hnone hsl hw
    obtain ⟨us, bs, rfl, hl, hpath, rfl⟩ := hp
    exact ⟨us, _, by simp, hl, hpath, _, rfl, ht⟩
  | firstBackslash hsl ht =>
    refine hx.push hsl fun vs he => ?_
    cases he with
    | var hv => exact ⟨_, _, rfl, rfl, .one hv, _, rfl, ht⟩
  | qualifyPath hsl hst ht =>
    refine hx.replace hst rfl hsl fun vs ws hp hw => ?_
    obtain rfl := hnone hsl hw
    obtain ⟨us, bs, rfl, hl, hpath, rfl⟩ := hp
    exact ⟨by simpa using hl.append, by simpa using SpellsQualifier.path hpath ht⟩
  | qualifyName hsl ht =>
    refine hx.push hsl fun vs he => ?_
    cases he with
    | var hv => exact ⟨rfl, .path (.one hv) ht⟩
  | qualifyOwn ho ht =>
    exact hx.start (Session.calleeAllowed_iff.1 ho).1 ⟨startsAt_cons _ _, .own ht⟩
  | unary ho hop ht =>
    exact hx.start (ExprState.operandAllowed_iff.1 ho).1 ⟨_, rfl, rfl, hop, ht⟩
  | suffix hsl ho he hop ht =>
    obtain ⟨us, vs, rfl, hstack, he⟩ := hx.of_some hsl
    rw [List.append_assoc]
    refine ExprState.spells_some hstack ?_ rfl
    exact .suffix he.startsAt he hop ht
  | assign hsl _ _ he hop ht => exact hx.push hsl fun vs he => ⟨vs, _, rfl, he, hop, ht⟩
  | binary hf hsome hsl hop ht => exact (hf.spells hx).push hsl fun vs he => ⟨vs, _, rfl, he, hop, ht⟩

end GameScript
