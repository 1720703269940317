import GameScript.Parser.Step

/-!
What one token does to an expression under construction. `Shift` is its effect on the unfinished
parts and on the operand; `ExprOutcome` adds what becomes of the session around them.
-/

namespace GameScript

namespace Token

theorem isSymbol_iff {t : Token} {c : Char} : t.isSymbol c = true ↔ t.symbol? = some c := by
  simp [isSymbol]

theorem isSymbol_ne {t : Token} {c d : Char} (h : t.isSymbol c = true) (hd : c ≠ d) :
    t.isSymbol d = false := by
  refine Bool.eq_false_iff.2 fun h' => hd ?_
  rw [isSymbol_iff] at h h'
  exact Option.some.inj (h.symm.trans h')

def isEdge (t : Token) : Bool :=
  t.isSymbol '\x7b' || t.isSymbol '\x7d' || t.isEof

theorem isEdge_of_isSymbol {t : Token} {c : Char} (h : t.isSymbol c = true)
    (hc : c ≠ '\x7b' ∧ c ≠ '\x7d') : t.isEdge = false := by
  have hkind : t.isEof = false := by
    rw [isSymbol_iff] at h
    unfold symbol? at h
    split at h
    · next hk => simp [isEof, hk]
    · cases h
  simp [isEdge, isSymbol_ne h hc.1, isSymbol_ne h hc.2, hkind]

theorem isEdge_of_kind {t : Token} (hs : t.kind ≠ .symbol) (he : t.kind ≠ .eof) : t.isEdge = false := by
  simp [isEdge, isSymbol, symbol?_eq_none_of_kind hs, isEof, he]

theorem isEdge_of_keyword {t : Token} {mode : GameMode} {k : Keyword} (h : t.keyword? mode = some k) :
    t.isEdge = false := by
  unfold keyword? at h
  split at h
  · next hk => exact isEdge_of_kind (by simp [hk]) (by simp [hk])
  · cases h

end Token

namespace TokenStream

def upcoming (s : TokenStream) (n : Nat) : List Token :=
  (List.range n).map fun k => s.tokenAt (s.cursor + k)

structure Takes (s : TokenStream) (more : List Token) (s' : TokenStream) : Prop where
  tokens : s'.tokens = s.tokens
  last : s'.last = s.last
  cursor : s'.cursor = s.cursor + more.length
  read : more = s.upcoming more.length
  within : s.cursor ≤ s.size → s'.cursor ≤ s.size
  inside : ∀ t ∈ more, t.isEdge = false

theorem Takes.refl (s : TokenStream) : s.Takes [] s :=
  ⟨rfl, rfl, rfl, rfl, id, by simp⟩

theorem symbolsFrom_spells (s : TokenStream) (allowed : List Char) (i limit : Nat) :
    (List.range (s.symbolsFrom allowed i limit).length).map (fun k => (s.tokenAt (i + k)).symbol?) =
      (s.symbolsFrom allowed i limit).map some := by
  induction limit generalizing i with
  | zero => rfl
  | succ limit ih =>
    rw [symbolsFrom]
    split
    · next c hc =>
      split
      · rw [List.length_cons, List.range_succ_eq_map, List.map_cons, List.map_map, List.map_cons,
          ← ih (i + 1)]
        simp only [Nat.add_zero, hc, Function.comp_def, Nat.succ_eq_add_one, List.cons.injEq, true_and]
        congr 1
        funext k
        rw [show i + (k + 1) = i + 1 + k by omega]
      · rfl
    · rfl

theorem symbols_spells (s : TokenStream) (allowed : List Char) (limit : Nat) :
    (s.upcoming (s.symbols allowed limit).1.length).map Token.symbol? =
      (s.symbols allowed limit).1.map some := by
  have h := s.symbolsFrom_spells allowed s.cursor limit
  simpa [upcoming, symbols, Function.comp_def] using h

theorem symbolsFrom_allowed (s : TokenStream) (allowed : List Char) (i limit : Nat) :
    ∀ c ∈ s.symbolsFrom allowed i limit, c ∈ allowed := by
  induction limit generalizing i with
  | zero => simp [symbolsFrom]
  | succ limit ih =>
    rw [symbolsFrom]
    split
    · next c hc =>
      split
      · next ha =>
        intro d hd
        rcases List.mem_cons.1 hd with rfl | hd
        · simpa using ha
        · exact ih (i + 1) d hd
      · simp
    · simp

/-- The tokens end with the end of the input, and the cursor is not behind it. -/
structure Closed (s : TokenStream) : Prop where
  cursor : s.cursor ≤ s.size
  eof : (s.tokenAt s.size).isEof = true
  last : ∀ i ∈ s.last, i ≤ s.size

theorem tokenAt_of_size_le {s : TokenStream} {i : Nat} (h : s.size ≤ i) : s.tokenAt i = s.tokenAt s.size := by
  simp only [tokenAt, size] at *
  congr 1
  omega

theorem Closed.lt_of_symbol {s : TokenStream} (hs : s.Closed) {i : Nat} {c : Char}
    (h : (s.tokenAt i).symbol? = some c) : i < s.size := by
  refine Nat.lt_of_not_le fun hi => ?_
  rw [tokenAt_of_size_le hi] at h
  have he := hs.eof
  simp only [Token.isEof, beq_iff_eq] at he
  simp [Token.symbol?, he] at h

theorem Closed.symbolsFrom_le {s : TokenStream} (hs : s.Closed) (allowed : List Char) {i : Nat}
    (hi : i ≤ s.size) (limit : Nat) : i + (s.symbolsFrom allowed i limit).length ≤ s.size := by
  induction limit generalizing i with
  | zero => simpa [symbolsFrom] using hi
  | succ limit ih =>
    rw [symbolsFrom]
    split
    · next c hc =>
      split
      · have := ih (i := i + 1) (hs.lt_of_symbol hc)
        simp only [List.length_cons]
        omega
      · simpa using hi
    · simpa using hi

end TokenStream

namespace Token

structure IsPlain (t : Token) (mode : GameMode) : Prop where
  kind : t.kind = .identifier
  keyword : t.keyword? mode = none

def literalKind? (t : Token) (mode : GameMode) : Option LiteralKind :=
  match t.kind with
  | .identifier =>
    match t.keyword? mode with
    | some .trueKw | some .falseKw => some .bool
    | some .undefinedKw => some .undefined
    | _ => none
  | .number => some (Session.numberKind t.text)
  | .string => some .string
  | .metaString => some .localized
  | .resource => some .resource
  | .symbol | .comment | .whitespace | .eof => none

def Spell (ts : List Token) (text : String) : Prop :=
  ts.map symbol? = text.toList.map some

end Token

/-- Operators at the top of the stack that `p` selects are joined with the operand, the innermost
first. The numbers are those of the first new node and behind the last one. -/
inductive Folds (p : PendingExpr → Bool) : Nat → ExprState → Nat → ExprState → Prop
  | done {id : Nat} {x : ExprState} (h : ∀ top ∈ x.stack.head?, p top = false) : Folds p id x id x
  | join {id id' : Nat} {context : ExprContext} {started : Bool} {top : PendingExpr}
      {rest : List PendingExpr} {operand e : Expr} {y : ExprState} (hp : p top = true)
      (he : top.complete? id operand = some e) (h : Folds p (id + 1) ⟨context, started, rest, some e⟩ id' y) :
      Folds p id ⟨context, started, top :: rest, some operand⟩ id' y

/-- The token and those that it is assembled with change the unfinished parts and the operand. -/
inductive Shift (config : ParserConfig) : Nat → ExprState → List Token → Nat → ExprState → Prop
  | literal {id : Nat} {x : ExprState} {t : Token} {kind : LiteralKind} (hx : x.operandAllowed = true)
      (ht : t.literalKind? config.dialect.mode = some kind) :
      Shift config id x [t] (id + 1)
        { x with slot := some (.literal ⟨id, t.loc⟩ ⟨kind, t.text, false⟩) }
  | plainName {id : Nat} {x : ExprState} {t : Token} (hx : x.calleeAllowed = true)
      (ht : t.IsPlain config.dialect.mode) :
      Shift config id x [t] (id + 1) { x with slot := some (.var ⟨id, t.loc⟩ ⟨t.text, t.loc⟩) }
  | receiver {id : Nat} {x : ExprState} {t : Token} {e : Expr} (hs : x.slot = some e)
      (hx : ∀ top ∈ x.stack.head?, top.isLead = false ∧ top.refusesCallee = false)
      (ht : t.IsPlain config.dialect.mode) :
      Shift config id x [t] (id + 1)
        { x.push (.lead e.loc ⟨some e, none⟩) with slot := some (.var ⟨id, t.loc⟩ ⟨t.text, t.loc⟩) }
  | memberName {id : Nat} {x : ExprState} {t : Token} {target : Expr} {rest : List PendingExpr}
      (hx : x.stack = .member target :: rest) (ht : t.kind = .identifier) :
      Shift config id x [t] (id + 1) (x.close (.member ⟨id, target.loc⟩ target ⟨t.text, t.loc⟩))
  | segment {id : Nat} {x : ExprState} {t : Token} {loc : Location} {segments : ModulePath}
      {rest : List PendingExpr} (hx : x.stack = .path loc segments true :: rest)
      (ht : t.IsPlain config.dialect.mode) :
      Shift config id x [t] id
        { x with stack := .path loc (segments ++ [⟨t.text, t.loc⟩]) false :: rest }
  | functionName {id : Nat} {x : ExprState} {t : Token} {loc : Location} {qualifier : Qualifier}
      {rest : List PendingExpr} (hx : x.stack = .qualified loc qualifier :: rest)
      (ht : t.IsPlain config.dialect.mode) :
      Shift config id x [t] (id + 1) (x.close (.func ⟨id, loc⟩ ⟨⟨t.text, t.loc⟩, qualifier⟩))
  | modifierBehind {id : Nat} {x : ExprState} {t : Token} {e : Expr} {modifier : CallModifier}
      (hs : x.slot = some e) (hx : x.topIsLead = false)
      (hn : ∀ target rest, x.stack ≠ .member target :: rest)
      (ht : t.keyword? config.dialect.mode = some modifier.keyword) :
      Shift config id x [t] id (x.push (.lead e.loc ⟨some e, some modifier⟩))
  | modifierInLead {id : Nat} {x : ExprState} {t : Token} {loc : Location} {lead : CallLead}
      {rest : List PendingExpr} {modifier : CallModifier} (hs : x.slot = none)
      (hx : x.stack = .lead loc lead :: rest) (hl : lead.modifier = none)
      (ht : t.keyword? config.dialect.mode = some modifier.keyword) :
      Shift config id x [t] id
        { x with stack := .lead loc { lead with modifier := some modifier } :: rest }
  | modifier {id : Nat} {x : ExprState} {t : Token} {modifier : CallModifier}
      (hx : x.operandAllowed = true) (ht : t.keyword? config.dialect.mode = some modifier.keyword) :
      Shift config id x [t] id (x.push (.lead t.loc ⟨none, some modifier⟩))
  | openPointerArgs {id : Nat} {x : ExprState} {t : Token} {loc : Location} {lead : CallLead}
      {pointer : Expr} {rest : List PendingExpr} (hx : x.stack = .pointerReady loc lead pointer :: rest)
      (ht : t.isSymbol '(' = true) :
      Shift config id x [t] id { x with stack := .call loc lead (.pointer pointer) [] :: rest }
  | openGroup {id : Nat} {x : ExprState} {t : Token} (hx : x.operandAllowed = true)
      (ht : t.isSymbol '(' = true) : Shift config id x [t] id (x.push (.group t.loc []))
  | openArgs {id : Nat} {x : ExprState} {t : Token} {e : Expr} {target : FunctionRef}
      (hs : x.slot = some e) (hx : ∀ top ∈ x.stack.head?, top.refusesCallee = false)
      (he : Session.callTarget? e = some target) (ht : t.isSymbol '(' = true) :
      Shift config id x [t] id (Session.openCall x e.loc (.function target))
  | closeGroup {id id' : Nat} {x y : ExprState} {t : Token} {loc : Location} {rest : List PendingExpr}
      {item : Expr} (hf : Folds PendingExpr.isOperator id x id' y) (hy : y.stack = .group loc [] :: rest)
      (hs : y.slot = some item) (ht : t.isSymbol ')' = true) :
      Shift config id x [t] (id' + 1) (y.close (.group ⟨id', loc⟩ item))
  | closeTruple {id id' : Nat} {x y : ExprState} {t : Token} {loc : Location} {rest : List PendingExpr}
      {a b item : Expr} (hf : Folds PendingExpr.isOperator id x id' y)
      (hy : y.stack = .group loc [a, b] :: rest) (hs : y.slot = some item) (ht : t.isSymbol ')' = true) :
      Shift config id x [t] (id' + 1) (y.close (.truple ⟨id', loc⟩ a b item))
  | closeArgs {id id' : Nat} {x y : ExprState} {t : Token} {loc : Location} {lead : CallLead}
      {callee : Callee} {args : List Expr} {rest : List PendingExpr}
      (hf : Folds PendingExpr.isOperator id x id' y) (hy : y.stack = .call loc lead callee args :: rest)
      (hs : y.slot = none → args = []) (ht : t.isSymbol ')' = true) :
      Shift config id x [t] (id' + 1)
        (y.close (Session.sealCall ⟨id', loc⟩ lead callee (args ++ y.slot.toList)))
  | nextItem {id id' : Nat} {x y : ExprState} {t : Token} {loc : Location} {items : List Expr}
      {rest : List PendingExpr} {item : Expr} (hf : Folds PendingExpr.isOperator id x id' y)
      (hy : y.stack = .group loc items :: rest) (hs : y.slot = some item) (hl : items.length ≠ 2)
      (ht : t.isSymbol ',' = true) :
      Shift config id x [t] id' { y with stack := .group loc (items ++ [item]) :: rest, slot := none }
  | nextArg {id id' : Nat} {x y : ExprState} {t : Token} {loc : Location} {lead : CallLead}
      {callee : Callee} {args : List Expr} {rest : List PendingExpr} {arg : Expr}
      (hf : Folds PendingExpr.isOperator id x id' y) (hy : y.stack = .call loc lead callee args :: rest)
      (hs : y.slot = some arg) (ht : t.isSymbol ',' = true) :
      Shift config id x [t] id'
        { y with stack := .call loc lead callee (args ++ [arg]) :: rest, slot := none }
  | nextElement {id id' : Nat} {x y : ExprState} {t : Token} {loc : Location} {items : List Expr}
      {rest : List PendingExpr} {item : Expr} (hf : Folds PendingExpr.isOperator id x id' y)
      (hy : y.stack = .array loc items :: rest) (hs : y.slot = some item) (ht : t.isSymbol ',' = true) :
      Shift config id x [t] id' { y with stack := .array loc (items ++ [item]) :: rest, slot := none }
  | pointerBehind {id : Nat} {x : ExprState} {t u : Token} {e : Expr} (hs : x.slot = some e)
      (hx : ∀ top ∈ x.stack.head?, top.isLead = false ∧ top.refusesCallee = false)
      (ht : Token.Spell [t, u] "[[") :
      Shift config id x [t, u] id (x.push (.pointerOpen e.loc ⟨some e, none⟩))
  | pointerInLead {id : Nat} {x : ExprState} {t u : Token} {loc : Location} {lead : CallLead}
      {rest : List PendingExpr} (hs : x.slot = none) (hx : x.stack = .lead loc lead :: rest)
      (ht : Token.Spell [t, u] "[[") :
      Shift config id x [t, u] id { x with stack := .pointerOpen loc lead :: rest }
  | openPointer {id : Nat} {x : ExprState} {t u : Token} (hx : x.operandAllowed = true)
      (ht : Token.Spell [t, u] "[[") :
      Shift config id x [t, u] id (x.push (.pointerOpen t.loc {}))
  | openIndex {id : Nat} {x : ExprState} {t : Token} {target : Expr} (hs : x.slot = some target)
      (hx : ∀ top ∈ x.stack.head?, top.refusesCallee = false) (ht : t.isSymbol '[' = true) :
      Shift config id x [t] id (x.push (.index target))
  | openArray {id : Nat} {x : ExprState} {t : Token} (hx : x.operandAllowed = true)
      (ht : t.isSymbol '[' = true) : Shift config id x [t] id (x.push (.array t.loc []))
  | closePointer {id id' : Nat} {x y : ExprState} {t u : Token} {loc : Location} {lead : CallLead}
      {rest : List PendingExpr} {pointer : Expr} (hf : Folds PendingExpr.isOperator id x id' y)
      (hy : y.stack = .pointerOpen loc lead :: rest) (hs : y.slot = some pointer)
      (ht : Token.Spell [t, u] "]]") :
      Shift config id x [t, u] id' { y with stack := .pointerReady loc lead pointer :: rest, slot := none }
  | closeIndex {id id' : Nat} {x y : ExprState} {t : Token} {target index : Expr}
      {rest : List PendingExpr} (hf : Folds PendingExpr.isOperator id x id' y)
      (hy : y.stack = .index target :: rest) (hs : y.slot = some index) (ht : t.isSymbol ']' = true) :
      Shift config id x [t] (id' + 1) (y.close (.index ⟨id', target.loc⟩ target index))
  | closeArray {id id' : Nat} {x y : ExprState} {t : Token} {loc : Location} {items : List Expr}
      {rest : List PendingExpr} (hf : Folds PendingExpr.isOperator id x id' y)
      (hy : y.stack = .array loc items :: rest) (hs : y.slot = none → items = [])
      (ht : t.isSymbol ']' = true) :
      Shift config id x [t] (id' + 1) (y.close (.array ⟨id', loc⟩ (items ++ y.slot.toList)))
  | point {id : Nat} {x : ExprState} {t : Token} {target : Expr} (hs : x.slot = some target)
      (hx : ∀ top ∈ x.stack.head?, top.refusesCallee = false) (ht : t.isSymbol '.' = true) :
      Shift config id x [t] id (x.push (.member target))
  | backslash {id : Nat} {x : ExprState} {t : Token} {loc : Location} {segments : ModulePath}
      {rest : List PendingExpr} (hs : x.slot = none) (hx : x.stack = .path loc segments false :: rest)
      (ht : t.isSymbol '\\' = true) :
      Shift config id x [t] id { x with stack := .path loc segments true :: rest }
  | firstBackslash {id : Nat} {x : ExprState} {t : Token} {node : Node} {name : Ident}
      (hs : x.slot = some (.var node name)) (ht : t.isSymbol '\\' = true) :
      Shift config id x [t] id (x.push (.path node.loc [name] true))
  | qualifyPath {id : Nat} {x : ExprState} {t u : Token} {loc : Location} {segments : ModulePath}
      {rest : List PendingExpr} (hs : x.slot = none) (hx : x.stack = .path loc segments false :: rest)
      (ht : Token.Spell [t, u] "::") :
      Shift config id x [t, u] id { x with stack := .qualified loc (.path segments) :: rest }
  | qualifyName {id : Nat} {x : ExprState} {t u : Token} {node : Node} {name : Ident}
      (hs : x.slot = some (.var node name)) (ht : Token.Spell [t, u] "::") :
      Shift config id x [t, u] id (x.push (.qualified node.loc (.path [name])))
  | qualifyOwn {id : Nat} {x : ExprState} {t u : Token} (hx : x.calleeAllowed = true)
      (ht : Token.Spell [t, u] "::") :
      Shift config id x [t, u] id (x.push (.qualified t.loc .own))
  | unary {id : Nat} {x : ExprState} {t : Token} {op : Operator} (hx : x.operandAllowed = true)
      (ho : op.fixity = .before) (ht : Token.Spell [t] op.spelling) :
      Shift config id x [t] id (x.push (.unary t.loc op))
  | suffix {id : Nat} {x : ExprState} {ts : List Token} {op : Operator} {e : Expr}
      (hs : x.slot = some e) (hx : ∀ top ∈ x.stack.head?, top.refusesCallee = false)
      (he : e.isAssignable = true) (ho : op.fixity = .after) (ht : Token.Spell ts op.spelling) :
      Shift config id x ts (id + 1) { x with slot := some (.suffix ⟨id, e.loc⟩ op e) }
  | assign {id : Nat} {x : ExprState} {ts : List Token} {op : Operator} {e : Expr}
      (hs : x.slot = some e)
      (hx : ∀ top ∈ x.stack.head?, top.refusesCallee = false ∧ top.isLead = false ∧
        (top.isOperator = true → ∃ op' target', top = .assign op' target'))
      (hc : (x.stack = [] ∧ x.context.takesAssignment = true) ∨ config.allowAssignmentExpressions = true)
      (he : e.isAssignable = true) (ho : op.fixity = .assigning) (ht : Token.Spell ts op.spelling) :
      Shift config id x ts id (x.push (.assign op e))
  | binary {id id' : Nat} {x y : ExprState} {ts : List Token} {op : Operator} {left : Expr}
      (hf : Folds (ExprState.bindsBefore op) id x id' y) (hx : x.slot.isSome = true) (hs : y.slot = some left)
      (ho : op.fixity = .between) (ht : Token.Spell ts op.spelling) :
      Shift config id x ts id' (y.push (.binary op left))

structure Truncates (id : Nat) (x : ExprState) (id' : Nat) (y : ExprState) : Prop where
  folds : ∃ z loc a more rest item, Folds PendingExpr.isOperator id x id' z ∧
    z.stack = .group loc (a :: more) :: rest ∧ z.slot = some item ∧ more.length ≠ 1 ∧
    y = z.close (.group ⟨id', loc⟩ a)

inductive ExprOutcome (s : Session) (x : ExprState) (t : Token) : ExprMove → Prop
  | kept {more : List Token} {stream : TokenStream} {id : Nat} {y : ExprState}
      (hs : s.stream.Takes more stream) (h : Shift s.config s.nextId x (t :: more) id y) :
      ExprOutcome s x t ({ s with stream := stream, nextId := id, expr := some y }, .consumed)
  | truncated {id : Nat} {y : ExprState} {count : Nat} {loc : Location} (h : Truncates s.nextId x id y)
      (ht : t.isSymbol ')' = true) :
      ExprOutcome s x t
        ({ { s with nextId := id + 1 }.report (.trupleLength count) loc with expr := some y }, .consumed)
  | gaveUp {stream : TokenStream} {id : Nat} (p : Problem) (loc : Location)
      (hs : ∃ more, s.stream.Takes more stream) (hi : s.nextId ≤ id) (hp : p.severity = .error) :
      ExprOutcome s x t
        (({ s with stream := stream, nextId := id }.report p loc).clearExpr.resync t, .consumed)
  | halted {id : Nat} {stream : TokenStream} (p : Problem) (loc : Location)
      (hs : ∃ more, s.stream.Takes more stream) (hi : s.nextId ≤ id) (hp : p.severity = .fatal) :
      ExprOutcome s x t
        (({ s with stream := stream, nextId := id }.report p loc).clearExpr, .consumed)
  | ended {stream : TokenStream} {id : Nat} {y : ExprState} (hs : s.stream.Takes [] stream)
      (h : id = s.nextId ∧ y = x ∨ Folds PendingExpr.isOperator s.nextId x id y) :
      ExprOutcome s x t ({ s with stream := stream, nextId := id, expr := some y }, .terminated)

theorem Folds.le {p : PendingExpr → Bool} {id id' : Nat} {x y : ExprState} (h : Folds p id x id' y) :
    id ≤ id' := by
  induction h with
  | done => exact Nat.le_refl _
  | join _ _ _ ih => omega

theorem Folds.slot_isSome {p : PendingExpr → Bool} {id id' : Nat} {x y : ExprState}
    (h : Folds p id x id' y) (hx : x.slot.isSome = true) : y.slot.isSome = true := by
  induction h with
  | done => exact hx
  | join _ _ _ ih => exact ih rfl

theorem Folds.trans {p : PendingExpr → Bool} {id id' id'' : Nat} {x y z : ExprState}
    (h : Folds p id x id' y) (h' : Folds p id' y id'' z) : Folds p id x id'' z := by
  induction h with
  | done => exact h'
  | join hp he _ ih => exact .join hp he (ih h')

theorem Folds.eq_of_none {p : PendingExpr → Bool} {id id' : Nat} {x y : ExprState}
    (h : Folds p id x id' y) (hx : x.slot = none) : y = x ∧ id' = id := by
  cases h with
  | done => exact ⟨rfl, rfl⟩
  | join => cases hx

theorem complete?_isSome {top : PendingExpr} (h : top.isOperator = true) (id : Nat) (operand : Expr) :
    ∃ e, top.complete? id operand = some e := by
  cases top <;> simp [PendingExpr.isOperator, PendingExpr.complete?] at h ⊢

theorem bindsBefore_isOperator {op : Operator} {top : PendingExpr}
    (h : ExprState.bindsBefore op top = true) : top.isOperator = true := by
  cases top <;> simp [ExprState.bindsBefore, PendingExpr.isOperator] at h ⊢

theorem foldStack_folds {p : PendingExpr → Bool} (hp : ∀ top, p top = true → top.isOperator = true)
    (context : ExprContext) (started : Bool) (stack : List PendingExpr) (operand : Expr) (id : Nat) :
    ∃ stack' e id', ExprState.foldStack p stack operand id = some (stack', e, id') ∧
      Folds p id ⟨context, started, stack, some operand⟩ id' ⟨context, started, stack', some e⟩ := by
  induction stack generalizing operand id with
  | nil => exact ⟨_, _, _, rfl, .done (by simp)⟩
  | cons top rest ih =>
    rw [ExprState.foldStack]
    split
    · next ht =>
      obtain ⟨e, he⟩ := complete?_isSome (hp top ht) id operand
      obtain ⟨stack', e', id', hstack, hfolds⟩ := ih e (id + 1)
      rw [he]
      exact ⟨stack', e', id', hstack, .join ht he hfolds⟩
    · next ht => exact ⟨_, _, _, rfl, .done (by simpa using ht)⟩

namespace Session

theorem foldWhile_folds {s s' : Session} {x y : ExprState} {p : PendingExpr → Bool} {t : Token}
    (hp : ∀ top, p top = true → top.isOperator = true) (h : s.foldWhile x p t = .ok (s', y)) :
    ∃ id, s' = { s with nextId := id } ∧ s.nextId ≤ id ∧ Folds p s.nextId x id y := by
  unfold foldWhile at h
  split at h
  · next hx =>
    cases h
    exact ⟨_, rfl, Nat.le_refl _, .done (by simp [hx])⟩
  · next top rest hx =>
    split at h
    · next ht =>
      split at h
      · cases h
      · next operand hs =>
        obtain ⟨_, _, _, hstack, hf⟩ := foldStack_folds hp x.context x.started x.stack operand s.nextId
        rw [hstack] at h
        cases h
        rw [← hs] at hf
        exact ⟨_, rfl, hf.le, hf⟩
    · next ht =>
      cases h
      exact ⟨_, rfl, Nat.le_refl _, .done (by simpa [hx] using ht)⟩

theorem fail_outcome {s : Session} {x : ExprState} {t : Token} {stream : TokenStream} {id : Nat}
    {p : Problem} (loc : Location) (hs : ∃ more, s.stream.Takes more stream) (hi : s.nextId ≤ id)
    (hp : p.severity = .error) :
    ExprOutcome s x t ({ s with stream := stream, nextId := id }.fail p loc t) :=
  .gaveUp p loc hs hi hp

theorem fail_here {s : Session} {x : ExprState} {t : Token} {p : Problem} (loc : Location)
    (hp : p.severity = .error) : ExprOutcome s x t (s.fail p loc t) :=
  .gaveUp p loc ⟨[], .refl _⟩ (Nat.le_refl _) hp

theorem folded_outcome {s : Session} {x : ExprState} {t : Token}
    {next : Session → ExprState → ExprMove}
    (h : ∀ id y, s.nextId ≤ id → Folds PendingExpr.isOperator s.nextId x id y →
      ExprOutcome s x t (next { s with nextId := id } y)) :
    ExprOutcome s x t (s.folded x t next) := by
  unfold folded
  split
  · next hf =>
    obtain ⟨id, rfl, hi, hf⟩ := foldWhile_folds (fun _ h => h) hf
    exact h _ _ hi hf
  · next p hf =>
    unfold foldWhile at hf
    split at hf
    · cases hf
    · split at hf
      · split at hf
        · cases hf
          exact fail_here _ rfl
        · split at hf <;> cases hf
      · cases hf

theorem calleeAllowed_iff {x : ExprState} :
    x.calleeAllowed = true ↔ x.slot = none ∧ ∀ top ∈ x.stack.head?, top.refusesCallee = false := by
  unfold ExprState.calleeAllowed
  cases x.stack <;> simp

theorem topIsLead_eq_false_iff {x : ExprState} :
    x.topIsLead = false ↔ ∀ top ∈ x.stack.head?, top.isLead = false := by
  unfold ExprState.topIsLead
  cases x.stack <;> simp

theorem literalToken_outcome {s : Session} {x : ExprState} {t : Token} {kind : LiteralKind}
    (ht : t.literalKind? s.gameMode = some kind) : ExprOutcome s x t (s.literalToken x kind t) := by
  unfold literalToken
  split
  · next hx => exact .kept (.refl _) (.literal hx ht)
  · exact fail_here _ rfl

theorem nameToken_outcome {s : Session} {x : ExprState} {t : Token} (hk : t.kind = .identifier)
    (ht : (∀ target rest, x.stack ≠ .member target :: rest) → t.keyword? s.gameMode = none) :
    ExprOutcome s x t (s.nameToken x t) := by
  unfold nameToken
  split
  · next hx => exact .kept (.refl _) (.memberName hx hk)
  · next hx => exact .kept (.refl _) (.segment hx ⟨hk, ht (by simp [hx])⟩)
  · next hx => exact .kept (.refl _) (.functionName hx ⟨hk, ht (by simp [hx])⟩)
  · next receiver hs hm hp hq =>
    split
    · exact fail_here _ rfl
    · exact fail_here _ rfl
    · exact fail_here _ rfl
    · next hl hr hw =>
      refine .kept (.refl _) (.receiver hs ?_ ⟨hk, ht hm⟩)
      intro top htop
      cases hx : x.stack with
      | nil => simp [hx] at htop
      | cons p rest =>
        simp only [hx, List.head?_cons, Option.mem_some_iff] at htop
        subst htop
        cases p with
        | lead => exact (hl _ _ _ hx).elim
        | pointerReady => exact (hr _ _ _ _ hx).elim
        | path _ _ awaiting =>
          cases awaiting
          · exact (hw _ _ _ _ hx).elim
          · exact (hp _ _ _ hx).elim
        | member => exact (hm _ _ hx).elim
        | qualified => exact (hq _ _ _ hx).elim
        | _ => exact ⟨rfl, rfl⟩
  · next hs hm hp hq =>
    split
    · next hx => exact .kept (.refl _) (.plainName hx ⟨hk, ht hm⟩)
    · exact fail_here _ rfl

theorem modifierToken_outcome {s : Session} {x : ExprState} {t : Token} {modifier : CallModifier}
    (hm : ∀ target rest, x.stack ≠ .member target :: rest)
    (ht : t.keyword? s.gameMode = some modifier.keyword) :
    ExprOutcome s x t (s.modifierToken x modifier t) := by
  unfold modifierToken
  split
  · next receiver hs =>
    split
    · exact fail_here _ rfl
    · next hx => exact .kept (.refl _) (.modifierBehind hs (by simpa using hx) hm ht)
  · next hs hx =>
    split
    · exact fail_here _ rfl
    · next hl => exact .kept (.refl _) (.modifierInLead hs hx (by simpa using hl) ht)
  · split
    · next hx => exact .kept (.refl _) (.modifier hx ht)
    · exact fail_here _ rfl

theorem ended_here {s : Session} {x : ExprState} {t : Token} : ExprOutcome s x t (s.ended x) :=
  .ended (.refl _) (.inl ⟨rfl, rfl⟩)

theorem identifierToken_outcome {s : Session} {x : ExprState} {t : Token} (hk : t.kind = .identifier) :
    ExprOutcome s x t (s.identifierToken x t) := by
  unfold identifierToken
  split
  · next hx => exact nameToken_outcome hk fun h => (h _ _ hx).elim
  · next hx =>
    have hm (target : Expr) (rest : List PendingExpr) : x.stack ≠ .member target :: rest :=
      fun h => hx _ _ h
    split
    · next ht => exact nameToken_outcome hk fun _ => ht
    · next ht => exact literalToken_outcome (by simp [Token.literalKind?, hk, ht])
    · next ht => exact literalToken_outcome (by simp [Token.literalKind?, hk, ht])
    · next ht => exact literalToken_outcome (by simp [Token.literalKind?, hk, ht])
    · next ht => exact modifierToken_outcome hm ht
    · next ht => exact modifierToken_outcome hm ht
    · exact ended_here

theorem openParen_outcome {s : Session} {x : ExprState} {t : Token} (ht : t.isSymbol '(' = true)
    (hx : ∀ top ∈ x.stack.head?, top.refusesCallee = true → ∃ loc lead pointer,
      top = .pointerReady loc lead pointer) :
    ExprOutcome s x t (s.openParen x t) := by
  unfold openParen
  split
  · next h => exact .kept (.refl _) (.openPointerArgs h ht)
  · split
    · next h => exact .kept (.refl _) (.openGroup h ht)
    · exact fail_here _ rfl
  · next e hs hr =>
    split
    · next target he =>
      refine .kept (.refl _) (.openArgs hs ?_ he ht)
      intro top htop
      refine Bool.eq_false_iff.2 fun hc => ?_
      obtain ⟨loc, lead, pointer, rfl⟩ := hx top htop hc
      cases h : x.stack with
      | nil => simp [h] at htop
      | cons p rest =>
        simp only [h, List.head?_cons, Option.mem_some_iff] at htop
        subst htop
        exact hr _ _ _ _ h
    · exact fail_here _ rfl

theorem closeGroup_outcome {s : Session} {x y : ExprState} {t : Token} {loc : Location} {id : Nat}
    {items : List Expr} {rest : List PendingExpr} {item : Expr}
    (hf : Folds PendingExpr.isOperator s.nextId x id y) (hy : y.stack = .group loc items :: rest)
    (hs : y.slot = some item) (ht : t.isSymbol ')' = true) :
    ExprOutcome s x t ({ s with nextId := id }.closeGroup y loc items item) := by
  unfold closeGroup
  simp only [withNode]
  split
  · exact .kept (.refl _) (.closeGroup hf hy hs ht)
  · exact .kept (.refl _) (.closeTruple hf hy hs ht)
  · next a more hm =>
    refine .truncated ⟨y, loc, a, more, rest, item, hf, hy, hs, ?_, rfl⟩ ht
    intro hl
    obtain ⟨b, rfl⟩ := List.length_eq_one_iff.1 hl
    exact hm b rfl

theorem closeParen_outcome {s : Session} {x : ExprState} {t : Token} (ht : t.isSymbol ')' = true) :
    ExprOutcome s x t (s.closeParen x t) := by
  refine folded_outcome fun id y hi hf => ?_
  split
  · exact .ended (.refl _) (.inr hf)
  · next hy =>
    split
    · next hs => exact closeGroup_outcome hf hy hs ht
    · split <;> exact fail_outcome _ ⟨[], .refl _⟩ hi rfl
  · next hy =>
    split
    · exact fail_outcome _ ⟨[], .refl _⟩ hi rfl
    · next hs => exact .kept (.refl _) (.closeArgs hf hy (by simpa using hs) ht)
  · exact fail_outcome _ ⟨[], .refl _⟩ hi rfl

theorem comma_outcome {s : Session} {x : ExprState} {t : Token} (ht : t.isSymbol ',' = true) :
    ExprOutcome s x t (s.comma x t) := by
  refine folded_outcome fun id y hi hf => ?_
  split
  · exact .ended (.refl _) (.inr hf)
  · next hy hs =>
    split
    · exact .halted _ _ ⟨[], .refl _⟩ hi rfl
    · next hl => exact .kept (.refl _) (.nextItem hf hy hs hl ht)
  · next hy hs => exact .kept (.refl _) (.nextArg hf hy hs ht)
  · next hy hs => exact .kept (.refl _) (.nextElement hf hy hs ht)
  all_goals exact fail_outcome _ ⟨[], .refl _⟩ hi rfl

theorem symbols_takes (s : TokenStream) (allowed : List Char) (limit : Nat) :
    s.Takes [] (s.symbols allowed limit).2 :=
  ⟨rfl, rfl, rfl, rfl, id, by simp⟩

theorem lookahead_takes (s : Session) (allowed : List Char) (limit : Nat) :
    ∃ stream, (s.lookahead allowed limit).2 = { s with stream := stream } ∧ s.stream.Takes [] stream :=
  ⟨_, rfl, rfl, rfl, rfl, rfl, id, by simp⟩

theorem discard_takes {s : Session} (hc : s.stream.Closed) (allowed : List Char) (limit : Nat) {n : Nat}
    (hb : ∀ c ∈ allowed, c ≠ '\x7b' ∧ c ≠ '\x7d') (hn : n ≤ (s.lookahead allowed limit).1.length) :
    ∃ stream, ((s.lookahead allowed limit).2.discard n) = { s with stream := stream } ∧
      s.stream.Takes (s.stream.upcoming n) stream ∧
      (s.stream.upcoming n).map Token.symbol? = ((s.lookahead allowed limit).1.take n).map some := by
  have hlen := hc.symbolsFrom_le allowed hc.cursor limit
  simp only [lookahead, TokenStream.symbols] at hn
  have hspell : (s.stream.upcoming n).map Token.symbol? =
      ((s.lookahead allowed limit).1.take n).map some := by
    have h := congrArg (List.take n) (s.stream.symbols_spells allowed limit)
    simp only [TokenStream.upcoming, ← List.map_take, List.take_range, TokenStream.symbols] at h
    rw [Nat.min_eq_left hn] at h
    exact h
  refine ⟨_, rfl, ⟨rfl, rfl, ?_, ?_, ?_, ?_⟩, hspell⟩
  · simp only [lookahead, TokenStream.symbols, TokenStream.commit, TokenStream.upcoming,
      List.length_map, List.length_range]
    omega
  · simp [TokenStream.upcoming]
  · simp only [lookahead, TokenStream.symbols, TokenStream.commit]
    omega
  · intro t ht
    have hm : t.symbol? ∈ ((s.lookahead allowed limit).1.take n).map some :=
      hspell ▸ List.mem_map_of_mem ht
    obtain ⟨c, hc, hs⟩ := List.mem_map.1 hm
    exact Token.isEdge_of_isSymbol (Token.isSymbol_iff.2 hs.symm)
      (hb c (s.stream.symbolsFrom_allowed allowed _ limit c (List.mem_of_mem_take hc)))

theorem dots_takes {s : Session} (hc : s.stream.Closed) {t : Token} (ht : t.isSymbol '.' = true)
    (hr : (s.stream.symbols ['.'] 2).1.length = 2) :
    ∃ u v, s.stream.Takes [u, v] ((s.stream.symbols ['.'] 2).2.commit 2) ∧
      Token.Spell [t, u, v] "..." := by
  obtain ⟨stream, he, htakes, hspell⟩ := discard_takes hc ['.'] 2 (n := 2) (by simp) (Nat.le_of_eq hr.symm)
  obtain rfl : (s.stream.symbols ['.'] 2).2.commit 2 = stream := congrArg Session.stream he
  refine ⟨s.stream.tokenAt s.stream.cursor, s.stream.tokenAt (s.stream.cursor + 1), htakes, ?_⟩
  obtain ⟨a, b, hab⟩ : ∃ a b, (s.stream.symbols ['.'] 2).1 = [a, b] := by
    generalize (s.stream.symbols ['.'] 2).1 = run at hr
    match run, hr with
    | [a, b], _ => exact ⟨a, b, rfl⟩
  have hdot (c : Char) (hm : c ∈ [a, b]) : c = '.' := by
    have := s.stream.symbolsFrom_allowed ['.'] s.stream.cursor 2 c (by
      have : s.stream.symbolsFrom ['.'] s.stream.cursor 2 = [a, b] := hab
      rwa [this])
    simpa using this
  obtain rfl := hdot a (by simp)
  obtain rfl := hdot b (by simp)
  have hrun : (s.lookahead ['.'] 2).1 = ['.', '.'] := hab
  rw [hrun] at hspell
  simp only [TokenStream.upcoming, List.range_succ, List.range_zero, List.nil_append, List.cons_append,
    List.map_cons, List.map_nil, List.take_succ_cons, List.take_zero, List.cons.injEq, and_true, Nat.add_zero] at hspell
  simp [Token.Spell, hspell, Token.isSymbol_iff.1 ht]

theorem double_takes {s : Session} (hc : s.stream.Closed) {c : Char} {t : Token}
    (ht : t.isSymbol c = true) (hb : c ≠ '\x7b' ∧ c ≠ '\x7d') (hr : (s.lookahead [c] 1).1.length = 1) :
    ∃ u stream, ((s.lookahead [c] 1).2.discard 1) = { s with stream := stream } ∧
      s.stream.Takes [u] stream ∧ Token.Spell [t, u] (String.ofList [c, c]) := by
  obtain ⟨stream, he, htakes, hspell⟩ := discard_takes hc [c] 1 (by simp [hb]) (Nat.le_of_eq hr.symm)
  refine ⟨s.stream.tokenAt s.stream.cursor, stream, he, htakes, ?_⟩
  obtain ⟨d, hd⟩ := List.length_eq_one_iff.1 hr
  have hmem : d ∈ [c] := s.stream.symbolsFrom_allowed [c] s.stream.cursor 1 d (by
    have : s.stream.symbolsFrom [c] s.stream.cursor 1 = [d] := hd
    simp [this])
  obtain rfl := List.mem_singleton.1 hmem
  simp only [hd, TokenStream.upcoming, List.range_one, List.map_cons, List.map_nil, List.take_succ_cons,
    List.take_zero, List.cons.injEq, and_true, Nat.add_zero] at hspell
  simp [Token.Spell, hspell, Token.isSymbol_iff.1 ht]

theorem openPointer_outcome {s : Session} {x : ExprState} {t u : Token} {stream : TokenStream}
    (hs : s.stream.Takes [u] stream) (ht : Token.Spell [t, u] "[[")
    (hx : ∀ top ∈ x.stack.head?, top.refusesCallee = false) :
    ExprOutcome s x t ({ s with stream := stream }.openPointer x t) := by
  unfold openPointer
  split
  · next receiver _ he =>
    split
    · exact fail_outcome _ ⟨_, hs⟩ (Nat.le_refl _) rfl
    · next hl =>
      have hl' := topIsLead_eq_false_iff.1 (by simpa using hl)
      exact .kept hs (.pointerBehind he (fun top h => ⟨hl' top h, hx top h⟩) ht)
  · next he hl => exact .kept hs (.pointerInLead he hl ht)
  · split
    · next hx => exact .kept hs (.openPointer hx ht)
    · exact fail_outcome _ ⟨_, hs⟩ (Nat.le_refl _) rfl

theorem openBracket_outcome {s : Session} {x : ExprState} {t : Token} (hc : s.stream.Closed)
    (ht : t.isSymbol '[' = true) (hx : ∀ top ∈ x.stack.head?, top.refusesCallee = false) :
    ExprOutcome s x t (s.openBracket x t) := by
  unfold openBracket
  obtain ⟨stream, hl, htakes⟩ := s.lookahead_takes ['['] 1
  simp only
  split
  · next hr =>
    obtain ⟨u, stream, hd, htakes, hspell⟩ := double_takes hc ht (by decide) hr
    rw [hd]
    exact openPointer_outcome htakes hspell hx
  · rw [hl]
    split
    · next target hs => exact .kept htakes (.openIndex hs hx ht)
    · split
      · next hx => exact .kept htakes (.openArray hx ht)
      · exact fail_outcome _ ⟨_, htakes⟩ (Nat.le_refl _) rfl

theorem closePointer_outcome {s : Session} {x y : ExprState} {t : Token} {loc : Location}
    {lead : CallLead} {rest : List PendingExpr} {id : Nat} (hc : s.stream.Closed)
    (hf : Folds PendingExpr.isOperator s.nextId x id y) (hy : y.stack = .pointerOpen loc lead :: rest)
    (ht : t.isSymbol ']' = true) :
    ExprOutcome s x t ({ s with nextId := id }.closePointer y loc lead rest t) := by
  unfold closePointer
  simp only
  split
  · obtain ⟨stream, hl, htakes⟩ := { s with nextId := id }.lookahead_takes [']'] 1
    rw [hl]
    exact fail_outcome _ ⟨_, htakes⟩ hf.le rfl
  · next hr =>
    obtain ⟨u, stream, hd, htakes, hspell⟩ :=
      double_takes (s := { s with nextId := id }) hc ht (by decide) (by simpa using hr)
    rw [hd]
    split
    · next pointer hs => exact .kept htakes (.closePointer hf hy hs hspell)
    · exact fail_outcome _ ⟨_, htakes⟩ hf.le rfl

theorem closeBracket_outcome {s : Session} {x : ExprState} {t : Token} (hc : s.stream.Closed)
    (ht : t.isSymbol ']' = true) : ExprOutcome s x t (s.closeBracket x t) := by
  refine folded_outcome fun id y hi hf => ?_
  split
  · exact .ended (.refl _) (.inr hf)
  · next hy => exact closePointer_outcome hc hf hy ht
  · next hy =>
    split
    · next hs => exact .kept (.refl _) (.closeIndex hf hy hs ht)
    · exact fail_outcome _ ⟨[], .refl _⟩ hi rfl
  · next hy =>
    split
    · exact fail_outcome _ ⟨[], .refl _⟩ hi rfl
    · next hs => exact .kept (.refl _) (.closeArray hf hy (by simpa using hs) ht)
  · exact fail_outcome _ ⟨[], .refl _⟩ hi rfl

theorem point_outcome {s : Session} {x : ExprState} {t : Token} (ht : t.isSymbol '.' = true)
    (hx : ∀ top ∈ x.stack.head?, top.refusesCallee = false) : ExprOutcome s x t (s.point x t) := by
  unfold point
  split
  · next target hs => exact .kept (.refl _) (.point hs hx ht)
  · exact fail_here _ rfl

theorem pathSeparator_outcome {s : Session} {x : ExprState} {t : Token}
    (ht : t.isSymbol '\\' = true) : ExprOutcome s x t (s.pathSeparator x t) := by
  unfold pathSeparator
  split
  · next hx hs => exact .kept (.refl _) (.backslash hs hx ht)
  · next hs => exact .kept (.refl _) (.firstBackslash hs ht)
  · exact fail_here _ rfl

theorem colon_outcome {s : Session} {x : ExprState} {t : Token} (hc : s.stream.Closed)
    (ht : t.isSymbol ':' = true) : ExprOutcome s x t (s.colon x t) := by
  unfold colon
  simp only
  split
  · obtain ⟨stream, hl, htakes⟩ := s.lookahead_takes [':'] 1
    rw [hl]
    exact .ended htakes (.inl ⟨rfl, rfl⟩)
  · next hr =>
    obtain ⟨u, stream, hd, htakes, hspell⟩ := double_takes hc ht (by decide) (by simpa using hr)
    rw [hd]
    split
    · next hx hs => exact .kept htakes (.qualifyPath hs hx hspell)
    · next hs => exact .kept htakes (.qualifyName hs hspell)
    · split
      · next hx => exact .kept htakes (.qualifyOwn hx hspell)
      · exact fail_outcome _ ⟨_, htakes⟩ (Nat.le_refl _) rfl
    · exact fail_outcome _ ⟨_, htakes⟩ (Nat.le_refl _) rfl

theorem unaryToken_outcome {s : Session} {x : ExprState} {t : Token} {first : Char}
    {stream : TokenStream} (hs : s.stream.Takes [] stream) (ht : t.symbol? = some first) :
    ExprOutcome s x t ({ s with stream := stream }.unaryToken x first t) := by
  unfold unaryToken
  split
  · exact fail_outcome _ ⟨_, hs⟩ (Nat.le_refl _) rfl
  · next op ho =>
    split
    · next hx =>
      refine .kept hs (.unary hx ?_ ?_)
      · simpa [Operator.fits] using Operator.ofSpelling?_fits ho
      · simp [Token.Spell, ht, Operator.ofSpelling?_spelling ho]
    · exact fail_outcome _ ⟨_, hs⟩ (Nat.le_refl _) rfl

theorem suffixToken_outcome {s : Session} {x : ExprState} {t : Token} {op : Operator} {operand : Expr}
    {stream : TokenStream} {more : List Token} (hs : s.stream.Takes more stream)
    (he : x.slot = some operand) (hx : ∀ top ∈ x.stack.head?, top.refusesCallee = false)
    (ho : op.fixity = .after) (ht : Token.Spell (t :: more) op.spelling) :
    ExprOutcome s x t ({ s with stream := stream }.suffixToken x op operand t) := by
  unfold suffixToken
  split
  · next ha => exact .kept hs (.suffix he hx ha ho ht)
  · exact fail_outcome _ ⟨_, hs⟩ (Nat.le_refl _) rfl

theorem assignToken_outcome {s : Session} {x : ExprState} {t : Token} {op : Operator} {target : Expr}
    {stream : TokenStream} {more : List Token} (hs : s.stream.Takes more stream)
    (he : x.slot = some target) (hx : ∀ top ∈ x.stack.head?, top.refusesCallee = false)
    (ho : op.fixity = .assigning) (ht : Token.Spell (t :: more) op.spelling) :
    ExprOutcome s x t ({ s with stream := stream }.assignToken x op target t) := by
  unfold assignToken
  split
  · exact fail_outcome _ ⟨_, hs⟩ (Nat.le_refl _) rfl
  · exact fail_outcome _ ⟨_, hs⟩ (Nat.le_refl _) rfl
  · exact fail_outcome _ ⟨_, hs⟩ (Nat.le_refl _) rfl
  · next hb hu hl =>
    have htop (top : PendingExpr) (h : top ∈ x.stack.head?) : top.refusesCallee = false ∧
        top.isLead = false ∧ (top.isOperator = true → ∃ op' target', top = .assign op' target') := by
      cases hxs : x.stack with
      | nil => simp [hxs] at h
      | cons p rest =>
        simp only [hxs, List.head?_cons, Option.mem_some_iff] at h
        subst h
        refine ⟨hx p (by simp [hxs]), ?_⟩
        cases p with
        | binary => exact (hb _ _ _ hxs).elim
        | unary => exact (hu _ _ _ hxs).elim
        | lead => exact (hl _ _ _ hxs).elim
        | assign op' target' => exact ⟨rfl, fun _ => ⟨op', target', rfl⟩⟩
        | _ => exact ⟨rfl, fun h => nomatch h⟩
    unfold assignTarget
    split
    · exact .halted _ _ ⟨_, hs⟩ (Nat.le_refl _) rfl
    · next hc =>
      split
      · next ha =>
        refine .kept hs (.assign he htop ?_ ha ho ht)
        simp only [Bool.and_eq_true, Bool.not_eq_true', Bool.and_eq_false_iff, not_and,
          Bool.not_eq_false] at hc
        by_cases h : x.stack = [] ∧ x.context.takesAssignment = true
        · exact .inl h
        · refine .inr (hc ?_)
          by_cases hn : x.stack = []
          · exact .inr (by simpa [hn] using h)
          · exact .inl (by simpa using hn)
      · exact fail_outcome _ ⟨_, hs⟩ (Nat.le_refl _) rfl

theorem binaryToken_outcome {s : Session} {x : ExprState} {t : Token} {op : Operator}
    {stream : TokenStream} {more : List Token} (hs : s.stream.Takes more stream)
    (he : x.slot.isSome = true) (ho : op.fixity = .between) (ht : Token.Spell (t :: more) op.spelling) :
    ExprOutcome s x t ({ s with stream := stream }.binaryToken x op t) := by
  unfold binaryToken
  split
  · next p hf =>
    unfold foldWhile at hf
    split at hf
    · cases hf
    · split at hf
      · split at hf
        · next hn => simp [hn] at he
        · split at hf <;> cases hf
      · cases hf
  · next s' y hf =>
    obtain ⟨id, rfl, hi, hf⟩ := foldWhile_folds (fun _ => bindsBefore_isOperator) hf
    split
    · next left hl => exact .kept hs (.binary hf he hl ho ht)
    · next hn =>
      have := hf.slot_isSome he
      simp [hn] at this

theorem spelling_length_pos (op : Operator) : 0 < op.spelling.toList.length := by
  cases op <;> decide

theorem spelling_of_operatorBehind? {run : List Char} {op : Operator} (h : operatorBehind? run = some op) :
    ∃ n, op.spelling.toList = run.take n := by
  refine ⟨Symbol.longestLength run, ?_⟩
  unfold operatorBehind? at h
  rw [Option.or_eq_some_iff] at h
  rcases h with h | ⟨-, h⟩ <;> simp [Operator.ofSpelling?_spelling h]

theorem operator_takes {s : Session} (hc : s.stream.Closed) {t : Token} {first : Char} {op : Operator}
    {allowed : List Char} {limit : Nat} (ht : t.symbol? = some first)
    (hb : ∀ c ∈ allowed, c ≠ '\x7b' ∧ c ≠ '\x7d')
    (ho : operatorBehind? (first :: (s.lookahead allowed limit).1) = some op) :
    ∃ more stream, (s.lookahead allowed limit).2.discard (op.spelling.length - 1) =
      { s with stream := stream } ∧ s.stream.Takes more stream ∧
      Token.Spell (t :: more) op.spelling := by
  let run := (s.lookahead allowed limit).1
  obtain ⟨n, hn⟩ : ∃ n, op.spelling.toList = (first :: run).take n := spelling_of_operatorBehind? ho
  have hpos := spelling_length_pos op
  obtain ⟨k, rfl⟩ : ∃ k, n = k + 1 := by
    cases n with
    | zero => simp [hn] at hpos
    | succ k => exact ⟨k, rfl⟩
  rw [List.take_succ_cons] at hn
  have hlen : op.spelling.length - 1 = min k run.length := by
    rw [← String.length_toList, hn]
    simp
  obtain ⟨stream, he, htakes, hspell⟩ := discard_takes hc allowed limit
    (n := op.spelling.length - 1) hb (by simp only [hlen, run]; omega)
  refine ⟨_, stream, he, htakes, ?_⟩
  have hk : run.take (op.spelling.length - 1) = run.take k := by
    rw [hlen, List.take_eq_take_iff]
    omega
  rw [Token.Spell, List.map_cons, ht, hspell, hn, List.map_cons, hk]

theorem operatorToken_outcome {s : Session} {x : ExprState} {t : Token} {first : Char}
    (hc : s.stream.Closed) (ht : t.symbol? = some first)
    (hx : ∀ top ∈ x.stack.head?, top.refusesCallee = false) :
    ExprOutcome s x t (s.operatorToken x first t) := by
  unfold operatorToken
  obtain ⟨stream, hl, htakes⟩ :=
    s.lookahead_takes Operator.spellingChars (Operator.maxSpellingLength - 1)
  simp only
  split
  · rw [hl]
    exact unaryToken_outcome htakes ht
  · next operand hs =>
    split
    · rw [hl]
      exact fail_outcome _ ⟨_, htakes⟩ (Nat.le_refl _) rfl
    · next op ho =>
      obtain ⟨more, stream, hd, htakes, hspell⟩ := operator_takes hc ht (by simp [Operator.spellingChars]) ho
      rw [hd]
      split
      · next hf => exact suffixToken_outcome htakes hs hx hf hspell
      · next hf => exact assignToken_outcome htakes hs hx hf hspell
      · next hf => exact binaryToken_outcome htakes (by simp [hs]) hf hspell
      · exact fail_outcome _ ⟨_, htakes⟩ (Nat.le_refl _) rfl

theorem symbolCharToken_outcome {s : Session} {x : ExprState} {t : Token} {c : Char}
    (hc : s.stream.Closed) (ht : t.symbol? = some c)
    (hx : ∀ top ∈ x.stack.head?, top.refusesCallee = true →
      (c = '(' ∧ ∃ loc lead pointer, top = .pointerReady loc lead pointer) ∨ c = '\\' ∨ c = ':') :
    ExprOutcome s x t (s.symbolCharToken x c t) := by
  have hsym {d : Char} (h : c = d) : t.isSymbol d = true := Token.isSymbol_iff.2 (by rw [ht, h])
  have hfree (h : c ≠ '(' ∧ c ≠ '\\' ∧ c ≠ ':') (top : PendingExpr) (htop : top ∈ x.stack.head?) :
      top.refusesCallee = false := by
    refine Bool.eq_false_iff.2 fun hr => ?_
    rcases hx top htop hr with ⟨hp, -⟩ | hp | hp
    · exact h.1 hp
    · exact h.2.1 hp
    · exact h.2.2 hp
  unfold symbolCharToken
  split
  · next h =>
    refine openParen_outcome (hsym h) fun top htop hr => ?_
    rcases hx top htop hr with ⟨-, hp⟩ | hp | hp
    · exact hp
    · simp [h] at hp
    · simp [h] at hp
  split
  · next h => exact closeParen_outcome (hsym h)
  split
  · next h => exact comma_outcome (hsym h)
  split
  · next h => exact openBracket_outcome hc (hsym h) (hfree (by simp [h]))
  split
  · next h => exact closeBracket_outcome hc (hsym h)
  split
  · next h => exact point_outcome (hsym h) (hfree (by simp [h]))
  split
  · next h => exact pathSeparator_outcome (hsym h)
  split
  · next h => exact colon_outcome hc (hsym h)
  split
  · next hp _ _ _ _ _ hb hcol _ => exact operatorToken_outcome hc ht (hfree ⟨hp, hb, hcol⟩)
  · exact ended_here

theorem symbolToken_outcome {s : Session} {x : ExprState} {t : Token} (hc : s.stream.Closed) :
    ExprOutcome s x t (s.symbolToken x t) := by
  unfold symbolToken
  split
  · exact ended_here
  · next c ht =>
    split
    · next hx => exact symbolCharToken_outcome hc ht (by simp [hx])
    · next top rest hx =>
      split
      · exact fail_here _ rfl
      · next hn =>
        split
        · split
          · next h =>
            exact symbolCharToken_outcome hc ht (by simp only [hx]; intro _ _ _; exact .inr h)
          · exact fail_here _ rfl
        · split
          · next h =>
            refine symbolCharToken_outcome hc ht ?_
            simp only [hx, List.head?_cons, Option.mem_some_iff]
            rintro _ rfl -
            exact .inl ⟨h, _, _, _, rfl⟩
          · exact fail_here _ rfl
        · next hp hr =>
          refine symbolCharToken_outcome hc ht ?_
          simp only [hx, List.head?_cons, Option.mem_some_iff]
          rintro _ rfl hf
          cases top with
          | path => exact (hp _ _ _ rfl).elim
          | pointerReady => exact (hr _ _ _ rfl).elim
          | _ => simp [PendingExpr.refusesCallee] at hf hn; simp [hf] at hn

theorem exprToken_outcome {s : Session} {x : ExprState} {t : Token} (hc : s.stream.Closed) :
    ∃ m, ExprOutcome s x t m ∧ s.exprToken x t = started m := by
  refine ⟨_, ?_, rfl⟩
  split
  · next h => exact identifierToken_outcome h
  · next h => exact literalToken_outcome (by simp [Token.literalKind?, h])
  · next h => exact literalToken_outcome (by simp [Token.literalKind?, h])
  · next h => exact literalToken_outcome (by simp [Token.literalKind?, h])
  · next h => exact literalToken_outcome (by simp [Token.literalKind?, h])
  · exact symbolToken_outcome hc
  all_goals exact ended_here

end Session

end GameScript
