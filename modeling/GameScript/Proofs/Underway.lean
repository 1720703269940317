import GameScript.Proofs.Faultless
import GameScript.Proofs.Shifting
import GameScript.Proofs.Stacking
import GameScript.Proofs.Upcoming

namespace GameScript

def IteratorNames.names : IteratorNames → List Ident
  | none => []
  | one name | oneMore name => [name]
  | two key value => [key, value]

namespace PendingStmt

def Composed (config : ParserConfig) (cs : Constants) : PendingStmt → Prop
  | block ⟨_, .switchBody labels, statements⟩ =>
    SwitchBody config cs labels statements ∧ ∀ s ∈ statements, s.Composed config cs false
  | block ⟨_, _, statements⟩ => ∀ s ∈ statements, s.Composed config cs false
  | ifStmt _ (.thenBranch condition) | whileLoop _ (.body condition) | switch _ (.body condition) =>
    condition.Composed config .condition
  | ifStmt _ (.awaitElse condition thenBranch) | ifStmt _ (.elseBranch condition thenBranch) =>
    condition.Composed config .condition ∧ thenBranch.Composed config cs true
  | forLoop _ (.clause _ first condition) =>
    (∀ e ∈ first, e.Composed config (.forClause .first)) ∧ ∀ e ∈ condition, e.Composed config (.forClause .condition)
  | forLoop _ (.body first condition step) =>
    (∀ e ∈ first, e.Composed config (.forClause .first)) ∧ (∀ e ∈ condition, e.Composed config (.forClause .condition)) ∧
      ∀ e ∈ step, e.Composed config (.forClause .step)
  | foreachLoop _ (.names names) => ∀ n ∈ names.names, n.IsWord config.dialect
  | foreachLoop _ (.collection key value) => (∀ n ∈ key, n.IsWord config.dialect) ∧ value.IsWord config.dialect
  | foreachLoop _ (.body key value collection) =>
    ((∀ n ∈ key, n.IsWord config.dialect) ∧ value.IsWord config.dialect) ∧
      collection.Composed config .foreachCollection
  | keywordCall _ keyword => keyword.keyword.reservedIn config.dialect.mode = true
  | _ => True

def behind : PendingStmt → Bool
  | ifStmt _ (.thenBranch _) | whileLoop _ (.body _) | forLoop _ (.body ..) | foreachLoop _ (.body ..) => true
  | _ => false

def atRest : PendingStmt → Bool
  | ifStmt _ (.awaitElse ..) => true
  | p => p.isOpen

theorem atRest_of_isOpen {p : PendingStmt} (h : p.isOpen = true) : p.atRest = true := by
  unfold atRest
  split
  · rfl
  · exact h

variable {config : ParserConfig} {cs : Constants}

theorem Composed.complete {top : PendingStmt} {stmt whole : Stmt} (h : top.Composed config cs)
    (hs : stmt.Composed config cs top.behind) (hw : top.complete? stmt = some whole) (behind : Bool) :
    whole.Composed config cs behind := by
  cases top with
  | ifStmt _ phase =>
    cases phase <;> cases hw
    exact .ifElse h.1 h.2 hs
  | whileLoop _ phase =>
    cases phase <;> cases hw
    exact .whileLoop h hs
  | forLoop _ phase =>
    cases phase <;> cases hw
    exact .forLoop h.1 h.2.1 h.2.2 hs
  | foreachLoop _ phase =>
    cases phase <;> cases hw
    exact .foreachLoop h.1.1 h.1.2 h.2 hs
  | _ => cases hw

theorem Composed.supplied {top top' : PendingStmt} {context : ExprContext} {e : Expr} (h : top.Composed config cs)
    (hc : top.reads = some context) (he : e.Composed config context) (hp : top.supplied? e = some top') :
    top'.Composed config cs := by
  cases top with
  | ifStmt _ phase | whileLoop _ phase | switch _ phase =>
    cases phase <;> cases hp
    cases hc
    exact he
  | foreachLoop _ phase =>
    cases phase <;> cases hp
    cases hc
    exact ⟨h, he⟩
  | _ => cases hp

theorem behind_of_supplied {top top' : PendingStmt} {e : Expr} (hp : top.supplied? e = some top')
    (hr : top'.atRest = true) : top'.behind = true := by
  cases top with
  | ifStmt _ phase | whileLoop _ phase | foreachLoop _ phase =>
    cases phase <;> cases hp
    rfl
  | switch _ phase =>
    cases phase <;> cases hp
    cases hr
  | _ => cases hp

theorem opened_cases (config : ParserConfig) (cs : Constants) {top top' : PendingStmt} {context : Option ExprContext}
    (hp : top.opened? = some (top', context)) :
    top'.Composed config cs ∧ top'.atRest = false ∧ context ≠ some .statement := by
  cases top with
  | ifStmt _ phase | whileLoop _ phase | switch _ phase | foreachLoop _ phase | forLoop _ phase =>
    cases phase <;> cases hp
    exact ⟨by simp [Composed, IteratorNames.names], rfl, by simp⟩
  | _ => cases hp

theorem begun_cases (config : ParserConfig) (cs : Constants) {node : Node} {k : Keyword} {new : PendingStmt}
    (h : begun? node k = some new) :
    new.Composed config cs ∧ new.atRest = false := by
  cases k <;> cases h <;> exact ⟨trivial, rfl⟩

theorem awaitsBody_of_isOpen {p : PendingStmt} (h : p.isOpen = false) : p.awaitsBody = false := by
  cases p with
  | block => cases h
  | _ => exact h

theorem behind_of_awaitsBody {p : PendingStmt} (h : p.awaitsBody = false) : p.behind = false := by
  cases p with
  | ifStmt _ phase =>
    cases phase with
    | thenBranch => cases h
    | _ => rfl
  | whileLoop _ phase | forLoop _ phase | foreachLoop _ phase =>
    cases phase with
    | body => cases h
    | _ => rfl
  | _ => rfl

theorem Composed.nextFor {node : Node} {clause : ForClause} {first condition value : Option Expr}
    (h : (forLoop node (.clause clause first condition)).Composed config cs)
    (hv : ∀ e ∈ value, e.Composed config (.forClause clause)) :
    (forLoop node (Session.nextForPhase clause first condition value)).Composed config cs ∧
      (forLoop node (Session.nextForPhase clause first condition value)).behind = decide (clause = .step) := by
  cases clause with
  | first => exact ⟨⟨hv, by simp⟩, rfl⟩
  | condition => exact ⟨⟨h.1, hv⟩, rfl⟩
  | step => exact ⟨⟨h.1, h.2, hv⟩, rfl⟩

end PendingStmt

namespace IteratorNames

theorem names_add {name : Ident} {names names' : IteratorNames} (h : names.add? name = some names') :
    names'.names = names.names ++ [name] := by
  cases names <;> cases h <;> rfl

theorem names_whole {names : IteratorNames} {key : Option Ident} {value : Ident} (h : names.whole? = some (key, value)) :
    names.names = key.toList ++ [value] := by
  cases names <;> cases h <;> rfl

end IteratorNames

theorem Stowed.composed {config : ParserConfig} {cs : Constants} {stmts stmts' : List PendingStmt} {stmt : Stmt}
    (h : Stowed stmts stmt stmts') (hs : ∀ p ∈ stmts, p.Composed config cs)
    (hstmt : ∀ top ∈ stmts.head?, stmt.Composed config cs top.behind) : ∀ p ∈ stmts', p.Composed config cs := by
  induction h with
  | @block node role statements rest stmt hr =>
    obtain ⟨hblock, hrest⟩ := List.forall_mem_cons.1 hs
    have hnew : stmt.Composed config cs false := hstmt _ rfl
    refine List.forall_mem_cons.2 ⟨?_, hrest⟩
    cases role with
    | functionBody | nested => exact List.forall_mem_cons.2 ⟨hnew, hblock⟩
    | switchBody labels =>
      exact ⟨.statement hblock.1 (hr labels rfl) stmt, List.forall_mem_cons.2 ⟨hnew, hblock.2⟩⟩
  | thenBranch =>
    obtain ⟨hcondition, hrest⟩ := List.forall_mem_cons.1 hs
    exact List.forall_mem_cons.2 ⟨⟨hcondition, hstmt _ rfl⟩, hrest⟩
  | whole hw _ ih =>
    obtain ⟨htop, hrest⟩ := List.forall_mem_cons.1 hs
    exact ih hrest fun below _ => htop.complete (hstmt _ rfl) hw _

theorem Stowed.behind {stmts stmts' : List PendingStmt} {stmt : Stmt} (h : Stowed stmts stmt stmts') :
    ∀ top ∈ stmts'.head?, top.behind = false := by
  induction h with
  | block | thenBranch => simp [PendingStmt.behind]
  | whole _ _ ih => exact ih

theorem Token.reservedIn_of_keyword? {t : Token} {mode : GameMode} {k : Keyword} (h : t.keyword? mode = some k) :
    k.reservedIn mode = true := by
  unfold keyword? at h
  split at h
  · unfold Keyword.ofWord? at h
    have hfound := List.find?_some h
    simp only [Bool.and_eq_true] at hfound
    exact hfound.2
  · cases h

namespace ExprState

variable {config : ParserConfig} {x y : ExprState}

def Leads (d : Dialect) (afterValue : Bool) (x : ExprState) : Prop :=
  ∃ t ts, x.Spells d.mode (t :: ts) ∧ t.Readable d afterValue ∧ ∀ u ∈ t :: ts, u.Lexed d

theorem Leads.shift {afterValue : Bool} {id id' : Nat} {ts : List Token} (h : x.Leads config.dialect afterValue)
    (hx : x.Settled) (hs : Shift config id x ts id' y) (ht : ∀ t ∈ ts, t.Lexed config.dialect) :
    ExprState.Leads config.dialect afterValue { y with started := true } := by
  obtain ⟨t, us, hsp, hr, hl⟩ := h
  refine ⟨t, us ++ ts, hs.spells hsp hx, hr, ?_⟩
  rw [← List.cons_append]
  exact List.forall_mem_append.2 ⟨hl, ht⟩

theorem Leads.begin {context : ExprContext} {afterValue : Bool} {id id' : Nat} {t : Token} {more : List Token}
    (hs : Shift config id (Session.fresh context) (t :: more) id' y) (ht : ∀ u ∈ t :: more, u.Lexed config.dialect)
    (hr : t.Readable config.dialect afterValue) :
    ExprState.Leads config.dialect afterValue { y with started := true } :=
  ⟨t, more, hs.spells (spells_fresh _ context) (settled_fresh context), hr, ht⟩

theorem Leads.ends {d : Dialect} {afterValue : Bool} {s s' : Session} {e : Expr} (h : x.Leads d afterValue)
    (he : Ends s x s' (.value e)) : e.Readable d afterValue := by
  obtain ⟨t, ts, hsp, hr, hl⟩ := h
  exact ⟨t :: ts, he.spells hsp, hl, by simpa using hr⟩

theorem Composed.ends_value? {s s' : Session} {completed : Completed} (h : x.Composed config)
    (he : Ends s x s' completed) : ∀ e ∈ completed.value?, e.Composed config x.context := by
  cases completed with
  | value e =>
    rintro _ ⟨⟩
    exact h.ends he
  | _ => simp [Completed.value?]

end ExprState

theorem Session.word_of_plainName? {s : Session} {t : Token} {name : Ident} (h : s.plainName? t = some name)
    (ht : t.Lexed s.config.dialect) : name.IsWord s.config.dialect := by
  unfold plainName? at h
  split at h
  · next hplain =>
    cases h
    exact ⟨t, rfl, ⟨hplain.1, by simpa [gameMode] using hplain.2⟩, ht⟩
  · cases h

structure Session.Phrased (s : Session) : Prop where
  composed : ∀ x ∈ s.expr, x.Composed s.config
  leads : ∀ x ∈ s.expr, x.context = .statement → ∀ top ∈ s.stmts.head?, x.Leads s.config.dialect top.behind

namespace Session

variable {s s' : Session} {t : Token} {x : ExprState}

theorem Phrased.none {b : Session} (h : b.expr = none) : b.Phrased :=
  ⟨by simp [h], by simp [h]⟩

theorem Phrased.fresh {b : Session} (context : ExprContext) (h : b.expr = some (Session.fresh context))
    (hc : context ≠ .statement) : b.Phrased := by
  refine ⟨?_, ?_⟩ <;> rw [h] <;> rintro _ ⟨⟩
  · exact ExprState.composed_fresh _ _
  · exact fun hs => (hc hs).elim

theorem Phrased.reading (h : s.Phrased) (hx : s.Reading t x) : x.Composed s.config := by
  cases hx with
  | further _ hx => exact h.composed x hx
  | statement | whole => exact ExprState.composed_fresh _ _

def Fits (s : Session) (t : Token) : Prop :=
  ∀ top ∈ s.stmts.head?, s.expr = none → top.isOpen = true → t.isEof = false → t.Readable s.config.dialect top.behind

end Session

open Session

theorem Advance.phrased {s s' : Session} {t : Token} (h : Advance s t s') (hs : s.Phrased)
    (hl : s.stream.Lexed s.config.dialect) (hmem : t ∈ s.stream.tokens.toList) (hfits : s.Fits t) : s'.Phrased := by
  cases h with
  | @shift x y more stream id hx hstream hshift =>
    have hlexed := hshift.lexed hstream hl hmem
    obtain ⟨hy, hc⟩ := (hs.reading hx).shift hshift hlexed
    refine ⟨?_, ?_⟩ <;> rintro _ ⟨⟩
    · exact hy
    · intro hstatement top htop
      cases hx with
      | further _ hx =>
        exact (hs.leads x hx (hc.symm.trans hstatement) top htop).shift (hs.composed x hx).settled hshift hlexed
      | @statement top' rest h ht =>
        have hfirst : top' = top := by
          rw [h.stmts] at htop
          exact Option.some.inj htop
        subst hfirst
        exact .begin hshift hlexed (hfits top' htop h.expr h.opened (Token.isEof_of_isEdge hshift.isEdge))
      | whole => cases hc.symm.trans hstatement
  | exprStmt _ _ he | supply _ _ _ _ he | caseValue _ _ _ he | constant _ _ he | whole _ _ _ he =>
    obtain ⟨_, _, -, rfl⟩ := he.of_value
    exact .none rfl
  | keywordCall _ _ _ he hf | closeArgs _ _ he hf =>
    obtain ⟨_, _, -, rfl⟩ := he.of_not_failed hf
    exact .none rfl
  | @clause _ _ _ _ clause =>
    cases clause with
    | step => exact .none rfl
    | first | condition => exact .fresh _ rfl (by simp)
  | nextArg | openArgs => exact .fresh .directiveArgs rfl (by simp)
  | openConstant => exact .fresh .constValue rfl (by simp)
  | iterators => exact .fresh .foreachCollection rfl (by simp)
  | openCall => exact .fresh .keywordArg rfl (by simp)
  | openCase => exact .fresh .caseLabel rfl (by simp)
  | @openHeader _ _ context _ _ ho =>
    obtain ⟨-, -, hc⟩ := PendingStmt.opened_cases s.config s.constants ho
    cases context with
    | none => exact .none rfl
    | some c => exact .fresh _ rfl (by simpa using hc)
  | iterator h =>
    obtain ⟨_, _, hw⟩ := Session.iteratorName_warned (s := s) _ _ _
    rw [hw]
    exact .none h.expr
  | nextIterator h | openSwitch h | flow h | defaultLabel h | elseBranch h | noElse h => exact .none h.expr
  | openBlock h | openStmt h | openFlow h | openDefault h | closeBlock h => exact .none h.expr
  | straySemicolon h | emptyBody h | rootSemicolon h =>
    obtain ⟨_, hw⟩ := Session.report_warning (s := s) (p := .straySemicolon) t.loc rfl
    rw [hw]
    exact .none h.expr
  | @closeSwitch _ labels statements switch _ rest _ h =>
    obtain ⟨_, hw⟩ := Session.noteSwitch_warned (s := { s with stmts := rest }) switch labels statements t
    rw [hw]
    exact .none h.expr
  | @closeFunction node statements header h _ hd =>
    obtain ⟨-, he⟩ | ⟨-, he⟩ := Session.defineFunction_new (s := { s with stmts := [], mode := .root .idle })
      (f := header.define (some ⟨node, statements.reverse⟩)) hd <;> rw [he] <;> exact .none h.expr
  | @declare header h _ hn =>
    obtain ⟨-, he⟩ | ⟨-, he⟩ := Session.defineFunction_new (s := s.inRoot .idle) (f := header.define none) (.inr hn) <;>
      rw [he] <;> exact .none h.expr
  | pass h | dots h | importScript h | declarative h | bareDirective h | directive h | globals h | openParams h
  | openBody h | scriptEnd h | functionEnd h => exact .none h.expr
  | expressionEnd _ hx => exact .none hx

theorem Advance.stacked {s s' : Session} {t : Token} (h : Advance s t s') (hs : s.Phrased)
    (hst : ∀ p ∈ s.stmts, p.Composed s.config s.constants) (hl : t.isEof = false → t.Lexed s.config.dialect) :
    ∀ p ∈ s'.stmts, p.Composed s.config s.constants := by
  have hrest {top : PendingStmt} {rest : List PendingStmt} (h : s.stmts = top :: rest) :
      top.Composed s.config s.constants ∧ ∀ p ∈ rest, p.Composed s.config s.constants := by
    rw [h] at hst
    exact List.forall_mem_cons.1 hst
  have hnew {new : PendingStmt} (hn : new.Composed s.config s.constants) :
      ∀ p ∈ new :: s.stmts, p.Composed s.config s.constants := List.forall_mem_cons.2 ⟨hn, hst⟩
  cases h with
  | exprStmt hx hc he hf _ hk =>
    refine hk.composed hst fun top htop => ?_
    have hcomposed := (hs.reading hx).ends he
    rw [hc] at hcomposed
    refine .expr hcomposed ?_ hf
    cases hx with
    | further _ hx => exact (hs.leads _ hx hc top htop).ends he
    | statement =>
      -- An expression without a token has no value.
      have hstarts : Token.StartsAt [] _ := (he.spells (ExprState.spells_fresh s.config.dialect.mode _)).startsAt
      cases hstarts
    | whole => cases hc
  | supply hx hst' hc _ he hp =>
    obtain ⟨htop, hbelow⟩ := hrest hst'
    exact List.forall_mem_cons.2 ⟨htop.supplied hc ((hs.reading hx).ends he) hp, hbelow⟩
  | clause hx hst' hc he =>
    obtain ⟨htop, hbelow⟩ := hrest hst'
    exact List.forall_mem_cons.2 ⟨(htop.nextFor (hc ▸ (hs.reading hx).ends_value? he)).1, hbelow⟩
  | keywordCall hx hst' hc he _ hp _ hk =>
    obtain ⟨htop, hbelow⟩ := hrest hst'
    exact hk.composed hbelow fun _ _ => .keywordCall htop (hc ▸ (hs.reading hx).ends_value? he) hp
  | caseValue hx hst' hc he hv hp =>
    obtain ⟨-, hbelow⟩ := hrest hst'
    obtain ⟨hblock, hbelow⟩ := List.forall_mem_cons.1 hbelow
    have hvalue := (hs.reading hx).ends he
    rw [hc] at hvalue
    exact List.forall_mem_cons.2 ⟨⟨.value hblock.1 hvalue hv hp _, hblock.2⟩, hbelow⟩
  | defaultLabel h hp =>
    obtain ⟨-, hbelow⟩ := hrest h.stmts
    obtain ⟨hblock, hbelow⟩ := List.forall_mem_cons.1 hbelow
    exact List.forall_mem_cons.2 ⟨⟨.default hblock.1 _ hp, hblock.2⟩, hbelow⟩
  | shift => exact hst
  | constant _ _ he | nextArg _ _ he | whole _ _ _ he =>
    obtain ⟨_, _, -, rfl⟩ := he.of_value
    exact hst
  | closeArgs _ _ he hf =>
    obtain ⟨_, _, -, rfl⟩ := he.of_not_failed hf
    exact hst
  | openHeader h ho => exact List.forall_mem_cons.2 ⟨(PendingStmt.opened_cases _ _ ho).1, (hrest h.stmts).2⟩
  | @iterator node names names' name rest h hn ht =>
    obtain ⟨htop, hbelow⟩ := hrest h.stmts
    rw [iteratorName_stmts, h.stmts]
    refine List.forall_mem_cons.2 ⟨?_, hbelow⟩
    have hword := word_of_plainName? ht (hl (Token.isEof_of_isEdge (plainName?_isEdge ht)))
    show ∀ n ∈ names'.names, n.IsWord s.config.dialect
    rw [IteratorNames.names_add hn]
    exact List.forall_mem_append.2 ⟨htop, List.forall_mem_singleton.2 hword⟩
  | nextIterator h =>
    obtain ⟨htop, hbelow⟩ := hrest h.stmts
    exact List.forall_mem_cons.2 ⟨htop, hbelow⟩
  | iterators h hn =>
    obtain ⟨htop, hbelow⟩ := hrest h.stmts
    have hnames : ∀ n ∈ IteratorNames.names _, n.IsWord s.config.dialect := htop
    rw [IteratorNames.names_whole hn] at hnames
    obtain ⟨hkey, hvalue⟩ := List.forall_mem_append.1 hnames
    exact List.forall_mem_cons.2 ⟨⟨by simpa using hkey, by simpa using hvalue⟩, hbelow⟩
  | openSwitch => exact hnew ⟨.start, by simp⟩
  | flow h _ hk => exact hk.composed (hrest h.stmts).2 fun _ _ => .flow
  | elseBranch h =>
    obtain ⟨htop, hbelow⟩ := hrest h.stmts
    exact List.forall_mem_cons.2 ⟨htop, hbelow⟩
  | noElse h _ hk =>
    obtain ⟨htop, hbelow⟩ := hrest h.stmts
    exact hk.composed hbelow fun _ _ => .ifThen htop.1 htop.2
  | openBlock | openBody => exact hnew (by simp [PendingStmt.Composed])
  | openStmt _ _ hn => exact hnew (PendingStmt.begun_cases _ _ hn).1
  | openCall _ ht => exact hnew (Token.reservedIn_of_keyword? ht)
  | openFlow | openCase | openDefault => exact hnew trivial
  | straySemicolon | rootSemicolon =>
    rw [report_stmts]
    exact hst
  | emptyBody _ _ _ hk => exact hk.composed hst fun _ _ => .block (by simp)
  | closeBlock h _ hk =>
    obtain ⟨htop, hbelow⟩ := hrest h.stmts
    exact hk.composed hbelow fun _ _ => .block fun stmt hmem => htop stmt (List.mem_reverse.1 hmem)
  | closeSwitch h _ hk =>
    obtain ⟨hblock, hbelow⟩ := hrest h.stmts
    obtain ⟨hsubject, hbelow⟩ := List.forall_mem_cons.1 hbelow
    exact hk.composed hbelow fun _ _ => .switch hsubject hblock.1 hblock.2
  | closeFunction =>
    rw [defineFunction_stmts]
    exact fun _ hp => (List.not_mem_nil hp).elim
  | declare =>
    rw [defineFunction_stmts]
    exact hst
  | pass | dots | importScript | declarative | bareDirective | directive | openArgs | openConstant | globals
  | openParams | scriptEnd | functionEnd | expressionEnd => exact hst

theorem Token.endsValue_of_isSymbol {t : Token} {c : Char} (h : t.isSymbol c = true) (mode : GameMode) :
    t.endsValue mode = (c == ')' || c == ']') := by
  have hkind : t.kind = .symbol := by
    refine Decidable.by_contra fun hk => ?_
    simp [Token.isSymbol, Token.symbol?, hk] at h
  have hsymbol : t.symbol? = some c := by simpa [Token.isSymbol] using h
  simp [Token.endsValue, hkind, Token.isSymbol, hsymbol]

theorem Token.endsValue_of_isKeyword {t : Token} {mode : GameMode} {k : Keyword} (h : t.isKeyword k mode = true)
    (hk : k.category ≠ .literal) : t.endsValue mode = false := by
  have hkeyword : t.keyword? mode = some k := by simpa [Token.isKeyword] using h
  simp [Token.endsValue, Token.kind_of_keyword hkeyword, hkeyword, hk]

theorem TokenStream.GoesOn.takes {d : Dialect} {afterValue : Bool} {s s' : TokenStream} (h : s.GoesOn d afterValue)
    (hs : s.Takes [] s') : s'.GoesOn d afterValue := by
  have hcursor : s'.cursor = s.cursor := hs.cursor
  unfold GoesOn
  rw [hs.tokens, hcursor]
  exact h

def Session.GoesOn (s : Session) : Prop :=
  ∀ top ∈ s.stmts.head?, s.expr = none → top.atRest = true → s.stream.GoesOn s.config.dialect top.behind

theorem Advance.goesOn {s s' : Session} {t : Token} (h : Advance s t s') (hs : s.Shaped)
    (hgo : s.stream.GoesOn s.config.dialect (t.endsValue s.config.dialect.mode))
    (hdefer : ∀ top ∈ s.stmts.head?, top.isOpen = false → top.atRest = true →
      s.stream.defer.GoesOn s.config.dialect false) : s'.GoesOn := by
  have hsymbol {c : Char} (ht : t.isSymbol c = true) : s.stream.GoesOn s.config.dialect (c == ')' || c == ']') := by
    rwa [Token.endsValue_of_isSymbol ht] at hgo
  have hnil {b : Session} (hb : b.stmts = []) : b.GoesOn := by
    intro top htop
    rw [hb] at htop
    cases htop
  have hroot {b : Session} {phase : RootPhase} (h : s.AtRoot phase) (hb : b.stmts = s.stmts) : b.GoesOn :=
    hnil (hb.trans (hs.stmts_nil (by simp [h.mode])))
  have hbusy {b : Session} {x : ExprState} (hb : b.expr = some x) : b.GoesOn := by
    intro top _ hx
    rw [hb] at hx
    cases hx
  -- A statement has been put away, and the token is no value.
  have hstowed {b : Session} {stmts stmts' : List PendingStmt} {stmt : Stmt} (hk : Stowed stmts stmt stmts')
      (hb : b.stmts = stmts') (hc : b.config = s.config) (hg : b.stream.GoesOn s.config.dialect false) : b.GoesOn := by
    intro top htop _ _
    rw [hk.behind top (hb ▸ htop), hc]
    exact hg
  -- The entry on top reads no statement.
  have hheader {b : Session} {top : PendingStmt} {rest : List PendingStmt} (hb : b.stmts = top :: rest)
      (hr : top.atRest = false) : b.GoesOn := by
    intro top' htop _ hr'
    rw [hb] at htop
    obtain rfl := Option.some.inj htop
    rw [hr] at hr'
    cases hr'
  cases h with
  | shift => exact hbusy rfl
  | exprStmt _ _ he _ ht hk =>
    obtain ⟨_, _, htakes, rfl⟩ := he.of_value
    exact hstowed hk rfl rfl ((hsymbol ht).takes htakes)
  | supply _ _ _ ht he hp =>
    obtain ⟨_, _, htakes, rfl⟩ := he.of_value
    intro top htop _ hr
    obtain rfl := Option.some.inj htop
    rw [PendingStmt.behind_of_supplied hp hr]
    exact (hsymbol ht).takes htakes
  | @clause _ _ _ _ clause _ _ _ _ _ _ he hf ht =>
    obtain ⟨_, _, htakes, rfl⟩ := he.of_not_failed hf
    cases clause with
    | first | condition => exact hbusy rfl
    | step =>
      intro top htop _ _
      obtain rfl := Option.some.inj htop
      exact (hsymbol ht).takes htakes
  | keywordCall _ _ _ he hf _ ht hk =>
    obtain ⟨_, _, htakes, rfl⟩ := he.of_not_failed hf
    exact hstowed hk rfl rfl ((hsymbol ht).takes htakes)
  | caseValue _ _ _ he _ _ ht =>
    obtain ⟨_, _, htakes, rfl⟩ := he.of_value
    intro top htop _ _
    obtain rfl := Option.some.inj htop
    exact (hsymbol ht).takes htakes
  | constant _ hm he | whole _ _ hm he =>
    obtain ⟨_, _, -, rfl⟩ := he.of_value
    exact hnil (hs.stmts_nil (by simp [hm]))
  | closeArgs _ hm he hf =>
    obtain ⟨_, _, -, rfl⟩ := he.of_not_failed hf
    exact hnil (hs.stmts_nil (by simp [hm]))
  | nextArg => exact hbusy rfl
  | openHeader h ho =>
    obtain ⟨-, hr, -⟩ := PendingStmt.opened_cases s.config s.constants ho
    exact hheader rfl hr
  | iterator h =>
    exact hheader (iteratorName_stmts ..) rfl
  | nextIterator => exact hheader rfl rfl
  | iterators | openCall | openCase | openArgs | openConstant => exact hbusy rfl
  | openSwitch _ ht | openBlock _ ht | openBody _ _ ht | defaultLabel _ _ ht =>
    intro top htop _ _
    obtain rfl := Option.some.inj htop
    exact hsymbol ht
  | flow _ ht hk | closeBlock _ ht hk => exact hstowed hk rfl rfl (hsymbol ht)
  | elseBranch h ht =>
    intro top htop _ _
    obtain rfl := Option.some.inj htop
    rwa [show t.endsValue s.config.dialect.mode = false from Token.endsValue_of_isKeyword ht (by decide)] at hgo
  | noElse h ht hk =>
    -- The token comes again, and it is the one that `hdefer` is about.
    exact hstowed hk rfl rfl (hdefer _ (by rw [h.stmts]; rfl) rfl rfl)
  | openStmt _ _ hn =>
    exact hheader rfl (PendingStmt.begun_cases s.config s.constants hn).2
  | openFlow | openDefault => exact hheader rfl rfl
  | straySemicolon h hb ht =>
    obtain ⟨_, hw⟩ := Session.report_warning (s := s) (p := .straySemicolon) t.loc rfl
    rw [hw]
    intro top htop _ _
    obtain rfl : _ = top := Option.some.inj ((congrArg List.head? h.stmts).symm.trans htop)
    rw [PendingStmt.behind_of_awaitsBody hb]
    exact hsymbol ht
  | emptyBody h _ ht hk =>
    obtain ⟨_, hw⟩ := Session.report_warning (s := s) (p := .straySemicolon) t.loc rfl
    rw [hw]
    exact hstowed hk rfl rfl (hsymbol ht)
  | @closeSwitch _ labels statements switch _ rest _ h ht hk =>
    obtain ⟨_, hw⟩ := Session.noteSwitch_warned (s := { s with stmts := rest }) switch labels statements t
    rw [hw]
    exact hstowed hk rfl rfl (hsymbol ht)
  | closeFunction => exact hnil (defineFunction_stmts ..)
  | declare h => exact hroot h (defineFunction_stmts ..)
  | rootSemicolon h => exact hroot h (report_stmts ..)
  | pass h | dots h | importScript h | declarative h | bareDirective h | directive h | globals h | openParams h
  | scriptEnd h | functionEnd h => exact hroot h rfl
  | expressionEnd _ _ hm => exact hnil (hs.stmts_nil (by simp [hm]))

end GameScript
