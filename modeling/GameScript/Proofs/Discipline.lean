import GameScript.Proofs.Moves
import GameScript.Proofs.Slotted
import Mathlib.Data.List.Chain

namespace GameScript

namespace SlotStmt

def isFunctionBody : SlotStmt → Bool
  | block b => b.role = .functionBody
  | _ => false

def isSwitchBody : SlotStmt → Bool
  | block b => b.role = .switchBody
  | _ => false

/-- The header is not behind its last token. A switch before its brace has read it. -/
def readsHeader : SlotStmt → Bool
  | switch _ .body _ => false
  | p => p.inHeader

def awaitsElse : SlotStmt → Bool
  | ifStmt _ .awaitElse .. => true
  | _ => false

/-- The entry may be right below `above`. -/
inductive Carries (above : SlotStmt) : SlotStmt → Prop
  | block (b : SlotBlock) : Carries above (block b)
  | thenBranch (node : Node) (condition : Option Expr) (thenBranch : Option Stmt) :
      Carries above (ifStmt node .thenBranch condition thenBranch)
  | elseBranch (node : Node) (condition : Option Expr) (thenBranch : Option Stmt) :
      Carries above (ifStmt node .elseBranch condition thenBranch)
  | whileLoop (node : Node) (condition : Option Expr) : Carries above (whileLoop node .body condition)
  | forLoop (node : Node) (first condition step : Option Expr) : Carries above (forLoop node .body first condition step)
  | foreachLoop (node : Node) (names : List Ident) (collection : Option Expr) :
      Carries above (foreachLoop node .body names collection)
  | switch (node : Node) (subject : Option Expr) (h : above.isSwitchBody = true) :
      Carries above (switch node .body subject)

/-- The slots that an entry needs at its stage. -/
def IsFilled : SlotStmt → Prop
  | block b => b.role = .switchBody → b.labels.isSome = true
  | ifStmt _ stage condition thenBranch =>
    (stage ≠ .start ∧ stage ≠ .condition → condition.isSome = true) ∧
      (stage = .awaitElse ∨ stage = .elseBranch → thenBranch.isSome = true)
  | whileLoop _ stage condition => stage = .body → condition.isSome = true
  | foreachLoop _ stage names collection =>
    (stage = .collection ∨ stage = .body → names ≠ [] ∧ names.length ≤ 2) ∧
      (stage = .body → collection.isSome = true)
  | switch _ stage subject => stage = .body → subject.isSome = true
  | _ => True

theorem IsFilled.seal? {p : SlotStmt} (h : p.IsFilled) (ha : p.awaitsBody = true) :
    (∃ node condition thenBranch, p = .ifStmt node .thenBranch condition thenBranch) ∨
      ∀ body, (p.seal? body).isSome = true := by
  cases p with
  | ifStmt node stage condition thenBranch =>
    cases stage with
    | thenBranch => exact .inl ⟨_, _, _, rfl⟩
    | elseBranch =>
      obtain ⟨c, rfl⟩ := Option.isSome_iff_exists.1 (h.1 (by simp))
      obtain ⟨b, rfl⟩ := Option.isSome_iff_exists.1 (h.2 (.inr rfl))
      exact .inr fun _ => rfl
    | _ => cases ha
  | whileLoop node stage condition =>
    obtain ⟨c, rfl⟩ := Option.isSome_iff_exists.1 (h (by simpa [awaitsBody] using ha))
    exact .inr fun _ => rfl
  | forLoop => exact .inr fun _ => rfl
  | foreachLoop node stage names collection =>
    have hbody : stage = .body := by simpa [awaitsBody] using ha
    obtain ⟨e, rfl⟩ := Option.isSome_iff_exists.1 (h.2 hbody)
    have hnames := (h.1 (.inr hbody)).1
    exact .inr fun _ => by simpa [SlotStmt.seal?, List.getLast?_isSome] using hnames
  | _ => cases ha

end SlotStmt

namespace PendingStmt

theorem isFilled_slotted (p : PendingStmt) : p.slotted.IsFilled := by
  cases p with
  | block b =>
    obtain ⟨node, role, statements⟩ := b
    cases role <;> simp [slotted, SlotStmt.IsFilled, BlockRole.slotRole, BlockRole.labels?]
  | ifStmt _ phase =>
    cases phase <;> simp [slotted, SlotStmt.IsFilled, IfPhase.stage, IfPhase.condition?, IfPhase.thenBranch?]
  | whileLoop _ phase | switch _ phase =>
    cases phase <;> simp [slotted, SlotStmt.IsFilled, HeaderPhase.stage, HeaderPhase.expr?]
  | foreachLoop _ phase =>
    cases phase with
    | collection key | body key => cases key <;> simp [slotted, SlotStmt.IsFilled, ForeachPhase.stage,
        ForeachPhase.iterators, ForeachPhase.collection?]
    | _ => simp [slotted, SlotStmt.IsFilled, ForeachPhase.stage]
  | _ => trivial

theorem carries_of_isOpen {above : SlotStmt} {p : PendingStmt} (h : p.isOpen = true) :
    SlotStmt.Carries above p.slotted := by
  cases p with
  | block b => exact .block _
  | ifStmt node phase =>
    cases phase with
    | thenBranch => exact .thenBranch _ _ _
    | elseBranch => exact .elseBranch _ _ _
    | _ => cases h
  | whileLoop node phase =>
    cases phase with
    | body => exact .whileLoop _ _
    | _ => cases h
  | forLoop node phase =>
    cases phase with
    | body => exact .forLoop _ _ _ _
    | _ => cases h
  | foreachLoop node phase =>
    cases phase with
    | body => exact .foreachLoop _ _ _
    | _ => cases h
  | _ => cases h

theorem StandsOn.carries {above p : PendingStmt} (h : above.StandsOn p) :
    SlotStmt.Carries above.slotted p.slotted := by
  cases above with
  | block b =>
    obtain ⟨node, role, statements⟩ := b
    cases role with
    | functionBody => exact h.elim
    | nested => exact carries_of_isOpen h
    | switchBody =>
      obtain ⟨_, _, rfl⟩ := h
      exact .switch _ _ rfl
  | caseLabel | defaultLabel =>
    obtain ⟨_, _, _, rfl⟩ := h
    exact .block _
  | _ => exact carries_of_isOpen h

theorem StandsOn.not_functionBody {above p : PendingStmt} (h : above.StandsOn p) :
    above.slotted.isFunctionBody = false := by
  cases above with
  | block b =>
    obtain ⟨node, role, statements⟩ := b
    cases role with
    | functionBody => exact h.elim
    | nested | switchBody => rfl
  | _ => rfl

end PendingStmt

theorem SlotStmt.Carries.settled {above p : SlotStmt} (h : Carries above p) :
    p.readsHeader = false ∧ p.awaitsElse = false := by
  cases h <;> exact ⟨rfl, rfl⟩

/-- What the program relies on about the unfinished statements of a function body. -/
structure SlotSession.Disciplined (stmts : List SlotStmt) : Prop where
  bottom : ∃ node statements above, stmts = above ++ [.block ⟨node, .functionBody, statements, none⟩] ∧
    ∀ p ∈ above, p.isFunctionBody = false
  below : stmts.IsChain SlotStmt.Carries
  onTop : ∀ p ∈ stmts.tail, p.readsHeader = false ∧ p.awaitsElse = false
  filled : ∀ p ∈ stmts, p.IsFilled
  /-- Whatever its body, an entry that waits for one is sealed with it, or is at its then branch. -/
  sealable : ∀ p ∈ stmts, p.awaitsBody = true →
    (∃ node condition thenBranch, p = .ifStmt node .thenBranch condition thenBranch) ∨
      ∀ body, (p.seal? body).isSome = true

namespace Session

theorem StackShaped.bottom_eq {stmts : List PendingStmt} (h : StackShaped stmts) :
    ∃ node statements above,
      stmts.map PendingStmt.slotted = above ++ [.block ⟨node, .functionBody, statements, none⟩] ∧
        ∀ p ∈ above, p.isFunctionBody = false := by
  induction h with
  | bottom node statements => exact ⟨node, statements, [], rfl, by simp⟩
  | @cons top below rest h hs ih =>
    obtain ⟨node, statements, above, heq, hall⟩ := ih
    refine ⟨node, statements, top.slotted :: above, by rw [List.map_cons, heq, List.cons_append], ?_⟩
    rw [List.forall_mem_cons]
    exact ⟨hs.not_functionBody, hall⟩

theorem StackShaped.isChain {stmts : List PendingStmt} (h : StackShaped stmts) :
    (stmts.map PendingStmt.slotted).IsChain SlotStmt.Carries := by
  induction h with
  | bottom => exact .singleton _
  | cons h hs ih => exact .cons_cons hs.carries ih

theorem StackShaped.settled {stmts : List PendingStmt} (h : StackShaped stmts) :
    ∀ p ∈ (stmts.map PendingStmt.slotted).tail, p.readsHeader = false ∧ p.awaitsElse = false := by
  -- Every entry below the top carries the one above it.
  induction h with
  | bottom => simp
  | @cons top below rest h hs ih =>
    simp only [List.map_cons, List.tail_cons, List.forall_mem_cons] at ih ⊢
    exact ⟨hs.carries.settled, ih⟩

theorem StackShaped.disciplined {stmts : List PendingStmt} (h : StackShaped stmts) :
    SlotSession.Disciplined (stmts.map PendingStmt.slotted) := by
  have hfilled : ∀ p ∈ stmts.map PendingStmt.slotted, p.IsFilled := by
    simp only [List.forall_mem_map]
    exact fun p _ => p.isFilled_slotted
  exact ⟨h.bottom_eq, h.isChain, h.settled, hfilled, fun p hp => (hfilled p hp).seal?⟩

/-- The statement stack of every session in a function body, halted or not. -/
def Stacked (s : Session) : Prop :=
  ∀ header, s.mode = .body header → StackShaped s.stmts

theorem Shaped.stacked {s : Session} (h : s.Shaped) : s.Stacked := by
  intro header hm
  cases h with
  | body _ _ hk | statement _ _ hk | bodyRecovery _ _ hk => exact hk
  | root hm' | rootRecovery hm' | expression hm' =>
    rw [hm'] at hm
    cases hm
  | closed hm' =>
    rw [hm] at hm'
    simp at hm'

end Session

theorem Turn.stacked {s s' : Session} {t : Token} (h : Turn s t s') (hs : s.Shaped) : s'.Stacked := by
  by_cases hh : s'.halted = true ∧ s'.mode = s.mode ∧ s'.stmts = s.stmts
  · intro header hm
    rw [hh.2.2]
    exact hs.stacked header (hh.2.1 ▸ hm)
  · exact (h.shaped_of_not_stopped hs hh).stacked

namespace Session

theorem steps_stacked (tokens : List Token) (config : ParserConfig) (n : Nat) :
    (steps n (ofTokens tokens config)).Stacked ∧ (steps n (ofTokens tokens config)).panicked = false := by
  refine steps_induction (P := fun s => s.Stacked ∧ s.panicked = false) (sound_ofTokens tokens config) ?_ ?_ ?_ n
  · refine ⟨?_, rfl⟩
    intro header hm
    simp only [ofTokens] at hm
    split at hm <;> cases hm
  · rintro s - h -
    exact h
  · rintro s s' hs hf ⟨-, hp⟩ - hturn
    exact ⟨hturn.stacked (hs.read.shaped (halted_of_isFinished hf)), hturn.frame.panicked.trans hp⟩

end Session

/-- At any time the statements of a function body are in order, and what a later step takes out of them is filled in:
the steps are those over typed phases, and nothing impossible has happened. -/
theorem SlotSession.steps_disciplined (tokens : List Token) (config : ParserConfig) (n : Nat) :
    (∀ header, (steps n (ofTokens tokens config)).base.mode = .body header →
      Disciplined (steps n (ofTokens tokens config)).stmts) ∧
    (steps n (ofTokens tokens config)).base.panicked = false ∧
    steps n (ofTokens tokens config) = (Session.steps n (.ofTokens tokens config)).slotted := by
  have heq : steps n (ofTokens tokens config) = (Session.steps n (.ofTokens tokens config)).slotted :=
    steps_slotted (Session.sound_ofTokens tokens config) n
  obtain ⟨hstacked, hpanicked⟩ := Session.steps_stacked tokens config n
  rw [heq]
  exact ⟨fun header hm => (hstacked header hm).disciplined, hpanicked, rfl⟩

theorem SlotSession.steps_disciplined_nested :
    let word (text : String) : Token := ⟨.identifier, text, .start⟩
    let symbol (text : String) : Token := ⟨.symbol, text, .start⟩
    let function := [word "f", symbol "(", symbol ")", symbol "\x7b"]
    let loop := [word "foreach", symbol "(", word "k", symbol ",", word "v", word "in", word "a", symbol ")"]
    let switch := [word "switch", symbol "(", word "b", symbol ")", symbol "\x7b", word "default", symbol ":"]
    let condition := [word "if", symbol "(", word "c", symbol ")"]
    ∃ s, s = steps 23 (ofTokens (function ++ loop ++ switch ++ condition) {}) ∧
      (∃ header, s.base.mode = .body header) ∧ Disciplined s.stmts ∧
      s.stmts.map SlotStmt.awaitsBody = [true, false, false, true, false] ∧
      s.stmts.map SlotStmt.isSwitchBody = [false, true, false, false, false] ∧
      s.stmts.map (fun p => p.iterators.map Ident.name) = [[], [], [], ["k", "v"], []] := by
  intro word symbol function loop switch condition
  have hs := (steps_disciplined (function ++ loop ++ switch ++ condition) {} 23).1
  have hbody : (steps 23 (ofTokens (function ++ loop ++ switch ++ condition) {})).base.mode.inBody = true := by
    decide +kernel
  obtain ⟨header, hmode⟩ := Mode.inBody_iff.1 hbody
  exact ⟨_, rfl, ⟨header, hmode⟩, hs header hmode, by decide +kernel⟩

end GameScript
