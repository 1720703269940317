import GameScript.Proofs.Accepted
import GameScript.Proofs.Faultless

namespace GameScript

def Param.isRequired (p : Param) : Bool :=
  !p.modifiers.optional && !p.modifiers.variadic

def Directive.isMark (d : Directive) : Bool :=
  match d.kind with
  | .bare name => DirectiveName.ofWord? name.name = some .declarative
  | _ => false

def Declaration.isMark : Declaration → Bool
  | directive d => d.isMark
  | function _ => false

structure FunctionDef.WellFormed (f : FunctionDef) : Prop where
  names : f.params.Pairwise fun p q => ∀ n ∈ p.name, ∀ m ∈ q.name, n.same m = false
  /-- Only the last parameter can take all further arguments or be without a name. -/
  last : ∀ p ∈ f.params.dropLast, p.modifiers.variadic = false ∧ p.name.isSome = true
  required : ∃ required rest, f.params = required ++ rest ∧ (∀ p ∈ required, p.isRequired = true) ∧
    (∀ p ∈ rest, p.isRequired = false) ∧ required.length = f.minArgs
  variadic : f.variadic = true ↔ ∃ p ∈ f.params.getLast?, p.modifiers.variadic = true

structure Script.WellFormed (s : Script) : Prop where
  functions : s.functions.Pairwise fun f g => f.name.same g.name = false
  signatures : ∀ f ∈ s.functions, f.WellFormed
  bodies : ∀ f ∈ s.functions, f.body.isSome = !s.declarative
  declarative : s.declarative = true ↔ ∃ d ∈ s.declarations, d.isMark = true
  /-- No directive or function comes before the mark, and there is no other one. -/
  mark : ∀ d ∈ s.declarations.tail, d.isMark = false
  /-- Imports and constants are kept apart. By their numbers, they come behind the mark. -/
  markFirst : ∀ d, .directive d ∈ s.declarations → d.isMark = true →
    (∀ i ∈ s.imports, d.node.id < i.node.id) ∧ ∀ c ∈ s.constants, d.node.id < c.node.id
  constants : s.constants.Pairwise fun c d => c.name.same d.name = false
  folded : ∀ i c, s.constants[i]? = some c →
    ∃ v, c.folded = some v ∧ Fold.evaluate (foldedConstants (s.constants.take i)).lookup? c.value = .ok v

theorem Session.of_paramProblem? {params : List Param} {p : Param} (h : paramProblem? params p = none) :
    (∀ q ∈ params, ∀ m ∈ q.name, ∀ n ∈ p.name, m.same n = false) ∧
    (∀ q ∈ params, q.modifiers.variadic = false) ∧
    (p.isRequired = true → ∀ q ∈ params, q.modifiers.optional = false) := by
  simp only [paramProblem?] at h
  split at h
  · cases h
  next hrepeated =>
  split at h
  · cases h
  next hvariadic =>
  split at h
  · cases h
  next horder =>
  refine ⟨fun q hq m hm n hn => ?_, by simpa using hvariadic, fun hp => ?_⟩
  · have hnone := (Option.filter_eq_none_iff.1 hrepeated) n hn
    simp only [Bool.not_eq_true, List.any_eq_false] at hnone
    have hsame := hnone q hq
    rw [Option.mem_def.1 hm] at hsame
    simpa using hsame
  · simp only [Param.isRequired] at hp
    simpa [hp] using horder

namespace FunctionHeader

theorem minArgs_append_of_optional {params : List Param} (h : ∃ p ∈ params, p.modifiers.optional = true)
    (rest : List Param) : minArgs (params ++ rest) = minArgs params := by
  obtain ⟨i, hi⟩ := Option.isSome_iff_exists.1 (List.findIdx?_isSome.trans (List.any_eq_true.2 h))
  simp [minArgs, List.findIdx?_append, hi]

theorem minArgs_append_of_required {params : List Param} (h : ∀ p ∈ params, p.isRequired = true) (p : Param) :
    minArgs (params ++ [p]) = params.length + p.isRequired.toNat := by
  have hplain : ∀ q ∈ params, q.modifiers.optional = false ∧ q.modifiers.variadic = false := by
    simpa [Param.isRequired] using h
  have hnone : params.findIdx? (fun q => q.modifiers.optional) = none :=
    List.findIdx?_eq_none_iff.2 fun q hq => (hplain q hq).1
  have hall : params.filter (fun q => !q.modifiers.variadic) = params :=
    List.filter_eq_self.2 fun q hq => by simp [(hplain q hq).2]
  cases ho : p.modifiers.optional with
  | true => simp [minArgs, List.findIdx?_append, hnone, ho, Param.isRequired]
  | false =>
    cases hv : p.modifiers.variadic <;> simp [minArgs, List.findIdx?_append, hnone, ho, hv, hall, Param.isRequired]

end FunctionHeader

inductive ParamsChecked : List Param → Prop
  | nil : ParamsChecked []
  | snoc {params : List Param} {p : Param} (h : ParamsChecked params)
      (hn : p.name = none → p.modifiers.variadic = true) (hp : Session.paramProblem? params p = none) :
      ParamsChecked (params ++ [p])

namespace ParamsChecked

variable {params : List Param}

theorem names (h : ParamsChecked params) :
    params.Pairwise fun p q => ∀ n ∈ p.name, ∀ m ∈ q.name, n.same m = false := by
  induction h with
  | nil => exact .nil
  | snoc _ _ hp ih =>
    refine List.pairwise_append.2 ⟨ih, List.pairwise_singleton _ _, fun q hq p hp' => ?_⟩
    obtain rfl := List.mem_singleton.1 hp'
    exact (Session.of_paramProblem? hp).1 q hq

theorem variadic_of_unnamed (h : ParamsChecked params) : ∀ p ∈ params, p.name = none → p.modifiers.variadic = true := by
  induction h with
  | nil => simp
  | snoc _ hn _ ih => exact List.forall_mem_append.2 ⟨ih, List.forall_mem_singleton.2 hn⟩

theorem last (h : ParamsChecked params) :
    ∀ p ∈ params.dropLast, p.modifiers.variadic = false ∧ p.name.isSome = true := by
  cases h with
  | nil => simp
  | snoc h _ hp =>
    rw [List.dropLast_concat]
    intro q hq
    have hvariadic := (Session.of_paramProblem? hp).2.1 q hq
    refine ⟨hvariadic, Option.isSome_iff_ne_none.2 fun hnone => ?_⟩
    rw [h.variadic_of_unnamed q hq hnone] at hvariadic
    cases hvariadic

theorem required (h : ParamsChecked params) : ∃ required rest, params = required ++ rest ∧
    (∀ p ∈ required, p.isRequired = true) ∧ (∀ p ∈ rest, p.isRequired = false) ∧
    required.length = FunctionHeader.minArgs params := by
  induction h with
  | nil => exact ⟨[], [], rfl, by simp, by simp, rfl⟩
  | @snoc params p _ _ hp ih =>
    obtain ⟨-, hvariadic, hoptional⟩ := Session.of_paramProblem? hp
    by_cases ho : ∃ q ∈ params, q.modifiers.optional = true
    · -- One before it is optional, so this one is not required.
      obtain ⟨required, rest, hsplit, hrequired, hrest, hlength⟩ := ih
      have hp' : p.isRequired = false := by
        obtain ⟨q, hq, ho⟩ := ho
        refine Bool.eq_false_iff.2 fun hr => ?_
        rw [hoptional hr q hq] at ho
        cases ho
      refine ⟨required, rest ++ [p], by rw [hsplit, List.append_assoc], hrequired, ?_, ?_⟩
      · exact List.forall_mem_append.2 ⟨hrest, List.forall_mem_singleton.2 hp'⟩
      · rw [hlength, FunctionHeader.minArgs_append_of_optional ho]
    · -- All before it are required, as only the last can be variadic.
      have hall : ∀ q ∈ params, q.isRequired = true := by
        intro q hq
        have hq' : q.modifiers.optional ≠ true := fun h => ho ⟨q, hq, h⟩
        simp [Param.isRequired, hq', hvariadic q hq]
      have hmin := FunctionHeader.minArgs_append_of_required hall p
      cases hr : p.isRequired with
      | true =>
        refine ⟨params ++ [p], [], by simp, ?_, by simp, by simp [hmin, hr]⟩
        exact List.forall_mem_append.2 ⟨hall, List.forall_mem_singleton.2 hr⟩
      | false => exact ⟨params, [p], rfl, hall, List.forall_mem_singleton.2 hr, by simp [hmin, hr]⟩

end ParamsChecked

theorem FunctionHeader.wellFormed {header : FunctionHeader} (h : ParamsChecked header.params) (body : Option Block) :
    (header.define body).WellFormed where
  names := h.names
  last := h.last
  required := h.required
  variadic := by
    simp only [define]
    cases header.params.getLast? <;> simp

def Script.MarkedBefore (s : Script) (id : Nat) : Prop :=
  ∀ d, .directive d ∈ s.declarations → d.isMark = true → d.node.id < id

theorem Script.MarkedBefore.mono {s : Script} {id id' : Nat} (h : s.MarkedBefore id) (hi : id ≤ id') :
    s.MarkedBefore id' :=
  fun d hd hm => Nat.lt_of_lt_of_le (h d hd hm) hi

namespace Script.WellFormed

variable {s : Script}

theorem empty : Script.WellFormed {} := by
  refine ⟨?_, ?_, ?_, ?_, ?_, ?_, ?_, ?_⟩ <;> simp [Script.functions]

theorem addGlobals (h : s.WellFormed) (names : List Ident) :
    Script.WellFormed { s with globals := s.globals ++ names } :=
  ⟨h.functions, h.signatures, h.bodies, h.declarative, h.mark, h.markFirst, h.constants, h.folded⟩

theorem addImport {i : Directive} (h : s.WellFormed) (hi : s.MarkedBefore i.node.id) :
    Script.WellFormed { s with imports := s.imports ++ [i] } := by
  refine ⟨h.functions, h.signatures, h.bodies, h.declarative, h.mark, fun d hd hm => ?_, h.constants, h.folded⟩
  obtain ⟨himports, hconstants⟩ := h.markFirst d hd hm
  exact ⟨List.forall_mem_append.2 ⟨himports, List.forall_mem_singleton.2 (hi d hd hm)⟩, hconstants⟩

theorem addConstant {c : ConstantDecl} {v : Value} (h : s.WellFormed) (hi : s.MarkedBefore c.node.id)
    (hn : (s.constants.any fun c' => c'.name.same c.name) = false) (hc : c.folded = some v)
    (hv : Fold.evaluate (foldedConstants s.constants).lookup? c.value = .ok v) :
    Script.WellFormed { s with constants := s.constants ++ [c] } := by
  refine ⟨h.functions, h.signatures, h.bodies, h.declarative, h.mark, fun d hd hm => ?_, ?_, fun i d hd => ?_⟩
  · obtain ⟨himports, hconstants⟩ := h.markFirst d hd hm
    exact ⟨himports, List.forall_mem_append.2 ⟨hconstants, List.forall_mem_singleton.2 (hi d hd hm)⟩⟩
  · refine List.pairwise_append.2 ⟨h.constants, List.pairwise_singleton _ _, fun c' hc' d hd => ?_⟩
    obtain rfl := List.mem_singleton.1 hd
    simpa using List.any_eq_false.1 hn c' hc'
  · obtain hlt | hle := Nat.lt_or_ge i s.constants.length
    · rw [List.getElem?_append_left hlt] at hd
      rw [List.take_append_of_le_length (Nat.le_of_lt hlt)]
      exact h.folded i d hd
    · obtain ⟨rfl, rfl⟩ : i = s.constants.length ∧ c = d := by
        simpa [List.getElem?_append_right hle, List.getElem?_singleton, Nat.sub_eq_zero_iff_le, hle.ge_iff_eq'] using hd
      exact ⟨v, hc, by rwa [List.take_left]⟩

theorem addDeclaration {d : Declaration} (h : s.WellFormed) (hd : d.isMark = false)
    (hf : ∀ f, d = .function f →
      f.WellFormed ∧ (f.body.isSome = !s.declarative) ∧ s.findFunction? f.name.name = none) :
    Script.WellFormed { s with declarations := s.declarations ++ [d] } := by
  have hfunctions := Session.functions_addDeclaration s d
  have hmark : ∀ d' ∈ (s.declarations ++ [d]).tail, d'.isMark = false := by
    have hmem : ∀ d' ∈ (s.declarations ++ [d]).tail, d' ∈ s.declarations.tail ∨ d' = d := by
      cases s.declarations <;> simp
    exact fun d' hd' => (hmem d' hd').elim (h.mark d') fun he => he ▸ hd
  have hdeclarative : s.declarative = true ↔ ∃ d' ∈ s.declarations ++ [d], d'.isMark = true := by
    simp [h.declarative, or_and_right, exists_or, hd]
  have hfirst : ∀ d', .directive d' ∈ s.declarations ++ [d] → d'.isMark = true → .directive d' ∈ s.declarations := by
    intro d' hd' hm
    refine (List.mem_append.1 hd').resolve_right fun he => ?_
    rw [← List.mem_singleton.1 he] at hd
    exact Bool.eq_false_iff.1 hd hm
  cases d with
  | directive =>
    rw [List.append_nil] at hfunctions
    exact ⟨by rw [hfunctions]; exact h.functions, by rw [hfunctions]; exact h.signatures,
      by rw [hfunctions]; exact h.bodies, hdeclarative, hmark, fun d' hd' hm => h.markFirst d' (hfirst d' hd' hm) hm,
      h.constants, h.folded⟩
  | function f =>
    obtain ⟨hwell, hbody, hnew⟩ := hf f rfl
    refine ⟨?_, ?_, ?_, hdeclarative, hmark, fun d' hd' hm => h.markFirst d' (hfirst d' hd' hm) hm, h.constants,
      h.folded⟩ <;> rw [hfunctions]
    · exact functions_push h.functions hnew
    · exact List.forall_mem_append.2 ⟨h.signatures, List.forall_mem_singleton.2 hwell⟩
    · exact List.forall_mem_append.2 ⟨h.bodies, List.forall_mem_singleton.2 hbody⟩

theorem addMark {d : Directive} (hs : Session.isFresh s = true) (hd : d.isMark = true) :
    Script.WellFormed { s with declarative := true, declarations := s.declarations ++ [.directive d] } := by
  simp only [Session.isFresh, Bool.and_eq_true, List.isEmpty_iff] at hs
  obtain ⟨⟨⟨himports, hdeclarations⟩, hconstants⟩, -⟩ := hs
  refine ⟨?_, ?_, ?_, ?_, ?_, ?_, ?_, ?_⟩ <;>
    simp [Script.functions, himports, hdeclarations, hconstants, Declaration.isMark, hd]

end Script.WellFormed

theorem Session.mem_addDirective {s : Session} {loc : Location} {kind : DirectiveKind} {d : Directive}
    (h : .directive d ∈ (s.addDirective loc kind).script.declarations) :
    .directive d ∈ s.script.declarations ∨ d.node.id < (s.addDirective loc kind).nextId := by
  have hmem : Declaration.directive d ∈ s.script.declarations ++ [.directive ⟨⟨s.nextId, loc⟩, kind⟩] := h
  obtain hold | hnew := List.mem_append.1 hmem
  · exact .inl hold
  · obtain rfl := Declaration.directive.inj (List.mem_singleton.1 hnew)
    exact .inr (Nat.lt_succ_self _)

structure Session.WellFormed (s : Session) : Prop where
  params : ∀ header ∈ s.mode.header?, ParamsChecked header.params
  body : ∀ header, s.mode = .body header → s.script.declarative = false
  script : s.script.WellFormed
  marked : s.script.MarkedBefore s.nextId
  output : ∀ script, s.output = some (.script script) → script.WellFormed

theorem Passes.paramsChecked {s : Session} {t : Token} {phase phase' : RootPhase} (h : Passes s t phase phase')
    (hp : ∀ header ∈ phase.header?, ParamsChecked header.params) :
    ∀ header ∈ phase'.header?, ParamsChecked header.params := by
  cases h with
  | mark | noParams | nextParam | closeParams => exact hp
  | param _ _ ho =>
    rintro _ ⟨⟩
    exact .snoc (hp _ rfl) (by simp) ho
  | bareDots _ hm ho =>
    rintro _ ⟨⟩
    exact .snoc (hp _ rfl) (fun _ => hm.1) ho
  | _ => simp [RootPhase.header?]

namespace Session.WellFormed

variable {s b : Session}

theorem phase {phase : RootPhase} (h : s.WellFormed) (hm : b.mode = .root phase)
    (hp : ∀ header ∈ phase.header?, ParamsChecked header.params) (hs : b.script = s.script)
    (ho : b.output = s.output) (hi : s.nextId ≤ b.nextId) : b.WellFormed := by
  refine ⟨by rwa [hm], by simp [hm], hs ▸ h.script, ?_, ho ▸ h.output⟩
  rw [hs]
  exact h.marked.mono hi

theorem within (h : s.WellFormed) (hm : b.mode = s.mode) (hs : b.script = s.script) (ho : b.output = s.output)
    (hi : s.nextId ≤ b.nextId) : b.WellFormed := by
  refine ⟨hm ▸ h.params, ?_, hs ▸ h.script, ?_, ho ▸ h.output⟩
  · rw [hm, hs]
    exact h.body
  · rw [hs]
    exact h.marked.mono hi

theorem idle (h : s.WellFormed) (hm : b.mode = .root .idle) (hs : b.script.WellFormed)
    (hd : ∀ d, .directive d ∈ b.script.declarations → d.isMark = true →
      .directive d ∈ s.script.declarations ∨ d.node.id < b.nextId)
    (ho : b.output = s.output) (hi : s.nextId ≤ b.nextId) : b.WellFormed := by
  refine ⟨by simp [hm, Mode.header?, RootPhase.header?], by simp [hm], hs, fun d hmem hmark => ?_, ho ▸ h.output⟩
  exact (hd d hmem hmark).elim (fun hold => h.marked.mono hi d hold hmark) id

theorem define {header : FunctionHeader} {body : Option Block} (h : s.WellFormed) (ht : s.config.target = .script)
    (hp : s.mode.header? = some header) (hm : b.mode = .root .idle) (hs : b.script = s.script)
    (ho : b.output = s.output) (hi : s.nextId ≤ b.nextId) (hc : b.config = s.config)
    (hbody : body.isSome = !s.script.declarative)
    (hn : s.config.target = .function ∨ s.script.findFunction? header.name.name = none) :
    (b.defineFunction (header.define body)).WellFormed := by
  have hnew : s.script.findFunction? header.name.name = none := hn.resolve_left (by simp [ht])
  obtain ⟨htarget, -⟩ | ⟨-, he⟩ := defineFunction_new (s := b) (f := header.define body) (.inr (hs ▸ hnew))
  · rw [hc, ht] at htarget
    cases htarget
  · rw [he]
    refine h.idle hm ?_ (fun d hd _ => ?_) ho hi
    · show Script.WellFormed { b.script with declarations := b.script.declarations ++ [.function (header.define body)] }
      rw [hs]
      refine h.script.addDeclaration rfl ?_
      rintro _ ⟨⟩
      exact ⟨FunctionHeader.wellFormed (h.params header hp) body, hbody, hnew⟩
    · have hmem : Declaration.directive d ∈ b.script.declarations ++ [.function (header.define body)] := hd
      exact .inl (by simpa [hs] using hmem)

end Session.WellFormed

theorem Advance.wellFormed {s s' : Session} {t : Token} (h : Advance s t s') (hs : s.WellFormed) (hord : s.Ordered)
    (ht : s.config.target = .script) : s'.WellFormed := by
  have hmode {phase : RootPhase} (hm : s.mode = .root phase) :
      ∀ header ∈ phase.header?, ParamsChecked header.params := by
    have h := hs.params
    rwa [hm] at h
  cases h with
  | shift _ _ h => exact hs.within rfl rfl rfl h.le
  | exprStmt _ _ he =>
    obtain ⟨_, _, _, _, _, -, hi, rfl⟩ := he.same
    exact hs.within rfl rfl rfl (Nat.le_succ_of_le hi)
  | supply _ _ _ _ he | caseValue _ _ _ he | clause _ _ _ he | keywordCall _ _ _ he =>
    obtain ⟨_, _, _, _, _, -, hi, rfl⟩ := he.same
    exact hs.within rfl rfl rfl hi
  | constant _ hm he hn hv =>
    obtain ⟨_, _, _, _, _, -, hi, rfl⟩ := he.same
    refine hs.idle rfl ?_ (fun d hd _ => .inl hd) rfl (Nat.le_succ_of_le hi)
    rw [hord.constants (by simp [hm])] at hv ⊢
    refine hs.script.addConstant (hs.marked.mono hi) hn rfl ?_
    rw [Fold.evaluate_noteRead]
    exact hv
  | nextArg _ _ he | closeArgs _ _ he =>
    obtain ⟨_, _, _, _, _, -, hi, rfl⟩ := he.same
    exact hs.phase rfl (by simp [RootPhase.header?]) rfl rfl hi
  | whole _ _ _ he =>
    obtain ⟨_, _, _, _, _, -, hi, rfl⟩ := he.same
    refine ⟨?_, ?_, hs.script, hs.marked.mono hi, by simp⟩
    · simp only
      split <;> simp [Mode.header?]
    · simp only
      split <;> simp
  | iterator =>
    obtain ⟨_, _, hw⟩ := Session.iteratorName_warned (s := s) _ _ _
    rw [hw]
    exact hs.within rfl rfl rfl (Nat.le_refl _)
  | straySemicolon | emptyBody | rootSemicolon =>
    obtain ⟨_, hw⟩ := Session.report_warning (s := s) (p := .straySemicolon) t.loc rfl
    rw [hw]
    exact hs.within rfl rfl rfl (by simp)
  | @closeSwitch _ labels statements switch _ rest =>
    obtain ⟨_, hw⟩ := Session.noteSwitch_warned (s := { s with stmts := rest }) switch labels statements t
    rw [hw]
    exact hs.within rfl rfl rfl (Nat.le_refl _)
  | openHeader | nextIterator | iterators | flow | defaultLabel | elseBranch | noElse | openCase | openDefault
  | closeBlock => exact hs.within rfl rfl rfl (Nat.le_refl _)
  | openSwitch | openBlock | openStmt | openCall | openFlow => exact hs.within rfl rfl rfl (Nat.le_succ _)
  | closeFunction _ hm hd =>
    refine hs.define ht (by rw [hm]; rfl) rfl rfl rfl (Nat.le_refl _) rfl ?_ hd
    rw [hs.body _ hm]
    rfl
  | pass h hp => exact hs.phase rfl (hp.paramsChecked (hmode h.mode)) rfl rfl (Nat.le_refl _)
  | dots h =>
    have hheader := hmode h.mode
    exact hs.phase rfl hheader rfl rfl (Nat.le_refl _)
  | importScript =>
    exact hs.idle rfl (hs.script.addImport hs.marked) (fun d hd _ => .inl hd) rfl (Nat.le_succ _)
  | declarative _ hn hfresh =>
    refine hs.idle rfl (.addMark hfresh ?_) (fun _ hd _ => Session.mem_addDirective hd) rfl (Nat.le_succ _)
    simpa [Directive.isMark] using hn
  | bareDirective _ hn =>
    refine hs.idle rfl (hs.script.addDeclaration ?_ (by simp)) (fun _ hd _ => Session.mem_addDirective hd) rfl
      (Nat.le_succ _)
    simpa [Declaration.isMark, Directive.isMark] using hn
  | directive =>
    exact hs.idle rfl (hs.script.addDeclaration rfl (by simp)) (fun _ hd _ => Session.mem_addDirective hd) rfl
      (Nat.le_succ _)
  | openArgs | openConstant => exact hs.phase rfl (by simp [RootPhase.header?]) rfl rfl (Nat.le_refl _)
  | globals => exact hs.idle rfl (hs.script.addGlobals _) (fun d hd _ => .inl hd) rfl (Nat.le_refl _)
  | openParams =>
    refine hs.phase rfl ?_ rfl rfl (Nat.le_succ _)
    rintro _ ⟨⟩
    exact .nil
  | openBody h hd =>
    refine ⟨hmode h.mode, fun _ _ => ?_, hs.script, hs.marked.mono (Nat.le_succ _), hs.output⟩
    simpa [ht] using hd
  | declare h hd hn =>
    refine hs.define ht (by rw [h.mode]; rfl) rfl rfl rfl (Nat.le_refl _) rfl ?_ (.inr hn)
    simp only [Bool.and_eq_true] at hd
    rw [hd.1]
    rfl
  | scriptEnd =>
    refine ⟨by simp [Mode.header?], by simp, .empty, by simp [Script.MarkedBefore], ?_⟩
    rintro _ ⟨⟩
    exact hs.script
  | functionEnd | expressionEnd => exact ⟨by simp [Mode.header?], by simp, hs.script, hs.marked, hs.output⟩

def Script.Unmarked (s : Script) : Prop :=
  s.declarative = false ∧ Session.isFresh s = false

namespace Script.Unmarked

variable {s s' : Script}

theorem grow (h : s.Unmarked) (hd : s'.declarative = s.declarative) (hi : s.imports <+: s'.imports)
    (hs : s.declarations <+: s'.declarations) (hc : s.constants <+: s'.constants) (hg : s.globals <+: s'.globals) :
    s'.Unmarked := by
  obtain ⟨hplain, hfresh⟩ := h
  refine ⟨hd.trans hplain, Bool.eq_false_iff.2 fun hfresh' => ?_⟩
  simp only [Session.isFresh, Bool.and_eq_true, List.isEmpty_iff] at hfresh'
  obtain ⟨⟨⟨himports, hdeclarations⟩, hconstants⟩, hglobals⟩ := hfresh'
  rw [himports, List.prefix_nil] at hi
  rw [hdeclarations, List.prefix_nil] at hs
  rw [hconstants, List.prefix_nil] at hc
  rw [hglobals, List.prefix_nil] at hg
  simp [Session.isFresh, hi, hs, hc, hg] at hfresh

theorem addDeclaration (h : s.Unmarked) (d : Declaration) :
    Script.Unmarked { s with declarations := s.declarations ++ [d] } :=
  h.grow rfl List.prefix_rfl (List.prefix_append ..) List.prefix_rfl List.prefix_rfl

end Script.Unmarked

theorem Advance.unmarked {s s' : Session} {t : Token} (h : Advance s t s') :
    s'.mode = .done ∧ s'.output = some (.script s.script) ∨
      (∀ script, s'.output = some (.script script) → s.output = some (.script script)) ∧
        (s.script.Unmarked → s'.script.Unmarked) := by
  have hdefine {b : Session} {f : FunctionDef} (hs : b.script = s.script) (ho : b.output = s.output)
      (hd : b.config.target = .function ∨ b.script.findFunction? f.name.name = none) :
      (∀ script, (b.defineFunction f).output = some (.script script) → s.output = some (.script script)) ∧
        (s.script.Unmarked → (b.defineFunction f).script.Unmarked) := by
    obtain ⟨-, he⟩ | ⟨-, he⟩ := Session.defineFunction_new hd <;> rw [he]
    · exact ⟨by simp, hs ▸ id⟩
    · exact ⟨ho ▸ fun _ => id, fun h => (hs ▸ h).addDeclaration _⟩
  cases h with
  | shift => exact .inr ⟨fun _ => id, id⟩
  | exprStmt _ _ he | supply _ _ _ _ he | caseValue _ _ _ he | nextArg _ _ he =>
    obtain ⟨_, _, -, rfl⟩ := he.of_value
    exact .inr ⟨fun _ => id, id⟩
  | clause _ _ _ he hf | keywordCall _ _ _ he hf | closeArgs _ _ he hf =>
    obtain ⟨_, _, -, rfl⟩ := he.of_not_failed hf
    exact .inr ⟨fun _ => id, id⟩
  | constant _ _ he =>
    obtain ⟨_, _, -, rfl⟩ := he.of_value
    exact .inr ⟨fun _ => id, fun h =>
      h.grow rfl List.prefix_rfl List.prefix_rfl (List.prefix_append ..) List.prefix_rfl⟩
  | whole _ _ _ he =>
    obtain ⟨_, _, -, rfl⟩ := he.of_value
    exact .inr ⟨by simp, id⟩
  | iterator =>
    obtain ⟨_, _, hw⟩ := Session.iteratorName_warned (s := s) _ _ _
    rw [hw]
    exact .inr ⟨fun _ => id, id⟩
  | straySemicolon | emptyBody | rootSemicolon =>
    obtain ⟨_, hw⟩ := Session.report_warning (s := s) (p := .straySemicolon) t.loc rfl
    rw [hw]
    exact .inr ⟨fun _ => id, id⟩
  | @closeSwitch _ labels statements switch _ rest =>
    obtain ⟨_, hw⟩ := Session.noteSwitch_warned (s := { s with stmts := rest }) switch labels statements t
    rw [hw]
    exact .inr ⟨fun _ => id, id⟩
  | openHeader | nextIterator | iterators | openSwitch | flow | defaultLabel | elseBranch | noElse | openBlock | openStmt
  | openCall | openFlow | openCase | openDefault | closeBlock | pass | dots | openArgs | openConstant | openParams
  | openBody | functionEnd | expressionEnd => exact .inr ⟨fun _ => id, id⟩
  | closeFunction _ _ hd => exact .inr (hdefine rfl rfl hd)
  | declare _ _ hn => exact .inr (hdefine rfl rfl (.inr hn))
  | importScript =>
    exact .inr ⟨fun _ => id, fun h =>
      h.grow rfl (List.prefix_append ..) List.prefix_rfl List.prefix_rfl List.prefix_rfl⟩
  | declarative _ _ hfresh =>
    refine .inr ⟨fun _ => id, fun h => ?_⟩
    rw [h.2] at hfresh
    cases hfresh
  | bareDirective | directive => exact .inr ⟨fun _ => id, fun h => h.addDeclaration _⟩
  | globals =>
    exact .inr ⟨fun _ => id, fun h =>
      h.grow rfl List.prefix_rfl List.prefix_rfl List.prefix_rfl (List.prefix_append ..)⟩
  | scriptEnd => exact .inl ⟨rfl, rfl⟩

namespace Session

theorem WellFormed.withStream {s : Session} (h : s.WellFormed) (stream : TokenStream) :
    WellFormed { s with stream := stream } :=
  ⟨h.params, h.body, h.script, h.marked, h.output⟩

theorem run_wellFormed {tokens : List Token} {config : ParserConfig} (ht : config.target = .script)
    (hf : (ofTokens tokens config).run.failed.size = 0) : (ofTokens tokens config).run.WellFormed := by
  suffices h : (ofTokens tokens config).run.recovery = none ∧ (ofTokens tokens config).run.WellFormed ∧
      (ofTokens tokens config).run.Ordered ∧ (ofTokens tokens config).run.config = config from h.2.1
  have htarget : config.target ≠ .expression := by simp [ht]
  have hm := mode_ofTokens tokens htarget
  refine steps_advances (P := fun s => s.WellFormed ∧ s.Ordered ∧ s.config = config) (sound_ofTokens tokens config) rfl
    ⟨⟨?_, ?_, .empty, ?_, ?_⟩, (inOrder_ofTokens htarget).ordered, rfl⟩ ?_ ?_ _ hf
  · simp [hm, Mode.header?, RootPhase.header?]
  · simp [hm]
  · simp [Script.MarkedBefore, ofTokens]
  · simp [ofTokens]
  · rintro s - ⟨hwell, hord, hc⟩ -
    exact ⟨hwell.withStream _, hord.withStream _, hc⟩
  · rintro s s' hs hfin ⟨hwell, hord, hc⟩ - hturn hadvance
    have hconfig := hturn.frame.config
    have hdeclares := hturn.declares (hs.read.shaped (halted_of_isFinished hfin))
    refine ⟨?_, hdeclares.ordered (hord.withStream _) hconfig (mode_of_isFinished hfin), hconfig.trans hc⟩
    exact hadvance.wellFormed (hwell.withStream _) (hord.withStream _) (hc ▸ ht)

theorem run_unmarked {tokens : List Token} {config : ParserConfig} (hf : (ofTokens tokens config).run.failed.size = 0)
    {script : Script} (ho : (ofTokens tokens config).run.output = some (.script script)) {n : Nat}
    (hn : (steps n (ofTokens tokens config)).isFinished = false)
    (hu : (steps n (ofTokens tokens config)).script.Unmarked) : script.declarative = false := by
  have hsound := sound_ofTokens tokens config
  -- The run goes on from there.
  obtain ⟨k, hk⟩ : ∃ k, (ofTokens tokens config).run = steps k (steps n (ofTokens tokens config)) := by
    obtain hle | hle := Nat.le_total n (ofTokens tokens config).stepBound
    · obtain ⟨k, hk⟩ := Nat.exists_eq_add_of_le hle
      exact ⟨k, by rw [run, hk, steps_add]⟩
    · rw [steps_eq_run hle, run_finished] at hn
      cases hn
  rw [hk] at hf ho
  have hquiet : (steps n (ofTokens tokens config)).failed.size = 0 :=
    Nat.le_zero.1 (hf ▸ (hsound.after n).le_failed_steps (Nat.zero_le k))
  obtain ⟨hr, hout⟩ := steps_advances (P := fun s => s.mode = .done ∨ ∀ script, s.output ≠ some (.script script)) hsound rfl
    (.inr (by simp [ofTokens])) (fun _ _ h _ => h)
    (fun _ _ _ hfin h _ _ hadvance => hadvance.unmarked.imp And.left fun hold script hs =>
      h.resolve_left (mode_of_isFinished hfin) script (hold.1 script hs)) n hquiet
  have hlate := steps_advances (P := fun s => s.script.Unmarked ∧ (∀ script, s.output ≠ some (.script script)) ∨
      s.mode = .done ∧ ∀ script, s.output = some (.script script) → script.declarative = false) (hsound.after n) hr
    (.inl ⟨hu, hout.resolve_left (mode_of_isFinished hn)⟩) (fun _ _ h _ => h) ?_ k hf
  · obtain ⟨-, hout⟩ | ⟨-, hout⟩ := hlate.2
    · exact (hout script ho).elim
    · exact hout script ho
  · intro s s' _ hfin h _ _ hadvance
    obtain ⟨hunmarked, hout⟩ := h.resolve_right fun h => mode_of_isFinished hfin h.1
    obtain ⟨hm, hs⟩ | ⟨hs, hkeep⟩ := hadvance.unmarked
    · refine .inr ⟨hm, fun script ho => ?_⟩
      obtain rfl := Graph.script.inj (Option.some.inj (hs.symm.trans ho))
      exact hunmarked.1
    · exact .inl ⟨hkeep hunmarked, fun script ho => hout script (hs script ho)⟩

end Session

/-- A script that is read without an error is well-formed. If it has the mark, nothing at all was declared before. -/
theorem parse_wellFormed {tokens : List Token} {config : ParserConfig} (ht : config.target = .script)
    (hs : (parse tokens config).isSuccess = true) :
    ∃ s, (parse tokens config).graph = some (.script s) ∧ s.WellFormed ∧
      (s.declarative = true → ∀ n, (Session.steps n (Session.ofTokens tokens config)).isFinished = false →
        Session.isFresh (Session.steps n (Session.ofTokens tokens config)).script = true ∨
          (Session.steps n (Session.ofTokens tokens config)).script.declarative = true) := by
  obtain ⟨g, hg, ho, -, -, hf⟩ := parse_finished hs
  have hwell := Session.run_wellFormed ht hf
  obtain ⟨-, -, hconfig, hon⟩ := (Session.sound_ofTokens tokens config).steps_quiet rfl
    (Session.onTarget_ofTokens tokens config) (Session.ofTokens tokens config).stepBound hf
  have htarget : g.target = .script := (hon.output g ho).trans ((congrArg ParserConfig.target hconfig).trans ht)
  cases g with
  | script s =>
    refine ⟨s, hg, hwell.output s ho, fun hmark n hn => ?_⟩
    generalize hread : (Session.steps n (Session.ofTokens tokens config)).script = read
    cases hfresh : Session.isFresh read with
    | true => exact .inl rfl
    | false =>
      cases hplain : read.declarative with
      | true => exact .inr rfl
      | false =>
        have hlate : s.declarative = false := Session.run_unmarked hf ho hn (hread ▸ ⟨hplain, hfresh⟩)
        rw [hlate] at hmark
        cases hmark
  | function | expression => cases htarget

theorem parse_wellFormed_declarative :
    let word (text : String) : Token := ⟨.identifier, text, .start⟩
    let number (text : String) : Token := ⟨.number, text, .start⟩
    let symbol (text : String) : Token := ⟨.symbol, text, .start⟩
    let mark := [symbol "#", word "declarative", symbol ";"]
    let globals := [word "global", word "g", symbol ";"]
    let constants := [word "const", word "A", symbol "=", number "2", symbol ";",
      word "const", word "B", symbol "=", word "a", symbol "+", number "1", symbol ";"]
    let function := [word "f", symbol "(", word "x", symbol ",", symbol "?", word "y", symbol ",",
      symbol ".", symbol ".", symbol ".", symbol ")", symbol ";"]
    let tokens := mark ++ globals ++ constants ++ function
    let o := parse tokens {}
    o.isSuccess = true ∧ ∃ s, o.graph = some (.script s) ∧ s.WellFormed ∧
      s.declarative = true ∧ s.declarations.map Declaration.isMark = [true, false] ∧
      s.globals.map Ident.name = ["g"] ∧
      (s.constants.map fun c => c.folded.map Value.text) = [some "2", some "3"] ∧
      (s.functions.map fun f => (f.params.length, f.minArgs, f.variadic, f.body.isSome)) = [(3, 1, true, false)] ∧
      ∀ n, (Session.steps n (Session.ofTokens tokens {})).isFinished = false →
        Session.isFresh (Session.steps n (Session.ofTokens tokens {})).script = true ∨
          (Session.steps n (Session.ofTokens tokens {})).script.declarative = true := by
  intro word number symbol mark globals constants function tokens o
  have hs : o.isSuccess = true := by decide +kernel
  obtain ⟨s, hg, hwell, hfirst⟩ := parse_wellFormed rfl hs
  have hgraph : o.graph.any (fun g =>
      match g with
      | .script s => s.declarative && s.declarations.map Declaration.isMark == [true, false] &&
        s.globals.map Ident.name == ["g"] &&
        (s.constants.map fun c => c.folded.map Value.text) == [some "2", some "3"] &&
        (s.functions.map fun f => (f.params.length, f.minArgs, f.variadic, f.body.isSome)) == [(3, 1, true, false)]
      | _ => false) = true := by decide +kernel
  rw [hg] at hgraph
  simp only [Option.any_some, Bool.and_eq_true, beq_iff_eq] at hgraph
  obtain ⟨⟨⟨⟨hmark, hmarks⟩, hglobals⟩, hconstants⟩, hfunctions⟩ := hgraph
  exact ⟨hs, s, hg, hwell, hmark, hmarks, hglobals, hconstants, hfunctions, hfirst hmark⟩

end GameScript
