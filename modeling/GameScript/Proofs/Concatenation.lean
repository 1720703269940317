import GameScript.Proofs.Unerring
import GameScript.Proofs.Trivia

namespace GameScript

theorem significant_append (apart : Bool) (ts : List Token) :
    ∃ apart', ∀ us, significant apart (ts ++ us) = significant apart ts ++ significant apart' us := by
  induction ts generalizing apart with
  | nil => exact ⟨apart, fun _ => rfl⟩
  | cons t ts ih =>
    cases ht : t.isTrivia with
    | true => simpa [significant, ht] using ih true
    | false => simpa [significant, ht] using ih false

theorem length_significant (apart : Bool) (ts : List Token) :
    (significant apart ts).length = (ts.filter fun t => !t.isTrivia).length :=
  (spread_significant apart ts).length.symm

namespace Guise.Pairs

variable {g : Guise} {t : Token} {apart apart' : Bool}

theorem behind (ht : t.symbol? = none ∨ apart' = apart) (hg : ∀ t, g.token t = t) (ts : List Token) (loc loc' : Location) :
    g.Pairs False t (significant apart (ts ++ [Token.endAt loc])) (significant apart' (ts ++ [Token.endAt loc'])) := by
  induction ts generalizing t apart apart' with
  | nil => exact .stop not_false rfl (by cases apart' <;> simp [significant, GameScript.joined, Token.isTrivia, Token.endAt, Token.symbol?])
  | cons u ts ih =>
    cases hu : u.isTrivia with
    | true => simpa [significant, hu] using ih (.inr rfl)
    | false =>
      have hrest : g.Pairs False u (significant false (ts ++ [Token.endAt loc])) (significant false (ts ++ [Token.endAt loc'])) :=
        ih (.inr rfl)
      have hpairs : g.Pairs False t ((apart, u) :: significant false (ts ++ [Token.endAt loc]))
          ((apart', g.token u) :: significant false (ts ++ [Token.endAt loc'])) :=
        .cons (fun _ _ hc _ => .inl (ht.resolve_left (by simp [hc]))) hrest
      rw [hg] at hpairs
      simpa [significant, hu] using hpairs

theorem front (hg : ∀ t, g.token t = t) {ts us : List Token} {loc : Location}
    (hlast : ∀ e ∈ (t :: ts.filter fun t => !t.isTrivia).getLast?, ∀ c, e.symbol? = some c → ∀ d, Pack.charsJoin c d = false) :
    g.Pairs False t (significant apart (ts ++ [Token.endAt loc])) (significant apart (ts ++ us)) := by
  induction ts generalizing t apart with
  | nil => exact .stop not_false rfl fun c hc d _ => hlast t rfl c hc d
  | cons u ts ih =>
    cases hu : u.isTrivia with
    | true =>
      simp only [List.filter_cons, hu, Bool.not_true, Bool.false_eq_true, if_false] at hlast
      simpa [significant, hu] using ih hlast
    | false =>
      simp only [List.filter_cons, hu, Bool.not_false, if_true, List.getLast?_cons_cons] at hlast
      have hrest : g.Pairs False u (significant false (ts ++ [Token.endAt loc])) (significant false (ts ++ us)) := ih hlast
      have hpairs : g.Pairs False t ((apart, u) :: significant false (ts ++ [Token.endAt loc]))
          ((apart, g.token u) :: significant false (ts ++ us)) :=
        .cons (fun _ _ _ _ => .inl rfl) hrest
      rw [hg] at hpairs
      simpa [significant, hu] using hpairs

end Guise.Pairs

namespace Session

variable {s r : Session} {g : Guise}

theorem Twins.reach_end (h : Twins g False s r) (hc : s.Unerring)
    (hp : ∀ n, (steps n s).Unerring → ∀ t, t.isEof = false → g.Permits t (steps n s)) :
    ∃ m n, (steps m s).Unerring ∧ Twins g False (steps m s) (steps n r) ∧ (steps m s).AtEnd := by
  have hstart : (∃ m, steps m s = s) ∧ ∃ n, Twins g False s (steps n r) := ⟨⟨0, rfl⟩, 0, h⟩
  obtain ⟨m, hm, ⟨-, n, hn⟩, hend⟩ :=
    hc.reaches_end (P := fun s' => (∃ m, steps m s = s') ∧ ∃ n, Twins g False s' (steps n r)) hstart (by
      rintro _ k i stream hunerring ⟨⟨m, rfl⟩, n, hn⟩ hfetches he hunerring'
      refine ⟨⟨m + (k + 1), steps_add _ _ _⟩, ?_⟩
      rw [← steps_add] at hunerring'
      have hpermits := hp (m + (k + 1)) hunerring' ((steps m s).stream.tokenAt i) he
      rw [steps_add] at hpermits
      obtain ⟨n', hl⟩ := hn.like.next hn.sound hn.sound' hn.beside hunerring.unfinished hfetches (.inr he) hpermits
      have hnext := hn.after hl
      rw [← steps_add n (n' + 1) r] at hnext
      exact ⟨_, hnext⟩)
  exact ⟨m, n, hm, hn, hend⟩

def forget (s : Session) : Session :=
  { s with stream := { s.stream with last := none } }

theorem step_forget (hf : s.isFinished = false) : s.forget.step = s.step := by
  have hf' : s.forget.isFinished = false := hf
  rw [step, step, hf, hf', if_neg Bool.false_ne_true, if_neg Bool.false_ne_true]
  rfl

theorem steps_forget (hf : s.isFinished = false) (n : Nat) : steps (n + 1) s.forget = steps (n + 1) s := by
  have hf' : s.forget.isFinished = false := hf
  rw [steps, steps, if_neg (by simp [hf']), if_neg (by simp [hf]), step_forget hf]

theorem Sound.forget (h : s.Sound) : s.forget.Sound :=
  h.withStream ⟨h.closed.cursor, h.closed.eof, by simp⟩

end Session

namespace Guise

/-- What the session has declared and said stands in front, behind as many tokens as it has read. -/
def following (s : Session) : Guise :=
  { verbatim id with
    shift := s.nextId
    prior := s.script
    constants := s.constants
    warned := s.warned.toList
    skipped := s.stream.passed.length }

theorem alike_all {g : Guise} (he : g.exact) (hl : ∀ loc, g.loc loc = loc) {cs cs' : List Complaint} (h : List.Forall₂ g.Alike cs cs') :
    cs' = cs :=
  List.forall₂_eq_eq_eq ▸ h.flip.imp fun _ _ h => h.eq he hl

end Guise

namespace Session

variable {s r : Session} {g : Guise}

theorem Like.failed_empty (h : Like g s r) (hf : s.failed = #[]) : r.failed = #[] := by
  have hfailed := h.failed
  rw [hf] at hfailed
  exact Array.toList_eq_nil_iff.1 (List.forall₂_nil_left_iff.1 hfailed)

theorem Like.following (h : Like Guise.same s r) (hc : s.Unerring) (he : s.AtEnd) (hpanicked : s.panicked = false)
    (hplain : s.script.declarative = false) (tokens : List Token) :
    Like (Guise.following s) (ofTokens tokens s.config) r.forget := by
  obtain ⟨o, rfl, ho⟩ := h
  have hstmts : s.stmts = [] := (hc.sound.shaped (halted_of_isFinished hc.unfinished)).stmts_nil (by simp [he.root.mode])
  have hwarned : o.warned.toList = s.warned.toList := by
    obtain ⟨ws, hws, halike⟩ := ho.warned
    exact hws.trans (Guise.alike_all trivial (fun _ => rfl) halike)
  have hfailed : o.failed = #[] := Like.failed_empty ⟨o, rfl, ho⟩ (hc.quiet 0)
  have hscript : Guise.same.script s.script = s.script := Graph.script.inj (Guise.graph_same (.script s.script))
  refine ⟨⟨{ o.stream with last := none }, o.warned, o.failed⟩, ?_, ⟨⟨?_, rfl⟩, ⟨[], ?_, .nil⟩, ?_⟩⟩
  · have hbehind : Guise.same.behind s.script = (Guise.following s).behind ((Guise.following s).script {}) := by
      simp only [Guise.behind, Guise.same, Guise.verbatim, Guise.following, Recast.script, List.map_nil, List.append_nil,
        List.nil_append, hplain]
    have hid : Guise.same.id s.nextId = (Guise.following s).id 0 := Nat.zero_add _
    have hconstants : s.constants ++ Guise.same.constants = [] ++ (Guise.following s).constants := List.append_nil _
    simp only [forget, Guise.session, ofTokens, hc.target, hc.recovery, hc.output, halted_of_isFinished hc.unfinished, hpanicked,
      he.root.mode, he.root.expr, hstmts, hscript, hbehind, hid, hconstants]
    rfl
  · exact ho.stream.cursor.trans (Nat.zero_add _)
  · rw [hwarned, List.append_nil]
    rfl
  · rw [hfailed]
    exact .nil

end Session

open Session

theorem Session.AtEnd.passed_eq {s : Session} (h : s.AtEnd) {tokens : List Token} {loc : Location}
    (ht : s.stream.tokens.toList = tokens ++ [Token.endAt loc]) : s.stream.passed = tokens.filter fun t => !t.isTrivia := by
  have hall : (s.stream.tokens.toList.filter fun t => !t.isTrivia) = (tokens.filter fun t => !t.isTrivia) ++ [Token.endAt loc] := by
    rw [ht, List.filter_append]
    rfl
  have hpassed := h.passed
  rw [TokenStream.significantBefore, List.take_of_length_le (by simp [TokenStream.size]), hall, List.length_append,
    List.length_singleton, Nat.add_right_cancel_iff] at hpassed
  have hprefix : s.stream.passed <+: (tokens.filter fun t => !t.isTrivia) ++ [Token.endAt loc] :=
    hall ▸ (List.take_prefix _ _).filter _
  exact (List.prefix_of_prefix_length_le hprefix (List.prefix_append ..) (Nat.le_of_eq hpassed)).eq_of_length hpassed

theorem twins_front {A B : List Token} {config : ParserConfig} (hc : (ofTokens A config).Unerring) (hA : ∀ t ∈ A, t.isEof = false)
    (hB : ∀ t ∈ B, t.isEof = false) : Twins Guise.same False (ofTokens A config) (ofTokens (A ++ B) config) := by
  obtain ⟨la, hla⟩ := closed_plain hA
  obtain ⟨lc, hlc⟩ := closed_plain (List.forall_mem_append.2 ⟨hA, hB⟩)
  refine ⟨like_ofTokens Guise.fresh_same A (A ++ B) config, hc.sound, sound_ofTokens _ _, Token.endAt .zero,
    significant false (A ++ [Token.endAt la]), [], significant false (A ++ (B ++ [Token.endAt lc])), ?_, ?_, rfl, ?_⟩
  · exact hla ▸ spread_significant false (TokenStream.closed A)
  · exact List.append_assoc A B _ ▸ hlc ▸ spread_significant false (TokenStream.closed (A ++ B))
  · obtain ⟨n, hunerring, -, hend⟩ := hc.reaches_end (P := fun _ => True) trivial fun _ _ _ _ _ _ _ _ _ => trivial
    have hlast := hunerring.settled hend.root
    rw [hend.passed_eq (by rw [hc.sound.steps_tokens]; exact hla)] at hlast
    refine .front Guise.token_same fun e he c hsymbol d => ?_
    rw [List.getLast?_cons] at he
    cases hl : (A.filter fun t => !t.isTrivia).getLast? with
    | none =>
      rw [hl] at he
      obtain rfl : Token.endAt .zero = e := Option.some.inj he
      cases hsymbol
    | some t =>
      rw [hl] at he
      obtain rfl : t = e := Option.some.inj he
      exact Pack.charsJoin_of_closing ((hlast t hl).closing hsymbol) d

theorem twins_behind {A B : List Token} {config : ParserConfig} {s r : Session} (h : Like Guise.same s r) (hc : s.Unerring)
    (he : s.AtEnd) (hconfig : s.config = config) (hpanicked : s.panicked = false) (hplain : s.script.declarative = false)
    (hr : r.Sound) {la lc : Location} (hs : s.stream.tokens.toList = A ++ [Token.endAt la])
    (hrs : r.stream.tokens.toList = A ++ (B ++ [Token.endAt lc])) (hB : ∀ t ∈ B, t.isEof = false) :
    Twins (Guise.following s) False (ofTokens B config) r.forget := by
  obtain ⟨lb, hlb⟩ := closed_plain hB
  obtain ⟨apart, happend⟩ := significant_append false A
  refine ⟨hconfig ▸ h.following hc he hpanicked hplain B, sound_ofTokens _ _, hr.forget, Token.endAt .zero,
    significant false (B ++ [Token.endAt lb]), significant false A, significant apart (B ++ [Token.endAt lc]), ?_, ?_, ?_, ?_⟩
  · exact hlb ▸ spread_significant false (TokenStream.closed B)
  · rw [← happend, ← hrs]
    exact spread_significant false r.stream.tokens.toList
  · rw [length_significant, ← he.passed_eq hs]
    rfl
  · exact .behind (.inl rfl) (Recast.token_eq (fun _ => rfl) fun _ => rfl) B lb lc

theorem Session.AtEnd.found {tokens : List Token} {config : ParserConfig} {n : Nat} (h : (steps n (ofTokens tokens config)).AtEnd)
    (hc : (steps n (ofTokens tokens config)).Unerring) {a : Script} (ha : (parse tokens config).graph = some (.script a)) :
    (steps n (ofTokens tokens config)).script = a ∧
      (parse tokens config).warnings = (steps n (ofTokens tokens config)).warned.toList.map Complaint.diagnostic := by
  have hparse := h.parse_eq hc.sound hc.unfinished hc.target fun k => ⟨n + (k + 1), steps_add n (k + 1) (ofTokens tokens config)⟩
  rw [hparse] at ha ⊢
  exact ⟨Graph.script.inj (Option.some.inj ha), rfl⟩

theorem Session.Unerring.within {tokens : List Token} {config : ParserConfig} {n : Nat} (h : (steps n (ofTokens tokens config)).Unerring)
    {a : Script} (ha : (parse tokens config).graph = some (.script a)) : (steps n (ofTokens tokens config)).script.Within a := by
  obtain ⟨k, hunerring, hwithin, hend⟩ := h.within_end
  rw [← steps_add] at hunerring hwithin hend
  exact (hend.found hunerring ha).1 ▸ hwithin

theorem Session.AtEnd.both {A B : List Token} {s s' r : Session} (h : Like (Guise.following s) s' r) (he : s.AtEnd) (he' : s'.AtEnd)
    {la lb lc : Location} (hs : s.stream.tokens.toList = A ++ [Token.endAt la])
    (hs' : s'.stream.tokens.toList = B ++ [Token.endAt lb]) (hr : r.stream.tokens.toList = A ++ (B ++ [Token.endAt lc])) :
    r.AtEnd := by
  have hpassed := he.passed_eq hs
  have hpassed' := he'.passed_eq hs'
  obtain ⟨o, rfl, ho⟩ := h
  refine ⟨⟨he'.root.recovery, ?_, ?_⟩, ?_⟩
  · show s'.expr.map _ = none
    rw [he'.root.expr, Option.map_none]
  · show (Guise.following s).mode s'.mode = _
    rw [he'.root.mode]
    rfl
  · have hcursor : o.stream.passed.length = s.stream.passed.length + s'.stream.passed.length := ho.stream.cursor
    have htokens : o.stream.tokens.toList = A ++ (B ++ [Token.endAt lc]) := hr
    show o.stream.passed.length + 1 = o.stream.significantBefore o.stream.size
    rw [hcursor, hpassed, hpassed', TokenStream.significantBefore, List.take_of_length_le (by simp [TokenStream.size]), htokens,
      List.filter_append, List.filter_append, List.length_append, List.length_append, Nat.add_assoc]
    rfl

theorem warned_following {s s' r : Session} (h : Like (Guise.following s) s' r) :
    r.warned.toList = s.warned.toList ++ s'.warned.toList := by
  obtain ⟨o, rfl, ho⟩ := h
  obtain ⟨ws, hws, halike⟩ := ho.warned
  rw [← Guise.alike_all trivial (fun _ => rfl) halike]
  exact hws

theorem parse_both {tokens : List Token} {config : ParserConfig} {s s' : Session} {n n' : Nat}
    (hf : (steps n (ofTokens tokens config)).isFinished = false)
    (h : Twins (Guise.following s) False s' (steps n' (steps n (ofTokens tokens config)).forget)) (hc : s'.Unerring)
    (he : (steps n' (steps n (ofTokens tokens config)).forget).AtEnd) :
    parse tokens config = {
      graph := some (.script ((Guise.following s).behind ((Guise.following s).script s'.script)))
      warnings := s.warned.toList.map Complaint.diagnostic ++ s'.warned.toList.map Complaint.diagnostic
      errors := []
      halted := false } := by
  have htarget : (steps n' (steps n (ofTokens tokens config)).forget).config.target = .script := by rw [h.like.config, hc.target]
  have hsteps (k : Nat) : ∃ m, steps m (ofTokens tokens config) = steps (k + 1) (steps n' (steps n (ofTokens tokens config)).forget) := by
    refine ⟨n + (n' + (k + 1)), ?_⟩
    rw [steps_add, ← steps_add n']
    exact (steps_forget hf (n' + k)).symm
  rw [he.parse_eq h.sound' (h.like.isFinished.trans hc.unfinished) htarget hsteps, h.like.script, warned_following h.like,
    h.like.failed_empty (hc.quiet 0), List.map_append]
  rfl

theorem permits_following {s : Session} {tokens : List Token} {config : ParserConfig} {b : Script}
    (hb : (parse tokens config).graph = some (.script b)) (hplain : b.declarative = false)
    (hf : ∀ f ∈ s.script.functions, ∀ f' ∈ b.functions, sameWord f.name.name f'.name.name = false)
    (hc : ∀ c ∈ s.script.constants, ∀ c' ∈ b.constants, sameWord c.name.name c'.name.name = false) {n : Nat}
    (hn : (steps n (ofTokens tokens config)).Unerring) {t : Token} (ht : t.isEof = false) :
    (Guise.following s).Permits t (steps n (ofTokens tokens config)) := by
  have hwithin := hn.within hb
  refine .inr ⟨ht, hn.quiet 0, fun c hcs c' hcs' => ?_, fun f hfs f' hfs' => ?_, hwithin.plain hplain⟩
  · exact hc c' hcs' c (hwithin.constants.subset hcs)
  · exact hf f' hfs' f (hwithin.functions.subset hfs)

/-- Scripts without errors, one behind the other, are a script without errors. It declares what they declare, the second
with other numbers, and its warnings are theirs. -/
theorem parse_append {A B : List Token} {config : ParserConfig} {a b : Script} (ht : config.target = .script)
    (hA : ∀ t ∈ A, t.isEof = false) (hB : ∀ t ∈ B, t.isEof = false)
    (ha : (parse A config).graph = some (.script a)) (ha' : (parse A config).errors = [])
    (hb : (parse B config).graph = some (.script b)) (hb' : (parse B config).errors = [])
    (hpa : a.declarative = false) (hpb : b.declarative = false)
    (hf : ∀ f ∈ a.functions, ∀ f' ∈ b.functions, sameWord f.name.name f'.name.name = false)
    (hc : ∀ c ∈ a.constants, ∀ c' ∈ b.constants, sameWord c.name.name c'.name.name = false) :
    ∃ n, let b' := ({ shift := n } : Recast).script b
      parse (A ++ B) config = {
        graph := some (.script {
          imports := a.imports ++ b'.imports
          declarations := a.declarations ++ b'.declarations
          constants := a.constants ++ b'.constants
          globals := a.globals ++ b'.globals })
        warnings := (parse A config).warnings ++ (parse B config).warnings
        errors := []
        halted := false } := by
  have hunerringA := unerring_ofTokens ha' ht hA
  have hunerringB := unerring_ofTokens hb' ht hB
  obtain ⟨la, hla⟩ := closed_plain hA
  obtain ⟨lb, hlb⟩ := closed_plain hB
  obtain ⟨lc, hlc⟩ := closed_plain (List.forall_mem_append.2 ⟨hA, hB⟩)
  -- The first script, alone and in front, up to its end.
  obtain ⟨m, n, hunerring, htwins, hend⟩ := (twins_front hunerringA hA hB).reach_end hunerringA fun _ _ _ _ => .inl ⟨rfl, rfl⟩
  obtain ⟨rfl, hwarnings⟩ := hend.found hunerring ha
  have hs : (steps m (ofTokens A config)).stream.tokens.toList = A ++ [Token.endAt la] := by
    rw [hunerringA.sound.steps_tokens]
    exact hla
  have hr : (steps n (ofTokens (A ++ B) config)).stream.tokens.toList = A ++ (B ++ [Token.endAt lc]) := by
    rw [(sound_ofTokens (A ++ B) config).steps_tokens, ← List.append_assoc]
    exact hlc
  -- The second script, alone and behind.
  have hconfig : (steps m (ofTokens A config)).config = config := (hunerringA.steps_unerring m).2.2.1
  have hbehind := twins_behind htwins.like hunerring hend hconfig (steps_stacked A config m).2 hpa htwins.sound' hs hr hB
  obtain ⟨m', n', hunerring', htwins', hend'⟩ := hbehind.reach_end hunerringB fun _ hk _ => permits_following hb hpb hf hc hk
  obtain ⟨rfl, hwarnings'⟩ := hend'.found hunerring' hb
  have hs' : (steps m' (ofTokens B config)).stream.tokens.toList = B ++ [Token.endAt lb] := by
    rw [hunerringB.sound.steps_tokens]
    exact hlb
  have hboth := AtEnd.both htwins'.like hend hend' hs hs' (hbehind.sound'.steps_tokens n' ▸ hr)
  refine ⟨(steps m (ofTokens A config)).nextId, ?_⟩
  rw [parse_both (htwins.like.isFinished.trans hunerring.unfinished) htwins' hunerring' hboth, hwarnings, hwarnings']
  simp only [Guise.behind, Recast.script, hpb]
  rfl

theorem parse_append_functions :
    let A : List Token := [⟨.identifier, "const", .start⟩, ⟨.identifier, "A", ⟨1, 7, 6⟩⟩, ⟨.symbol, "=", ⟨1, 8, 7⟩⟩,
      ⟨.number, "1", ⟨1, 9, 8⟩⟩, ⟨.symbol, ";", ⟨1, 10, 9⟩⟩]
    let B : List Token := [⟨.symbol, ";", .start⟩, ⟨.identifier, "f", ⟨1, 2, 1⟩⟩, ⟨.symbol, "(", ⟨1, 3, 2⟩⟩,
      ⟨.symbol, ")", ⟨1, 4, 3⟩⟩, ⟨.symbol, "\x7b", ⟨1, 5, 4⟩⟩, ⟨.symbol, "\x7d", ⟨1, 6, 5⟩⟩]
    let c : ConstantDecl := ⟨⟨1, .start⟩, ⟨"A", ⟨1, 7, 6⟩⟩, .literal ⟨0, ⟨1, 9, 8⟩⟩ ⟨.integer, "1", true⟩, some (.int 1)⟩
    let f : FunctionDef := ⟨⟨0, ⟨1, 2, 1⟩⟩, ⟨"f", ⟨1, 2, 1⟩⟩, [], some ⟨⟨1, ⟨1, 5, 4⟩⟩, []⟩, false, 0⟩
    let a : Script := { constants := [c] }
    let b : Script := { declarations := [.function f] }
    ((parse A {}).graph = some (.script a) ∧ (parse A {}).errors = [] ∧ (parse B {}).graph = some (.script b) ∧
      (parse B {}).errors = []) ∧ ∃ n, let b' := ({ shift := n } : Recast).script b
        parse (A ++ B) {} = {
          graph := some (.script {
            imports := a.imports ++ b'.imports
            declarations := a.declarations ++ b'.declarations
            constants := a.constants ++ b'.constants
            globals := a.globals ++ b'.globals })
          warnings := (parse A {}).warnings ++ (parse B {}).warnings
          errors := []
          halted := false } := by
  dsimp only
  refine (and_iff_left_of_imp fun h => ?_).2 ⟨rfl, by decide +kernel, rfl, by decide +kernel⟩
  obtain ⟨ha, ha', hb, hb'⟩ := h
  exact parse_append rfl (by decide) (by decide) ha ha' hb hb' rfl rfl (by simp [Script.functions]) (by simp)

end GameScript
