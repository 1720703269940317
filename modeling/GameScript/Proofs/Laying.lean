import GameScript.Proofs.Display
import GameScript.Proofs.Laid
import GameScript.Proofs.Sentences

namespace GameScript

open Layout Scan

section Texts

variable {d : Dialect} {afterValue apart : Bool} {rest : List Char} {ps : List Piece}

theorem clear_of_isBlank {c : Char} (hc : isBlank c = true) : Clear d (c :: rest) := by
  have hp : c ≠ '.' := by
    rintro rfl
    cases hc
  simpa [Clear, isWordChar_of_isBlank hc] using fun h => absurd h hp

theorem readable_letters {text : String} (h : (text.toList.all Char.isAlpha && text.toList != []) = true) :
    Token.Readable d afterValue (wordPiece apart text).2 := by
  simp only [Bool.and_eq_true, List.all_eq_true, bne_iff_ne] at h
  obtain ⟨c, cs, hcs⟩ := List.exists_cons_of_ne_nil h.2
  rw [hcs] at h
  have hr : Token.Readable d false (wordPiece apart text).2 := fun _ => ⟨c, cs, [], hcs, by
    rw [List.append_nil]
    exact head_letters h.1⟩
  exact hr.anywhere rfl afterValue

def Keyword.Leads (mode : GameMode) (k : Keyword) : Prop :=
  k.reservedIn mode = true ∧ k.category ≠ .literal

theorem Keyword.leads {k : Keyword} {mode : GameMode} (h : k.availability = .both ∧ k.category ≠ .literal) :
    k.Leads mode := by
  refine ⟨?_, h.2⟩
  rw [reservedIn, h.1]
  cases mode <;> rfl

theorem Keyword.Leads.endsValue {k : Keyword} {mode : GameMode} (h : k.Leads mode) :
    (keywordPiece apart k).2.endsValue mode = false := by
  have hword := ofWord?_spelling k mode h.1
  simpa [keywordPiece, wordPiece, Token.endsValue, Token.keyword?, hword] using h.2

theorem Spaced.keyword {k : Keyword} (hk : k.Leads d.mode) (hc : Clear d rest) (h : Spaced d false false rest ps) :
    Spaced d afterValue apart (k.spelling.toList ++ rest) (keywordPiece apart k :: ps) := by
  have hr : Token.Readable d afterValue (keywordPiece apart k).2 := readable_letters (by cases k <;> decide)
  refine hr.spaced (by simp [keywordPiece, wordPiece]) rfl (fun x hx => (hc x hx).1) ?_
  rwa [hk.endsValue]

theorem Spaced.keywordBlank {k : Keyword} (hk : k.Leads d.mode) (h : Spaced d false true rest ps) :
    Spaced d afterValue apart (k.spelling.toList ++ ' ' :: rest) (keywordPiece apart k :: ps) :=
  .keyword hk clear_blank h.space

theorem Spaced.mark {c : Char} (hc : c = ';' ∨ c = ':' ∨ c = '\x7b' ∨ c = '\x7d')
    (h : Spaced d false false rest ps) : Spaced d afterValue apart (c :: rest) (symbolPiece apart c :: ps) := by
  obtain rfl | rfl | rfl | rfl := hc <;> exact .plainSymbol (by decide) (by simp [opens]) h

theorem Spaced.newline (h : Spaced d afterValue true rest ps) : Spaced d afterValue apart ('\n' :: rest) ps :=
  .blank (by decide) h

theorem Expr.Readable.spaced {e : Expr} (h : e.Readable d afterValue) (hc : Clear d rest)
    (hr : ∀ afterValue, Spaced d afterValue false rest ps) :
    Spaced d afterValue apart (e.text.toList ++ rest) (e.pieces apart ++ ps) := by
  obtain ⟨ts, hs, hl, hh⟩ := h
  exact hs.prints (fun t ht => (hl t ht).readable) hh hc hr

theorem Ident.IsWord.spaced {n : Ident} (h : n.IsWord d) (hc : Clear d rest)
    (hr : ∀ afterValue, Spaced d afterValue false rest ps) :
    Spaced d afterValue apart (n.name.toList ++ rest) (wordPiece apart n.name :: ps) := by
  obtain ⟨t, ht, hp, hl⟩ := h
  rw [← ht]
  exact .word hl.readable hp.kind hc hr

end Texts

def linesChars (width : Nat) (lines : List Line) : List Char :=
  lines.flatMap fun line => (line.render width).toList

theorem linesChars_cons (width : Nat) (line : Line) (lines : List Line) :
    linesChars width (line :: lines) = List.replicate (line.depth * width) ' ' ++ line.text.toList ++ '\n' ::
      linesChars width lines := by
  simp [linesChars, Line.render]

@[simp] theorem linesChars_append (width : Nat) (lines more : List Line) :
    linesChars width (lines ++ more) = linesChars width lines ++ linesChars width more :=
  List.flatMap_append

section Lines

variable {d : Dialect} {width : Nat}

theorem Spaced.indent {afterValue apart : Bool} {cs : List Char} {ps : List Piece} (n : Nat)
    (h : Spaced d afterValue true cs ps) (ha : apart = true) :
    Spaced d afterValue apart (List.replicate n ' ' ++ cs) ps := by
  subst ha
  induction n with
  | zero => exact h
  | succ n ih => exact ih.space

theorem Spaced.line {afterValue : Bool} {depth : Nat} {text : String} {lines : List Line} {rest : List Char}
    {ps : List Piece} (h : Spaced d afterValue true (text.toList ++ '\n' :: (linesChars width lines ++ rest)) ps) :
    Spaced d afterValue true (linesChars width (⟨depth, text⟩ :: lines) ++ rest) ps := by
  rw [linesChars_cons]
  simpa using h.indent (depth * width) rfl

structure Heading (d : Dialect) (behind : Bool) (text : String) (hs : List Piece) : Prop where
  text : ∀ {afterValue : Bool} {c : Char} {rest : List Char} {ps : List Piece}, isBlank c = true →
    Spaced d behind true rest ps → Spaced d afterValue true (text.toList ++ c :: rest) (hs ++ ps)

structure ReadsAs (d : Dialect) (width : Nat) (afterValue : Bool) (lines : List Line) (ps : List Piece) : Prop where
  spaced : ∀ {rest : List Char} {qs : List Piece}, Spaced d false true rest qs →
    Spaced d afterValue true (linesChars width lines ++ rest) (ps ++ qs)

variable {lines more : List Line} {ps qs hs : List Piece} {afterValue behind : Bool} {depth : Nat} {text : String}

theorem ReadsAs.nil : ReadsAs d width false [] [] :=
  ⟨id⟩

theorem ReadsAs.append (h : ReadsAs d width afterValue lines ps) (h' : ReadsAs d width false more qs) :
    ReadsAs d width afterValue (lines ++ more) (ps ++ qs) := by
  refine ⟨fun hr => ?_⟩
  rw [linesChars_append, List.append_assoc, List.append_assoc]
  exact h.spaced (h'.spaced hr)

theorem ReadsAs.flatMap {α : Type} {f : α → List Line} {g : α → List Piece} {as : List α}
    (h : ∀ a ∈ as, ReadsAs d width false (f a) (g a)) : ReadsAs d width false (as.flatMap f) (as.flatMap g) := by
  induction as with
  | nil => exact .nil
  | cons a as ih =>
    obtain ⟨ha, has⟩ := List.forall_mem_cons.1 h
    exact ha.append (ih has)

theorem ReadsAs.ended {c : Char} (hc : c = ';' ∨ c = ':')
    (h : ∀ {rest qs}, (∀ afterValue, Spaced d afterValue false (c :: rest) (symbolPiece false c :: qs)) →
      Spaced d afterValue true (text.toList ++ c :: rest) (ps ++ symbolPiece false c :: qs)) :
    ReadsAs d width afterValue [⟨depth, text ++ String.ofList [c]⟩] (ps ++ [symbolPiece false c]) := by
  refine ⟨fun hr => Spaced.line ?_⟩
  have := h fun _ => .mark (hc.imp_right .inl) hr.newline
  simpa [linesChars] using this

theorem Heading.spaced {rest : List Char} (h : Heading d behind text hs)
    (hr : Spaced d behind true (linesChars width lines ++ rest) ps) :
    Spaced d afterValue true (linesChars width (⟨depth, text⟩ :: lines) ++ rest) (hs ++ ps) :=
  Spaced.line (h.text (by decide) hr)

theorem Heading.line (h : Heading d behind text hs) (hl : ReadsAs d width behind lines ps) :
    ReadsAs d width afterValue (⟨depth, text⟩ :: lines) (hs ++ ps) :=
  ⟨fun hr => by
    rw [List.append_assoc]
    exact h.spaced (hl.spaced hr)⟩

theorem heading_brace (c : Char) (hc : c = '\x7b' ∨ c = '\x7d') :
    Heading d false (String.ofList [c]) [symbolPiece true c] := by
  refine ⟨fun hb hr => ?_⟩
  rw [String.toList_ofList]
  exact .mark (.inr (.inr hc)) (.blank hb hr)

theorem Heading.halfBraced {body : List Line} (depth : Nat) (h : Heading d behind text hs) (hb : ReadsAs d width false body ps) :
    ReadsAs d width afterValue (⟨depth, text ++ " " ++ openBrace⟩ :: body) (hs ++ symbolPiece true '\x7b' :: ps) := by
  refine ⟨fun {rest qs} hr => Spaced.line ?_⟩
  have hopen : Spaced d behind true ('\x7b' :: '\n' :: (linesChars width body ++ rest))
      (symbolPiece true '\x7b' :: (ps ++ qs)) := .mark (.inr (.inr (.inl rfl))) (hb.spaced hr).newline
  have htext : Spaced d afterValue true _ _ := h.text (c := ' ') (by decide) hopen
  simpa [openBrace] using htext

theorem Heading.braced {body : List Line} (depth : Nat) (style : BraceStyle) (h : Heading d behind text hs)
    (hb : ReadsAs d width false body ps) :
    ReadsAs d width afterValue (Layout.braced style depth text body) (hs ++ bracedPieces ps) := by
  have hopen : Heading d false openBrace [symbolPiece true '\x7b'] := heading_brace '\x7b' (.inl rfl)
  have hclose : ReadsAs d width false [⟨depth, closeBrace⟩] [symbolPiece true '\x7d'] :=
    (heading_brace '\x7d' (.inr rfl)).line .nil
  cases style with
  | nextLine =>
    have hall : ReadsAs d width afterValue (⟨depth, text⟩ :: ⟨depth, openBrace⟩ :: (body ++ [⟨depth, closeBrace⟩]))
        (hs ++ ([symbolPiece true '\x7b'] ++ (ps ++ [symbolPiece true '\x7d']))) := h.line (hopen.line (hb.append hclose))
    simpa [Layout.braced, bracedPieces] using hall
  | sameLine =>
    have hall : ReadsAs d width afterValue (⟨depth, text ++ " " ++ openBrace⟩ :: body ++ [⟨depth, closeBrace⟩])
        (hs ++ symbolPiece true '\x7b' :: ps ++ [symbolPiece true '\x7d']) := (h.halfBraced depth hb).append hclose
    simpa [Layout.braced, bracedPieces] using hall

end Lines

section Headings

variable {d : Dialect} {afterValue apart : Bool} {rest : List Char} {ps : List Piece}

theorem clear_mark {c : Char} (hc : c = ';' ∨ c = ':' ∨ c = ')') : Clear d (c :: rest) := by
  obtain rfl | rfl | rfl := hc <;> exact clear_symbol (by decide) (by decide)

theorem Spaced.closeParen (h : Spaced d true false rest ps) :
    Spaced d afterValue apart (')' :: rest) (symbolPiece apart ')' :: ps) :=
  .plainSymbol (by decide) (by simp [opens]) h

theorem heading_header {k : Keyword} (text : String) (ht : text = k.spelling ++ " (") {e : Expr}
    (hk : k.availability = .both ∧ k.category ≠ .literal) (he : e.Readable d false) :
    Heading d true (text ++ e.text ++ ")") (headerPieces k e) := by
  refine ⟨fun {afterValue c rest ps} hb hr => ?_⟩
  have hall : Spaced d afterValue true (k.spelling.toList ++ ' ' :: '(' :: (e.text.toList ++ ')' :: c :: rest))
      (keywordPiece true k :: symbolPiece true '(' :: (e.pieces false ++ symbolPiece false ')' :: ps)) :=
    .keywordBlank (Keyword.leads hk) (.opening (.inl rfl)
      (he.spaced (clear_mark (.inr (.inr rfl))) fun _ => .closeParen (.blank hb hr)))
  subst ht
  simpa [headerPieces] using hall

theorem Spaced.clause {clause : Option Expr} (h : ∀ e ∈ clause, e.Readable d false) (hc : Clear d rest)
    (hr : ∀ afterValue, Spaced d afterValue false rest ps) :
    Spaced d false false (((clause.map Expr.text).getD "").toList ++ rest) (clausePieces false clause ++ ps) := by
  cases clause with
  | none => exact hr false
  | some e => exact (h e rfl).spaced hc hr

theorem Spaced.clauseText {clause : Option Expr} (h : ∀ e ∈ clause, e.Readable d false) (hc : Clear d rest)
    (hr : ∀ afterValue, Spaced d afterValue false rest ps) :
    Spaced d false false ((Layout.clauseText clause).toList ++ rest) (clausePieces true clause ++ ps) := by
  cases clause with
  | none => exact hr false
  | some e =>
    have htext : Spaced d false false (' ' :: (e.text.toList ++ rest)) (e.pieces true ++ ps) :=
      .space ((h e rfl).spaced hc hr)
    simpa [Layout.clauseText, clausePieces] using htext

theorem heading_for {first condition step : Option Expr} (hf : ∀ e ∈ first, e.Readable d false)
    (hc : ∀ e ∈ condition, e.Readable d false) (hs : ∀ e ∈ step, e.Readable d false) :
    Heading d true (forHeader first condition step) (forPieces first condition step) := by
  refine ⟨fun {afterValue c rest ps} hb hr => ?_⟩
  have hsemi {rest : List Char} : Clear d (';' :: rest) := clear_mark (.inl rfl)
  have hall : Spaced d afterValue true _ _ :=
    .keywordBlank (k := .forKw) (Keyword.leads (by decide)) (.opening (.inl rfl)
      (.clause hf hsemi fun _ => .mark (.inl rfl)
        (.clauseText hc hsemi fun _ => .mark (.inl rfl)
          (.clauseText hs (clear_mark (.inr (.inr rfl))) fun _ => .closeParen (.blank hb hr)))))
  simpa [forHeader, forPieces, Keyword.spelling] using hall

theorem heading_foreach {key : Option Ident} {value : Ident} {collection : Expr} (hk : ∀ n ∈ key, n.IsWord d)
    (hv : value.IsWord d) (hc : collection.Readable d false) :
    Heading d true (foreachHeader key value collection) (foreachPieces key value collection) := by
  refine ⟨fun {afterValue c rest ps} hb hr => ?_⟩
  have htail (afterValue : Bool) : Spaced d afterValue false
      (' ' :: (Keyword.inKw.spelling.toList ++ ' ' :: (collection.text.toList ++ ')' :: c :: rest)))
      (keywordPiece true .inKw :: (collection.pieces true ++ symbolPiece false ')' :: ps)) :=
    .space (.keywordBlank (Keyword.leads (by decide))
      (hc.spaced (clear_mark (.inr (.inr rfl))) fun _ => .closeParen (.blank hb hr)))
  cases key with
  | none =>
    have hall : Spaced d afterValue true _ _ :=
      .keywordBlank (k := .foreachKw) (Keyword.leads (by decide)) (.opening (.inl rfl) (hv.spaced clear_blank htail))
    simpa [foreachHeader, foreachPieces, iteratorPieces, Keyword.spelling] using hall
  | some k =>
    have hall : Spaced d afterValue true _ _ :=
      .keywordBlank (k := .foreachKw) (Keyword.leads (by decide)) (.opening (.inl rfl)
        ((hk k rfl).spaced (clear_symbol (by decide) (by decide)) fun _ =>
          .opening (.inr (.inr rfl)) (.space (hv.spaced clear_blank htail))))
    simpa [foreachHeader, foreachPieces, iteratorPieces, Keyword.spelling] using hall

theorem heading_else : Heading d false "else" [keywordPiece true .elseKw] := by
  refine ⟨fun {afterValue c rest ps} hb hr => ?_⟩
  have hall : Spaced d afterValue true (Keyword.elseKw.spelling.toList ++ c :: rest) (keywordPiece true .elseKw :: ps) :=
    .keyword (Keyword.leads (by decide)) (clear_of_isBlank hb) (.blank hb hr)
  exact hall

theorem heading_braceElse :
    Heading d false (closeBrace ++ " else") [symbolPiece true '\x7d', keywordPiece true .elseKw] := by
  refine ⟨fun {afterValue c rest ps} hb hr => ?_⟩
  have hall : Spaced d afterValue true _ _ := .mark (.inr (.inr (.inr rfl))) (.space (heading_else.text hb hr))
  simpa [closeBrace] using hall

end Headings

inductive Layout.Place.Leads (d : Dialect) : Bool → Bool → List Piece → Place → Prop
  | alone {afterValue : Bool} : Leads d afterValue afterValue [] .alone
  | under {afterValue behind : Bool} {header : String} {hs : List Piece} (h : Heading d behind header hs) :
      Leads d afterValue behind hs (.under header)
  | afterElse {afterValue : Bool} {lead : String} {hs : List Piece} (h : Heading d false lead hs) :
      Leads d afterValue false hs (.afterElse lead)

namespace Layout.Place.Leads

variable {d : Dialect} {width : Nat} {afterValue behind : Bool} {hs ps qs : List Piece} {lines : List Line}
  {place : Place} (depth : Nat)

theorem opening (h : Leads d afterValue behind hs place) (hl : ReadsAs d width behind lines ps) :
    ReadsAs d width afterValue (place.opening depth ++ lines) (hs ++ ps) := by
  cases h with
  | alone => exact hl
  | under h | afterElse h => exact h.line hl

theorem single {text : String} (qs : List Piece) (h : Leads d afterValue behind hs place)
    (hl : ReadsAs d width behind [⟨place.inner depth, text⟩] qs) :
    ReadsAs d width afterValue (place.single depth text) (hs ++ qs) :=
  h.opening depth hl

theorem block (style : BraceStyle) (h : Leads d afterValue behind hs place) (hl : ReadsAs d width false lines ps) :
    ReadsAs d width afterValue (place.block style depth lines) (hs ++ bracedPieces ps) := by
  cases h with
  | alone =>
    have hopen : Heading d false openBrace [symbolPiece true '\x7b'] := heading_brace '\x7b' (.inl rfl)
    have hclose : ReadsAs d width false [⟨depth, closeBrace⟩] [symbolPiece true '\x7d'] :=
      (heading_brace '\x7d' (.inr rfl)).line .nil
    have hall : ReadsAs d width afterValue (⟨depth, openBrace⟩ :: (lines ++ [⟨depth, closeBrace⟩])) _ :=
      hopen.line (hl.append hclose)
    simpa [Place.block, bracedPieces] using hall
  | under h | afterElse h => exact h.braced depth style hl

theorem branch {text : String} {b : Bool} {below : String → List Line} (h : Leads d afterValue behind hs place)
    (ht : Heading d b text ps)
    (hb : ∀ {afterValue : Bool} {header : String} {hs : List Piece}, Heading d b header hs →
      ReadsAs d width afterValue (below header) (hs ++ qs)) :
    ReadsAs d width afterValue (place.ifOpening depth ++ below (place.ifLead ++ text)) (hs ++ ps ++ qs) := by
  cases h with
  | alone => simpa [ifOpening, Place.opening, ifLead] using hb ht
  | under h =>
    have hall : ReadsAs d width afterValue (⟨depth, _⟩ :: _) _ := h.line (hb ht)
    simpa [ifOpening, Place.opening, ifLead] using hall
  | @afterElse lead hs h =>
    have hjoint : Heading d b (lead ++ " " ++ text) (hs ++ ps) := by
      refine ⟨fun {afterValue c rest qs} hblank hr => ?_⟩
      have hall : Spaced d afterValue true _ _ := h.text (c := ' ') (by decide) (ht.text hblank hr)
      simpa using hall
    exact hb hjoint

end Layout.Place.Leads

def CaseLabel.Readable (d : Dialect) : CaseLabel → Prop
  | value e => e.Readable d false
  | default _ => True

theorem SwitchLabels.mem_add {labels : SwitchLabels} {place : Nat} {label : CaseLabel} {v : Option Value}
    {loc : Location} {c : Case} {l : CaseLabel} (hc : c ∈ (labels.add place label v loc).groups) (hl : l ∈ c.labels) :
    l = label ∨ ∃ c ∈ labels.groups, l ∈ c.labels := by
  obtain ⟨groups, values, hasDefault⟩ := labels
  cases groups with
  | nil =>
    obtain rfl := List.mem_singleton.1 hc
    exact .inl (List.mem_singleton.1 hl)
  | cons g earlier =>
    simp only [add] at hc
    split at hc <;> obtain rfl | hc := List.mem_cons.1 hc
    · exact (List.mem_append.1 hl).elim (fun h => .inr ⟨g, by simp, h⟩) fun h => .inl (List.mem_singleton.1 h)
    · exact .inr ⟨c, by simp [hc], hl⟩
    · exact .inl (List.mem_singleton.1 hl)
    · exact .inr ⟨c, hc, hl⟩

theorem SwitchBody.readable {config : ParserConfig} {cs : Constants} {labels : SwitchLabels} {statements : List Stmt}
    (h : SwitchBody config cs labels statements) :
    ∀ c ∈ labels.groups, ∀ l ∈ c.labels, l.Readable config.dialect := by
  induction h with
  | start => simp
  | value _ he _ _ _ ih =>
    intro c hc l hl
    obtain rfl | ⟨c, hc, hl⟩ := SwitchLabels.mem_add hc hl
    · exact he.readable.noteRead _
    · exact ih c hc l hl
  | default _ _ _ ih =>
    intro c hc l hl
    obtain rfl | ⟨c, hc, hl⟩ := SwitchLabels.mem_add hc hl
    · trivial
    · exact ih c hc l hl
  | statement _ _ _ ih => exact ih

theorem CaseLabel.Readable.readsAs {d : Dialect} {width depth : Nat} {l : CaseLabel} (h : l.Readable d) :
    ReadsAs d width false [⟨depth, labelText l⟩] l.pieces := by
  cases l with
  | value e =>
    have hline : ReadsAs d width false [⟨depth, "case " ++ e.text ++ String.ofList [':']⟩]
        ((keywordPiece true .caseKw :: e.pieces true) ++ [symbolPiece false ':']) := by
      refine .ended (.inr rfl) fun {rest qs} hr => ?_
      have hall : Spaced d false true _ _ :=
        .keywordBlank (k := .caseKw) (Keyword.leads (by decide)) (Expr.Readable.spaced h (clear_mark (.inr (.inl rfl))) hr)
      simpa [Keyword.spelling] using hall
    exact hline
  | default =>
    have hline : ReadsAs d width false [⟨depth, "default" ++ String.ofList [':']⟩]
        ([keywordPiece true .defaultKw] ++ [symbolPiece false ':']) := by
      refine .ended (.inr rfl) fun {rest qs} hr => ?_
      exact .keyword (k := .defaultKw) (Keyword.leads (by decide)) (clear_mark (.inr (.inl rfl))) (hr false)
    exact hline

theorem groupLines_eq_map (style : BraceStyle) (depth : Nat) (ss : List Stmt) :
    groupLines style depth ss = ss.map (stmtLines style depth .alone) := by
  induction ss with
  | nil => rfl
  | cons s ss ih => simp [groupLines, ih]

theorem groupPieces_flatten (ss : List Stmt) : (groupPieces ss).flatten = ss.flatMap Stmt.pieces := by
  rw [groupPieces_eq_map, List.flatMap_def]

theorem groupLines_flatten (style : BraceStyle) (depth : Nat) (ss : List Stmt) :
    (groupLines style depth ss).flatten = ss.flatMap (stmtLines style depth .alone) := by
  rw [groupLines_eq_map, List.flatMap_def]

theorem casePieces_eq (statements : List Stmt) (c : Case) :
    casePieces (groupPieces statements) c =
      c.labels.flatMap CaseLabel.pieces ++ (Stmt.segment statements c).flatMap Stmt.pieces := by
  simp [casePieces, groupPieces_eq_map, Stmt.segment, List.flatMap_def]

theorem caseLines_eq (style : BraceStyle) (depth inner : Nat) (statements : List Stmt) (c : Case) :
    caseLines depth (groupLines style inner statements) c =
      c.labels.flatMap (fun l => [⟨depth, labelText l⟩]) ++
        (Stmt.segment statements c).flatMap (stmtLines style inner .alone) := by
  rw [← List.map_eq_flatMap]
  simp [caseLines, groupLines_eq_map, Stmt.segment, List.flatMap_def]

section Statements

variable {config : ParserConfig} {cs : Constants} {behind : Bool} {s : Stmt}

structure Stmt.Laid (d : Dialect) (style : BraceStyle) (width : Nat) (behind : Bool) (s : Stmt) : Prop where
  placed : ∀ (depth : Nat) {place : Place} {hs : List Piece} {afterValue : Bool}, place.Leads d afterValue behind hs →
    ReadsAs d width afterValue (stmtLines style depth place s) (hs ++ s.pieces)
  body : ∀ {node : Node} {statements : List Stmt}, s = .block node statements → ∀ depth,
    ReadsAs d width false (groupLines style depth statements).flatten (groupPieces statements).flatten

variable {d : Dialect} {style : BraceStyle} {width : Nat}

theorem readsAs_group {statements : List Stmt} (h : ∀ s ∈ statements, s.Laid d style width false) (depth : Nat) :
    ReadsAs d width false (groupLines style depth statements).flatten (groupPieces statements).flatten := by
  rw [groupLines_flatten, groupPieces_flatten]
  exact .flatMap fun s hs => (h s hs).placed depth .alone

theorem Stmt.Laid.of_placed (hb : isBlock s = false)
    (h : ∀ (depth : Nat) {place : Place} {hs : List Piece} {afterValue : Bool}, place.Leads d afterValue behind hs →
      ReadsAs d width afterValue (stmtLines style depth place s) (hs ++ s.pieces)) : s.Laid d style width behind := by
  refine ⟨h, ?_⟩
  rintro node statements rfl
  cases hb

theorem Stmt.Laid.beforeElse {thenBranch elseBranch : Stmt} (h : thenBranch.Laid d style width true)
    (h' : elseBranch.Laid d style width false) {header : String} {hs : List Piece} {afterValue : Bool} (depth : Nat)
    (hh : Heading d true header hs) :
    ReadsAs d width afterValue
      ((Layout.beforeElse style thenBranch (stmtLines style depth (.under header) thenBranch)).1 ++
        stmtLines style depth
          (.afterElse (Layout.beforeElse style thenBranch (stmtLines style depth (.under header) thenBranch)).2) elseBranch)
      (hs ++ thenBranch.pieces ++ keywordPiece true .elseKw :: elseBranch.pieces) := by
  by_cases hsame : isBlock thenBranch = true ∧ style = .sameLine
  · obtain ⟨hblock, rfl⟩ := hsame
    cases thenBranch with
    | block node statements =>
      have hopen : ReadsAs d width afterValue (⟨depth, header ++ " " ++ openBrace⟩ :: _) _ :=
        hh.halfBraced depth (h.body rfl (depth + 1))
      have hall := hopen.append (h'.placed depth (.afterElse heading_braceElse))
      have hdrop (first last : Line) (body : List Line) : (first :: (body ++ [last])).dropLast = first :: body := by
        rw [← List.cons_append, List.dropLast_concat]
      simpa [Layout.beforeElse, isBlock, stmtLines, Place.block, Layout.braced, Stmt.pieces, bracedPieces, hdrop]
        using hall
    | _ => cases hblock
  · have hall : ReadsAs d width afterValue (stmtLines style depth (.under header) thenBranch ++
        stmtLines style depth (.afterElse "else") elseBranch) _ :=
      (h.placed depth (.under hh)).append (h'.placed depth (.afterElse heading_else))
    simpa [Layout.beforeElse, hsame] using hall

theorem SwitchBody.readsAs {labels : SwitchLabels} {statements : List Stmt}
    (hb : SwitchBody config cs labels statements) (h : ∀ s ∈ statements, s.Laid config.dialect style width false)
    (depth : Nat) :
    ReadsAs config.dialect width false
      ((closeGroups statements.length labels.groups).flatMap (caseLines depth (groupLines style (depth + 1) statements.reverse)))
      ((closeGroups statements.length labels.groups).flatMap (casePieces (groupPieces statements.reverse))) := by
  refine .flatMap fun c hc => ?_
  rw [caseLines_eq, casePieces_eq]
  refine ReadsAs.append (.flatMap fun l hl => ?_) (.flatMap fun s hs => ?_)
  · obtain ⟨c', hc', -, hlabels⟩ := mem_closeGroups hc
    exact CaseLabel.Readable.readsAs (hb.readable c' hc' l (hlabels ▸ hl))
  · have hmem : s ∈ statements := List.mem_reverse.1 (List.mem_of_mem_take (List.mem_of_mem_drop hs))
    exact (h s hmem).placed (depth + 1) .alone

theorem Stmt.Composed.laid (style : BraceStyle) (width : Nat) (h : s.Composed config cs behind) :
    s.Laid config.dialect style width behind := by
  have hsemi {rest : List Char} : Clear config.dialect (';' :: rest) := clear_mark (.inl rfl)
  induction h with
  | expr _ hr =>
    exact .of_placed rfl fun depth _ _ _ hp => hp.single depth _
      (.ended (.inl rfl) fun hrest => hr.spaced hsemi hrest)
  | @keywordCall behind _ keyword argument hk h _ =>
    refine .of_placed rfl fun depth _ _ _ hp => hp.single depth
      (keywordPiece true keyword.keyword :: clausePieces true argument ++ [symbolPiece false ';']) ?_
    refine .ended (c := ';') (.inl rfl) fun {rest qs} hrest => ?_
    have hleads : keyword.keyword.Leads config.dialect.mode :=
      ⟨hk, by cases keyword <;> simp [CallKeyword.keyword, Keyword.category]⟩
    have hall : Spaced config.dialect behind true (keyword.keyword.spelling.toList ++
        ((clauseText argument).toList ++ ';' :: rest))
        (keywordPiece true keyword.keyword :: (clausePieces true argument ++ symbolPiece false ';' :: qs)) := by
      refine .keyword hleads ?_ (.clauseText (fun e he => (h e he).readable) hsemi hrest)
      cases argument with
      | none => exact hsemi
      | some e =>
        rw [clauseText, String.toList_append]
        exact clear_blank
    simpa [CallKeyword.text] using hall
  | @flow behind _ kind _ =>
    refine .of_placed rfl fun depth _ _ _ hp => hp.single depth
      ([keywordPiece true kind.keyword] ++ [symbolPiece false ';']) ?_
    refine .ended (c := ';') (.inl rfl) fun {rest qs} hrest => ?_
    have hall : Spaced config.dialect behind true (kind.keyword.spelling.toList ++ ';' :: rest)
        (keywordPiece true kind.keyword :: symbolPiece false ';' :: qs) :=
      .keyword (Keyword.leads (by cases kind <;> decide)) hsemi (hrest false)
    cases kind <;> exact hall
  | block _ ih =>
    refine ⟨fun depth _ _ _ hp => hp.block depth style (readsAs_group ih _), ?_⟩
    rintro _ _ ⟨⟩ depth
    exact readsAs_group ih depth
  | @ifThen _ _ _ thenBranch hc _ ih =>
    refine .of_placed rfl fun depth place _ _ hp => ?_
    have hall := hp.branch depth (heading_header (k := .ifKw) "if (" (by decide) (by decide) hc.readable)
      fun h => ih.placed (place.ifInner depth) (.under h)
    simpa [stmtLines, Stmt.pieces, String.append_assoc] using hall
  | @ifElse _ _ _ thenBranch elseBranch hc _ _ ih ih' =>
    refine .of_placed rfl fun depth place _ _ hp => ?_
    have hall := hp.branch depth (heading_header (k := .ifKw) "if (" (by decide) (by decide) hc.readable)
      fun h => List.append_assoc .. ▸ ih.beforeElse ih' (place.ifInner depth) h
    simpa [stmtLines, Stmt.pieces, String.append_assoc] using hall
  | whileLoop hc _ ih =>
    refine .of_placed rfl fun depth place _ _ hp => ?_
    have hall := hp.opening depth
      (ih.placed (place.inner depth) (.under (heading_header (k := .whileKw) "while (" (by decide) (by decide) hc.readable)))
    simpa [stmtLines, Stmt.pieces] using hall
  | forLoop hf hc hs _ ih =>
    refine .of_placed rfl fun depth place _ _ hp => ?_
    have hall := hp.opening depth (ih.placed (place.inner depth) (.under (heading_for (fun e he => (hf e he).readable)
      (fun e he => (hc e he).readable) fun e he => (hs e he).readable)))
    simpa [stmtLines, Stmt.pieces] using hall
  | foreachLoop hk hv hc _ ih =>
    refine .of_placed rfl fun depth place _ _ hp => ?_
    have hall := hp.opening depth (ih.placed (place.inner depth) (.under (heading_foreach hk hv hc.readable)))
    simpa [stmtLines, Stmt.pieces] using hall
  | @switch _ _ _ subject statements labels hs hb h ih =>
    refine .of_placed rfl fun depth place _ _ hp => ?_
    have hheader := heading_header (k := .switchKw) "switch (" (by decide) (by decide) hs.readable
    have hall := hp.opening depth (hheader.braced (place.inner depth) style (hb.readsAs ih (place.inner depth + 1)))
    simpa [stmtLines, Stmt.pieces] using hall

end Statements

end GameScript
