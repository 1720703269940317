import GameScript.Proofs.Pieces
import GameScript.Proofs.Stored
import GameScript.Proofs.Whole

namespace GameScript

open Token

theorem Token.Trailing.block {ls : List (List Token)} {ts us : List Token} (h : Trailing ls ts)
    (hu : us ∈ ls) : us <:+: ts := by
  induction h with
  | nil => cases hu
  | @snoc ls ts vs c _ _ ih =>
    rw [List.append_assoc]
    obtain hu | hu := List.mem_append.1 hu
    · exact (ih hu).trans (List.prefix_append _ _).isInfix
    · obtain rfl := List.mem_singleton.1 hu
      exact ⟨ts, [c], by simp⟩

theorem Token.Commas.block {ls : List (List Token)} {ts us : List Token} (h : Commas ls ts)
    (hu : us ∈ ls) : us <:+: ts := by
  obtain ⟨rfl, -⟩ | ⟨init, last, vs, rfl, ht, rfl⟩ := h
  · cases hu
  · obtain hu | hu := List.mem_append.1 hu
    · exact (ht.block hu).trans (List.prefix_append _ _).isInfix
    · obtain rfl := List.mem_singleton.1 hu
      exact (List.suffix_append _ _).isInfix

theorem Spells.child {mode : GameMode} {e c : Expr} {ts : List Token} (h : Spells mode e ts)
    (hc : c ∈ e.children) : ∃ us, us <:+: ts ∧ Spells mode c us := by
  have hitem {items : List (Expr × List Token)} {us : List Token} (hi : ∀ item ∈ items, Spells mode item.1 item.2)
      (hu : Commas (items.map Prod.snd) us) (hc : c ∈ items.map Prod.fst) :
      ∃ vs, vs <:+: us ∧ Spells mode c vs := by
    obtain ⟨item, hmem, rfl⟩ := List.mem_map.1 hc
    exact ⟨_, hu.block (List.mem_map_of_mem hmem), hi item hmem⟩
  cases h with
  | var | func | literal => cases hc
  | @index _ _ _ ts us b c' _ ht _ hi =>
    obtain rfl | rfl : c = _ ∨ c = _ := by simpa [Expr.children] using hc
    · exact ⟨ts, ⟨[], b :: us ++ [c'], by simp⟩, ht⟩
    · exact ⟨us, ⟨ts ++ [b], [c'], by simp⟩, hi⟩
  | @member _ _ ts p t _ hs =>
    obtain rfl : c = _ := by simpa [Expr.children] using hc
    exact ⟨ts, ⟨[], [p, t], by simp⟩, hs⟩
  | @binary _ _ _ _ ts os us _ hl _ _ hr | @assign _ _ _ _ ts os us _ hl _ _ hr =>
    obtain rfl | rfl : c = _ ∨ c = _ := by simpa [Expr.children] using hc
    · exact ⟨ts, ⟨[], os ++ us, by simp⟩, hl⟩
    · exact ⟨us, ⟨ts ++ os, [], by simp⟩, hr⟩
  | @unary _ _ _ o ts _ _ _ ht =>
    obtain rfl : c = _ := by simpa [Expr.children] using hc
    exact ⟨ts, ⟨[o], [], by simp⟩, ht⟩
  | @suffix _ _ _ ts os _ ht =>
    obtain rfl : c = _ := by simpa [Expr.children] using hc
    exact ⟨ts, ⟨[], os, by simp⟩, ht⟩
  | @group _ _ ts p q _ _ ht =>
    obtain rfl : c = _ := by simpa [Expr.children] using hc
    exact ⟨ts, ⟨[p], [q], by simp⟩, ht⟩
  | @truple _ _ _ _ ts us vs p a b q _ _ hx _ hy _ hz =>
    obtain rfl | rfl | rfl : c = _ ∨ c = _ ∨ c = _ := by simpa [Expr.children] using hc
    · exact ⟨ts, ⟨[p], a :: us ++ b :: vs ++ [q], by simp⟩, hx⟩
    · exact ⟨us, ⟨p :: ts ++ [a], b :: vs ++ [q], by simp⟩, hy⟩
    · exact ⟨vs, ⟨p :: ts ++ a :: us ++ [b], [q], by simp⟩, hz⟩
  | @array _ items us b d _ _ hi hu =>
    obtain ⟨vs, hv, hs⟩ := hitem hi hu hc
    exact ⟨vs, hv.trans ⟨[b], [d], by simp⟩, hs⟩
  | @call _ receiver _ _ args rs ms ts us p q _ _ hr _ _ _ ha hu =>
    obtain hc | hc : c ∈ receiver ∨ c ∈ args.map Prod.fst := by simpa [Expr.children] using hc
    · exact ⟨rs, ⟨[], ms ++ ts ++ p :: us ++ [q], by simp⟩, hr c hc⟩
    · obtain ⟨vs, hv, hs⟩ := hitem ha hu hc
      exact ⟨vs, hv.trans ⟨rs ++ ms ++ ts ++ [p], [q], by simp⟩, hs⟩
  | @pointerCall _ receiver _ pointer args rs ms bs ts cs us p q _ _ hr _ _ ht _ _ ha hu =>
    obtain hc | rfl | hc : c ∈ receiver ∨ c = pointer ∨ c ∈ args.map Prod.fst := by
      simpa [Expr.children] using hc
    · exact ⟨rs, ⟨[], ms ++ bs ++ ts ++ cs ++ p :: us ++ [q], by simp⟩, hr c hc⟩
    · exact ⟨ts, ⟨rs ++ ms ++ bs, cs ++ p :: us ++ [q], by simp⟩, ht⟩
    · obtain ⟨vs, hv, hs⟩ := hitem ha hu hc
      exact ⟨vs, hv.trans ⟨rs ++ ms ++ bs ++ ts ++ cs ++ [p], [q], by simp⟩, hs⟩

theorem Spells.descendant {mode : GameMode} {e : Expr} {ts : List Token} (h : Spells mode e ts) :
    (View.expr e).Exprs fun c => ∃ us, us <:+: ts ∧ Spells mode c us := by
  refine (View.exprs_expr ?_).2 ⟨ts, List.infix_rfl, h⟩
  rintro c ⟨us, hu, hs⟩ c' hc'
  obtain ⟨vs, hv, hs'⟩ := hs.child hc'
  exact ⟨vs, hv.trans hu, hs'⟩

/-- Wherever its first token can be read, the text of the expression is read as its pieces. -/
def Prints (d : Dialect) (e : Expr) (ts : List Token) : Prop :=
  ∀ {afterValue apart : Bool} {rest : List Char} {ps : List Piece}, (∀ t ∈ ts, t.Readable d false) →
    (∀ t ∈ ts.head?, t.Readable d afterValue) → Clear d rest →
    (∀ afterValue, Spaced d afterValue false rest ps) →
    Spaced d afterValue apart (e.text.toList ++ rest) (e.pieces apart ++ ps)

section Printing

variable {d : Dialect} {afterValue apart : Bool} {rest : List Char} {ps : List Piece} {ts : List Token}

theorem SpellsPath.ne_nil {mode : GameMode} {path : ModulePath} (h : SpellsPath mode path ts) : path ≠ [] := by
  cases h <;> simp

theorem SpellsPath.spaced {path : ModulePath} (h : SpellsPath d.mode path ts)
    (hr : ∀ t ∈ ts, t.Readable d false) (hc : Clear d rest)
    (hp : ∀ afterValue, Spaced d afterValue false rest ps) :
    Spaced d afterValue apart ((pathText path).toList ++ rest) (pathPieces apart path ++ ps) := by
  induction h generalizing rest ps with
  | @one t ht =>
    have hw : Spaced d afterValue apart (t.text.toList ++ rest) (wordPiece apart t.text :: ps) :=
      .word (hr t (by simp)) ht.kind hc hp
    simpa [pathText, pathPieces] using hw
  | @more segments us b t h hb ht ih =>
    have hword (afterValue : Bool) :
        Spaced d afterValue false (t.text.toList ++ rest) (wordPiece false t.text :: ps) :=
      .word (hr t (by simp)) ht.kind hc hp
    have hback (afterValue : Bool) : Spaced d afterValue false ('\\' :: (t.text.toList ++ rest))
        (symbolPiece false '\\' :: wordPiece false t.text :: ps) :=
      .plainSymbol (by decide) (by simp [Scan.opens]) (hword _)
    have := ih (fun t ht => hr t (by simp [ht])) (clear_symbol (by decide) (by decide)) hback
    rw [pathText_snoc _ h.ne_nil, pathPieces_snoc _ _ h.ne_nil]
    simpa using this

theorem Spaced.colons (h : ∀ afterValue, Spaced d afterValue false rest ps) :
    Spaced d afterValue apart (':' :: ':' :: rest) (symbolPieces apart [':', ':'] ++ ps) :=
  .plainSymbol (by decide) (by simp [Scan.opens]) (.plainSymbol (by decide) (by simp [Scan.opens]) (h _))

theorem SpellsTarget.spaced {target : FunctionRef} (h : SpellsTarget d.mode target ts)
    (hr : ∀ t ∈ ts, t.Readable d false) (hc : Clear d rest)
    (hp : ∀ afterValue, Spaced d afterValue false rest ps) :
    Spaced d afterValue apart (target.text.toList ++ rest) (target.pieces apart ++ ps) := by
  cases h with
  | @plain t ht =>
    have hw : Spaced d afterValue apart (t.text.toList ++ rest) (wordPiece apart t.text :: ps) :=
      .word (hr t (by simp)) ht.kind hc hp
    simpa [FunctionRef.text, FunctionRef.pieces] using hw
  | @qualified qualifier us t hq ht =>
    have hword (afterValue : Bool) :
        Spaced d afterValue false (t.text.toList ++ rest) (wordPiece false t.text :: ps) :=
      .word (hr t (by simp)) ht.kind hc hp
    cases hq with
    | own =>
      have : Spaced d afterValue apart _ _ := Spaced.colons hword
      simpa [FunctionRef.text, FunctionRef.pieces] using this
    | path hpath =>
      have : Spaced d afterValue apart _ _ := hpath.spaced (fun t ht => hr t (by simp [ht]))
        (clear_symbol (by decide) (by decide)) fun afterValue => Spaced.colons hword
      simpa [FunctionRef.text, FunctionRef.pieces] using this

theorem readable_modifier (m : CallModifier) :
    Token.Readable d false (wordPiece apart m.keyword.spelling).2 := by
  have hall : (m.keyword.spelling.toList.all Char.isAlpha && m.keyword.spelling.toList != []) = true := by
    cases m <;> decide
  simp only [Bool.and_eq_true, List.all_eq_true, bne_iff_ne] at hall
  obtain ⟨c, cs, hcs⟩ := List.exists_cons_of_ne_nil hall.2
  rw [hcs] at hall
  refine fun _ => ⟨c, cs, [], hcs, ?_⟩
  rw [List.append_nil]
  exact Scan.head_letters hall.1

theorem Spaced.modifier {modifier : Option CallModifier}
    (h : ∀ afterValue, Spaced d afterValue (apart || modifier.isSome) rest ps) :
    Spaced d afterValue apart ((modifierText modifier).toList ++ rest) (modifierPieces apart modifier ++ ps) := by
  cases modifier with
  | none => simpa [modifierText, modifierPieces] using h afterValue
  | some m =>
    have hr : Token.Readable d false (wordPiece apart _).2 := readable_modifier m
    have : Spaced d afterValue apart _ _ := .word hr rfl clear_blank
      fun afterValue => Spaced.space (by simpa using h afterValue)
    simpa [modifierText, modifierPieces, CallModifier.text, wordPiece] using this

theorem Spaced.receiver {receiver : Option Expr} (hn : receiver = none → ts = [])
    (h : ∀ e ∈ receiver, Prints d e ts) (hr : ∀ t ∈ ts, t.Readable d false)
    (hh : ∀ t ∈ ts.head?, t.Readable d afterValue)
    (hp : ∀ afterValue, Spaced d afterValue (apart || receiver.isSome) rest ps) :
    Spaced d afterValue apart ((receiverText receiver).toList ++ rest) (receiverPieces apart receiver ++ ps) := by
  cases receiver with
  | none => simpa [receiverText, receiverPieces] using hp afterValue
  | some e =>
    have : Spaced d afterValue apart _ _ := h e rfl hr hh clear_blank fun afterValue => Spaced.space (by simpa using hp afterValue)
    simpa [receiverText, receiverPieces] using this

section Lists

variable {items : List (Expr × List Token)}

theorem further_cases (es : List Expr) (rest : List Char) :
    (es = [] ∧ (es.flatMap fun e => ", ".toList ++ e.text.toList) ++ rest = rest) ∨
      ∃ cs, (es.flatMap fun e => ", ".toList ++ e.text.toList) ++ rest = ',' :: cs := by
  cases es with
  | nil => exact .inl ⟨rfl, rfl⟩
  | cons e es => exact .inr ⟨_, rfl⟩

theorem clear_further (es : List Expr) (hc : Clear d rest) :
    Clear d ((es.flatMap fun e => ", ".toList ++ e.text.toList) ++ rest) := by
  obtain ⟨-, h⟩ | ⟨cs, h⟩ := further_cases es rest <;> rw [h]
  · exact hc
  · exact clear_symbol (by decide) (by decide)

theorem spaced_further (h : ∀ item ∈ items, Prints d item.1 item.2)
    (hr : ∀ item ∈ items, ∀ t ∈ item.2, t.Readable d false) (hc : Clear d rest)
    (hp : ∀ afterValue, Spaced d afterValue false rest ps) :
    Spaced d afterValue false
      (((items.map Prod.fst).flatMap fun e => ", ".toList ++ e.text.toList) ++ rest)
      (furtherPieces (items.map Prod.fst) ++ ps) := by
  induction items generalizing afterValue with
  | nil => exact hp afterValue
  | cons item items ih =>
    obtain ⟨hitem, hitems⟩ := List.forall_mem_cons.1 h
    obtain ⟨hread, hreads⟩ := List.forall_mem_cons.1 hr
    have htail : Spaced d false true _ _ := hitem hread
      (fun t ht => hread t (List.mem_of_mem_head? ht)) (clear_further (items.map Prod.fst) hc)
      fun afterValue => ih hitems hreads
    have hcomma : Spaced d afterValue false _ _ := .opening (.inr (.inr rfl)) htail.space
    simpa [furtherPieces] using hcomma

theorem spaced_list (h : ∀ item ∈ items, Prints d item.1 item.2)
    (hr : ∀ item ∈ items, ∀ t ∈ item.2, t.Readable d false) (ha : items = [] → apart = false) (hc : Clear d rest)
    (hp : ∀ afterValue, Spaced d afterValue false rest ps) :
    Spaced d false apart ((commaList (exprTexts (items.map Prod.fst))).toList ++ rest)
      (exprPieces apart (items.map Prod.fst) ++ ps) := by
  cases items with
  | nil =>
    rw [ha rfl]
    simpa [commaList, exprTexts, exprPieces] using hp false
  | cons item items =>
    obtain ⟨hitem, hitems⟩ := List.forall_mem_cons.1 h
    obtain ⟨hread, hreads⟩ := List.forall_mem_cons.1 hr
    have : Spaced d false apart _ _ := hitem hread (fun t ht => hread t (List.mem_of_mem_head? ht))
      (clear_further (items.map Prod.fst) hc) fun afterValue => spaced_further hitems hreads hc hp
    rw [commaList, exprTexts_eq_map, List.map_cons, List.map_cons, intercalate_toList]
    simpa [exprPieces, List.flatMap_map] using this

end Lists

theorem Token.kind_of_literalKind {t : Token} {mode : GameMode} {kind : LiteralKind}
    (h : t.literalKind? mode = some kind) : t.kind = kind.tokenKind := by
  unfold Token.literalKind? at h
  cases hk : t.kind <;> simp only [hk] at h
  case identifier => split at h <;> cases h <;> rfl
  case number =>
    cases h
    rw [Session.numberKind]
    split <;> rfl
  case string | metaString | resource =>
    cases h
    rfl
  case symbol | comment | whitespace | eof => cases h

theorem Spells.prints {e : Expr} (h : Spells d.mode e ts) : Prints d e ts := by
  -- Inside of the text every token can be read; the first one depends on what stands in front of it.
  have hfirst {us : List Token} (hr : ∀ t ∈ us, t.Readable d false) : ∀ t ∈ us.head?, t.Readable d false :=
    fun t ht => hr t (List.mem_of_mem_head? ht)
  have hbracket {cs : List Char} : Clear d (']' :: cs) := clear_symbol (by decide) (by decide)
  have hparen {cs : List Char} : Clear d (')' :: cs) := clear_symbol (by decide) (by decide)
  have hcomma {cs : List Char} : Clear d (',' :: cs) := clear_symbol (by decide) (by decide)
  have hfront {us vs : List Token} {av : Bool} (hh : ∀ t ∈ vs.head?, t.Readable d av) (hp : us <+: vs) :
      ∀ t ∈ us.head?, t.Readable d av := by
    obtain ⟨ws, rfl⟩ := hp
    cases us with
    | nil => simp
    | cons => exact hh
  induction h with
  | @var id t ht =>
    intro av ap rest ps hr hh hc hp
    exact .word (hr t (by simp)) ht.kind hc hp
  | @func node qualifier us t hl hq ht =>
    intro av ap rest ps hr hh hc hp
    exact (SpellsTarget.qualified hq ht).spaced hr hc hp
  | @index node target index us vs b c hl _ hb _ hc' iht ihi =>
    intro av ap rest ps hr hh hc hp
    have hrv : ∀ t ∈ vs, t.Readable d false := fun t ht => hr t (by simp [ht])
    have hi : Spaced d false (index.text.toList.head? = some '[') _ _ :=
      ihi hrv (hfirst hrv) hbracket fun _ => .closing (.inr rfl) hp
    have ht : Spaced d av ap _ _ := iht (fun t ht => hr t (by simp [ht]))
      (hfront hh ⟨b :: vs ++ [c], by simp⟩) (clear_symbol (by decide) (by decide)) fun _ => .opening (.inr (.inl rfl)) hi.gap
    simpa [Expr.text, indexText, Expr.pieces, apply_ite String.toList] using ht
  | @member node target us p t hl _ hp' ht iht =>
    intro av ap rest ps hr hh hc hp
    have hrt := hr t (by simp)
    have hword : ∀ av, Spaced d av false _ _ := fun _ => .point hrt ht (.word hrt ht hc hp)
    have : Spaced d av ap _ _ := iht (fun t ht => hr t (by simp [ht])) (hfront hh (List.prefix_append _ _))
      (clear_member hrt ht) hword
    simpa [Expr.text, Expr.pieces] using this
  | @literal id kind folded t ht =>
    intro av ap rest ps hr hh hc hp
    exact .content (hh t rfl) (Token.kind_of_literalKind ht) (by cases kind <;> simp [LiteralKind.tokenKind])
      (by cases kind <;> simp [LiteralKind.tokenKind]) hc hp
  | @binary node op left right us os vs hl _ _ _ _ ihl ihr | @assign node op left right us os vs hl _ _ _ _ ihl ihr =>
    intro av ap rest ps hr hh hc hp
    have hrv : ∀ t ∈ vs, t.Readable d false := fun t ht => hr t (by simp [ht])
    have : Spaced d av ap _ _ := ihl (fun t ht => hr t (by simp [ht]))
      (hfront hh ⟨os ++ vs, by simp⟩) clear_blank fun _ => .between op (ihr hrv (hfirst hrv) hc hp)
    simpa [Expr.text, Expr.pieces] using this
  | @unary node op operand o us hl hf _ _ ih =>
    intro av ap rest ps hr hh hc hp
    have hru : ∀ t ∈ us, t.Readable d false := fun t ht => hr t (by simp [ht])
    have hi : Spaced d false (unaryApart op operand.text.toList) _ _ := ih hru (hfirst hru) hc hp
    have : Spaced d av ap _ _ := Spaced.affix (.inl hf) hi.gap
    simpa [Expr.text, Expr.pieces, unaryText_toList] using this
  | @suffix node op operand us os hl _ hf _ ih =>
    intro av ap rest ps hr hh hc hp
    have : Spaced d av ap _ _ := ih (fun t ht => hr t (by simp [ht])) (hfront hh (List.prefix_append _ _))
      (clear_operator op) fun _ => .affix (.inr hf) (hp _)
    simpa [Expr.text, Expr.pieces] using this
  | @group node inner us p q _ _ _ _ ih =>
    intro av ap rest ps hr hh hc hp
    have hru : ∀ t ∈ us, t.Readable d false := fun t ht => hr t (by simp [ht])
    have hi : Spaced d false false _ _ := ih hru (hfirst hru) hparen fun _ => .closing (.inl rfl) hp
    have : Spaced d av ap _ _ := Spaced.opening (.inl rfl) hi
    simpa [Expr.text, Expr.pieces] using this
  | @truple node x y z us vs ws p a b q _ _ _ _ _ _ _ _ ihx ihy ihz =>
    intro av ap rest ps hr hh hc hp
    have hru : ∀ t ∈ us, t.Readable d false := fun t ht => hr t (by simp [ht])
    have hrv : ∀ t ∈ vs, t.Readable d false := fun t ht => hr t (by simp [ht])
    have hrw : ∀ t ∈ ws, t.Readable d false := fun t ht => hr t (by simp [ht])
    have hz : Spaced d false true _ _ := ihz hrw (hfirst hrw) hparen fun _ => .closing (.inl rfl) hp
    have hy : Spaced d false true _ _ := ihy hrv (hfirst hrv) hcomma fun _ => .opening (.inr (.inr rfl)) hz.space
    have hx : Spaced d false false _ _ := ihx hru (hfirst hru) hcomma fun _ => .opening (.inr (.inr rfl)) hy.space
    have : Spaced d av ap _ _ := Spaced.opening (.inl rfl) hx
    simpa [Expr.text, Expr.pieces] using this
  | @array node items us b c _ _ _ hu _ ih =>
    intro av ap rest ps hr hh hc hp
    have hitems : ∀ item ∈ items, ∀ t ∈ item.2, t.Readable d false := fun item hi t ht =>
      hr t (by simp [(hu.block (List.mem_map_of_mem hi)).subset ht])
    have hempty : items = [] → startsWithArray (items.map Prod.fst) = false := by
      rintro rfl
      rfl
    have hi := spaced_list ih hitems hempty hbracket fun _ => .closing (.inr rfl) hp
    have : Spaced d av ap _ _ := Spaced.opening (.inr (.inl rfl)) hi.gap
    simpa [Expr.text, Expr.pieces, apply_ite String.toList] using this
  | @call node receiver modifier target args rs ms us vs p q _ hn _ _ ht _ _ hu _ ihr iha =>
    intro av ap rest ps hr hh hc hp
    have hargs : ∀ arg ∈ args, ∀ t ∈ arg.2, t.Readable d false := fun arg ha t ht =>
      hr t (by simp [(hu.block (List.mem_map_of_mem ha)).subset ht])
    have hlist := spaced_list iha hargs (fun _ => rfl) hparen fun _ => .closing (.inl rfl) hp
    have htarget (av : Bool) : Spaced d av (ap || receiver.isSome || modifier.isSome) _ _ :=
      ht.spaced (fun t ht => hr t (by simp [ht])) (clear_symbol (by decide) (by decide))
        fun _ => .opening (.inl rfl) hlist
    have : Spaced d av ap _ _ := Spaced.receiver hn ihr (fun t ht => hr t (by simp [ht]))
      (hfront hh ⟨ms ++ us ++ p :: vs ++ [q], by simp⟩) fun _ => .modifier htarget
    simpa [Expr.text, Expr.pieces] using this
  | @pointerCall node receiver modifier pointer args rs ms bs us cs vs p q _ hn _ _ _ _ _ _ _ hu _ ihr iht iha =>
    intro av ap rest ps hr hh hc hp
    have hargs : ∀ arg ∈ args, ∀ t ∈ arg.2, t.Readable d false := fun arg ha t ht =>
      hr t (by simp [(hu.block (List.mem_map_of_mem ha)).subset ht])
    have hru : ∀ t ∈ us, t.Readable d false := fun t ht => hr t (by simp [ht])
    have hlist := spaced_list iha hargs (fun _ => rfl) hparen fun _ => .closing (.inl rfl) hp
    have hpointer : Spaced d false false _ _ := iht hru (hfirst hru) hbracket fun _ =>
      .closing (.inr rfl) fun _ => .closing (.inr rfl) fun _ => .opening (.inl rfl) hlist
    have hopen (av : Bool) : Spaced d av (ap || receiver.isSome || modifier.isSome) _ _ :=
      .opening (.inr (.inl rfl)) (.opening (.inr (.inl rfl)) hpointer)
    have : Spaced d av ap _ _ := Spaced.receiver hn ihr (fun t ht => hr t (by simp [ht]))
      (hfront hh ⟨ms ++ bs ++ us ++ cs ++ p :: vs ++ [q], by simp⟩) fun _ => .modifier hopen
    simpa [Expr.text, Expr.pieces, symbolPieces] using this

end Printing

namespace Token

def SameButCase (mode : GameMode) (t u : Token) : Prop :=
  t.kind = u.kind ∧
    (t.text = u.text ∨ ∃ m : CallModifier, u.keyword? mode = some m.keyword ∧ sameWord t.text u.text = true)

theorem Same.sameButCase {mode : GameMode} {t u v : Token} (h : t.Same u) (h' : u.SameButCase mode v) :
    t.SameButCase mode v := by
  unfold SameButCase at h' ⊢
  rwa [h.1, h.2]

end Token

def Matches (mode : GameMode) (ps : List Piece) (ts : List Token) : Prop :=
  List.Forall₂ (fun p t => p.2.SameButCase mode t) ps ts

section Matching

variable {mode : GameMode} {apart : Bool} {ps qs : List Piece} {ts us : List Token}

theorem Matches.append (h : Matches mode ps ts) (h' : Matches mode qs us) : Matches mode (ps ++ qs) (ts ++ us) :=
  List.rel_append h h'

theorem Matches.symbol {c : Char} {t : Token} (ht : t.isSymbol c = true) (ho : t.OneChar)
    (h : Matches mode ps ts) : Matches mode (symbolPiece apart c :: ps) (t :: ts) := by
  have hk : t.kind = .symbol := by
    by_contra hn
    rw [isSymbol_iff, symbol?_eq_none_of_kind hn] at ht
    cases ht
  obtain ⟨d, hd⟩ := ho hk
  have hc : d = c := by simpa [Token.isSymbol, Token.symbol?, hk, hd] using ht
  subst hc
  have htext : String.ofList [d] = t.text := by rw [← hd, String.ofList_toList]
  exact .cons ⟨hk.symm, .inl htext⟩ h

theorem matches_symbols {cs : List Char} (h : ts.map Token.symbol? = cs.map some) (ho : ∀ t ∈ ts, t.OneChar) :
    Matches mode (symbolPieces apart cs) ts := by
  induction cs generalizing ts apart with
  | nil =>
    obtain rfl := List.map_eq_nil_iff.1 h
    exact .nil
  | cons c cs ih =>
    obtain ⟨t, ts, rfl, ht, hts⟩ := List.map_eq_cons_iff.1 h
    obtain ⟨hone, hall⟩ := List.forall_mem_cons.1 ho
    exact .symbol (isSymbol_iff.2 ht) hone (ih hts hall)

theorem matches_word {t : Token} (hk : t.kind = .identifier) : Matches mode [wordPiece apart t.text] [t] :=
  .cons ⟨hk.symm, .inl rfl⟩ .nil

theorem SpellsPath.matches {path : ModulePath} (h : SpellsPath mode path ts) (ho : ∀ t ∈ ts, t.OneChar) :
    Matches mode (pathPieces apart path) ts := by
  induction h with
  | one ht => exact matches_word ht.kind
  | more h hb ht ih =>
    rw [pathPieces_snoc _ _ h.ne_nil]
    exact (ih fun t ht => ho t (by simp [ht])).append (.symbol hb (ho _ (by simp)) (matches_word ht.kind))

theorem SpellsTarget.matches {target : FunctionRef} (h : SpellsTarget mode target ts)
    (ho : ∀ t ∈ ts, t.OneChar) : Matches mode (target.pieces apart) ts := by
  cases h with
  | plain ht => exact matches_word ht.kind
  | qualified hq ht =>
    obtain ⟨ho, -⟩ := List.forall_mem_append.1 ho
    cases hq with
    | own h => exact (matches_symbols (by simpa [Spell] using h) ho).append (matches_word ht.kind)
    | path hp h =>
      obtain ⟨hpath, hcolons⟩ := List.forall_mem_append.1 ho
      exact ((hp.matches hpath).append (matches_symbols (by simpa [Spell] using h) hcolons)).append
        (matches_word ht.kind)

theorem matches_modifier {modifier : Option CallModifier} (h : SpellsModifier mode modifier ts) :
    Matches mode (modifierPieces apart modifier) ts := by
  cases modifier with
  | none =>
    obtain rfl : ts = [] := h
    exact .nil
  | some m =>
    obtain ⟨t, rfl, ht⟩ := h
    have hk : t.kind = .identifier := by
      by_contra hn
      rw [keyword?_eq_none_of_kind mode hn] at ht
      cases ht
    exact .cons ⟨hk.symm, .inr ⟨m, ht, sameWord_keyword ht⟩⟩ .nil

theorem matches_receiver {receiver : Option Expr} (hn : receiver = none → ts = [])
    (h : ∀ e ∈ receiver, ∀ apart, Matches mode (e.pieces apart) ts) :
    Matches mode (receiverPieces apart receiver) ts := by
  cases receiver with
  | none =>
    obtain rfl := hn rfl
    exact .nil
  | some e => exact h e rfl apart

theorem Token.Trailing.matches {items : List (Expr × List Token)} (h : Trailing (items.map Prod.snd) ts)
    (hi : ∀ item ∈ items, ∀ apart, Matches mode (item.1.pieces apart) item.2) (ho : ∀ t ∈ ts, t.OneChar)
    (hn : items ≠ []) : Matches mode (exprPieces apart (items.map Prod.fst) ++ [symbolPiece false ',']) ts := by
  generalize hl : items.map Prod.snd = ls at h
  induction h generalizing items with
  | nil => exact absurd (List.map_eq_nil_iff.1 hl) hn
  | @snoc ls ts us c ht hc ih =>
    obtain ⟨init, last, rfl, rfl, hlast⟩ := List.map_eq_append_iff.1 hl
    obtain ⟨item, rfl, rfl⟩ := List.map_eq_singleton_iff.1 hlast
    obtain ⟨ho', hcomma⟩ := List.forall_mem_append.1 ho
    obtain ⟨hts, -⟩ := List.forall_mem_append.1 ho'
    have hclose : Matches mode [symbolPiece false ','] [c] := .symbol hc (hcomma c (by simp)) .nil
    by_cases hinit : init = []
    · subst hinit
      obtain rfl := ht.eq_nil rfl
      have := (hi item (by simp) apart).append hclose
      simpa [exprPieces, furtherPieces] using this
    · have hfront := ih (fun item hm => hi item (by simp [hm])) hts hinit rfl
      have := (hfront.append (hi item (by simp) true)).append hclose
      rw [List.map_append, List.map_singleton, exprPieces_snoc _ _ (by simpa using hinit)]
      simpa using this

theorem Token.Commas.matches {items : List (Expr × List Token)} (h : Commas (items.map Prod.snd) ts)
    (hi : ∀ item ∈ items, ∀ apart, Matches mode (item.1.pieces apart) item.2) (ho : ∀ t ∈ ts, t.OneChar) :
    Matches mode (exprPieces apart (items.map Prod.fst)) ts := by
  obtain ⟨hn, rfl⟩ | ⟨init, last, us, hl, ht, rfl⟩ := h
  · obtain rfl := List.map_eq_nil_iff.1 hn
    exact .nil
  · obtain ⟨init, rest, rfl, rfl, hlast⟩ := List.map_eq_append_iff.1 hl
    obtain ⟨item, rfl, rfl⟩ := List.map_eq_singleton_iff.1 hlast
    by_cases hinit : init = []
    · subst hinit
      obtain rfl := ht.eq_nil rfl
      simpa [exprPieces, furtherPieces] using hi item (by simp) apart
    · have hfront : Matches mode (exprPieces apart _ ++ _) us :=
        ht.matches (fun item hm => hi item (by simp [hm])) (List.forall_mem_append.1 ho).1 hinit
      have := hfront.append (hi item (by simp) true)
      rw [List.map_append, List.map_singleton, exprPieces_snoc _ _ (by simpa using hinit)]
      simpa using this

theorem Spells.matches {e : Expr} (h : Spells mode e ts) (ho : ∀ t ∈ ts, t.OneChar) :
    ∀ apart, Matches mode (e.pieces apart) ts := by
  induction h with
  | var ht => exact fun _ => matches_word ht.kind
  | func _ hq ht => exact fun _ => (SpellsTarget.qualified hq ht).matches ho
  | @index _ _ _ us vs b c _ _ hb _ hc iht ihi =>
    intro apart
    simp only [Expr.pieces, List.append_assoc, List.cons_append]
    exact (iht (fun t ht => ho t (by simp [ht])) apart).append (.symbol hb (ho b (by simp))
      ((ihi (fun t ht => ho t (by simp [ht])) _).append (.symbol hc (ho c (by simp)) .nil)))
  | @member _ _ us p t _ _ hp ht ih =>
    intro apart
    exact (ih (fun t ht => ho t (by simp [ht])) apart).append (.symbol hp (ho p (by simp)) (matches_word ht))
  | @literal _ kind _ t ht =>
    intro apart
    exact .cons ⟨(Token.kind_of_literalKind ht).symm, .inl rfl⟩ .nil
  | @binary _ _ _ _ us os vs _ _ _ hs _ ihl ihr | @assign _ _ _ _ us os vs _ _ _ hs _ ihl ihr =>
    intro apart
    exact ((ihl (fun t ht => ho t (by simp [ht])) apart).append
      (matches_symbols hs fun t ht => ho t (by simp [ht]))).append (ihr (fun t ht => ho t (by simp [ht])) true)
  | @unary _ op _ o us _ _ hs _ ih =>
    intro apart
    have hop : Matches mode (symbolPieces apart op.spelling.toList) [o] := matches_symbols hs fun t ht => ho t (by simp at ht; simp [ht])
    exact hop.append (ih (fun t ht => ho t (by simp [ht])) _)
  | @suffix _ _ _ us os _ _ _ hs ih =>
    intro apart
    exact (ih (fun t ht => ho t (by simp [ht])) apart).append
      (matches_symbols hs fun t ht => ho t (by simp [ht]))
  | @group _ _ us p q _ hp _ hq ih =>
    intro apart
    exact .symbol hp (ho p (by simp)) ((ih (fun t ht => ho t (by simp [ht])) false).append
      (.symbol hq (ho q (by simp)) .nil))
  | @truple _ _ _ _ us vs ws p a b q _ hp _ ha _ hb _ hq ihx ihy ihz =>
    intro apart
    have hx := ihx (fun t ht => ho t (by simp [ht])) false
    have hy := ihy (fun t ht => ho t (by simp [ht])) true
    have hz := ihz (fun t ht => ho t (by simp [ht])) true
    simp only [Expr.pieces, List.append_assoc, List.cons_append]
    exact .symbol hp (ho p (by simp)) (hx.append (.symbol ha (ho a (by simp)) (hy.append
      (.symbol hb (ho b (by simp)) (hz.append (.symbol hq (ho q (by simp)) .nil))))))
  | @array _ items us b c _ hb _ hu hc ih =>
    intro apart
    have hitems : ∀ item ∈ items, ∀ t ∈ item.2, t.OneChar := fun item hi t ht =>
      ho t (by simp [(hu.block (List.mem_map_of_mem hi)).subset ht])
    exact .symbol hb (ho b (by simp)) ((hu.matches (fun item hi => ih item hi (hitems item hi))
      fun t ht => ho t (by simp [ht])).append (.symbol hc (ho c (by simp)) .nil))
  | @call _ receiver modifier _ args rs ms us vs p q _ hn hr hm ht hp _ hu hq ihr iha =>
    intro apart
    have hargs : ∀ arg ∈ args, ∀ t ∈ arg.2, t.OneChar := fun arg ha t ht =>
      ho t (by simp [(hu.block (List.mem_map_of_mem ha)).subset ht])
    have hreceiver : Matches mode (receiverPieces apart receiver) rs := matches_receiver hn fun e he => ihr e he fun t ht => ho t (by simp [ht])
    simp only [Expr.pieces, List.append_assoc, List.cons_append]
    exact hreceiver.append ((matches_modifier hm).append ((ht.matches fun t ht => ho t (by simp [ht])).append
      (.symbol hp (ho p (by simp)) ((hu.matches (fun arg ha => iha arg ha (hargs arg ha))
        fun t ht => ho t (by simp [ht])).append (.symbol hq (ho q (by simp)) .nil)))))
  | @pointerCall _ receiver modifier pointer args rs ms bs us cs vs p q _ hn hr hm hb _ hc hp _ hu hq ihr iht iha =>
    intro apart
    have hargs : ∀ arg ∈ args, ∀ t ∈ arg.2, t.OneChar := fun arg ha t ht =>
      ho t (by simp [(hu.block (List.mem_map_of_mem ha)).subset ht])
    have hreceiver : Matches mode (receiverPieces apart receiver) rs := matches_receiver hn fun e he => ihr e he fun t ht => ho t (by simp [ht])
    simp only [Expr.pieces, List.append_assoc, List.cons_append]
    exact hreceiver.append ((matches_modifier hm).append
      ((matches_symbols (by simpa [Spell] using hb) fun t ht => ho t (by simp [ht])).append
        ((iht (fun t ht => ho t (by simp [ht])) false).append
          ((matches_symbols (by simpa [Spell] using hc) fun t ht => ho t (by simp [ht])).append
            (.symbol hp (ho p (by simp)) ((hu.matches (fun arg ha => iha arg ha (hargs arg ha))
              fun t ht => ho t (by simp [ht])).append (.symbol hq (ho q (by simp)) .nil)))))))

end Matching

end GameScript
