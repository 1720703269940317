import GameScript.Proofs.Packing
import Mathlib

namespace GameScript

theorem SameLetter.of_toLower {a b : Char} (h : a.toLower = b.toLower) : SameLetter a b := by
  have halpha : b.isAlpha = a.isAlpha := by rw [← b.isAlpha_toLower_eq_isAlpha, ← h, a.isAlpha_toLower_eq_isAlpha]
  cases ha : a.isAlpha with
  | true => exact .inr ⟨ha, halpha.trans ha, h⟩
  | false =>
    have hplain {c : Char} (hc : c.isAlpha = false) : c.toLower = c :=
      Char.toLower_eq_of_not_isUpper fun hu => by simp [Char.isAlpha, hu] at hc
    rw [hplain ha, hplain (halpha.trans ha)] at h
    exact .inl h

namespace SameLetters

variable {cs cs' ds ds' : List Char}

theorem of_lowerWord {a b : String} (h : lowerWord a = lowerWord b) : SameLetters a.toList b.toList := by
  have hmap : a.toList.map Char.toLower = b.toList.map Char.toLower := by
    have := congrArg String.toList h
    simpa [lowerWord] using this
  rw [← List.forall₂_eq_eq_eq, List.forall₂_map_left_iff, List.forall₂_map_right_iff] at hmap
  exact hmap.imp fun _ _ => .of_toLower

theorem refl (cs : List Char) : SameLetters cs cs :=
  List.forall₂_same.2 fun c _ => .refl c

theorem append (h : SameLetters cs cs') (h' : SameLetters ds ds') : SameLetters (cs ++ ds) (cs' ++ ds') :=
  List.rel_append h h'

theorem head? (h : SameLetters cs cs') : ∀ x ∈ cs'.head?, ∃ y ∈ cs.head?, SameLetter x y := by
  intro x hx
  cases h with
  | nil => cases hx
  | cons hc _ =>
    obtain rfl := Option.mem_some_iff.1 hx
    exact ⟨_, rfl, hc.symm⟩

theorem tail (h : SameLetters cs cs') : SameLetters cs.tail cs'.tail := by
  cases h with
  | nil => exact .nil
  | cons _ h => exact h

theorem forall_mem {p : Char → Bool} (hp : ∀ a b, SameLetter a b → p a = p b) (h : SameLetters cs cs') :
    (∀ c ∈ cs, p c = true) → ∀ c ∈ cs', p c = true := by
  induction h with
  | nil => exact fun _ => by simp
  | cons hc _ ih =>
    intro hall
    obtain ⟨ha, hrest⟩ := List.forall_mem_cons.1 hall
    exact List.forall_mem_cons.2 ⟨hp _ _ hc ▸ ha, ih hrest⟩

theorem after (h : SameLetters cs cs') (loc : Location) : loc.after cs' = loc.after cs := by
  induction h generalizing loc with
  | nil => rfl
  | cons hc _ ih =>
    rw [Location.after_cons, Location.after_cons, ← hc.next, ih]

end SameLetters

namespace Scan

variable {d : Dialect} {afterValue : Bool} {c : Char} {cs text text' rest rest' : List Char} {kind : TokenKind}

theorem Stops.recased (h : Stops d afterValue kind text rest) (hr : SameLetters rest rest') :
    Stops d afterValue kind text rest' := by
  have hslash : Char.isAlpha '/' = false ∧ Char.isAlpha '*' = false ∧ Char.isAlpha '\x22' = false ∧ Char.isAlpha '.' = false := by
    decide
  cases kind with
  | identifier | resource =>
    intro x hx
    obtain ⟨y, hy, hs⟩ := hr.head? x hx
    exact hs.isWordChar.trans (h y hy)
  | number =>
    intro x hx
    obtain ⟨y, hy, hs⟩ := hr.head? x hx
    refine ⟨hs.isWordChar.trans (h y hy).1, fun hp z hz => ?_⟩
    obtain ⟨w, hw, hz⟩ := hr.tail.head? z hz
    exact hz.isDigit.trans ((h y hy).2 ((hs.eq_iff hslash.2.2.2).1 hp) w hw)
  | symbol =>
    intro x hx
    obtain ⟨y, hy, hs⟩ := hr.head? x hx
    simp only [ne_eq, hs.eq_iff hslash.1, hs.eq_iff hslash.2.1, hs.eq_iff hslash.2.2.1, hs.isWordStart, hs.isDigit]
    exact h y hy
  | whitespace =>
    intro x hx
    obtain ⟨y, hy, hs⟩ := hr.head? x hx
    exact hs.isBlank.trans (h y hy)
  | string | metaString => trivial
  | comment | eof => exact h.elim

theorem head_comment (h : head d afterValue c (cs ++ rest) = .token .comment (c :: cs) rest)
    (hr : SameLetters rest rest') : head d afterValue c (cs ++ rest') = .token .comment (c :: cs) rest' := by
  apply comment_behind h
  intro x hx
  obtain ⟨y, hy, hs⟩ := hr.head? x hx
  exact ⟨y, hy, (hs.eq_iff (show Char.isAlpha '\n' = false by decide)).2⟩

theorem head_recased (h : head d afterValue c (cs ++ rest) = .token kind (c :: cs) rest) (hr : SameLetters rest rest') :
    head d afterValue c (cs ++ rest') = .token kind (c :: cs) rest' := by
  by_cases hc : kind = .comment
  · subst hc
    exact head_comment h hr
  by_cases hn : kind = .number
  · subst hn
    obtain ⟨hnumber, hhead⟩ := head_number h
    have hpoint : Char.isAlpha '.' = false := by decide
    rw [hhead]
    · refine number_follows hnumber (fun z hz => .inl (hr.head? z hz)) fun fraction hf y hy hd => ?_
      subst hf
      obtain ⟨p, hp, hs⟩ := hr.head? '.' rfl
      obtain ⟨tail, rfl⟩ := List.head?_eq_some_iff.1 hp
      obtain ⟨z, hz, hs'⟩ := hr.tail.head? y hy
      obtain ⟨tail', rfl⟩ := List.head?_eq_some_iff.1 hz
      obtain rfl : p = '.' := (hs.eq_iff hpoint).1 rfl
      obtain rfl | ⟨hy, -⟩ := hs'
      · exact ⟨_, rfl⟩
      · rw [isDigit_of_isAlpha hy] at hd
        cases hd
    · rintro rfl
      cases cs with
      | nil => cases kind_of_opens (.inr (.inr (.inr rfl))) h
      | cons => rfl
  · exact head_behind h ((head_stops h hc hn).recased hr)

theorem head_identifier_recased (h : head d afterValue c cs = .token .identifier text rest) (ht : SameLetters text text')
    (hr : SameLetters rest rest') :
    ∃ c' cs', text' ++ rest' = c' :: cs' ∧ head d afterValue c' cs' = .token .identifier text' rest' := by
  cases head_found h with
  | identifier hs =>
    cases ht with
    | @cons _ c' _ word hc hword =>
      refine ⟨c', word ++ rest', rfl, ?_⟩
      have hall : ∀ x ∈ word, d.isWordChar x = true :=
        SameLetters.forall_mem (fun a b => SameLetter.isWordChar) hword fun x hx => List.mem_takeWhile_imp hx
      have hstop : ∀ x ∈ rest'.head?, d.isWordChar x = false := by
        intro x hx
        obtain ⟨y, hy, hs⟩ := hr.head? x hx
        exact hs.isWordChar.trans (head?_dropWhile cs y hy)
      obtain ⟨ht, hd⟩ := takeWhile_append hall hstop
      rw [head_wordStart (hc.isWordStart ▸ hs), Scan.word, ht, hd]

end Scan

namespace Token

/-- The text spells the token: an identifier in whatever case, other tokens as they are. -/
def Spelled (t : Token) (text : String) : Prop :=
  if t.kind = .identifier then sameWord t.text text = true else text = t.text

instance (t : Token) (text : String) : Decidable (t.Spelled text) :=
  inferInstanceAs (Decidable (if t.kind = .identifier then _ else _))

def respell (t : Token) (text : String) : Token :=
  { t with text := text }

theorem Spelled.sameLetters {t : Token} {text : String} (h : t.Spelled text) : SameLetters t.text.toList text.toList := by
  unfold Spelled at h
  split at h
  · exact .of_lowerWord ((sameWord_iff ..).1 h)
  · exact h ▸ .refl _

theorem Spelled.leaves {t : Token} {text : String} (h : t.Spelled text) (mode : GameMode) (afterValue : Bool) :
    (t.respell text).leaves mode afterValue = t.leaves mode afterValue := by
  unfold Spelled at h
  split at h
  · next hk =>
    have hkeyword : (t.respell text).keyword? mode = t.keyword? mode := by
      have hk' : (t.respell text).kind = .identifier := hk
      rw [keyword?, if_pos hk', keyword?, if_pos hk]
      exact Keyword.ofWord?_lower ((sameWord_iff ..).1 h).symm mode
    simp only [Token.leaves, isTrivia, endsValue, hkeyword]
    simp [respell, hk]
  · rw [h]
    rfl

theorem sameLetters_join {ts : List Token} {texts : List String} (h : List.Forall₂ Spelled ts texts) :
    SameLetters (String.join (ts.map text)).toList (String.join texts).toList := by
  induction h with
  | nil => exact .refl _
  | cons ht _ ih =>
    rw [List.map_cons, String.join_cons, String.join_cons, String.toList_append, String.toList_append]
    exact ht.sameLetters.append ih

theorem Placed.respell {loc : Location} {ts : List Token} {texts : List String} (h : Placed loc ts)
    (hw : List.Forall₂ Spelled ts texts) : Placed loc (ts.zipWith Token.respell texts) := by
  induction hw generalizing loc with
  | nil => trivial
  | @cons t text _ _ ht _ ih =>
    refine ⟨h.1, ?_⟩
    have hstop : (t.respell text).stop = t.stop := ht.sameLetters.after t.loc
    rw [hstop]
    exact ih h.2

end Token

theorem Reads.respell {d : Dialect} {afterValue left : Bool} {cs : List Char} {ts : List Token}
    (h : Reads d afterValue cs ts left []) {texts : List String} (hw : List.Forall₂ Token.Spelled ts texts) :
    Reads d afterValue (String.join texts).toList (ts.zipWith Token.respell texts) left [] := by
  generalize hend : ([] : List Char) = end' at h
  induction h generalizing texts with
  | done =>
    subst hend
    cases hw
    exact .done
  | @token afterValue left c cs rest end' t ts hs hr ih =>
    subst hend
    cases hw with
    | @cons _ text _ texts ht hw =>
      have hrest : SameLetters rest (String.join texts).toList := by
        have htext := hr.text
        rw [List.append_nil] at htext
        rw [← htext]
        exact Token.sameLetters_join hw
      have hhead : ∃ c' cs', text.toList ++ (String.join texts).toList = c' :: cs' ∧
          Scan.head d afterValue c' cs' = .token t.kind text.toList (String.join texts).toList := by
        by_cases hk : t.kind = .identifier
        · rw [hk] at hs ⊢
          exact Scan.head_identifier_recased hs ht.sameLetters hrest
        · obtain rfl : text = t.text := by simpa [Token.Spelled, hk] using ht
          obtain ⟨happend, hne⟩ := Scan.head_token hs
          obtain ⟨x, xs, hx⟩ := List.exists_cons_of_ne_nil hne
          rw [hx] at happend hs ⊢
          obtain ⟨rfl, rfl⟩ := List.cons.inj happend
          exact ⟨x, _, rfl, Scan.head_recased hs hrest⟩
      obtain ⟨c', cs', happend, hhead⟩ := hhead
      rw [String.join_cons, String.toList_append, happend, List.zipWith_cons_cons]
      refine .token hhead ?_
      rw [ht.leaves]
      exact ih hw rfl

theorem lex_respell {source : String} {d : Dialect} {tokens : List Token} {texts : List String}
    (h : lex source d = .ok tokens) (hw : List.Forall₂ Token.Spelled tokens texts) :
    lex (String.join texts) d = .ok (tokens.zipWith Token.respell texts) := by
  obtain ⟨ts, loc, left, rfl, hread, hplaced⟩ := Lexer.reads_of_tokens (x := Lexer.ofText source d) rfl h
  have htexts := List.take_append_drop ts.length texts
  have hws := List.forall₂_take_append texts ts [Token.endAt loc] hw.flip
  have hend := List.forall₂_drop_append texts ts [Token.endAt loc] hw.flip
  generalize texts.take ts.length = ws, texts.drop ts.length = ends at htexts hws hend
  obtain rfl : ends = [""] := by
    cases hend with
    | cons he hnil =>
      cases hnil
      exact congrArg (· :: []) he
  subst htexts
  have hjoin : String.join (ws ++ [""]) = String.join ws := by simp
  have hzip : (ts ++ [Token.endAt loc]).zipWith Token.respell (ws ++ [""]) = ts.zipWith Token.respell ws ++ [Token.endAt loc] := by
    rw [List.zipWith_append hws.length_eq.symm]
    rfl
  rw [hjoin, hzip]
  have hspelled := hplaced.respell hw
  rw [hzip] at hspelled
  exact lex_of_reads (hread.respell hws.flip) hspelled

end GameScript
