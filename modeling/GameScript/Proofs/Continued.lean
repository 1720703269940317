import GameScript.Proofs.Beside
import GameScript.Proofs.Packing

namespace GameScript

theorem significant_trivia {t : Token} (ht : t.isTrivia = true) (apart : Bool) (ts : List Token) :
    significant apart (t :: ts) = significant true ts := by
  rw [significant, if_pos ht]

theorem significant_token {t : Token} (ht : t.isTrivia = false) (apart : Bool) (ts : List Token) :
    significant apart (t :: ts) = (apart, t) :: significant false ts := by
  rw [significant, if_neg (by simp [ht])]

namespace Scan

variable {d : Dialect} {afterValue : Bool} {c : Char} {cs : List Char} {kind : TokenKind}

theorem head_before_blank (h : head d afterValue c cs = .token kind (c :: cs) []) (hw : kind ≠ .whitespace)
    (hc : kind ≠ .comment) (more : List Char) :
    head d afterValue c (cs ++ ' ' :: more) = .token kind (c :: cs) (' ' :: more) := by
  have hend : head d afterValue c (cs ++ []) = .token kind (c :: cs) [] := by rwa [List.append_nil]
  refine head_behind hend ?_
  by_cases hk : kind = .symbol
  · subst hk
    rw [head_symbol_text h]
    refine Harmless.stops ?_
    rintro _ ⟨⟩
    exact harmless_space
  · have hclear : Clear d (' ' :: more) := clear_blank
    have hstops := hclear.stops afterValue (t := ⟨kind, String.ofList (c :: cs), .zero⟩) hk
      (by simp [Token.isTrivia, hw, hc]) (by simpa [Token.isEof] using head_not_eof h)
    rwa [String.toList_ofList] at hstops

theorem head_before_rest {rest : List Char} (h : head d afterValue c (cs ++ rest) = .token kind (c :: cs) rest)
    (hr : rest ≠ []) (more : List Char) :
    head d afterValue c (cs ++ (rest ++ ' ' :: more)) = .token kind (c :: cs) (rest ++ ' ' :: more) := by
  obtain ⟨x, xs, rfl⟩ := List.exists_cons_of_ne_nil hr
  by_cases hk : kind = .comment
  · subst hk
    exact comment_behind h fun y hy => ⟨x, rfl, fun hx => by rw [← Option.some.inj hy, hx]⟩
  · refine head_follows h hk fun y hy => .inr ⟨hy, fun _ z hz hd => ?_⟩
    cases xs with
    | nil =>
      obtain rfl : ' ' = z := Option.some.inj hz
      simp [Char.isDigit] at hd
    | cons => exact hz

theorem whitespace_found {text rest : List Char} (h : head d afterValue c cs = .token .whitespace text rest) :
    isBlank c = true ∧ text = c :: cs.takeWhile isBlank := by
  cases head_found h with
  | blank hc => exact ⟨hc, rfl⟩

theorem comment_found {text rest : List Char} (h : head d afterValue c cs = .token .comment text rest) :
    c = '/' ∧ (cs.head? = some '/' ∧ text = c :: cs.takeWhile (fun x => decide (x ≠ '\n')) ∨
      cs.head? = some '*' ∧ blockComment [c, '*'] cs.tail = .token .comment text rest) := by
  cases head_found h with
  | comment hc hs =>
    refine ⟨hc, hs.imp_left fun hs => ⟨hs.1, ?_⟩⟩
    obtain ⟨-, htext, -⟩ := Scan.token.inj hs.2
    exact htext.symm

theorem head_blanks (h : head d afterValue c cs = .token .whitespace (c :: cs) []) {more : List Char}
    (hmore : ∀ x ∈ more.head?, isBlank x = false) :
    head d afterValue c (cs ++ ' ' :: more) = .token .whitespace (c :: cs ++ [' ']) more := by
  obtain ⟨hc, htext⟩ := whitespace_found h
  have hblank : ∀ x ∈ cs ++ [' '], isBlank x = true := by
    refine List.forall_mem_append.2 ⟨fun x hx => ?_, by simp [isBlank]⟩
    rw [(List.cons.inj htext).2] at hx
    exact List.mem_takeWhile_imp hx
  obtain ⟨htake, hdrop⟩ := takeWhile_append hblank hmore
  rw [List.append_assoc, List.singleton_append] at htake hdrop
  rw [head_blank hc, htake, hdrop, List.cons_append]

theorem head_comments (h : head d afterValue c cs = .token .comment (c :: cs) []) :
    (∀ more, head d afterValue c (cs ++ ' ' :: more) = .token .comment (c :: cs) (' ' :: more)) ∨
      ∀ more, '\n' ∉ more → head d afterValue c (cs ++ ' ' :: more) = .token .comment (c :: cs ++ ' ' :: more) [] := by
  obtain ⟨rfl, ⟨hx, htext⟩ | ⟨hx, hs⟩⟩ := comment_found h <;> obtain ⟨xs, rfl⟩ := List.head?_eq_some_iff.1 hx
  · refine .inr fun more hmore => ?_
    have hline : ∀ x ∈ ('/' :: xs) ++ ' ' :: more, decide (x ≠ '\n') = true := by
      refine List.forall_mem_append.2 ⟨fun x hx => ?_, List.forall_mem_cons.2 ⟨by decide, fun x hx => ?_⟩⟩
      · rw [(List.cons.inj htext).2] at hx
        exact List.mem_takeWhile_imp (p := fun x => decide (x ≠ '\n')) hx
      · exact decide_eq_true fun he => hmore (he ▸ hx)
    obtain ⟨htake, hdrop⟩ := takeWhile_append hline (show ∀ x ∈ ([] : List Char).head?, decide (x ≠ '\n') = false by simp)
    rw [List.append_nil] at htake hdrop
    have hstart : head d afterValue '/' ('/' :: xs ++ ' ' :: more) = word .comment (· ≠ '\n') '/' ('/' :: xs ++ ' ' :: more) := by
      simp [head, isBlank]
    rw [hstart, word, htake, hdrop]
    rfl
  · have hend : blockComment ['/', '*'] (xs ++ []) = .token .comment ('/' :: '*' :: xs) [] := by rwa [List.append_nil]
    exact .inl fun more => block_behind hend _

end Scan

namespace Reads

open Scan

def Followed (d : Dialect) (afterValue left : Bool) (cs : List Char) (ts : List Token) (more rest : List Char) : Prop :=
  ∃ ts', Reads d afterValue (cs ++ ' ' :: more) ts' left rest ∧
    ∀ apart us, significant apart (ts' ++ us) = significant apart ts ++ significant true us

variable {d : Dialect} {afterValue left : Bool} {c : Char} {cs rest more more' : List Char} {t : Token} {ts : List Token}

theorem Followed.last (ht : t.isTrivia = true) {v : Token} (hv : v.isTrivia = true)
    (h : Scan.head d afterValue c (cs ++ ' ' :: more) = .token v.kind v.text.toList rest) :
    Followed d afterValue afterValue (c :: cs) [t] more rest := by
  refine ⟨[v], .token h ?_, fun apart us => ?_⟩
  · rw [Token.leaves, if_pos hv]
    exact .done
  · rw [List.singleton_append, significant_trivia hv, significant_trivia ht]
    rfl

theorem Followed.cons (hs : Scan.head d afterValue c (cs ++ (more' ++ ' ' :: more)) = .token t.kind (c :: cs) (more' ++ ' ' :: more))
    (htext : t.text.toList = c :: cs) (h : Followed d (t.leaves d.mode afterValue) left more' ts more rest) :
    Followed d afterValue left (c :: cs ++ more') (t :: ts) more rest := by
  obtain ⟨ts', hr, hsig⟩ := h
  refine ⟨t :: ts', ?_, fun apart us => ?_⟩
  · rw [List.append_assoc, List.cons_append]
    exact .token (htext ▸ hs) hr
  · cases ht : t.isTrivia with
    | true => simpa only [List.cons_append, significant_trivia ht] using hsig true us
    | false => simpa only [List.cons_append, significant_token ht, List.cons.injEq, true_and] using hsig false us

theorem left_eq (h : Reads d afterValue cs ts left rest) :
    left = ((ts.filter fun t => !t.isTrivia).getLast?.map fun t => t.endsValue d.mode).getD afterValue := by
  induction h with
  | done => rfl
  | @token afterValue left _ _ _ _ t ts _ _ ih =>
    rw [ih]
    cases ht : t.isTrivia with
    | true => simp [Token.leaves, ht]
    | false =>
      rw [List.filter_cons_of_pos (by simp [ht]), List.getLast?_cons, Option.map_some, Option.getD_some, Token.leaves, ht]
      cases (ts.filter fun t => !t.isTrivia).getLast? <;> rfl

theorem followed_done (hmore : ∀ x ∈ more.head?, isBlank x = false) : Followed d afterValue afterValue [] [] more more := by
  obtain ⟨htake, hdrop⟩ := takeWhile_append (show ∀ c ∈ ([] : List Char), isBlank c = true by simp) hmore
  rw [List.nil_append] at htake hdrop
  refine ⟨[⟨.whitespace, String.ofList [' '], .zero⟩], .token ?_ .done, fun apart us => significant_trivia rfl apart us⟩
  rw [head_blank (by decide), htake, hdrop, String.toList_ofList]

theorem followed (h : Reads d afterValue cs ts left []) :
    (∀ more, (∀ x ∈ more.head?, isBlank x = false) → Followed d afterValue left cs ts more more) ∨
      ∀ more, '\n' ∉ more → Followed d afterValue left cs ts more [] := by
  generalize hend : ([] : List Char) = end' at h
  induction h with
  | done =>
    subst hend
    exact .inl fun more => followed_done
  | @token afterValue left c cs rest _ t ts hs hr ih =>
    subst hend
    obtain ⟨happend, hne⟩ := head_token hs
    obtain ⟨c', text, htext⟩ := List.exists_cons_of_ne_nil hne
    rw [htext, List.cons_append] at happend
    rw [htext] at hs
    obtain ⟨rfl, rfl⟩ := List.cons.inj happend
    rw [← List.cons_append]
    -- The token is found again in front of more text, unless it is the last one and goes on with it.
    by_cases hrest : rest ≠ []
    · exact (ih rfl).imp (fun h more hmore => .cons (head_before_rest hs hrest more) htext (h more hmore))
        fun h more hmore => .cons (head_before_rest hs hrest more) htext (h more hmore)
    obtain rfl := not_not.1 hrest
    cases hr
    rw [List.append_nil] at hs ⊢
    have hcons (more : List Char) (hhead : Scan.head d afterValue c' (text ++ ' ' :: more) = .token t.kind (c' :: text) (' ' :: more))
        (hmore : ∀ x ∈ more.head?, isBlank x = false) :
        Followed d afterValue (t.leaves d.mode afterValue) (c' :: text) [t] more more :=
      List.append_nil (c' :: text) ▸ .cons hhead htext (followed_done hmore)
    have htrivia (ht : t.isTrivia = true) : t.leaves d.mode afterValue = afterValue := if_pos ht
    by_cases hw : t.kind = .whitespace
    · have ht : t.isTrivia = true := by simp [Token.isTrivia, hw]
      rw [htrivia ht]
      refine .inl fun more hmore => .last ht (v := ⟨.whitespace, String.ofList (c' :: text ++ [' ']), .zero⟩) rfl ?_
      rw [String.toList_ofList]
      exact head_blanks (hw ▸ hs) hmore
    by_cases hc : t.kind = .comment
    · have ht : t.isTrivia = true := by simp [Token.isTrivia, hc]
      refine (head_comments (hc ▸ hs)).imp (fun h more hmore => hcons more (hc ▸ h more) hmore) fun h more hmore => ?_
      rw [htrivia ht]
      refine .last ht (v := ⟨.comment, String.ofList (c' :: text ++ ' ' :: more), .zero⟩) rfl ?_
      rw [String.toList_ofList]
      exact h more hmore
    · exact .inl fun more hmore => hcons more (head_before_blank hs hw hc more) hmore

end Reads

end GameScript
