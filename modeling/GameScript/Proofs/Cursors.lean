import GameScript.Proofs.Frame

/-!
A stream of tokens under its operations, in any order. Its indices keep their order and its tokens stay what they are,
so that reading never loses a token or invents one, as long as no sum of an index and a count wraps around.
-/

namespace GameScript

inductive StreamOp
  | read
  | readAhead
  | defer
  | discard (n : Nat)
  | symbols (allowed : List Char) (limit : Nat)
  | peekAt (n : Nat)
  | peekSignificant
  | unread
  | mark
  | reset (mark : Nat)
deriving DecidableEq, Repr

namespace StreamOp

def isDiscard : StreamOp → Bool
  | discard _ => true
  | _ => false

/-- The index that the operation computes from a count is a word. -/
def Fits (s : TokenStream) : StreamOp → Prop
  | discard n | peekAt n => s.cursor + n < TokenStream.wordSize
  | _ => True

instance (s : TokenStream) (op : StreamOp) : Decidable (op.Fits s) := by
  cases op <;> unfold Fits <;> infer_instance

end StreamOp

namespace TokenStream

def apply (s : TokenStream) : StreamOp → TokenStream
  | .read => s.read.2
  | .readAhead => s.readAhead.2
  | .defer => s.defer
  | .discard n => s.discard n
  | .symbols allowed limit => (s.symbols allowed limit).2
  | .peekAt _ | .peekSignificant | .mark => s
  | .unread => s.unread
  | .reset mark => s.reset mark

def AllFit (s : TokenStream) : List StreamOp → Prop
  | [] => True
  | op :: ops => op.Fits s ∧ (s.apply op).AllFit ops

instance decidableAllFit (s : TokenStream) (ops : List StreamOp) : Decidable (s.AllFit ops) :=
  match ops with
  | [] => .isTrue trivial
  | op :: ops => @instDecidableAnd _ _ _ (decidableAllFit (s.apply op) ops)

/-! Where sums are checked, an operation has no outcome if its index is no word. -/

def delivered (s : TokenStream) : List StreamOp → List Token
  | [] => []
  | op :: ops => (if op = .read then [s.read.1] else []) ++ (s.apply op).delivered ops

variable {s s' : TokenStream}

theorem size_of_tokens (h : s'.tokens = s.tokens) : s'.size = s.size := by
  rw [size, h, size]

theorem tokenAt_of_tokens (h : s'.tokens = s.tokens) (i : Nat) : s'.tokenAt i = s.tokenAt i := by
  simp only [tokenAt, h]

structure Ordered (s : TokenStream) : Prop where
  cursor : s.cursor ≤ s.ahead
  ahead : s.ahead ≤ s.size
  last : ∀ i ∈ s.last, i ≤ s.cursor

theorem Ordered.closed (ho : s'.Ordered) (ht : s'.tokens = s.tokens) (hc : s.Closed) : s'.Closed := by
  have hcursor := Nat.le_trans ho.cursor ho.ahead
  refine ⟨hcursor, ?_, fun i hi => Nat.le_trans (ho.last i hi) hcursor⟩
  rw [size_of_tokens ht, tokenAt_of_tokens ht]
  exact hc.eof

theorem Ordered.apply (ho : s.Ordered) (hc : s.Closed) {op : StreamOp} (hop : op.Fits s) : (s.apply op).Ordered := by
  obtain ⟨hcursor, hahead, hlast⟩ := ho
  cases op with
  | read =>
    constructor
    · exact Nat.le_max_right _ _
    · simp only [TokenStream.apply, TokenStream.read, size] at *
      omega
    · intro i hi
      obtain rfl : s.cursor = i := Option.some.inj hi
      simp only [TokenStream.apply, TokenStream.read, size] at *
      omega
  | readAhead =>
    refine ⟨?_, ?_, hlast⟩ <;> simp only [TokenStream.apply, TokenStream.readAhead, size] at * <;> omega
  | defer =>
    simp only [TokenStream.apply, TokenStream.defer]
    split
    · next i hi => exact ⟨Nat.le_trans (hlast i hi) hcursor, hahead, by simp⟩
    · exact ⟨hcursor, hahead, hlast⟩
  | discard n =>
    rw [TokenStream.apply, discard_eq_commit hop]
    refine ⟨Nat.min_le_right _ _, hahead, ?_⟩
    intro i hi
    have hle := hlast i hi
    simp only [TokenStream.commit]
    omega
  | symbols allowed limit =>
    have hle := hc.symbolsFrom_le allowed hc.cursor limit
    refine ⟨?_, ?_, hlast⟩ <;> simp only [TokenStream.apply, TokenStream.symbols, size] at * <;> omega
  | peekAt | peekSignificant | mark => exact ⟨hcursor, hahead, hlast⟩
  | unread =>
    refine ⟨?_, hahead, by simp [TokenStream.apply, TokenStream.unread]⟩
    simp only [TokenStream.apply, TokenStream.unread]
    omega
  | reset mark => exact ⟨Nat.le_refl _, Nat.min_le_right _ _, by simp [TokenStream.apply, TokenStream.reset]⟩

/-- The streams deliver the same, whatever lookahead was read. -/
structure Abides (s s' : TokenStream) : Prop where
  tokens : s'.tokens = s.tokens
  cursor : s'.cursor = s.cursor
  last : s'.last = s.last

theorem Abides.read (h : s.Abides s') : s'.read.1 = s.read.1 := by
  simp only [TokenStream.read, h.cursor, tokenAt_of_tokens h.tokens]

theorem Abides.trans {s'' : TokenStream} (h : s.Abides s') (h' : s'.Abides s'') : s.Abides s'' :=
  ⟨h'.tokens.trans h.tokens, h'.cursor.trans h.cursor, h'.last.trans h.last⟩

theorem Abides.apply (h : s.Abides s') {op : StreamOp} (hop : op.isDiscard = false) :
    (s.apply op).Abides (s'.apply op) := by
  have hsize := size_of_tokens h.tokens
  obtain ⟨ht, hc, hl⟩ := h
  cases op with
  | discard => cases hop
  | read => exact ⟨ht, by simp [TokenStream.apply, TokenStream.read, hc, hsize],
      by simp [TokenStream.apply, TokenStream.read, hc]⟩
  | defer =>
    simp only [TokenStream.apply, TokenStream.defer, hl]
    split
    · exact ⟨ht, rfl, rfl⟩
    · exact ⟨ht, hc, hl⟩
  | unread => exact ⟨ht, by simp [TokenStream.apply, TokenStream.unread, hc], rfl⟩
  | reset => exact ⟨ht, by simp [TokenStream.apply, TokenStream.reset, hsize], rfl⟩
  | _ => exact ⟨ht, hc, hl⟩

theorem Abides.delivered (h : s.Abides s') {ops : List StreamOp} (hops : ∀ op ∈ ops, op.isDiscard = false) :
    s'.delivered ops = s.delivered ops := by
  induction ops generalizing s s' with
  | nil => rfl
  | cons op ops ih =>
    obtain ⟨hop, hops⟩ := List.forall_mem_cons.1 hops
    rw [TokenStream.delivered, TokenStream.delivered, ih (h.apply hop) hops, h.read]

theorem symbolsFrom_eq (hc : s.Closed) (allowed : List Char) (i limit : Nat) :
    (s.symbolsFrom allowed i limit).map some =
      (((s.tokens.toList.drop i).map Token.symbol?).takeWhile fun c => c.any allowed.contains).take limit := by
  induction limit generalizing i with
  | zero => simp [symbolsFrom]
  | succ limit ih =>
    rw [symbolsFrom]
    by_cases hlt : i < s.size
    · rw [drop_eq_cons hlt]
      cases hsymbol : (s.tokenAt i).symbol? with
      | none => simp [hsymbol]
      | some c =>
        by_cases hmem : c ∈ allowed
        · simp [hsymbol, hmem, ih (i + 1)]
        · simp [hsymbol, hmem]
    · have hsymbol : (s.tokenAt i).symbol? = none := by
        cases h : (s.tokenAt i).symbol? with
        | none => rfl
        | some c => exact absurd (hc.lt_of_symbol h) hlt
      have hdrop : s.tokens.toList.drop i = [] := List.drop_eq_nil_of_le (by simpa [size] using hlt)
      simp [hsymbol, hdrop]

end TokenStream

end GameScript
