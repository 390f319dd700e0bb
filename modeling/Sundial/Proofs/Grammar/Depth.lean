import Sundial.Proofs.Grammar.Recovery

/-!
# The bound on the depth suffices

Every reader hands a smaller bound on to the readers that it calls, and from one token to the next
there are fewer than eight calls. So eight for each token ahead are enough, with a few more for the
calls in front of the first one. `Suffices` says of one reader that it does not use up
its bound with that many tokens ahead, `SufficesAt` says so of all readers at one bound, and the
induction is on that bound. A text that is refused is never refused for its depth
(`read_ne_tooDeep`).
-/

set_option autoImplicit false

namespace Sundial

/-- None of the faults is that of a bound that is used up. -/
def InDepth (xs : List SyntaxError) : Prop := ∀ x ∈ xs, x.cause ≠ .tooDeep

theorem InDepth.snoc {xs : List SyntaxError} {x : SyntaxError} (h : InDepth xs)
    (hx : x.cause ≠ .tooDeep) : InDepth (xs ++ [x]) :=
  List.forall_mem_append.2 ⟨h, List.forall_mem_singleton.2 hx⟩

namespace TokenReader

variable {α β : Type} {m : Nat} {p : TokenReader α}

/-! ## Elementary readers -/

/-- With at most `m` tokens ahead the reader leaves at most as many and does not run out of its
bound. -/
def Suffices (m : Nat) (p : TokenReader α) : Prop :=
  ∀ s : Reading, s.ahead.length ≤ m → InDepth s.faults →
    (p s).2.ahead.length ≤ m ∧ InDepth (p s).2.faults ∧
      ∀ e, (p s).1 = .error e → e.cause ≠ .tooDeep

theorem suffices_pure (a : α) : Suffices m (pure a : TokenReader α) := by
  refine fun s hs hfaults => ⟨hs, hfaults, ?_⟩
  rintro _ ⟨⟩

theorem suffices_fail {cause : SyntaxFault} (h : cause ≠ .tooDeep) (pos : Position) :
    Suffices m (fail cause pos : TokenReader α) := by
  refine fun s hs hfaults => ⟨hs, hfaults, ?_⟩
  rintro _ ⟨⟩
  exact h

theorem Suffices.bind {f : α → TokenReader β} (hp : Suffices m p) (hf : ∀ a, Suffices m (f a)) :
    Suffices m (p >>= f) := by
  intro s hs hfaults
  obtain ⟨hs', hfaults', he⟩ := hp s hs hfaults
  rcases hps : p s with ⟨e | a, s'⟩ <;> rw [hps] at hs' hfaults' he
  · rw [bind_of_error hps]
    refine ⟨hs', hfaults', ?_⟩
    rintro _ ⟨⟩
    exact he e rfl
  · rw [bind_of_ok hps]
    exact hf a s' hs' hfaults'

theorem pos_of_next {s : Reading} (hs : s.ahead.length ≤ m) (h : s.next.kind ≠ .finish) :
    0 < m := by
  have hwords := congrArg List.length (Reading.words_of_next h)
  simp only [Reading.words, List.length_map, List.length_cons] at hwords
  omega

/-- A token ahead that is no end mark is one of the `m`. -/
theorem suffices_peek {f : Token → TokenReader β}
    (h : ∀ t, (t.kind ≠ .finish → 0 < m) → Suffices m (f t)) : Suffices m (peek >>= f) :=
  fun s hs hfaults => h s.next (pos_of_next hs) s hs hfaults

theorem suffices_peekSecond {f : TokenKind → TokenReader β} (h : ∀ k, Suffices m (f k)) :
    Suffices m (peekSecond >>= f) :=
  fun s hs hfaults => h s.secondKind s hs hfaults

/-- Behind a token that is passed there is one less. -/
theorem suffices_advance {f : Unit → TokenReader β} (h : Suffices (m - 1) (f ())) :
    Suffices m (advance >>= f) := by
  intro s hs hfaults
  have hpassed : s.passed.ahead.length ≤ m - 1 := by
    rw [Reading.passed, List.length_tail]
    omega
  obtain ⟨hleft, hrest⟩ := h s.passed hpassed hfaults
  exact ⟨Nat.le_trans hleft (Nat.sub_le m 1), hrest⟩

theorem suffices_ite {c : Prop} [Decidable c] {p q : TokenReader α} (hp : c → Suffices m p)
    (hq : ¬c → Suffices m q) : Suffices m (if c then p else q) := by
  split
  next hc => exact hp hc
  next hc => exact hq hc

theorem suffices_expect (what : Expectation) {f : Token → TokenReader β}
    (h : 0 < m → ∀ t, Suffices (m - 1) (f t)) : Suffices m (expect what >>= f) := by
  intro s hs hfaults
  by_cases hkind : s.next.kind = what.kind
  · have hpos : 0 < m := pos_of_next hs (by rw [hkind]; cases what <;> simp [Expectation.kind])
    have hexpect : expect what s = (.ok s.next, s.passed) := by rw [expect_apply, if_pos hkind]
    have hrest : Suffices m (advance >>= fun _ => f s.next) := suffices_advance (h hpos s.next)
    rw [bind_of_ok hexpect]
    exact hrest s hs hfaults
  · have hexpect : expect what s = (.error ⟨.expected what s.next, s.next.pos⟩, s) := by
      rw [expect_apply, if_neg hkind]
    rw [bind_of_error hexpect]
    refine ⟨hs, hfaults, ?_⟩
    rintro _ ⟨⟩
    simp

theorem suffices_lookUp (find : String → Option α) (t : Token) : Suffices m (lookUp find t) := by
  rw [lookUp]
  split
  · exact suffices_pure _
  · exact suffices_fail (by simp) _

theorem suffices_readNumber (t : Token) : Suffices m (readNumber t) := by
  rw [readNumber]
  split
  · exact suffices_pure _
  · exact suffices_fail (by simp) _

theorem suffices_readDuration (t : Token) (text : String) : Suffices m (readDuration t text) := by
  rw [readDuration]
  split
  · exact suffices_pure _
  · exact suffices_fail (by simp) _

theorem length_skipArgument (depth : Nat) (ts : List Token) :
    (skipArgument depth ts).length ≤ ts.length := by
  obtain ⟨skipped, -, hskipped, -⟩ := exists_skipped depth ts
  have hlength := congrArg List.length hskipped
  rw [List.length_append] at hlength
  omega

theorem Suffices.recover (hp : Suffices m p) : Suffices m (recover p) := by
  intro s hs hfaults
  obtain ⟨hs', hfaults', he⟩ := hp s hs hfaults
  simp only [TokenReader.recover]
  rcases hps : p s with ⟨e | a, s'⟩ <;> rw [hps] at hs' hfaults' he
  · refine ⟨Nat.le_trans (length_skipArgument _ _) hs', hfaults'.snoc (he e rfl), ?_⟩
    rintro _ ⟨⟩
  · refine ⟨hs', hfaults', ?_⟩
    rintro _ ⟨⟩

/-! ## Readers of formulas -/

theorem suffices_negative : Suffices m negative := by
  refine suffices_peek fun minus _ => suffices_advance (suffices_peek fun t _ => ?_)
  split
  · exact suffices_advance ((suffices_readNumber t).bind fun _ => suffices_pure _)
  · exact suffices_advance ((suffices_readDuration t _).bind fun _ => suffices_pure _)
  · exact suffices_fail (by simp) _

/-- The bound suffices for every reader with eight calls for each token ahead, and with those that
lead from the reader to the next token. -/
structure SufficesAt (n : Nat) : Prop where
  expression : ∀ m, 8 * m + 3 ≤ n → Suffices m (expression n)
  sums : ∀ m left, 8 * m + 1 ≤ n → Suffices m (sums n left)
  term : ∀ m, 8 * m + 2 ≤ n → Suffices m (term n)
  products : ∀ m left, 8 * m + 1 ≤ n → Suffices m (products n left)
  factor : ∀ m, 8 * m + 1 ≤ n → Suffices m (factor n)
  call : ∀ m t, 8 * m + 1 ≤ n → Suffices m (call n t)
  base : ∀ m t, 8 * m + 1 ≤ n → Suffices m (base n t)
  arguments : ∀ m opened owner, 8 * m + 5 ≤ n → Suffices m (arguments n opened owner)
  argumentList : ∀ m opened owner, 8 * m + 4 ≤ n → Suffices m (argumentList n opened owner)
  conditional : ∀ m t, 8 * m + 1 ≤ n → Suffices m (conditional n t)
  either : ∀ m, 8 * m + 4 ≤ n → Suffices m (eitherCondition n)
  eithers : ∀ m left, 8 * m + 1 ≤ n → Suffices m (eithers n left)
  both : ∀ m, 8 * m + 3 ≤ n → Suffices m (bothCondition n)
  boths : ∀ m left, 8 * m + 1 ≤ n → Suffices m (boths n left)
  comparison : ∀ m, 8 * m + 2 ≤ n → Suffices m (comparison n)

section SufficesAt

variable {n : Nat}

/-- No reader starts at a bound of zero. -/
theorem sufficesAt_zero : SufficesAt 0 := by
  constructor <;> intros <;> omega

theorem SufficesAt.factor_succ (h : SufficesAt n) (hn : 8 * m + 1 ≤ n + 1) :
    Suffices m (TokenReader.factor (n + 1)) := by
  refine suffices_peek fun t hpos => ?_
  -- The cases are the kinds of the first token; the readers that follow it have one token less.
  split
  case h_1 => exact suffices_advance ((suffices_readNumber t).bind fun _ => suffices_pure _)
  case h_2 => exact suffices_advance ((suffices_readDuration t _).bind fun _ => suffices_pure _)
  case h_3 | h_7 => exact suffices_advance (suffices_pure _)
  case h_4 => exact suffices_negative
  case h_5 | h_8 => exact suffices_advance ((suffices_lookUp _ t).bind fun _ => suffices_pure _)
  case h_6 hkind =>
    have hm : 0 < m := hpos (by simp [hkind])
    exact suffices_advance (h.call _ t (by omega))
  case h_9 hkind =>
    have hm : 0 < m := hpos (by simp [hkind])
    exact suffices_advance (h.base _ t (by omega))
  case h_10 =>
    refine suffices_advance ((suffices_lookUp _ t).bind fun v => ?_)
    refine suffices_peek fun u _ => suffices_peekSecond fun k => ?_
    refine suffices_ite (fun _ => ?_) fun _ => ?_
    · exact suffices_advance (suffices_advance (suffices_pure _))
    · exact suffices_pure _
  case h_11 hkind =>
    have hm : 0 < m := hpos (by simp [hkind])
    exact suffices_advance (h.conditional _ t (by omega))
  case h_12 hkind =>
    have hm : 0 < m := hpos (by simp [hkind])
    exact suffices_advance ((h.expression _ (by omega)).bind fun _ =>
      suffices_expect _ fun _ _ => suffices_pure _)
  case h_13 | h_14 | h_15 => exact suffices_fail (by simp) _

theorem SufficesAt.base_succ (h : SufficesAt n) (t : Token) (hn : 8 * m + 1 ≤ n + 1) :
    Suffices m (TokenReader.base (n + 1) t) := by
  rw [TokenReader.base]
  refine suffices_ite (fun _ => ?_) fun _ => (suffices_lookUp _ t).bind fun _ => suffices_pure _
  refine suffices_peek fun opening hpos => suffices_ite (fun hopen => ?_) fun _ => suffices_pure _
  have hm : 0 < m := hpos (by simp [hopen])
  exact suffices_advance ((h.arguments _ _ _ (by omega)).bind fun _ => suffices_pure _)

theorem SufficesAt.argumentList_succ (h : SufficesAt n) (opened : Position) (owner : String)
    (hn : 8 * m + 4 ≤ n + 1) : Suffices m (TokenReader.argumentList (n + 1) opened owner) := by
  refine (h.expression m (by omega)).recover.bind fun a => suffices_peek fun t hpos => ?_
  split
  next hcomma =>
    have hm : 0 < m := hpos (by simp [hcomma])
    exact suffices_advance ((h.argumentList _ _ _ (by omega)).bind fun _ => suffices_pure _)
  · exact suffices_advance (suffices_pure _)
  · exact suffices_fail (by simp) _
  · exact suffices_fail (by simp) _

theorem SufficesAt.elsePart (h : SufficesAt n) (t : Token) (c b : Formula) (hn : 8 * m ≤ n) :
    Suffices m (elsePart n t c b) := by
  refine suffices_peek fun u hpos => suffices_ite (fun helse => ?_) fun _ => suffices_pure _
  have hm : 0 < m := hpos (by simp [helse])
  refine suffices_advance (suffices_peek fun next hnext => suffices_ite (fun hif => ?_) fun _ => ?_)
  · exact suffices_advance ((h.conditional _ _ (by omega)).bind fun _ => suffices_pure _)
  · exact suffices_expect _ fun _ _ => (h.expression _ (by omega)).bind fun _ =>
      suffices_expect _ fun _ _ => suffices_pure _

theorem SufficesAt.conditional_succ (h : SufficesAt n) (t : Token) (hn : 8 * m + 1 ≤ n + 1) :
    Suffices m (TokenReader.conditional (n + 1) t) := by
  rw [TokenReader.conditional_succ]
  refine suffices_expect _ fun hm _ => (h.either _ (by omega)).bind fun c => ?_
  refine suffices_expect _ fun _ _ => suffices_expect _ fun _ _ => ?_
  exact (h.expression _ (by omega)).bind fun b => suffices_expect _ fun _ _ =>
    h.elsePart t c b (by omega)

/-- A reader that is called in front of the first token may call one level less far; behind a token
there are eight calls more than there were for it. -/
theorem SufficesAt.succ (h : SufficesAt n) : SufficesAt (n + 1) where
  expression m hn := (h.term m (by omega)).bind fun left => h.sums m left (by omega)
  sums m left hn := by
    refine suffices_peek fun t hpos => ?_
    split
    · exact suffices_pure _
    next op hop =>
      have hm : 0 < m := hpos (by rw [(sumOperator?_eq_some.1 hop).1]; cases op <;> decide)
      exact suffices_advance ((h.term _ (by omega)).bind fun _ => h.sums _ _ (by omega))
  term m hn := (h.factor m (by omega)).bind fun left => h.products m left (by omega)
  products m left hn := by
    refine suffices_peek fun t hpos => ?_
    split
    · exact suffices_pure _
    next op hop =>
      have hm : 0 < m := hpos (by rw [(productOperator?_eq_some.1 hop).1]; cases op <;> decide)
      exact suffices_advance ((h.factor _ (by omega)).bind fun _ => h.products _ _ (by omega))
  factor _ := h.factor_succ
  call m t hn := (suffices_lookUp _ t).bind fun _ => suffices_expect _ fun hm _ =>
    (h.arguments _ _ _ (by omega)).bind fun _ => suffices_pure _
  base _ := h.base_succ
  arguments m opened owner hn := suffices_peek fun _ _ => suffices_ite
    (fun _ => suffices_advance (suffices_pure _))
    fun _ => h.argumentList m opened owner (by omega)
  argumentList _ := h.argumentList_succ
  conditional _ := h.conditional_succ
  either m hn := (h.both m (by omega)).bind fun left => h.eithers m left (by omega)
  eithers m left hn := by
    refine suffices_peek fun t hpos => suffices_ite (fun heither => ?_) fun _ => suffices_pure _
    have hm : 0 < m := hpos (by simp [heither])
    exact suffices_advance ((h.both _ (by omega)).bind fun _ => h.eithers _ _ (by omega))
  both m hn := (h.comparison m (by omega)).bind fun left => h.boths m left (by omega)
  boths m left hn := by
    refine suffices_peek fun t hpos => suffices_ite (fun hboth => ?_) fun _ => suffices_pure _
    have hm : 0 < m := hpos (by simp [hboth])
    exact suffices_advance ((h.comparison _ (by omega)).bind fun _ => h.boths _ _ (by omega))
  comparison m hn := by
    refine (h.factor m (by omega)).bind fun left => suffices_peek fun t hpos => ?_
    split
    · exact suffices_pure _
    next relation hrelation =>
      have hm : 0 < m := hpos (by
        rw [(comparison?_eq_some.1 hrelation).1]
        cases relation <;> decide)
      exact suffices_advance ((h.factor _ (by omega)).bind fun _ => suffices_pure _)

theorem sufficesAt (n : Nat) : SufficesAt n := by
  induction n with
  | zero => exact sufficesAt_zero
  | succ n ih => exact ih.succ

end SufficesAt

/-- The bound that a whole formula gets suffices. -/
theorem suffices_formula (m : Nat) : Suffices m formula := by
  intro s hs hfaults
  rw [formula]
  split
  · exact suffices_fail (by simp) _ s hs hfaults
  · have hbound : 8 * s.ahead.length + 3 ≤ depthBound s.ahead.length := by
      rw [depthBound]
      omega
    have hrun := (sufficesAt _).expression _ hbound s (Nat.le_refl _) hfaults
    split
    next f s' heq =>
      rw [heq] at hrun
      obtain ⟨hs', hfaults', -⟩ := hrun
      have hm : s'.ahead.length ≤ m := Nat.le_trans hs' hs
      split
      · refine ⟨hm, hfaults', ?_⟩
        rintro _ ⟨⟩
      · refine ⟨hm, hfaults'.snoc (by simp), ?_⟩
        rintro _ ⟨⟩
    next => exact ⟨Nat.le_trans hrun.1 hs, hrun.2⟩

end TokenReader

namespace Formula

/-! ## Lists of tokens -/

/-- Tokens that are refused as a formula are not refused for their depth. -/
theorem readTokens_ne_tooDeep {ts : List Token} {es : List SyntaxError}
    (h : readTokens ts = .error es) : InDepth es := by
  have hnone : InDepth [] := fun _ hx => absurd hx List.not_mem_nil
  obtain ⟨-, hfaults, he⟩ :=
    TokenReader.suffices_formula _ (start ts) (Nat.le_refl _) hnone
  have hstart : start ts = ⟨(cutAtFinish ts).1, (cutAtFinish ts).2, []⟩ := rfl
  rw [readTokens] at h
  dsimp only at h
  rw [← hstart] at h
  rcases hrun : TokenReader.formula (start ts) with ⟨e | f, s⟩ <;> rw [hrun] at h hfaults he
  · obtain rfl := Except.error.inj h
    exact hfaults.snoc (he e rfl)
  · dsimp only at h
    split at h
    · cases h
    · obtain rfl := Except.error.inj h
      exact hfaults

theorem illegalFault_ne_tooDeep (literal : String) : illegalFault literal ≠ .tooDeep := by
  rw [illegalFault]
  repeat' split
  all_goals simp

/-- A text that is refused as a formula is not refused for its depth. -/
theorem read_ne_tooDeep {text : String} {es : List SyntaxError} (h : read text = .error es) :
    InDepth es := by
  rw [read] at h
  split at h
  next ts hts => exact readTokens_ne_tooDeep h
  next e he =>
    obtain rfl := Except.error.inj h
    rw [tokenize] at he
    split at he
    · obtain rfl := Except.error.inj he
      exact List.forall_mem_singleton.2 (illegalFault_ne_tooDeep _)
    · cases he

end Formula

end Sundial
