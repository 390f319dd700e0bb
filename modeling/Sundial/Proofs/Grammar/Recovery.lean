import Sundial.Proofs.Grammar.Recognition

/-!
# Recovery from faults in arguments

The reader of arguments records a fault in one of them and skips to the comma or parenthesis that
ends the argument, counting parentheses from the token that is at fault. A reader that stops has
taken tokens of the argument only, since it never passes a comma outside parentheses or closes a
parenthesis that it has not opened: `Stays` says so of one reader, `StaysAt` of all readers at one
bound on the depth, and the induction is on that bound. But the parentheses that it has opened are
not given back. So the skipping comes to the end of the argument exactly if the fault is at the
level of the argument; from a fault inside parentheses it comes to a token inside them
(`argumentList_resumes`).
-/

set_option autoImplicit false

namespace Sundial

/-! ## Levels of parentheses -/

/-- The number of open parentheses behind a token, of `depth` in front of it; none if the token is a
comma outside parentheses or closes one that is not open. -/
def depthStep : Nat → TokenKind → Option Nat
  | 0, .comma | 0, .rightParen => none
  | depth + 1, .rightParen => some depth
  | depth, .leftParen => some (depth + 1)
  | depth, _ => some depth

/-- The number of open parentheses behind all the tokens. -/
def depthAfter (depth : Nat) (ts : List Token) : Option Nat :=
  ts.foldlM (fun d t => depthStep d t.kind) depth

/-- The token is a comma or closes a parenthesis, and so ends the argument at whose level it is. -/
def Token.EndsArgument (t : Token) : Prop := t.kind = .comma ∨ t.kind = .rightParen

section Depth

variable {d e j : Nat} {k : TokenKind} {t : Token} {ts us : List Token}

theorem depthStep_eq_none : depthStep d k = none ↔ d = 0 ∧ (k = .comma ∨ k = .rightParen) := by
  cases k <;> cases d <;> simp [depthStep]

/-- An operator between two operands is no parenthesis and no comma. -/
theorem depthStep_operator (op : Operator) : depthStep d op.kind = some d := by
  cases op <;> cases d <;> rfl

theorem depthStep_relation (relation : Relation) : depthStep d relation.kind = some d := by
  cases relation <;> cases d <;> rfl

theorem depthStep_succ (h : depthStep d k = some e) : depthStep (d + 1) k = some (e + 1) := by
  cases k <;> cases d <;> cases h <;> rfl

theorem depthAfter_cons :
    depthAfter d (t :: ts) = (depthStep d t.kind).bind fun d' => depthAfter d' ts :=
  List.foldlM_cons ..

theorem depthAfter_append :
    depthAfter d (ts ++ us) = (depthAfter d ts).bind fun d' => depthAfter d' us :=
  List.foldlM_append ..

theorem depthAfter_succ (h : depthAfter d ts = some e) : depthAfter (d + 1) ts = some (e + 1) := by
  induction ts generalizing d with
  | nil =>
    obtain rfl := Option.some.inj h
    rfl
  | cons t ts ih =>
    rw [depthAfter_cons] at h ⊢
    obtain ⟨d', hstep, hrest⟩ := Option.bind_eq_some_iff.1 h
    rw [depthStep_succ hstep]
    exact ih hrest

/-- Deeper inside, the tokens have the same effect. -/
theorem depthAfter_add (h : depthAfter d ts = some e) (j : Nat) :
    depthAfter (d + j) ts = some (e + j) := by
  induction j with
  | zero => exact h
  | succ j ih => exact depthAfter_succ ih

/-- What closes open parentheses closes too many where none are open. -/
theorem depthAfter_zero_eq_none (h : depthAfter d ts = some 0) (hd : 0 < d) :
    depthAfter 0 ts = none := by
  cases hzero : depthAfter 0 ts with
  | none => rfl
  | some k =>
    have hadd := depthAfter_add hzero d
    rw [Nat.zero_add] at hadd
    have hsame : 0 = k + d := Option.some.inj (h.symm.trans hadd)
    omega

/-- Tokens without a depth behind them have a first one that ends the argument. -/
theorem depthAfter_eq_none : depthAfter d ts = none ↔
    ∃ inner t outer, ts = inner ++ t :: outer ∧ t.EndsArgument ∧ depthAfter d inner = some 0 := by
  constructor
  · intro h
    induction ts generalizing d with
    | nil => cases h
    | cons t ts ih =>
      rw [depthAfter_cons, Option.bind_eq_none_iff] at h
      cases hstep : depthStep d t.kind with
      | none =>
        obtain ⟨rfl, hends⟩ := depthStep_eq_none.1 hstep
        exact ⟨[], t, ts, rfl, hends, rfl⟩
      | some d' =>
        obtain ⟨inner, u, outer, rfl, hends, hinner⟩ := ih (h d' hstep)
        refine ⟨t :: inner, u, outer, rfl, hends, ?_⟩
        rw [depthAfter_cons, hstep]
        exact hinner
  · rintro ⟨inner, t, outer, rfl, hends, hinner⟩
    have hstep : depthStep 0 t.kind = none := depthStep_eq_none.2 ⟨rfl, hends⟩
    rw [depthAfter_append, hinner, Option.bind_some, depthAfter_cons, hstep]
    rfl

end Depth

theorem Reading.next_kind_passed (s : Reading) : s.passed.next.kind = s.secondKind := by
  rw [next_kind_eq, secondKind_eq]

namespace TokenReader

variable {α β : Type} {d d' e : Nat} {t : Token} {ts us : List Token}

/-! ## What the skipping passes -/

theorem skipArgument_cons : skipArgument d (t :: ts) = match depthStep d t.kind with
    | some d' => skipArgument d' ts
    | none => t :: ts := by
  obtain ⟨k, literal, pos⟩ := t
  cases k <;> cases d <;> rfl

/-- The skipping stops at the first token that ends the argument. -/
theorem skipArgument_append (h : depthAfter d ts = some 0) (ht : t.EndsArgument) :
    skipArgument d (ts ++ t :: us) = t :: us := by
  induction ts generalizing d with
  | nil =>
    obtain rfl := Option.some.inj h
    have hstep : depthStep 0 t.kind = none := depthStep_eq_none.2 ⟨rfl, ht⟩
    rw [List.nil_append, skipArgument_cons, hstep]
  | cons u ts ih =>
    rw [depthAfter_cons] at h
    obtain ⟨d', hstep, hrest⟩ := Option.bind_eq_some_iff.1 h
    rw [List.cons_append, skipArgument_cons, hstep]
    exact ih hrest

/-- Tokens are skipped only as far as the depth behind them is known. -/
theorem exists_skipped (d : Nat) (ts : List Token) :
    ∃ skipped e, ts = skipped ++ skipArgument d ts ∧ depthAfter d skipped = some e := by
  induction ts generalizing d with
  | nil => exact ⟨[], d, rfl, rfl⟩
  | cons t ts ih =>
    rw [skipArgument_cons]
    cases hstep : depthStep d t.kind with
    | none => exact ⟨[], d, rfl, rfl⟩
    | some d' =>
      obtain ⟨skipped, e, hskipped, hdepth⟩ := ih d'
      refine ⟨t :: skipped, e, congrArg (t :: ·) hskipped, ?_⟩
      rw [depthAfter_cons, hstep]
      exact hdepth

/-! ## What a reader takes -/

/-- From `s`, inside `d` open parentheses, the reader passes no comma outside of them and closes no
others, and behind a value that it gives at least `e` are open. -/
def Stays (p : TokenReader α) (s : Reading) (d e : Nat) : Prop :=
  ∃ taken depth, s.ahead = taken ++ (p s).2.ahead ∧ depthAfter d taken = some depth ∧
    ∀ a, (p s).1 = .ok a → e ≤ depth

variable {p : TokenReader α} {s : Reading}

/-- A reader that takes nothing. -/
theorem stays_of_ahead (h : (p s).2.ahead = s.ahead) : Stays p s d d :=
  ⟨[], d, h.symm, rfl, fun _ _ => Nat.le_refl d⟩

theorem stays_fail (cause : SyntaxFault) (pos : Position) :
    Stays (fail cause pos : TokenReader α) s d e :=
  ⟨[], d, rfl, rfl, by rintro _ ⟨⟩⟩

/-- Inside more parentheses a reader takes the same. -/
theorem Stays.add (h : Stays p s d e) (j : Nat) : Stays p s (d + j) (e + j) := by
  obtain ⟨taken, depth, htaken, hdepth, hok⟩ := h
  exact ⟨taken, depth + j, htaken, depthAfter_add hdepth j,
    fun a ha => Nat.add_le_add_right (hok a ha) j⟩

theorem Stays.bind {f : α → TokenReader β} (hp : Stays p s d d')
    (hf : ∀ a s', p s = (.ok a, s') → Stays (f a) s' d' e) : Stays (p >>= f) s d e := by
  obtain ⟨taken, depth, htaken, hdepth, hok⟩ := hp
  rcases hps : p s with ⟨x | a, s'⟩ <;> rw [hps] at htaken hok
  · rw [Stays, bind_of_error hps]
    exact ⟨taken, depth, htaken, hdepth, by rintro _ ⟨⟩⟩
  · -- The depth behind `p` may be more than `d'`.
    obtain ⟨j, rfl⟩ := Nat.exists_eq_add_of_le (hok a rfl)
    obtain ⟨taken', depth', htaken', hdepth', hok'⟩ := (hf a s' hps).add j
    rw [Stays, bind_of_ok hps]
    refine ⟨taken ++ taken', depth', ?_, ?_, fun b hb => ?_⟩
    · rw [List.append_assoc, ← htaken', htaken]
    · rw [depthAfter_append, hdepth]
      exact hdepth'
    · exact Nat.le_trans (Nat.le_add_right e j) (hok' b hb)

theorem stays_peek {f : Token → TokenReader β} (h : Stays (f s.next) s d e) :
    Stays (peek >>= f) s d e := h

theorem stays_peekSecond {f : TokenKind → TokenReader β} (h : Stays (f s.secondKind) s d e) :
    Stays (peekSecond >>= f) s d e := h

/-- The token ahead is passed with its effect on the depth. -/
theorem stays_advance (h : depthStep d s.next.kind = some d') : Stays advance s d d' := by
  obtain ⟨ahead, finish, faults⟩ := s
  cases ahead with
  | nil =>
    have hstep : depthStep d .finish = some d := by cases d <;> rfl
    obtain rfl := Option.some.inj (hstep.symm.trans h)
    exact stays_of_ahead rfl
  | cons t ts =>
    refine ⟨[t], d', rfl, ?_, fun _ _ => Nat.le_refl d'⟩
    have hstep : depthStep d t.kind = some d' := h
    rw [depthAfter_cons, hstep]
    rfl

theorem stays_advance_bind {f : Unit → TokenReader β} (h : depthStep d s.next.kind = some d')
    (hf : Stays (f ()) s.passed d' e) : Stays (advance >>= f) s d e :=
  (stays_advance h).bind fun _ _ hs => by
    obtain rfl : s.passed = _ := congrArg Prod.snd hs
    exact hf

theorem stays_ite {c : Prop} [Decidable c] {p q : TokenReader α} (hp : c → Stays p s d e)
    (hq : ¬c → Stays q s d e) : Stays (if c then p else q) s d e := by
  split
  next h => exact hp h
  next h => exact hq h

theorem stays_expect {what : Expectation} (h : depthStep d what.kind = some d') :
    Stays (expect what) s d d' := by
  refine stays_peek (stays_ite (fun hkind => ?_) fun _ => stays_fail _ _)
  have hstep : depthStep d s.next.kind = some d' := by rw [hkind, h]
  exact stays_advance_bind hstep (stays_of_ahead rfl)

theorem stays_lookUp (find : String → Option α) (t : Token) : Stays (lookUp find t) s d d := by
  rw [lookUp]
  split
  · exact stays_of_ahead rfl
  · exact stays_fail _ _

theorem stays_readNumber (t : Token) : Stays (readNumber t) s d d := by
  rw [readNumber]
  split
  · exact stays_of_ahead rfl
  · exact stays_fail _ _

theorem stays_readDuration (t : Token) (text : String) : Stays (readDuration t text) s d d := by
  rw [readDuration]
  split
  · exact stays_of_ahead rfl
  · exact stays_fail _ _

/-- What is skipped after a fault counts from the token at fault, at whatever depth that is. -/
theorem Stays.recover (h : Stays p s 0 0) : Stays (recover p) s 0 0 := by
  obtain ⟨taken, depth, htaken, hdepth, -⟩ := h
  rw [Stays]
  simp only [TokenReader.recover]
  rcases hps : p s with ⟨x | a, s'⟩ <;> rw [hps] at htaken
  · obtain ⟨skipped, k, hskipped, hk⟩ := exists_skipped 0 s'.ahead
    refine ⟨taken ++ skipped, k + depth, ?_, ?_, fun _ _ => Nat.zero_le _⟩
    · rw [List.append_assoc, ← hskipped, htaken]
    · have hadd := depthAfter_add hk depth
      rw [Nat.zero_add] at hadd
      rw [depthAfter_append, hdepth]
      exact hadd
  · exact ⟨taken, depth, htaken, hdepth, fun _ _ => Nat.zero_le _⟩

theorem stays_exhausted : Stays (exhausted : TokenReader α) s d e := stays_peek (stays_fail _ _)

theorem stays_negative (h : s.next.kind = .minus) : Stays negative s 0 0 := by
  refine stays_peek (stays_advance_bind (by rw [h]; rfl) (stays_peek ?_))
  split
  next hnumber =>
    refine stays_advance_bind (by rw [hnumber]; rfl) ?_
    exact (stays_readNumber _).bind fun _ _ _ => stays_of_ahead rfl
  next hduration =>
    refine stays_advance_bind (by rw [hduration]; rfl) ?_
    exact (stays_readDuration _ _).bind fun _ _ _ => stays_of_ahead rfl
  · exact stays_fail _ _

/-- Below the bound no reader leaves the level at which it starts; arguments start inside their
parenthesis and pass the one that closes it. -/
structure StaysAt (n : Nat) : Prop where
  expression : ∀ s, Stays (expression n) s 0 0
  sums : ∀ left s, Stays (sums n left) s 0 0
  term : ∀ s, Stays (term n) s 0 0
  products : ∀ left s, Stays (products n left) s 0 0
  factor : ∀ s, Stays (factor n) s 0 0
  call : ∀ t s, Stays (call n t) s 0 0
  base : ∀ t s, Stays (base n t) s 0 0
  arguments : ∀ opened owner s, Stays (arguments n opened owner) s 1 0
  argumentList : ∀ opened owner s, Stays (argumentList n opened owner) s 1 0
  conditional : ∀ t s, Stays (conditional n t) s 0 0
  elsePart : ∀ t c b s, Stays (elsePart n t c b) s 0 0
  either : ∀ s, Stays (eitherCondition n) s 0 0
  eithers : ∀ left s, Stays (eithers n left) s 0 0
  both : ∀ s, Stays (bothCondition n) s 0 0
  boths : ∀ left s, Stays (boths n left) s 0 0
  comparison : ∀ s, Stays (comparison n) s 0 0

section StaysAt

variable {n : Nat}

theorem stays_elsePart (hc : ∀ t s, Stays (conditional n t) s 0 0)
    (he : ∀ s, Stays (expression n) s 0 0) (t : Token) (c b : Formula) (s : Reading) :
    Stays (elsePart n t c b) s 0 0 := by
  refine stays_peek (stays_ite (fun helse => ?_) fun _ => stays_of_ahead rfl)
  refine stays_advance_bind (by rw [helse]; rfl) ?_
  refine stays_peek (stays_ite (fun hif => ?_) fun _ => ?_)
  · refine stays_advance_bind (by rw [hif]; rfl) ?_
    exact (hc _ _).bind fun _ _ _ => stays_of_ahead rfl
  · exact (stays_expect rfl).bind fun _ _ _ => (he _).bind fun _ _ _ =>
      (stays_expect rfl).bind fun _ _ _ => stays_of_ahead rfl

theorem staysAt_zero : StaysAt 0 where
  expression _ := stays_exhausted
  sums _ _ := stays_exhausted
  term _ := stays_exhausted
  products _ _ := stays_exhausted
  factor _ := stays_exhausted
  call _ _ := stays_exhausted
  base _ _ := stays_exhausted
  arguments _ _ _ := stays_exhausted
  argumentList _ _ _ := stays_exhausted
  conditional _ _ := stays_exhausted
  elsePart := stays_elsePart (fun _ _ => stays_exhausted) fun _ => stays_exhausted
  either _ := stays_exhausted
  eithers _ _ := stays_exhausted
  both _ := stays_exhausted
  boths _ _ := stays_exhausted
  comparison _ := stays_exhausted

theorem StaysAt.succ_factor (h : StaysAt n) (s : Reading) :
    Stays (TokenReader.factor (n + 1)) s 0 0 := by
  refine stays_peek ?_
  -- The cases are the kinds of the first token.
  split
  case h_1 hkind =>
    refine stays_advance_bind (by rw [hkind]; rfl) ?_
    exact (stays_readNumber _).bind fun _ _ _ => stays_of_ahead rfl
  case h_2 hkind =>
    refine stays_advance_bind (by rw [hkind]; rfl) ?_
    exact (stays_readDuration _ _).bind fun _ _ _ => stays_of_ahead rfl
  case h_3 hkind | h_7 hkind =>
    exact stays_advance_bind (by rw [hkind]; rfl) (stays_of_ahead rfl)
  case h_4 hkind => exact stays_negative hkind
  case h_5 hkind | h_8 hkind =>
    refine stays_advance_bind (by rw [hkind]; rfl) ?_
    exact (stays_lookUp _ _).bind fun _ _ _ => stays_of_ahead rfl
  case h_6 hkind => exact stays_advance_bind (by rw [hkind]; rfl) (h.call _ _)
  case h_9 hkind => exact stays_advance_bind (by rw [hkind]; rfl) (h.base _ _)
  case h_10 hkind =>
    refine stays_advance_bind (by rw [hkind]; rfl) ((stays_lookUp _ _).bind fun v s' _ => ?_)
    refine stays_peek (stays_peekSecond (stays_ite ?_ fun _ => stays_of_ahead rfl))
    rintro ⟨hopen, hclose⟩
    have hinside : depthStep 0 s'.next.kind = some 1 := by rw [hopen]; rfl
    refine stays_advance_bind hinside (stays_advance_bind ?_ (stays_of_ahead rfl))
    rw [Reading.next_kind_passed, hclose]
    rfl
  case h_11 hkind => exact stays_advance_bind (by rw [hkind]; rfl) (h.conditional _ _)
  case h_12 hkind =>
    have hinside : depthStep 0 s.next.kind = some 1 := by rw [hkind]; rfl
    refine stays_advance_bind hinside (((h.expression _).add 1).bind fun inner s' _ => ?_)
    have hclose : Stays (expect (.groupEnd s.next.pos)) s' 1 0 := stays_expect rfl
    exact hclose.bind fun _ _ _ => stays_of_ahead rfl
  case h_13 | h_14 | h_15 => exact stays_fail _ _

theorem StaysAt.succ_call (h : StaysAt n) (t : Token) (s : Reading) :
    Stays (TokenReader.call (n + 1) t) s 0 0 := by
  refine (stays_lookUp _ _).bind fun function s' _ => ?_
  have hopen : Stays (expect (.callStart t.literal function)) s' 0 1 := stays_expect rfl
  exact hopen.bind fun _ _ _ => (h.arguments _ _ _).bind fun _ _ _ => stays_of_ahead rfl

theorem StaysAt.succ_base (h : StaysAt n) (t : Token) (s : Reading) :
    Stays (TokenReader.base (n + 1) t) s 0 0 := by
  rw [TokenReader.base]
  refine stays_ite (fun _ => stays_peek (stays_ite (fun hopen => ?_) fun _ => ?_)) fun _ => ?_
  · have hinside : depthStep 0 s.next.kind = some 1 := by rw [hopen]; rfl
    exact stays_advance_bind hinside ((h.arguments _ _ _).bind fun _ _ _ => stays_of_ahead rfl)
  · exact stays_of_ahead rfl
  · exact (stays_lookUp _ _).bind fun _ _ _ => stays_of_ahead rfl

theorem StaysAt.succ_arguments (h : StaysAt n) (opened : Position) (owner : String) (s : Reading) :
    Stays (TokenReader.arguments (n + 1) opened owner) s 1 0 := by
  refine stays_peek (stays_ite (fun hclose => ?_) fun _ => h.argumentList _ _ _)
  have houtside : depthStep 1 s.next.kind = some 0 := by rw [hclose]; rfl
  exact stays_advance_bind houtside (stays_of_ahead rfl)

theorem StaysAt.succ_argumentList (h : StaysAt n) (opened : Position) (owner : String)
    (s : Reading) : Stays (TokenReader.argumentList (n + 1) opened owner) s 1 0 := by
  refine ((h.expression _).recover.add 1).bind fun a s' _ => stays_peek ?_
  split
  next hcomma =>
    have hinside : depthStep 1 s'.next.kind = some 1 := by rw [hcomma]; rfl
    exact stays_advance_bind hinside
      ((h.argumentList _ _ _).bind fun _ _ _ => stays_of_ahead rfl)
  next hclose =>
    have houtside : depthStep 1 s'.next.kind = some 0 := by rw [hclose]; rfl
    exact stays_advance_bind houtside (stays_of_ahead rfl)
  · exact stays_fail _ _
  · exact stays_fail _ _

theorem StaysAt.succ_conditional (h : StaysAt n) (t : Token) (s : Reading) :
    Stays (TokenReader.conditional (n + 1) t) s 0 0 := by
  rw [conditional_succ]
  have hopen : Stays (expect .conditionStart) s 0 1 := stays_expect rfl
  refine hopen.bind fun _ s₁ _ => ((h.either s₁).add 1).bind fun c s₂ _ => ?_
  have hclose : Stays (expect .conditionEnd) s₂ 1 0 := stays_expect rfl
  exact hclose.bind fun _ _ _ => (stays_expect rfl).bind fun _ _ _ =>
    (h.expression _).bind fun b _ _ => (stays_expect rfl).bind fun _ _ _ => h.elsePart _ _ _ _

theorem StaysAt.succ_comparison (h : StaysAt n) (s : Reading) :
    Stays (TokenReader.comparison (n + 1)) s 0 0 := by
  refine (h.factor s).bind fun left s' _ => stays_peek ?_
  split
  · exact stays_of_ahead rfl
  next relation hrelation =>
    refine stays_advance_bind ?_ ((h.factor _).bind fun _ _ _ => stays_of_ahead rfl)
    rw [(comparison?_eq_some.1 hrelation).1]
    exact depthStep_relation relation

theorem StaysAt.succ (h : StaysAt n) : StaysAt (n + 1) where
  expression s := (h.term s).bind fun left s' _ => h.sums left s'
  sums left s := by
    refine stays_peek ?_
    split
    · exact stays_of_ahead rfl
    next op hop =>
      refine stays_advance_bind ?_ ((h.term _).bind fun _ _ _ => h.sums _ _)
      rw [(sumOperator?_eq_some.1 hop).1]
      exact depthStep_operator op
  term s := (h.factor s).bind fun left s' _ => h.products left s'
  products left s := by
    refine stays_peek ?_
    split
    · exact stays_of_ahead rfl
    next op hop =>
      refine stays_advance_bind ?_ ((h.factor _).bind fun _ _ _ => h.products _ _)
      rw [(productOperator?_eq_some.1 hop).1]
      exact depthStep_operator op
  factor := h.succ_factor
  call := h.succ_call
  base := h.succ_base
  arguments := h.succ_arguments
  argumentList := h.succ_argumentList
  conditional := h.succ_conditional
  elsePart := stays_elsePart h.succ_conditional fun s => (h.term s).bind fun _ _ _ => h.sums _ _
  either s := (h.both s).bind fun left s' _ => h.eithers left s'
  eithers left s := stays_peek <| stays_ite
    (fun heither => stays_advance_bind (by rw [heither]; rfl)
      ((h.both _).bind fun _ _ _ => h.eithers _ _))
    fun _ => stays_of_ahead rfl
  both s := (h.comparison s).bind fun left s' _ => h.boths left s'
  boths left s := stays_peek <| stays_ite
    (fun hboth => stays_advance_bind (by rw [hboth]; rfl)
      ((h.comparison _).bind fun _ _ _ => h.boths _ _))
    fun _ => stays_of_ahead rfl
  comparison := h.succ_comparison

theorem staysAt (n : Nat) : StaysAt n := by
  induction n with
  | zero => exact staysAt_zero
  | succ n ih => exact ih.succ

end StaysAt

/-! ## Where reading goes on -/

variable {argument rest : List Token} {s' : Reading} {x : SyntaxError} {n : Nat}

/-- A reader that stops in an argument has taken a first part of it. -/
theorem exists_taken (hbalanced : depthAfter 0 argument = some 0) (ht : t.EndsArgument)
    (hahead : s.ahead = argument ++ t :: rest) (hp : Stays p s 0 0) :
    ∃ taken left depth, argument = taken ++ left ∧ (p s).2.ahead = left ++ t :: rest ∧
      depthAfter 0 taken = some depth := by
  obtain ⟨taken, depth, htaken, hdepth, -⟩ := hp
  rw [hahead] at htaken
  rcases List.append_eq_append_iff.1 htaken with ⟨more, rfl, hmore⟩ | ⟨left, rfl, hleft⟩
  · cases more with
    | nil => exact ⟨argument, [], 0, (List.append_nil _).symm, by simpa using hmore.symm, hbalanced⟩
    | cons u more =>
      obtain ⟨rfl, -⟩ := List.cons.inj hmore
      have hnone : depthAfter 0 (argument ++ t :: more) = none :=
        depthAfter_eq_none.2 ⟨argument, t, more, rfl, ht, hbalanced⟩
      rw [hnone] at hdepth
      cases hdepth
  · exact ⟨taken, left, depth, rfl, hleft, hdepth⟩

theorem recover_of_error (h : p s = (.error x, s')) : recover p s =
    (.ok none, ⟨skipArgument 0 s'.ahead, s'.finish, s'.faults ++ [x]⟩) := by
  simp only [recover, h]

/-- An argument that could not be read leaves no formula, and the token ahead decides. -/
theorem argumentList_of_recover (h : recover (expression n) s = (.ok none, s'))
    (opened : Position) (owner : String) :
    (s'.next.kind = .comma →
      argumentList (n + 1) opened owner s = argumentList n opened owner s'.passed) ∧
    (s'.next.kind = .rightParen →
      argumentList (n + 1) opened owner s = (.ok [], s'.passed)) := by
  rw [argumentList, bind_of_ok h, peek_bind]
  refine ⟨fun hcomma => ?_, fun hclose => ?_⟩
  · rw [hcomma]
    cases hrest : argumentList n opened owner s'.passed with
    | mk result s'' =>
      cases result with
      | error e => exact (bind_of_ok rfl).trans (bind_of_error hrest)
      | ok as => exact (bind_of_ok rfl).trans (bind_of_ok hrest)
  · rw [hclose]
    rfl

/-- **Recovery from a fault in an argument**: the fault is recorded, what the reader has taken is a
first part of the argument, and reading goes on at the token that ends the argument exactly if the
fault is at the level of the argument. A fault inside parentheses is followed by a token inside them
instead. -/
theorem argumentList_resumes (hbalanced : depthAfter 0 argument = some 0) (ht : t.EndsArgument)
    (hahead : s.ahead = argument ++ t :: rest) (hfault : expression n s = (.error x, s'))
    (opened : Position) (owner : String) :
    s.faults <+: s'.faults ∧
    ∃ taken left depth, argument = taken ++ left ∧ s'.ahead = left ++ t :: rest ∧
      depthAfter 0 taken = some depth ∧
      (depth = 0 →
        recover (expression n) s = (.ok none, ⟨t :: rest, s'.finish, s'.faults ++ [x]⟩) ∧
        (t.kind = .comma → argumentList (n + 1) opened owner s =
          argumentList n opened owner ⟨rest, s'.finish, s'.faults ++ [x]⟩) ∧
        (t.kind = .rightParen → argumentList (n + 1) opened owner s =
          (.ok [], ⟨rest, s'.finish, s'.faults ++ [x]⟩))) ∧
      (0 < depth → ∃ skipped u more, left = skipped ++ u :: more ∧ u.EndsArgument ∧
        depthAfter 0 skipped = some 0 ∧ recover (expression n) s =
          (.ok none, ⟨u :: (more ++ t :: rest), s'.finish, s'.faults ++ [x]⟩)) := by
  have hkept := (keepsAt n).expression s
  obtain ⟨taken, left, depth, rfl, hleft, hdepth⟩ :=
    exists_taken hbalanced ht hahead ((staysAt n).expression s)
  rw [hfault] at hkept hleft
  rw [depthAfter_append, hdepth, Option.bind_some] at hbalanced
  refine ⟨hkept, taken, left, depth, rfl, hleft, hdepth, ?_, ?_⟩
  · rintro rfl
    have hrecover : recover (expression n) s =
        (.ok none, ⟨t :: rest, s'.finish, s'.faults ++ [x]⟩) := by
      rw [recover_of_error hfault, hleft, skipArgument_append hbalanced ht]
    exact ⟨hrecover, argumentList_of_recover hrecover opened owner⟩
  · intro hinside
    have hnone : depthAfter 0 left = none := depthAfter_zero_eq_none hbalanced hinside
    obtain ⟨skipped, u, more, rfl, hu, hskipped⟩ := depthAfter_eq_none.1 hnone
    refine ⟨skipped, u, more, rfl, hu, hskipped, ?_⟩
    rw [recover_of_error hfault, hleft, List.append_assoc, List.cons_append,
      skipArgument_append hskipped hu]

/-- The first argument of `midpoint(-sunrise, sunset)`. -/
def signedSunrise : List Token := [⟨.minus, "-", ⟨1, 10⟩⟩, ⟨.primitive, "sunrise", ⟨1, 11⟩⟩]

/-- What follows from the comma on, for a comma in the given column. -/
def thenSunset (column : Nat) : List Token :=
  [⟨.comma, ",", ⟨1, column⟩⟩, ⟨.primitive, "sunset", ⟨1, column + 2⟩⟩,
    ⟨.rightParen, ")", ⟨1, column + 8⟩⟩]

/-- Behind the minus sign reading goes on at the comma. -/
theorem argumentList_resumes_signedSunrise :
    depthAfter 0 signedSunrise = some 0 ∧
    (∃ s', expression 20 ⟨signedSunrise ++ thenSunset 18, ⟨1, 27⟩, []⟩ =
      (.error ⟨.misplacedMinus, ⟨1, 10⟩⟩, s')) ∧
    recover (expression 20) ⟨signedSunrise ++ thenSunset 18, ⟨1, 27⟩, []⟩ =
      (.ok none, ⟨thenSunset 18, ⟨1, 27⟩, [⟨.misplacedMinus, ⟨1, 10⟩⟩]⟩) := by
  have hfault : expression 20 ⟨signedSunrise ++ thenSunset 18, ⟨1, 27⟩, []⟩ =
      (.error ⟨.misplacedMinus, ⟨1, 10⟩⟩, ⟨signedSunrise.tail ++ thenSunset 18, ⟨1, 27⟩, []⟩) := rfl
  have hbalanced : depthAfter 0 signedSunrise = some 0 := rfl
  obtain ⟨-, taken, left, depth, hargument, hleft, hdepth, hlevel, -⟩ :=
    argumentList_resumes hbalanced (.inl rfl) rfl hfault ⟨1, 9⟩ "midpoint"
  obtain rfl : signedSunrise.tail = left := List.append_cancel_right hleft
  obtain rfl : [⟨.minus, "-", ⟨1, 10⟩⟩] = taken := List.append_cancel_right hargument
  obtain rfl : 0 = depth := Option.some.inj hdepth
  exact ⟨hbalanced, ⟨_, hfault⟩, (hlevel rfl).1⟩

/-- The first argument of `midpoint((sunrise foo), sunset)`. -/
def groupedSunrise : List Token :=
  [⟨.leftParen, "(", ⟨1, 10⟩⟩, ⟨.primitive, "sunrise", ⟨1, 11⟩⟩, ⟨.word, "foo", ⟨1, 19⟩⟩,
    ⟨.rightParen, ")", ⟨1, 22⟩⟩]

/-- Behind a fault in a group reading goes on at the parenthesis that closes the group, as if that
ended the argument. -/
theorem recover_groupedSunrise :
    depthAfter 0 groupedSunrise = some 0 ∧
    (∃ x s', expression 20 ⟨groupedSunrise ++ thenSunset 23, ⟨1, 31⟩, []⟩ = (.error x, s')) ∧
    (recover (expression 20) ⟨groupedSunrise ++ thenSunset 23, ⟨1, 31⟩, []⟩).2.ahead =
      ⟨.rightParen, ")", ⟨1, 22⟩⟩ :: thenSunset 23 :=
  ⟨rfl, ⟨_, _, rfl⟩, rfl⟩

end TokenReader

end Sundial
