import Sundial.Proofs.Grammar.Derivation

/-!
# Readers step by step

What the elementary readers of tokens do, in terms of the words ahead. `Yields` says that a reader
gives a value and reports nothing, and what it leaves ahead. `Keeps` says that a reader takes back
no fault; so a run in which no fault was added, a `Clean` one, consists of clean runs.
-/

set_option autoImplicit false

namespace Sundial

namespace Reading

def words (s : Reading) : List Word := s.ahead.map Token.toWord

/-- The token ahead; behind the last one there is only the end. -/
def next (s : Reading) : Token := s.ahead.headD ⟨.finish, "", s.finish⟩

/-- The reading with the token ahead passed. -/
def passed (s : Reading) : Reading := { s with ahead := s.ahead.tail }

/-- The kind of the token after the one ahead. -/
def secondKind (s : Reading) : TokenKind := (s.ahead.tail.head?.map Token.kind).getD .finish

theorem words_eq_cons {s : Reading} {w : Word} {ws : List Word} (h : s.words = w :: ws) :
    s.next.toWord = w ∧ s.passed.words = ws := by
  obtain ⟨ahead, finish, faults⟩ := s
  cases ahead with
  | nil => cases h
  | cons t ts => exact List.cons.inj h

theorem next_kind {s : Reading} {w : Word} {ws : List Word} (h : s.words = w :: ws) :
    s.next.kind = w.kind := by
  rw [← (words_eq_cons h).1]; rfl

theorem next_kind_sign {s : Reading} {k : TokenKind} {ws : List Word}
    (h : s.words = .sign k :: ws) : s.next.kind = k :=
  next_kind h

theorem passed_words {s : Reading} {w : Word} {ws : List Word} (h : s.words = w :: ws) :
    s.passed.words = ws :=
  (words_eq_cons h).2

/-- A token with content is found as it was written. -/
theorem next_literal {s : Reading} {w : Word} {ws : List Word} (h : s.words = w :: ws)
    (hc : w.kind.hasContent = true) : s.next.literal = w.literal := by
  have hw := (words_eq_cons h).1
  rw [Token.toWord_of_content (by rw [next_kind h]; exact hc)] at hw
  exact congrArg Word.literal hw

theorem next_kind_of_nil {s : Reading} (h : s.words = []) : s.next.kind = .finish := by
  obtain ⟨ahead, finish, faults⟩ := s
  cases ahead with
  | nil => rfl
  | cons t ts => cases h

/-- A token that is no end mark is a word ahead. -/
theorem words_of_next {s : Reading} (h : s.next.kind ≠ .finish) :
    s.words = s.next.toWord :: s.passed.words := by
  obtain ⟨ahead, finish, faults⟩ := s
  cases ahead with
  | nil => exact absurd rfl h
  | cons t ts => rfl

theorem secondKind_eq (s : Reading) :
    s.secondKind = (s.passed.words.head?.map Word.kind).getD .finish := by
  obtain ⟨ahead, finish, faults⟩ := s
  rcases ahead with _ | ⟨t, _ | ⟨u, us⟩⟩ <;> rfl

/-- The kind of the token ahead is that of the first word, or the end. -/
theorem next_kind_eq (s : Reading) : s.next.kind = (s.words.head?.map Word.kind).getD .finish := by
  obtain ⟨ahead, finish, faults⟩ := s
  cases ahead <;> rfl

end Reading

namespace TokenReader

variable {α β : Type}

theorem peek_bind (f : Token → TokenReader β) (s : Reading) : (peek >>= f) s = f s.next s := rfl

theorem expect_apply (what : Expectation) (s : Reading) :
    expect what s = if s.next.kind = what.kind then (.ok s.next, s.passed)
      else (.error ⟨.expected what s.next, s.next.pos⟩, s) := by
  rw [expect, peek_bind]
  split <;> rfl

theorem bind_of_ok {p : TokenReader α} {f : α → TokenReader β} {s s' : Reading} {a : α}
    (h : p s = (.ok a, s')) : (p >>= f) s = f a s' := by
  simp only [bind, TokenReader.bind, h]

theorem bind_of_error {p : TokenReader α} {f : α → TokenReader β} {s s' : Reading}
    {e : SyntaxError} (h : p s = (.error e, s')) : (p >>= f) s = (.error e, s') := by
  simp only [bind, TokenReader.bind, h]

/-! ## Runs that succeed -/

/-- From `s` the reader gives a value with the property, adds no fault, and stands before `rest`. -/
def Yields (p : TokenReader α) (s : Reading) (rest : List Word) (Q : α → Prop) : Prop :=
  ∃ a s', p s = (.ok a, s') ∧ Q a ∧ s'.words = rest ∧ s'.faults = s.faults

section Yields

variable {p : TokenReader α} {s : Reading} {rest mid : List Word} {Q : α → Prop} {R : β → Prop}

theorem Yields.pure {a : α} (hw : s.words = rest) (h : Q a) : Yields (pure a) s rest Q :=
  ⟨a, s, rfl, h, hw, rfl⟩

theorem Yields.bind {f : α → TokenReader β} (hp : Yields p s mid Q)
    (hf : ∀ a s', Q a → s'.words = mid → Yields (f a) s' rest R) : Yields (p >>= f) s rest R := by
  obtain ⟨a, s', h, ha, hw, hs⟩ := hp
  obtain ⟨b, s'', h', hb, hw', hs'⟩ := hf a s' ha hw
  exact ⟨b, s'', (bind_of_ok h).trans h', hb, hw', hs'.trans hs⟩

theorem Yields.peek {f : Token → TokenReader β} (h : Yields (f s.next) s rest R) :
    Yields (peek >>= f) s rest R := h

theorem Yields.advance {f : Unit → TokenReader β} (h : Yields (f ()) s.passed rest R) :
    Yields (advance >>= f) s rest R := h

/-- A required token that is there is passed. -/
theorem Yields.expect (what : Expectation) {f : Token → TokenReader β}
    (hw : s.words = .sign what.kind :: mid)
    (hf : ∀ t s', s'.words = mid → Yields (f t) s' rest R) :
    Yields (expect what >>= f) s rest R := by
  refine Yields.bind (Q := fun _ => True)
    ⟨s.next, s.passed, ?_, trivial, Reading.passed_words hw, rfl⟩
    fun t s' _ hs' => hf t s' hs'
  have hk : s.next.kind = what.kind := Reading.next_kind hw
  rw [expect_apply, if_pos hk]

theorem Yields.lookUp {find : String → Option α} {t : Token} {a : α} {f : α → TokenReader β}
    (h : find t.literal = some a) (hf : Yields (f a) s rest R) :
    Yields (lookUp find t >>= f) s rest R := by
  rw [TokenReader.lookUp, h]
  exact hf

/-- A reader that yields is not disturbed by recovering from its faults. -/
theorem Yields.recover (h : Yields p s rest Q) :
    Yields (recover p) s rest fun a => ∃ b, a = some b ∧ Q b := by
  obtain ⟨a, s', hp, ha, hr⟩ := h
  exact ⟨some a, s', by simp only [TokenReader.recover, hp], ⟨a, rfl, ha⟩, hr⟩

end Yields

/-! ## Faults are never taken back -/

/-- The faults of the reading are still there after the reader. -/
def Keeps (p : TokenReader α) : Prop := ∀ s, s.faults <+: (p s).2.faults

section Keeps

variable {p : TokenReader α}

theorem keeps_pure (a : α) : Keeps (pure a : TokenReader α) := fun _ => List.prefix_refl _

theorem keeps_fail (cause : SyntaxFault) (pos : Position) :
    Keeps (fail cause pos : TokenReader α) :=
  fun _ => List.prefix_refl _

theorem keeps_peek : Keeps peek := fun _ => List.prefix_refl _

theorem keeps_peekSecond : Keeps peekSecond := fun _ => List.prefix_refl _

theorem keeps_advance : Keeps advance := fun _ => List.prefix_refl _

theorem Keeps.bind {f : α → TokenReader β} (hp : Keeps p) (hf : ∀ a, Keeps (f a)) :
    Keeps (p >>= f) := by
  intro s
  have h := hp s
  rcases hps : p s with ⟨e | a, s'⟩
  · rw [bind_of_error hps]
    rwa [hps] at h
  · rw [bind_of_ok hps]
    rw [hps] at h
    exact h.trans (hf a s')

theorem keeps_expect (what : Expectation) : Keeps (expect what) := by
  intro s
  rw [expect_apply]
  split <;> exact List.prefix_refl _

theorem keeps_lookUp (find : String → Option α) (t : Token) : Keeps (lookUp find t) := by
  rw [lookUp]
  split
  · exact keeps_pure _
  · exact keeps_fail _ _

theorem keeps_readNumber (t : Token) : Keeps (readNumber t) := by
  rw [readNumber]
  split
  · exact keeps_pure _
  · exact keeps_fail _ _

theorem keeps_readDuration (t : Token) (text : String) : Keeps (readDuration t text) := by
  rw [readDuration]
  split
  · exact keeps_pure _
  · exact keeps_fail _ _

theorem Keeps.recover (hp : Keeps p) : Keeps (recover p) := by
  intro s
  have h := hp s
  simp only [TokenReader.recover]
  rcases hps : p s with ⟨e | a, s'⟩ <;> rw [hps] at h
  · exact h.trans (List.prefix_append _ _)
  · exact h

end Keeps

/-! ## Clean runs -/

/-- The reader gives a value, and the run adds no fault. -/
def Clean (p : TokenReader α) (s : Reading) (a : α) (s' : Reading) : Prop :=
  p s = (.ok a, s') ∧ s'.faults = s.faults

section Clean

variable {p : TokenReader α} {s s' : Reading} {b : β}

theorem clean_pure {a a' : α} : Clean (pure a) s a' s' ↔ a = a' ∧ s = s' := by
  constructor
  · rintro ⟨⟨⟩, -⟩
    exact ⟨rfl, rfl⟩
  · rintro ⟨rfl, rfl⟩
    exact ⟨rfl, rfl⟩

theorem not_clean_fail {cause : SyntaxFault} {pos : Position} {a : α} :
    ¬Clean (fail cause pos) s a s' := by
  rintro ⟨h, -⟩
  cases h

/-- A clean run of two readers is a clean run of each. -/
theorem Clean.bind {f : α → TokenReader β} (h : Clean (p >>= f) s b s') (hp : Keeps p)
    (hf : ∀ a, Keeps (f a)) : ∃ a m, Clean p s a m ∧ Clean (f a) m b s' := by
  obtain ⟨h, hs⟩ := h
  have h1 : s.faults <+: (p s).2.faults := hp s
  rcases hps : p s with ⟨e | a, m⟩
  · rw [bind_of_error hps] at h
    cases h
  · rw [hps] at h1
    rw [bind_of_ok hps] at h
    have h2 := hf a m
    rw [h] at h2
    -- The faults in between lie between two equal lists.
    have hm : m.faults = s.faults :=
      (h1.eq_of_length (Nat.le_antisymm h1.length_le (hs ▸ h2.length_le))).symm
    exact ⟨a, m, ⟨hps, hm⟩, h, hs.trans hm.symm⟩

theorem clean_peek_bind {f : Token → TokenReader β} :
    Clean (peek >>= f) s b s' ↔ Clean (f s.next) s b s' := Iff.rfl

theorem clean_peekSecond_bind {f : TokenKind → TokenReader β} :
    Clean (peekSecond >>= f) s b s' ↔ Clean (f s.secondKind) s b s' := Iff.rfl

theorem clean_advance_bind {f : Unit → TokenReader β} :
    Clean (advance >>= f) s b s' ↔ Clean (f ()) s.passed b s' := Iff.rfl

theorem Clean.expect {what : Expectation} {t : Token} (h : Clean (expect what) s t s') :
    s' = s.passed ∧ s.next.kind = what.kind := by
  obtain ⟨h, -⟩ := h
  rw [expect_apply] at h
  split at h
  · cases h
    exact ⟨rfl, by assumption⟩
  · cases h

theorem Clean.lookUp {find : String → Option α} {t : Token} {a : α}
    (h : Clean (lookUp find t) s a s') : s' = s ∧ find t.literal = some a := by
  rw [TokenReader.lookUp] at h
  split at h
  · obtain ⟨rfl, rfl⟩ := clean_pure.1 h
    exact ⟨rfl, by assumption⟩
  · exact absurd h not_clean_fail

theorem Clean.readNumber {t : Token} {x : Float} (h : Clean (readNumber t) s x s') :
    s' = s ∧ Number.read? t.literal = some x := by
  rw [TokenReader.readNumber] at h
  split at h
  · obtain ⟨rfl, rfl⟩ := clean_pure.1 h
    exact ⟨rfl, by assumption⟩
  · exact absurd h not_clean_fail

theorem Clean.readDuration {t : Token} {text : String} {x : Float}
    (h : Clean (readDuration t text) s x s') : s' = s ∧ Duration.read? text = some x := by
  rw [TokenReader.readDuration] at h
  split at h
  · obtain ⟨rfl, rfl⟩ := clean_pure.1 h
    exact ⟨rfl, by assumption⟩
  · exact absurd h not_clean_fail

/-- A recovered fault is a fault, so a clean run recovered from nothing. -/
theorem Clean.recover {a : Option α} (h : Clean (recover p) s a s') (hp : Keeps p) :
    ∃ b, a = some b ∧ Clean p s b s' := by
  obtain ⟨h, hs⟩ := h
  have hk := hp s
  simp only [TokenReader.recover] at h
  rcases hps : p s with ⟨e | b, m⟩ <;> rw [hps] at h hk <;> cases h
  · have h1 : s.faults.length ≤ m.faults.length := hk.length_le
    have h2 : m.faults.length + 1 = s.faults.length := by rw [← hs, List.length_append]; rfl
    omega
  · exact ⟨b, rfl, hps, hs⟩

end Clean

end TokenReader

end Sundial
