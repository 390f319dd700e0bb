import Sundial.Proofs.Evaluation.Operations

/-!
# The sky is asked once

As long as a context stays on its date and at its place, it asks the sky for the sun's day once, and
for the crossings of an angle once; angles are told apart by their bits. What it answers itself is
what the sky says of its date and place: `asked_once`.
-/

set_option autoImplicit false

namespace Sundial

open Context (Effect KnowsSky Operation)

/-! ## Questions -/

namespace Question

/-- The date and the place that the question is about. -/
def about : Question → Date × Place
  | sunTimes date place => (date, place)
  | crossings date place _ => (date, place)

/-- The bits of the angle that the question is about. -/
def angle? : Question → Option UInt64
  | sunTimes .. => none
  | crossings _ _ degrees => some degrees.toBits

end Question

namespace Context

/-- From one context to a later one on the same day the questions were asked, none of them twice,
and the answers are still known. -/
structure AsksOnce (c : Context) (qs : List Question) (c' : Context) : Prop where
  setting : c'.setting = c.setting
  asked : c'.asked = qs ++ c.asked
  about : ∀ q ∈ qs, q.about = (c.date, c.place)
  sun : qs.countP Question.isSunTimes ≤ if c'.sun.isSome then 1 else 0
  angles : (qs.filterMap Question.angle?).Nodup
  known : ∀ b ∈ qs.filterMap Question.angle?, ∃ a, c'.angles.get? b = some a

namespace AsksOnce

variable {keys : List String} {c c' c'' : Context} {qs : List Question}

theorem refl (c : Context) : AsksOnce c [] c :=
  ⟨rfl, rfl, by simp, by simp, List.nodup_nil, by simp⟩

/-- Nothing is asked where the answers stay as they are. -/
theorem congr (h : AsksOnce c qs c') (hsetting : c''.setting = c'.setting)
    (hasked : c''.asked = c'.asked) (hsun : c''.sun = c'.sun) (hangles : c''.angles = c'.angles) :
    AsksOnce c qs c'' where
  setting := hsetting.trans h.setting
  asked := hasked.trans h.asked
  about := h.about
  sun := by
    rw [hsun]
    exact h.sun
  angles := h.angles
  known := by
    rw [hangles]
    exact h.known

theorem about_eq (h : AsksOnce c qs c') : (c'.date, c'.place) = (c.date, c.place) := by
  obtain ⟨hdate, hplace, -⟩ := setting_eq_iff.1 h.setting
  rw [hdate, hplace]

theorem sunTimes (h : AsksOnce c qs c') : ∃ qs', AsksOnce c qs' c'.sunTimes.2 := by
  cases hsun : c'.sun with
  | some s =>
    rw [Context.sunTimes, hsun]
    exact ⟨qs, h⟩
  | none =>
    rw [sunTimes_of_none hsun]
    have hnever : qs.countP Question.isSunTimes = 0 := by simpa [hsun] using h.sun
    refine ⟨.sunTimes c'.date c'.place :: qs, h.setting, ?_, ?_, ?_, h.angles, h.known⟩
    · rw [List.cons_append, ← h.asked]
    · exact List.forall_mem_cons.2 ⟨h.about_eq, h.about⟩
    · rw [List.countP_cons_of_pos rfl, hnever]
      rfl

theorem crossings (h : AsksOnce c qs c') (degrees : Float) :
    ∃ qs', AsksOnce c qs' (c'.crossings degrees).2 := by
  cases hangle : c'.angles.get? degrees.toBits with
  | some a =>
    rw [Context.crossings, hangle]
    exact ⟨qs, h⟩
  | none =>
    rw [crossings_of_none hangle]
    have hnever : degrees.toBits ∉ qs.filterMap Question.angle? := by
      intro hmem
      obtain ⟨a, ha⟩ := h.known _ hmem
      rw [hangle] at ha
      cases ha
    refine ⟨.crossings c'.date c'.place degrees :: qs, h.setting, ?_, ?_, ?_, ?_, ?_⟩
    · rw [List.cons_append, ← h.asked]
    · exact List.forall_mem_cons.2 ⟨h.about_eq, h.about⟩
    · rw [List.countP_cons_of_neg (by simp [Question.isSunTimes])]
      exact h.sun
    · exact List.nodup_cons.2 ⟨hnever, h.angles⟩
    · have hthere : ∃ a, (c'.angles.put degrees.toBits
          (c'.sky.crossings c'.date c'.place degrees)).get? degrees.toBits = some a :=
        ⟨_, (Ledger.get?_put _ _ _ _).trans (if_pos rfl)⟩
      refine List.forall_mem_cons.2 ⟨hthere, fun b hb => ?_⟩
      have hne : degrees.toBits ≠ b := fun heq => hnever (heq ▸ hb)
      rw [Ledger.get?_put, if_neg hne]
      exact h.known b hb

/-! ### Evaluations -/

theorem moment (h : AsksOnce c qs c') (p : Primitive) (breakdown : Option Breakdown) :
    ∃ qs', AsksOnce c qs' ((Evaluating.moment p).run ⟨c', breakdown⟩).2.context := by
  rw [Evaluating.moment]
  cases p.twilight? with
  | some twilight => exact h.crossings twilight.1
  | none => exact h.sunTimes

theorem effect (h : AsksOnce c qs c') (heffect : Effect keys c' c'') :
    ∃ qs', AsksOnce c qs' c'' := by
  cases heffect with
  | fail | keepResult => exact ⟨qs, h.congr rfl rfl rfl rfl⟩
  | sunTimes => exact h.sunTimes
  | crossings _ degrees => exact h.crossings degrees
  | primitive e p =>
    obtain ⟨qs', hmoment⟩ := h.moment p e.breakdown
    exact ⟨qs', hmoment.congr rfl rfl rfl rfl⟩

theorem effects (h : AsksOnce c qs c') (heffects : Relation.ReflTransGen (Effect keys) c' c'') :
    ∃ qs', AsksOnce c qs' c'' := by
  induction heffects with
  | refl => exact ⟨qs, h⟩
  | tail _ heffect ih =>
    obtain ⟨qs', hbefore⟩ := ih
    exact hbefore.effect heffect

theorem run (h : AsksOnce c qs c') (f : Formula) (breakdown : Option Breakdown) :
    ∃ qs', AsksOnce c qs' (Evaluator.run ⟨c', breakdown⟩ f).2.context := by
  have hstarted : AsksOnce c qs (Evaluator.started ⟨c', breakdown⟩).context :=
    h.congr rfl rfl rfl rfl
  obtain ⟨qs', hafter⟩ := hstarted.effects (f.performs_eval (Evaluator.started ⟨c', breakdown⟩))
  exact ⟨qs', hafter.congr rfl rfl rfl rfl⟩

/-! ### Operations -/

theorem apply (h : AsksOnce c qs c') {op : Operation} (hstay : op.moves = false) :
    ∃ qs', AsksOnce c qs' (op.apply c') := by
  cases op with
  | setDate | setPlace => cases hstay
  | insert | remember | seed | clearTimes | keepResult => exact ⟨qs, h.congr rfl rfl rfl rfl⟩
  | sunTimes => exact h.sunTimes
  | crossings degrees => exact h.crossings degrees
  | evaluate f breakdown => exact h.run f breakdown
  | evaluateSet set =>
    refine set.evaluate_induction (P := fun c' => ∃ qs', AsksOnce c qs' c') ?_ ?_ ⟨qs, h⟩
    · rintro f c' ⟨qs, h⟩
      exact h.run f none
    · rintro key t c' ⟨qs, h⟩
      exact ⟨qs, h.congr rfl rfl rfl rfl⟩

theorem after (c : Context) {ops : List Operation} (hstay : ∀ op ∈ ops, op.moves = false) :
    ∃ qs, AsksOnce c qs (c.after ops) := by
  apply after_induction (P := fun c' => ∃ qs, AsksOnce c qs c') _ ⟨[], refl c⟩
  rintro op hop c' ⟨qs, h⟩
  exact h.apply (hstay op hop)

end AsksOnce

/-- What the context says of the sun is what the sky says of its date and place. -/
def AnswersFor (c : Context) (sky : Sky) : Prop :=
  c.sunTimes.1 = sky.sunTimes c.date c.place ∧
    ∀ degrees, (c.crossings degrees).1 = sky.crossings c.date c.place degrees

/-- **Nothing is asked twice.** Between two moves of a context the sky is asked for the sun's day at
most once and for crossings at most once for the bits of an angle, always for the date and the place
of the context, whatever is stored, forgotten or evaluated. What the context says then is what the
sky says, also in the midst of an evaluation. -/
theorem asked_once (date : Date) (place : Place) (sky : Sky) (before : List Operation)
    {during : List Operation} (hstay : ∀ op ∈ during, op.moves = false) :
    let c := (new date place sky).after before
    let c' := c.after during
    c'.date = c.date ∧ c'.place = c.place ∧
      (∃ qs, c'.asked = qs ++ c.asked ∧ (∀ q ∈ qs, q.about = (c.date, c.place)) ∧
        qs.countP Question.isSunTimes ≤ 1 ∧ (qs.filterMap Question.angle?).Nodup) ∧
      ∀ keys c'', Relation.ReflTransGen (Effect keys) c' c'' → c''.AnswersFor sky := by
  intro c c'
  obtain ⟨qs, hasks⟩ := AsksOnce.after c hstay
  obtain ⟨hdate, hplace, -⟩ := setting_eq_iff.1 hasks.setting
  have hatMost : qs.countP Question.isSunTimes ≤ 1 := hasks.sun.trans (by split_ifs <;> decide)
  refine ⟨hdate, hplace, ⟨qs, hasks.asked, hasks.about, hatMost, hasks.angles⟩, ?_⟩
  intro keys c'' heffects
  have hafter : c' = (new date place sky).after (before ++ during) := (after_append _ _ _).symm
  have hknows : KnowsSky c'' := by
    rw [hafter] at heffects
    exact (knowsSky_after date place sky (before ++ during)).effects heffects
  have hsky : c''.sky = sky := by
    have hsetting := Effect.setting_of_reflTransGen heffects
    rw [(setting_eq_iff.1 hsetting).2.2, hafter, sky_after]
    rfl
  rw [← hsky]
  exact ⟨hknows.sunTimes.1, fun degrees => (hknows.crossings degrees).1⟩

/-- The day before was asked for, too. -/
def dayBefore : List Operation := [.sunTimes, .setDate (.ofNumbers 2026 3 21)]

/-- One angle again and again, and formulas that fail, with writes to the times in between. -/
def restlessDay : List Operation :=
  let dawn := Formula.call ⟨1, 1⟩ .solar [.number ⟨1, 7⟩ 16.1, .direction ⟨1, 13⟩ .beforeSunrise]
  [.evaluate dawn none, .clearTimes,
    .evaluate (.binary ⟨1, 1⟩ .add Formula.midday dawn) (some .empty), .insert "sunset" ⟨0, 0⟩,
    .crossings 16.1, .seed [("sunrise", ⟨0, 0⟩)], .sunTimes,
    .evaluateSet (.ofList [("noon", "midpoint(sunrise, sunset)")])]

theorem asked_once_restlessDay : (∀ op ∈ restlessDay, op.moves = false) ∧
    ((steadyDay.after dayBefore).after restlessDay).askedCounts = (2, 1) ∧
    ∃ qs, ((steadyDay.after dayBefore).after restlessDay).asked =
        qs ++ (steadyDay.after dayBefore).asked ∧
      qs.countP Question.isSunTimes ≤ 1 ∧ (qs.filterMap Question.angle?).Nodup := by
  have hstay : ∀ op ∈ restlessDay, op.moves = false := by decide
  have hcounts : ((steadyDay.after dayBefore).after restlessDay).askedCounts = (2, 1) := by
    decide +kernel
  obtain ⟨-, -, ⟨qs, hasked, -, hsun, hangles⟩, -⟩ :=
    asked_once (.ofNumbers 2026 3 20) ⟨31.8, 35.2, 800.0, 7200⟩ steadySky dayBefore hstay
  exact ⟨hstay, hcounts, qs, hasked, hsun, hangles⟩

end Context

end Sundial
