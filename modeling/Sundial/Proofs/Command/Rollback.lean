import Sundial.Command.Dialogue
import Sundial.Proofs.FormulaSet.Agreement

/-!
# Failed definitions are taken back

A session is `Current` if its formulas have the times that they come to afresh, on its date at its
place, as far as they all come to times. Every line of a dialogue keeps the session current: changes
evaluate the whole set again, and what is evaluated in between only adds times. A definition that
fails has been stored before, and taking it back gives the former formulas again, each with its text
and in its place (`formulas_takeBack`). Evaluated once more, they have their former times
(`Dialogue.complaint_changes_nothing`).
-/

set_option autoImplicit false

namespace Sundial

open Context (Truthful Alike)

variable {s s' : Session} {c : Context} {key text : String} {results : Ledger String Time}

/-- The keys of the formulas that a fault of the set is about. -/
def SetFault.blamed : SetFault → List String
  | cycle keys => keys
  | formula key _ => [key]

namespace Session

/-- What the stored formulas come to on the date and at the place of the session when nothing else
is known. -/
def afresh (s : Session) : Except SetFault (Ledger String Time) :=
  (s.formulas.evaluate (.new s.context.date s.context.place s.context.sky)).1

theorem afresh_congr (hformulas : s'.formulas = s.formulas)
    (hsetting : s'.context.setting = s.context.setting) : s'.afresh = s.afresh := by
  obtain ⟨hdate, hplace, hsky⟩ := Context.setting_eq_iff.1 hsetting
  rw [afresh, afresh, hformulas, hdate, hplace, hsky]

/-- The session knows nothing wrong, and its formulas have the times that they come to afresh. -/
structure Current (s : Session) : Prop where
  truthful : Truthful s.context
  times : ∀ results, s.afresh = .ok results → ∀ k ∈ s.formulas.keys,
    ∃ t, results.get? k = some t ∧ s.context.time? k = some t

/-! ## Taking a definition back -/

@[simp] theorem formulas_refresh (s : Session) : s.refresh.2.formulas = s.formulas := rfl

@[simp] theorem formulas_store (s : Session) (key text : String) :
    (s.store key text).formulas = s.formulas.put key text := rfl

@[simp] theorem context_takeBack (s : Session) (key : String) (former : Option String) :
    (s.takeBack key former).context = s.context := by
  cases former <;> rfl

/-- Taking back what was stored under a key gives the former formulas with their order and texts: a
replaced text is in its place again, and an appended key is gone. -/
theorem formulas_takeBack (h : s'.formulas = s.formulas.put key text) :
    (s'.takeBack key (s.formulas.get? key)).formulas = s.formulas := by
  cases hformer : s.formulas.get? key with
  | some former =>
    rw [takeBack, formulas_store, h]
    exact Ledger.put_put_of_get? hformer text
  | none =>
    rw [takeBack, h]
    exact Ledger.erase_put_of_none hformer text

/-! ## Evaluating the formulas again -/

theorem setting_refresh (s : Session) : s.refresh.2.context.setting = s.context.setting :=
  s.formulas.setting_evaluate s.context.clearTimes

/-- Evaluating all formulas again makes the session current, whatever the times were. -/
theorem current_refresh (h : Truthful s.context) : Current s.refresh.2 := by
  obtain ⟨hsame, halike⟩ := (Alike.clearTimes h).evaluateSet s.formulas
  have hafresh : s.refresh.2.afresh = s.afresh := afresh_congr rfl s.setting_refresh
  refine ⟨halike.truthful', fun results hresults => ?_⟩
  rw [hafresh, afresh, ← hsame] at hresults
  exact (FormulaSet.exists_time_of_evaluate hresults).2

/-- A definition that fails leaves the formulas, the date and the place alone. -/
theorem unchanged_of_define {e : Rejection} (h : (s.define key text).1 = .error e) :
    (s.define key text).2.formulas = s.formulas ∧
      (s.define key text).2.context.setting = s.context.setting := by
  rw [define] at h ⊢
  split
  · exact ⟨rfl, rfl⟩
  next hvalid =>
    rw [if_neg hvalid] at h
    have hstored := formulas_refresh (s.store key text)
    have hsetting := setting_refresh (s.store key text)
    rcases hrun : (s.store key text).refresh with ⟨e' | ⟨⟩, s'⟩ <;> rw [hrun] at hstored hsetting
    · refine ⟨formulas_takeBack hstored, ?_⟩
      exact (setting_refresh _).trans (by rw [context_takeBack]; exact hsetting)
    · rw [hrun] at h
      cases h

/-- The keys of the formulas that make the set fail when the text is stored under the key; none if
the text does not pass the check, or if nothing fails. -/
def blames (s : Session) (key text : String) : Option (List String) :=
  match (s.define key text).1 with
  | .error (.set fault) => some fault.blamed
  | _ => none

/-- What makes the set fail has passed the check. -/
theorem exists_of_blames {blamed : List String} (h : s.blames key text = some blamed) :
    (Formula.judge (s.scopeOf key) text).isValid = true ∧
      ∃ fault, (s.define key text).1 = .error (.set fault) ∧ fault.blamed = blamed := by
  rw [blames] at h
  split at h
  next fault hdefine =>
    refine ⟨?_, fault, hdefine, Option.some.inj h⟩
    rw [define] at hdefine
    split at hdefine
    · cases hdefine
    next hvalid => simpa using hvalid
  next => cases h

end Session

open Session (Current)

namespace Session.Current

/-- Two current sessions with the same formulas, date and place have the same times. -/
theorem time?_eq (h : Current s) (h' : Current s') (hformulas : s'.formulas = s.formulas)
    (hsetting : s'.context.setting = s.context.setting) (hresults : s.afresh = .ok results) :
    ∀ k ∈ s.formulas.keys, s'.context.time? k = s.context.time? k := by
  intro k hk
  obtain ⟨t, ht, htime⟩ := h.times results hresults k hk
  have hresults' : s'.afresh = .ok results := (afresh_congr hformulas hsetting).trans hresults
  obtain ⟨t', ht', htime'⟩ := h'.times results hresults' k (hformulas ▸ hk)
  rw [htime, htime', ← ht, ← ht']

/-- Work in the context that takes no time away leaves the session current. -/
theorem work (h : Current s) (htruthful : Truthful c) (hsetting : c.setting = s.context.setting)
    (hkept : ∀ k t, s.context.time? k = some t → c.time? k = some t) :
    Current { s with context := c } where
  truthful := htruthful
  times results hresults k hk := by
    have hafresh : ({ s with context := c } : Session).afresh = s.afresh :=
      afresh_congr rfl hsetting
    rw [hafresh] at hresults
    obtain ⟨t, ht, htime⟩ := h.times results hresults k hk
    exact ⟨t, ht, hkept k t htime⟩

/-! ## Lines of a dialogue -/

theorem evaluate (h : Current s) (text : String) : Current (s.evaluate text).2 := by
  rw [Session.evaluate]
  split
  next f hjudge =>
    have hparse : Formula.parse text = .ok f := by
      rw [Formula.judge] at hjudge
      split at hjudge <;> simp_all
    exact h.work (h.truthful.evaluate hparse) (f.setting_evaluate s.context)
      fun k t ht => (f.kept_evaluate s.context k).time? ht
  next => exact h

theorem define (h : Current s) (key text : String) : Current (s.define key text).2 := by
  rw [Session.define]
  split
  · exact h
  · have hrefreshed : Current (s.store key text).refresh.2 := current_refresh h.truthful
    rcases hrun : (s.store key text).refresh with ⟨e | ⟨⟩, s'⟩
    · -- The attempt has taken times away, but the former formulas are evaluated once more.
      rw [hrun] at hrefreshed
      apply current_refresh
      rw [context_takeBack]
      exact hrefreshed.truthful
    · rw [hrun] at hrefreshed
      exact hrefreshed

theorem change (_h : Current s) (change : Session.Change) : Current (s.change change).2 := by
  apply current_refresh
  cases change <;> exact .of_forgotten rfl rfl rfl

theorem reset (h : Current s) : Current s.reset where
  truthful := h.truthful.withoutResults _
  times _ _ _ hk := absurd hk List.not_mem_nil

theorem contextLines (h : Current s) : Current (Dialogue.contextLines s).2 :=
  h.work h.truthful.sunTimes.2 s.context.sunTimes_setting fun k _ ht =>
    (congrArg (fun times => times.get? k) s.context.sunTimes_times).trans ht

end Session.Current

namespace Dialogue

variable {d d' : Dialogue} {rest report : String}

theorem current_answerDefine (h : Current s) (rest : String) :
    Current (answerDefine s rest).2 := by
  rw [answerDefine]
  split
  · exact h
  next key text _ =>
    dsimp only
    split
    · exact h
    · have hdefined := h.define (keyOf key) (Text.trim text)
      rcases hrun : s.define (keyOf key) (Text.trim text) with ⟨e | (_ | t), s'⟩ <;>
        rw [hrun] at hdefined <;> exact hdefined

theorem current_answerChange (h : Current s) (rest : String) :
    Current (answerChange s rest).2 := by
  -- Unfolded as it stands, since its equation takes long to be made.
  delta answerChange
  dsimp only
  split
  · exact h
  next change _ =>
    have hchanged := h.change change
    rcases hrun : s.change change with ⟨e | ⟨⟩, s'⟩ <;> rw [hrun] at hchanged <;>
      exact hchanged.contextLines

theorem current_goOn {r : List Said × Session} (h : Current r.2)
    (hnext : (goOn r).next = some d') : Current d'.session := by
  obtain rfl := Option.some.inj hnext
  exact h

theorem current_answerInstruction (h : Current s) (i : Instruction)
    (hnext : (answerInstruction s i).next = some d') : Current d'.session := by
  cases i with
  | quit => cases hnext
  | define rest => exact current_goOn (current_answerDefine h rest) hnext
  | change rest => exact current_goOn (current_answerChange h rest) hnext
  | showContext => exact current_goOn h.contextLines hnext
  | reset => exact current_goOn h.reset hnext
  | help => exact current_goOn (r := (_, s)) h hnext
  | listKeys => exact current_goOn (r := (_, s)) h hnext
  | unknown => exact current_goOn (r := (_, s)) h hnext

theorem current_answerFormula (h : Current s) (text : String)
    (hnext : (answerFormula s text).next = some d') : Current d'.session := by
  have hevaluated := h.evaluate text
  rw [answerFormula] at hnext
  rcases hrun : s.evaluate text with ⟨e | t, s'⟩ <;> rw [hrun] at hnext hevaluated <;>
    exact current_goOn (r := (_, s')) hevaluated hnext

theorem current_answer (h : Current d.session) {line : String}
    (hnext : (d.answer line).next = some d') : Current d'.session := by
  rw [answer] at hnext
  dsimp only at hnext
  split at hnext
  · exact Option.some.inj hnext ▸ h
  split at hnext
  · exact current_answerInstruction h _ hnext
  split at hnext
  · exact current_answerFormula h _ hnext
  · exact Option.some.inj hnext ▸ h

/-! ## Whole dialogues -/

/-- Where a dialogue stands after the lines, unless it has ended before. -/
def after (d : Dialogue) : List String → Option Dialogue
  | [] => some d
  | line :: lines => (d.answer line).next.bind fun d => after d lines

theorem current_after (h : Current d.session) {lines : List String}
    (hafter : d.after lines = some d') : Current d'.session := by
  induction lines generalizing d with
  | nil =>
    obtain rfl := Option.some.inj hafter
    exact h
  | cons line lines ih =>
    obtain ⟨next, hnext, hafter⟩ := Option.bind_eq_some_iff.1 hafter
    exact ih (current_answer h hnext) hafter

theorem current_new (date : Date) (place : Place) (sky : Sky) :
    Current (new (.new date place sky)).session where
  truthful := .of_forgotten rfl rfl rfl
  times _ _ _ hk := absurd hk List.not_mem_nil

/-- A definition that is answered with a complaint leaves formulas, date and place alone. -/
theorem unchanged_of_complaint (h : complaint report ∈ (answerDefine s rest).1) :
    (answerDefine s rest).2.formulas = s.formulas ∧
      (answerDefine s rest).2.context.setting = s.context.setting := by
  rw [answerDefine] at h ⊢
  split
  · exact ⟨rfl, rfl⟩
  next key text hcut =>
    rw [hcut] at h
    dsimp only at h ⊢
    split
    · exact ⟨rfl, rfl⟩
    next hkey =>
      rw [if_neg hkey] at h
      rcases hrun : s.define (keyOf key) (Text.trim text) with ⟨e | (_ | t), s'⟩
      · have hunchanged := Session.unchanged_of_define (congrArg Prod.fst hrun)
        rw [hrun] at hunchanged
        exact hunchanged
      · rw [hrun] at h
        cases h
      · rw [hrun] at h
        cases List.mem_singleton.1 h

/-- A definition that fails is answered with a complaint. -/
theorem complaint_of_define {left right : String} {e : Rejection}
    (hcut : Text.cutAt '=' rest = some (left, right)) (hkey : isKey (keyOf left) = true)
    (h : (s.define (keyOf left) (Text.trim right)).1 = .error e) :
    complaint e.report ∈ (answerDefine s rest).1 := by
  rw [answerDefine, hcut]
  dsimp only
  rw [if_neg (by simp [hkey])]
  rcases hrun : s.define (keyOf left) (Text.trim right) with ⟨r, s'⟩
  rw [hrun] at h
  dsimp only at h
  subst h
  exact List.mem_singleton_self _

/-- **Definitions that fail change nothing.** Wherever a dialogue has come to, if the stored
formulas all come to times afresh, on the date and at the place of the session, then these are the
times that the session has for them; and a definition that is answered with a complaint leaves the
formulas with their order and texts, the date and the place, and the time of every stored formula
as they were. -/
theorem complaint_changes_nothing {date : Date} {place : Place} {sky : Sky} {lines : List String}
    (hd : (new (.new date place sky)).after lines = some d)
    (hresults : d.session.afresh = .ok results) :
    (∀ k ∈ d.session.formulas.keys,
      ∃ t, results.get? k = some t ∧ d.session.context.time? k = some t) ∧
    ∀ rest report, complaint report ∈ (answerDefine d.session rest).1 →
      (answerDefine d.session rest).2.formulas = d.session.formulas ∧
      (answerDefine d.session rest).2.context.setting = d.session.context.setting ∧
      ∀ k ∈ d.session.formulas.keys,
        (answerDefine d.session rest).2.context.time? k = d.session.context.time? k := by
  have hcurrent := current_after (current_new date place sky) hd
  refine ⟨hcurrent.times results hresults, fun rest report hcomplaint => ?_⟩
  obtain ⟨hformulas, hsetting⟩ := unchanged_of_complaint hcomplaint
  have hafterwards := current_answerDefine hcurrent rest
  exact ⟨hformulas, hsetting, hcurrent.time?_eq hafterwards hformulas hsetting hresults⟩

/-- Night begins halfway between dusk and midnight, as long as dusk is less than an hour from
sunset. -/
def evening : List String :=
  ["sunset\n", ":let dusk = sunset\n",
    ":let night = if ((sunset - @dusk) < 1h) \x7b midpoint(@dusk, solar_midnight) \x7d\n"]

/-- A day on which the sun is up from six to six and never far below the horizon. -/
def brightDay : Context :=
  .new (.ofNumbers 2026 3 20) ⟨31.8, 35.2, 800.0, 7200⟩
    { sunTimes := fun _ _ => ⟨some ⟨21600000000000, 0⟩, some ⟨64800000000000, 0⟩, none, none,
        ⟨43200000000000, 0⟩, ⟨86400000000000, 0⟩, 720.0⟩
      crossings := fun _ _ _ => ⟨none, none⟩ }

/-- A definition that is tried, with the keys whose formulas it makes fail. -/
structure Attempt where
  key : String
  text : String
  blamed : List String

def Attempt.line (a : Attempt) : String := a.key ++ " = " ++ a.text

/-- A circle, a time that the day does not have under an old key and under a new one, and a time
that a formula which depends on it does not take. -/
def attempts : List Attempt :=
  [⟨"dusk", "@night", ["dusk", "night"]⟩, ⟨"dusk", "civil_dawn", ["dusk"]⟩,
    ⟨"watch", "civil_dawn", ["watch"]⟩, ⟨"dusk", "sunrise", ["night"]⟩]

/-- All attempts pass the check of their text, are stored, make the set fail and are taken back. -/
theorem complaint_after_evening : ∃ d results, (new brightDay).after evening = some d ∧
    d.session.afresh = .ok results ∧
    d.session.formulas.entries = [("dusk", "sunset"),
      ("night", "if ((sunset - @dusk) < 1h) \x7b midpoint(@dusk, solar_midnight) \x7d")] ∧
    d.session.context.time? "dusk" = some ⟨64800000000000, 0⟩ ∧
    d.session.context.time? "night" = some ⟨75600000000000, 0⟩ ∧
    (∀ k ∈ d.session.formulas.keys,
      ∃ t, results.get? k = some t ∧ d.session.context.time? k = some t) ∧
    ∀ a ∈ attempts,
      (Formula.judge (d.session.scopeOf a.key) a.text).isValid = true ∧
      (∃ fault, (d.session.define a.key a.text).1 = .error (.set fault) ∧
        fault.blamed = a.blamed ∧
        complaint fault.report ∈ (answerDefine d.session a.line).1) ∧
      (answerDefine d.session a.line).2.formulas = d.session.formulas ∧
      (answerDefine d.session a.line).2.context.setting = d.session.context.setting ∧
      ∀ k ∈ d.session.formulas.keys,
        (answerDefine d.session a.line).2.context.time? k = d.session.context.time? k := by
  obtain ⟨hstored, hblames⟩ : ((new brightDay).after evening).map (fun d =>
      (d.session.afresh.toBool, d.session.formulas.entries,
        ["dusk", "night"].map d.session.context.time?)) =
      some (true, [("dusk", "sunset"),
          ("night", "if ((sunset - @dusk) < 1h) \x7b midpoint(@dusk, solar_midnight) \x7d")],
        [some ⟨64800000000000, 0⟩, some ⟨75600000000000, 0⟩]) ∧
      ((new brightDay).after evening).map (fun d =>
        attempts.map fun a => d.session.blames a.key a.text) =
      some (attempts.map fun a => some a.blamed) := by
    decide +kernel
  have hlines : ∀ a ∈ attempts, Text.cutAt '=' a.line = some (a.key ++ " ", " " ++ a.text) ∧
      isKey (keyOf (a.key ++ " ")) = true ∧ keyOf (a.key ++ " ") = a.key ∧
      Text.trim (" " ++ a.text) = a.text := by
    decide +kernel
  obtain ⟨d, hd, hfound⟩ := Option.map_eq_some_iff.1 hstored
  simp only [Prod.mk.injEq, List.map_cons, List.map_nil, List.cons.injEq, and_true] at hfound
  obtain ⟨hafresh, hentries, hdusk, hnight⟩ := hfound
  rw [hd, Option.map_some, Option.some.injEq, List.map_inj_left] at hblames
  obtain ⟨results, hresults⟩ : ∃ results, d.session.afresh = .ok results := by
    cases hrun : d.session.afresh with
    | error e =>
      rw [hrun] at hafresh
      cases hafresh
    | ok results => exact ⟨results, rfl⟩
  obtain ⟨htimes, hcomplaints⟩ := complaint_changes_nothing hd hresults
  refine ⟨d, results, hd, hresults, hentries, hdusk, hnight, htimes, fun a ha => ?_⟩
  obtain ⟨hvalid, fault, hdefine, hblamed⟩ := Session.exists_of_blames (hblames a ha)
  obtain ⟨hcut, hkey, hleft, hright⟩ := hlines a ha
  have hsaid : complaint fault.report ∈ (answerDefine d.session a.line).1 := by
    rw [← hleft, ← hright] at hdefine
    exact complaint_of_define hcut hkey hdefine
  exact ⟨hvalid, ⟨fault, hdefine, hblamed, hsaid⟩, hcomplaints a.line _ hsaid⟩

end Dialogue

end Sundial
