import Sundial.Proofs.Evaluation.SkyKnowledge
import Sundial.Proofs.Sky.Offsets

/-!
# Evaluation in another offset

The offset of a place only changes how times are shown. Two contexts at one spot with the same date
and sky hold the `SameInstants` if what they know of the sky is right and the times under each key,
and the results of each call, are one instant in both. `Matches` says of two computations that from
such contexts they give values of one kind, with times at one instant, report the same faults and
end in such contexts again. A formula matches itself (`selfMatching`), and so it evaluates to one
instant in both contexts or to the same faults (`evaluate_offset`).
-/

set_option autoImplicit false

namespace Sundial

open Evaluating
open Context (KnowsSky Used)
open Time (SameInstant)

/-! ## Values and contexts -/

theorem rel_getD {α : Type} {R : α → α → Prop} {o o' : Option α} {a a' : α}
    (h : Option.Rel R o o') (ha : R a a') : R (o.getD a) (o'.getD a') := by
  cases h with
  | some hthere => exact hthere
  | none => exact ha

/-- The values are equal but for the offset of a time. -/
inductive Value.SameInstant : Value → Value → Prop
  | time {t t' : Time} (h : t.SameInstant t') : SameInstant (.time t) (.time t')
  | duration (minutes : Float) : SameInstant (.duration minutes) (.duration minutes)
  | number (x : Float) : SameInstant (.number x) (.number x)
  | string (s : String) : SameInstant (.string s) (.string s)
  | boolean (b : Bool) : SameInstant (.boolean b) (.boolean b)

theorem Value.SameInstant.refl (v : Value) : v.SameInstant v := by
  cases v with
  | time t => exact .time (.refl t)
  | duration minutes => exact .duration minutes
  | number x => exact .number x
  | string s => exact .string s
  | boolean b => exact .boolean b

/-- The contexts differ in the offset of the place and of the times, and in how much they know of
the sky. -/
structure Context.SameInstants (c c' : Context) : Prop where
  date : c'.date = c.date
  place : c.place.SameSpot c'.place
  sky : c'.sky = c.sky
  ignores : c.sky.IgnoresOffset
  knows : KnowsSky c
  knows' : KnowsSky c'
  times : ∀ key, Option.Rel SameInstant (c.time? key) (c'.time? key)
  results : ∀ call, Option.Rel SameInstant (c.result? call) (c'.result? call)
  faults : c'.faults = c.faults

namespace Context.SameInstants

variable {c c' : Context} {t t' : Time}

/-- Nothing but the sky, the date and the place decides whether what is known is right. -/
theorem keep (h : SameInstants c c') {times times' results results' : Ledger String Time}
    {faults faults' : List RuntimeError}
    (htimes : ∀ key, Option.Rel SameInstant (times.get? key) (times'.get? key))
    (hresults : ∀ call, Option.Rel SameInstant (results.get? call) (results'.get? call))
    (hfaults : faults' = faults) :
    SameInstants { c with times := times, results := results, faults := faults }
      { c' with times := times', results := results', faults := faults' } :=
  { h with
    knows := ⟨h.knows.sun, h.knows.angles⟩
    knows' := ⟨h.knows'.sun, h.knows'.angles⟩
    times := htimes
    results := hresults
    faults := hfaults }

theorem fail (h : SameInstants c c') (x : RuntimeError) :
    SameInstants { c with faults := c.faults ++ [x] } { c' with faults := c'.faults ++ [x] } :=
  h.keep h.times h.results (congrArg (· ++ [x]) h.faults)

theorem withoutFaults (h : SameInstants c c') :
    SameInstants { c with faults := [] } { c' with faults := [] } :=
  h.keep h.times h.results rfl

theorem remember (h : SameInstants c c') (key : String) (ht : t.SameInstant t') :
    SameInstants (c.remember key t) (c'.remember key t') := by
  refine h.keep (fun k => ?_) h.results h.faults
  rw [Ledger.get?_putNew, Ledger.get?_putNew]
  split
  · exact .some (rel_getD (h.times key) ht)
  · exact h.times k

theorem keepResult (h : SameInstants c c') (call : String) (ht : t.SameInstant t') :
    SameInstants (c.keepResult call t) (c'.keepResult call t') := by
  refine h.keep h.times (fun k => ?_) h.faults
  rw [Ledger.get?_put, Ledger.get?_put]
  split
  · exact .some ht
  · exact h.results k

/-- Learning from the sky changes nothing else. -/
theorem learn (h : SameInstants c c') {sun sun' : Option SunTimes}
    {angles angles' : Ledger UInt64 Crossings} {asked asked' : List Question}
    (hk : KnowsSky { c with sun := sun, angles := angles, asked := asked })
    (hk' : KnowsSky { c' with sun := sun', angles := angles', asked := asked' }) :
    SameInstants { c with sun := sun, angles := angles, asked := asked }
      { c' with sun := sun', angles := angles', asked := asked' } :=
  { h with knows := hk, knows' := hk' }

theorem sunTimes (h : SameInstants c c') : c.sunTimes.1.SameInstants c'.sunTimes.1 ∧
    SameInstants c.sunTimes.2 c'.sunTimes.2 := by
  obtain ⟨hanswer, hknows⟩ := h.knows.sunTimes
  obtain ⟨hanswer', hknows'⟩ := h.knows'.sunTimes
  have hlearnt (d : Context) :
      ∃ sun asked, d.sunTimes.2 = { d with sun := sun, asked := asked } := by
    rw [Context.sunTimes]
    cases d.sun <;> exact ⟨_, _, rfl⟩
  obtain ⟨sun, asked, hafter⟩ := hlearnt c
  obtain ⟨sun', asked', hafter'⟩ := hlearnt c'
  rw [hafter] at hknows ⊢
  rw [hafter'] at hknows' ⊢
  refine ⟨?_, h.learn hknows hknows'⟩
  rw [hanswer, hanswer', h.sky, h.date]
  exact h.ignores.sunTimes h.place c.date

theorem crossings (h : SameInstants c c') (degrees : Float) :
    (c.crossings degrees).1.SameInstants (c'.crossings degrees).1 ∧
      SameInstants (c.crossings degrees).2 (c'.crossings degrees).2 := by
  obtain ⟨hanswer, hknows⟩ := h.knows.crossings degrees
  obtain ⟨hanswer', hknows'⟩ := h.knows'.crossings degrees
  have hlearnt (d : Context) : ∃ angles asked,
      (d.crossings degrees).2 = { d with angles := angles, asked := asked } := by
    rw [Context.crossings]
    cases d.angles.get? degrees.toBits <;> exact ⟨_, _, rfl⟩
  obtain ⟨angles, asked, hafter⟩ := hlearnt c
  obtain ⟨angles', asked', hafter'⟩ := hlearnt c'
  rw [hafter] at hknows ⊢
  rw [hafter'] at hknows' ⊢
  refine ⟨?_, h.learn hknows hknows'⟩
  rw [hanswer, hanswer', h.sky, h.date]
  exact h.ignores.crossings h.place c.date degrees

end Context.SameInstants

/-! ## Computations side by side -/

namespace Evaluating

variable {α β : Type} {R : α → α → Prop} {S : β → β → Prop}

/-- From contexts with the same instants both computations come to related values, and the contexts
have the same instants again. -/
def Matches (R : α → α → Prop) (m m' : Evaluating α) : Prop :=
  ∀ e e', e.context.SameInstants e'.context → R (m.run e).1 (m'.run e').1 ∧
    (m.run e).2.context.SameInstants (m'.run e').2.context

theorem matches_pure {a a' : α} (h : R a a') : Matches R (pure a) (pure a') :=
  fun _ _ he => ⟨h, he⟩

theorem matches_none : Matches (Option.Rel R) (pure none) (pure none) := matches_pure .none

theorem Matches.bind {m m' : Evaluating α} {k k' : α → Evaluating β} (h : Matches R m m')
    (hk : ∀ a a', R a a' → Matches S (k a) (k' a')) : Matches S (m >>= k) (m' >>= k') := by
  intro e e' he
  obtain ⟨hvalue, hcontext⟩ := h e e' he
  rw [run_bind, run_bind]
  exact hk _ _ hvalue _ _ hcontext

theorem matches_context {k k' : Context → Evaluating α}
    (h : ∀ c c', c.SameInstants c' → Matches R (k c) (k' c')) :
    Matches R (context >>= k) (context >>= k') :=
  fun e e' he => h e.context e'.context he e e' he

theorem matches_fail (cause : RuntimeFault) (pos : Position) :
    Matches (Option.Rel R) (fail cause pos) (fail cause pos) :=
  fun _ _ he => ⟨.none, he.fail _⟩

/-- What does not look at the context is the same on both sides. -/
theorem matches_settled {m : Position → Evaluating (Option α)} (h : Settles m)
    (hrefl : ∀ a, R a a) (pos : Position) : Matches (Option.Rel R) (m pos) (m pos) := by
  rcases h with ⟨a, h⟩ | ⟨cause, -, h⟩
  · rw [h]
    exact matches_pure (.some (hrefl a))
  · rw [h]
    exact matches_fail cause pos

theorem matches_record (name : String) (v v' : Value) :
    Matches Eq (record name v) (record name v') :=
  fun _ _ he => ⟨rfl, he⟩

theorem matches_remember (key : String) {t t' : Time} (h : t.SameInstant t') :
    Matches Eq (remember key t) (remember key t') :=
  fun _ _ he => ⟨rfl, he.remember key h⟩

theorem matches_keepResult (call : String) {t t' : Time} (h : t.SameInstant t') :
    Matches Eq (keepResult call t) (keepResult call t') :=
  fun _ _ he => ⟨rfl, he.keepResult call h⟩

theorem matches_sunTimes : Matches SunTimes.SameInstants sunTimes sunTimes :=
  fun _ _ he => he.sunTimes

theorem matches_crossings (degrees : Float) :
    Matches Crossings.SameInstants (crossings degrees) (crossings degrees) :=
  fun _ _ he => he.crossings degrees

theorem matches_moment (p : Primitive) :
    Matches (Option.Rel SameInstant) (moment p) (moment p) := by
  unfold moment
  cases p.twilight? with
  | some twilight =>
    obtain ⟨degrees, morning⟩ := twilight
    refine (matches_crossings degrees).bind fun a a' ha => ?_
    cases morning with
    | true => exact matches_pure ha.ascending
    | false => exact matches_pure ha.descending
  | none =>
    refine matches_sunTimes.bind fun sun sun' hsun => ?_
    cases p with
    | sunrise => exact matches_pure hsun.sunrise
    | sunset => exact matches_pure hsun.sunset
    | visibleSunrise => exact matches_pure hsun.visibleSunrise
    | visibleSunset => exact matches_pure hsun.visibleSunset
    | solarNoon => exact matches_pure (.some hsun.solarNoon)
    | solarMidnight => exact matches_pure (.some hsun.solarMidnight)
    | _ => exact matches_none

theorem matches_primitive (p : Primitive) (pos : Position) :
    Matches (Option.Rel SameInstant) (primitive p pos) (primitive p pos) := by
  refine (matches_moment p).bind fun t t' ht => ?_
  cases ht with
  | some ht =>
    refine (matches_remember p.name ht).bind fun _ _ _ => ?_
    exact (matches_record p.name _ _).bind fun _ _ _ => matches_pure (.some ht)
  | none =>
    refine matches_context fun c c' hc => ?_
    rw [hc.date, hc.place.latitude]
    exact matches_fail _ pos

theorem matches_circumstance (v : Circumstance) :
    Matches Value.SameInstant (circumstance v) (circumstance v) := by
  refine matches_context fun c c' hc => ?_
  cases v with
  | latitude => exact matches_pure (hc.place.latitude ▸ .refl _)
  | longitude => exact matches_pure (hc.place.longitude ▸ .refl _)
  | elevation => exact matches_pure (hc.place.elevation ▸ .refl _)
  | month => exact matches_pure (hc.date ▸ .refl _)
  | season =>
    dsimp only
    rw [hc.date, hc.place.latitude]
    exact matches_pure (.refl _)
  | dayLength =>
    refine matches_sunTimes.bind fun sun sun' hsun => ?_
    rw [hsun.dayLength]
    exact matches_pure (.refl _)

theorem matches_solarTime (degrees : Float) (direction : Direction) (pos : Position) :
    Matches (Option.Rel SameInstant) (solarTime degrees direction pos)
      (solarTime degrees direction pos) := by
  refine (matches_crossings degrees).bind fun a a' ha => ?_
  have hside : Option.Rel SameInstant (if direction.isMorning then a.ascending else a.descending)
      (if direction.isMorning then a'.ascending else a'.descending) := by
    split
    · exact ha.ascending
    · exact ha.descending
  generalize (if direction.isMorning then a.ascending else a.descending) = o at hside
  generalize (if direction.isMorning then a'.ascending else a'.descending) = o' at hside
  cases hside with
  | some ht => exact matches_pure (.some ht)
  | none =>
    refine matches_context fun c c' hc => ?_
    rw [hc.date, hc.place.latitude]
    exact matches_fail _ pos

/-! ## Reckoning with values -/

section Values

variable {v v' l l' r r' : Value} {o o' : Option Value} {t t' : Time}

theorem matches_shift (h : t.SameInstant t') (minutes : Float) (pos : Position) :
    Matches (Option.Rel SameInstant) (shift t minutes pos) (shift t' minutes pos) := by
  have hmoved := h.addMinutes? minutes
  unfold shift
  generalize t.addMinutes? minutes = o at hmoved
  generalize t'.addMinutes? minutes = o' at hmoved
  cases hmoved with
  | some hmoved => exact matches_pure (.some hmoved)
  | none => exact matches_fail _ pos

theorem rel_map_time {o o' : Option Time} (h : Option.Rel SameInstant o o') :
    Option.Rel Value.SameInstant (o.map .time) (o'.map .time) := by
  cases h with
  | some ht => exact .some (.time ht)
  | none => exact .none

theorem matches_shiftValue (h : t.SameInstant t') (minutes : Float) (pos : Position) :
    Matches (Option.Rel Value.SameInstant) (shiftValue t minutes pos)
      (shiftValue t' minutes pos) :=
  (matches_shift h minutes pos).bind fun _ _ hmoved => matches_pure (rel_map_time hmoved)

theorem matches_hourTime {u u' : Time} (h : t.SameInstant t') (hu : u.SameInstant u')
    (count : Float) (pos : Position) :
    Matches (Option.Rel SameInstant) (hourTime (t, u) count pos) (hourTime (t', u') count pos) := by
  have hhour := h.proportionalHour? hu count
  unfold hourTime
  dsimp only
  generalize t.proportionalHour? u count = o at hhour
  generalize t'.proportionalHour? u' count = o' at hhour
  cases hhour with
  | some hhour => exact matches_pure (.some hhour)
  | none => exact matches_fail _ pos

theorem matches_expectTime (slot : Slot) (pos : Position) (h : Option.Rel Value.SameInstant o o') :
    Matches (Option.Rel SameInstant) (expectTime slot pos o) (expectTime slot pos o') := by
  cases h with
  | none => exact matches_none
  | some h =>
    cases h with
    | time ht => exact matches_pure (.some ht)
    | _ => exact matches_fail _ pos

theorem matches_expectNumber (slot : Slot) (pos : Position)
    (h : Option.Rel Value.SameInstant o o') :
    Matches (Option.Rel Eq) (expectNumber slot pos o) (expectNumber slot pos o') := by
  cases h with
  | none => exact matches_none
  | some h =>
    cases h with
    | number x => exact matches_pure (.some rfl)
    | _ => exact matches_fail _ pos

theorem matches_expectBoolean (relation : Relation) (pos : Position)
    (h : Option.Rel Value.SameInstant o o') :
    Matches (Option.Rel Eq) (expectBoolean relation pos o) (expectBoolean relation pos o') := by
  cases h with
  | none => exact matches_none
  | some h =>
    cases h with
    | boolean b => exact matches_pure (.some rfl)
    | _ => exact matches_fail _ pos

/-- Of times only the difference and the shift are taken, and neither depends on an offset. -/
theorem matches_operate (op : Operator) (pos : Position) (hl : l.SameInstant l')
    (hr : r.SameInstant r') :
    Matches (Option.Rel Value.SameInstant) (operate op pos l r) (operate op pos l' r') := by
  cases hl with
  | time hl =>
    cases hr with
    | time hr =>
      cases op with
      | sub =>
        simp only [operate, hr.minutesTo hl]
        exact matches_pure (.some (.refl _))
      | _ => exact matches_fail _ pos
    | duration d =>
      cases op with
      | add | sub => exact matches_shiftValue hl _ pos
      | _ => exact matches_fail _ pos
    | _ => cases op <;> exact matches_fail _ pos
  | _ =>
    cases hr with
    | time hr => cases op <;> exact matches_fail _ pos
    | _ => exact matches_settled (settles_operate op _ _) .refl pos

theorem matches_compare (relation : Relation) (pos : Position) (hl : l.SameInstant l')
    (hr : r.SameInstant r') :
    Matches (Option.Rel Value.SameInstant) (compare relation pos l r)
      (compare relation pos l' r') := by
  cases hl with
  | time hl => cases hr <;> exact matches_fail _ pos
  | _ =>
    cases hr with
    | time hr => exact matches_fail _ pos
    | _ => exact matches_settled (settles_compare relation _ _) .refl pos

end Values

/-! ## Calls -/

/-- Both ends of a span are the same instants. -/
def SameEnds (ends ends' : Time × Time) : Prop :=
  ends.1.SameInstant ends'.1 ∧ ends.2.SameInstant ends'.2

theorem matches_spanEnds (b : DaySpan) (pos : Position) :
    Matches (Option.Rel SameEnds) (spanEnds b pos) (spanEnds b pos) := by
  refine (matches_primitive .sunrise pos).bind fun rise rise' hrise => ?_
  refine (matches_primitive .sunset pos).bind fun set set' hset => ?_
  cases hrise with
  | none => exact matches_none
  | some hrise =>
    cases hset with
    | none => exact matches_none
    | some hset =>
      have hfinish := matches_shift hset b.margin pos
      refine (matches_shift hrise (-b.margin) pos).bind fun start start' hstart => ?_
      cases hstart with
      | none => exact hfinish.bind fun _ _ _ => matches_none
      | some hstart =>
        refine hfinish.bind fun finish finish' hfinish => ?_
        cases hfinish with
        | none => exact matches_none
        | some hfinish => exact matches_pure (.some ⟨hstart, hfinish⟩)

theorem matches_directionOf (f : Formula) :
    Matches (Option.Rel Eq) (directionOf f) (directionOf f) := by
  cases f with
  | direction pos d => exact matches_pure (.some rfl)
  | _ => exact matches_fail _ _

theorem matches_throughResults (call : String) {m m' : Evaluating (Option Time)}
    (h : Matches (Option.Rel SameInstant) m m') :
    Matches (Option.Rel Value.SameInstant) (throughResults call m) (throughResults call m') := by
  refine matches_context fun c c' hc => ?_
  have hknown := hc.results call
  generalize c.result? call = known at hknown
  generalize c'.result? call = known' at hknown
  cases hknown with
  | some ht =>
    exact (matches_record call _ _).bind fun _ _ _ => matches_pure (.some (.time ht))
  | none =>
    refine h.bind fun t t' ht => ?_
    cases ht with
    | none => exact matches_none
    | some ht =>
      refine (matches_keepResult call ht).bind fun _ _ _ => ?_
      exact (matches_record call _ _).bind fun _ _ _ => matches_pure (.some (.time ht))

end Evaluating

/-! ## Formulas -/

namespace Formula

/-- A formula comes to the same in both contexts, apart from offsets. -/
def SelfMatching (f : Formula) : Prop := Matches (Option.Rel Value.SameInstant) f.eval f.eval

variable {pos basePos : Position} {left right first second hours degrees crossing base : Formula}

theorem SelfMatching.solar (h : SelfMatching degrees) :
    SelfMatching (call pos .solar [degrees, crossing]) := by
  rw [SelfMatching, eval]
  refine matches_throughResults _ (h.bind fun v v' hv => ?_)
  refine (matches_expectNumber _ _ hv).bind fun x x' hx => ?_
  refine (matches_directionOf crossing).bind fun d d' hd => ?_
  cases hx with
  | none => exact matches_none
  | some hx =>
    cases hd with
    | none => exact matches_none
    | some hd =>
      subst hx hd
      exact matches_solarTime _ _ _

/-- What the arguments of proportional hours come to, the hour comes to. -/
theorem matches_hour {count count' : Option Float} {ends ends' : Option (Time × Time)}
    (pos : Position) : Option.Rel Eq count count' → Option.Rel SameEnds ends ends' →
    Matches (Option.Rel SameInstant)
      (match count, ends with
        | some count, some ends => hourTime ends count pos
        | _, _ => pure none)
      (match count', ends' with
        | some count, some ends => hourTime ends count pos
        | _, _ => pure none) := by
  intro hcount hends
  cases hcount with
  | none => exact matches_none
  | some hcount =>
    cases hends with
    | none => exact matches_none
    | some hends =>
      subst hcount
      exact matches_hourTime hends.1 hends.2 _ _

theorem SelfMatching.customHour (h : SelfMatching hours) (hf : SelfMatching first)
    (hs : SelfMatching second) :
    SelfMatching (call pos .proportionalHours [hours, customSpan basePos [first, second]]) := by
  rw [SelfMatching, eval]
  refine matches_throughResults _ (h.bind fun v v' hv => ?_)
  refine (matches_expectNumber _ _ hv).bind fun count count' hcount => ?_
  refine hf.bind fun v v' hv => (matches_expectTime _ _ hv).bind fun start start' hstart => ?_
  refine hs.bind fun v v' hv => (matches_expectTime _ _ hv).bind fun finish finish' hfinish => ?_
  cases hcount with
  | none => exact matches_none
  | some hcount =>
    cases hstart with
    | none => exact matches_none
    | some hstart =>
      cases hfinish with
      | none => exact matches_none
      | some hfinish =>
        subst hcount
        exact matches_hourTime hstart hfinish _ _

theorem SelfMatching.baseHour (h : SelfMatching hours)
    (hbase : ∀ basePos first second, base = customSpan basePos [first, second] → False) :
    SelfMatching (call pos .proportionalHours [hours, base]) := by
  rw [SelfMatching, eval]
  · refine matches_throughResults _ (h.bind fun v v' hv => ?_)
    refine (matches_expectNumber _ _ hv).bind fun count count' hcount => ?_
    cases base with
    | span basePos b =>
      exact (matches_spanEnds b basePos).bind fun _ _ hends => matches_hour _ hcount hends
    | _ =>
      exact (matches_fail _ _).bind fun _ _ hends => matches_hour _ hcount hends
  · exact hbase

theorem SelfMatching.midpoint (hf : SelfMatching first) (hs : SelfMatching second) :
    SelfMatching (call pos .midpoint [first, second]) := by
  rw [SelfMatching, eval]
  refine matches_throughResults _ (hf.bind fun v v' hv => ?_)
  refine (matches_expectTime _ _ hv).bind fun a a' ha => ?_
  refine hs.bind fun v v' hv => (matches_expectTime _ _ hv).bind fun b b' hb => ?_
  cases ha with
  | none => exact matches_none
  | some ha =>
    cases hb with
    | none => exact matches_none
    | some hb => exact matches_pure (.some (ha.midpoint hb))

/-- A branch is taken in both contexts or in neither. -/
theorem SelfMatching.branch {c t : Formula} {fallback : Evaluating (Option Value)}
    (hc : SelfMatching c) (ht : SelfMatching t)
    (hfallback : Matches (Option.Rel Value.SameInstant) fallback fallback) :
    Matches (Option.Rel Value.SameInstant)
      (do match ← c.eval with
          | none => return none
          | some (.boolean true) => t.eval
          | some (.boolean false) => fallback
          | some v => fail (.conditionKind v.kind) c.pos)
      (do match ← c.eval with
          | none => return none
          | some (.boolean true) => t.eval
          | some (.boolean false) => fallback
          | some v => fail (.conditionKind v.kind) c.pos) := by
  refine hc.bind fun v v' hv => ?_
  cases hv with
  | none => exact matches_none
  | some hv =>
    cases hv with
    | boolean b =>
      cases b with
      | true => exact ht
      | false => exact hfallback
    | _ => exact matches_fail _ _

theorem selfMatching (f : Formula) : SelfMatching f := by
  induction f using eval.induct with
  | case1 pos event =>
    rw [SelfMatching, eval]
    exact (matches_primitive event pos).bind fun _ _ ht => matches_pure (rel_map_time ht)
  | case2 | case3 | case4 => exact matches_pure (.some (.refl _))
  | case5 pos key =>
    rw [SelfMatching, eval]
    refine matches_context fun c c' hc => ?_
    have hstored := hc.times key
    generalize c.time? key = stored at hstored
    generalize c'.time? key = stored' at hstored
    cases hstored with
    | none => exact matches_fail _ pos
    | some ht =>
      exact (matches_record _ _ _).bind fun _ _ _ => matches_pure (.some (.time ht))
  | case6 | case7 | case8 => exact matches_fail _ _
  | case9 pos v =>
    rw [SelfMatching, eval]
    exact (matches_circumstance v).bind fun _ _ hv => matches_pure (.some hv)
  | case10 pos op left right ihl ihr =>
    rw [SelfMatching, eval]
    refine ihl.bind fun l l' hl => ihr.bind fun r r' hr => ?_
    cases hl with
    | none => exact matches_none
    | some hl =>
      cases hr with
      | none => exact matches_none
      | some hr => exact matches_operate op pos hl hr
  | case11 pos c t ihc iht =>
    rw [SelfMatching, eval]
    exact ihc.branch iht (matches_fail _ _)
  | case12 pos c t e ihc iht ihe =>
    rw [SelfMatching, eval]
    exact ihc.branch iht ihe
  | case13 pos relation left right hlogical ihl ihr =>
    rw [SelfMatching, eval, if_pos hlogical]
    refine ihl.bind fun l l' hl => (matches_expectBoolean _ _ hl).bind fun l l' hl => ?_
    cases hl with
    | none => exact matches_none
    | some hl =>
      subst hl
      -- A left side that decides the answer leaves the right side out.
      dsimp only
      split
      · exact matches_pure (.some (.refl _))
      split
      · exact matches_pure (.some (.refl _))
      · refine ihr.bind fun r r' hr => (matches_expectBoolean _ _ hr).bind fun r r' hr => ?_
        cases hr with
        | none => exact matches_none
        | some hr =>
          subst hr
          exact matches_pure (.some (.refl _))
  | case14 pos relation left right hlogical ihl ihr =>
    rw [SelfMatching, eval, if_neg hlogical]
    refine ihl.bind fun l l' hl => ihr.bind fun r r' hr => ?_
    cases hl with
    | none => exact matches_none
    | some hl =>
      cases hr with
      | none => exact matches_none
      | some hr => exact matches_compare relation pos hl hr
  | case15 pos degrees crossing ih => exact ih.solar
  | case16 pos hours basePos first second ihh ihf ihs => exact ihh.customHour ihf ihs
  | case17 pos hours base hbase ih => exact ih.baseHour hbase
  | case18 pos first second ihf ihs => exact ihf.midpoint ihs
  | case19 pos function args hsolar hcustom hhours hmidpoint =>
    rw [SelfMatching, eval]
    · exact matches_throughResults _ (matches_fail _ _)
    all_goals assumption

/-- Outcomes that are the same but for the offset of a time. -/
def SameOutcome (r r' : Except (List RuntimeError) Time) : Prop :=
  (∃ t t', r = .ok t ∧ r' = .ok t' ∧ t.SameInstant t') ∨ ∃ es, r = .error es ∧ r' = .error es

theorem sameOutcome_outcome {v v' : Option Value} (h : Option.Rel Value.SameInstant v v')
    (pos : Position) (faults : List RuntimeError) :
    SameOutcome (outcome pos v faults) (outcome pos v' faults) := by
  cases h with
  | none => cases faults <;> exact .inr ⟨_, rfl, rfl⟩
  | some h =>
    cases h with
    | time ht =>
      cases faults with
      | nil => exact .inl ⟨_, _, rfl, rfl, ht⟩
      | cons x xs => exact .inr ⟨_, rfl, rfl⟩
    | _ => exact .inr ⟨_, rfl, rfl⟩

/-- A whole evaluation comes to the same in both contexts, and they have the same instants
afterwards. -/
theorem sameOutcome_evaluate {c c' : Context} (h : c.SameInstants c') (f : Formula) :
    SameOutcome (f.evaluate c).1 (f.evaluate c').1 ∧
      (f.evaluate c).2.SameInstants (f.evaluate c').2 := by
  have hstart : (Evaluator.started ⟨c, none⟩).context.SameInstants
      (Evaluator.started ⟨c', none⟩).context := h.withoutFaults
  obtain ⟨hvalue, hcontext⟩ := f.selfMatching _ _ hstart
  refine ⟨?_, hcontext.withoutFaults⟩
  change SameOutcome (Evaluator.run ⟨c, none⟩ f).1 (Evaluator.run ⟨c', none⟩ f).1
  rw [Evaluator.run_fst, Evaluator.run_fst, hcontext.faults]
  exact sameOutcome_outcome hvalue f.pos _

end Formula

/-- Contexts over the computed sky that differ in the offset of the place, know no call results and
hold times that are the same instants under the same keys. -/
structure Context.DiffersInOffset (c c' : Context) : Prop where
  sky : c.sky = .computed
  sky' : c'.sky = .computed
  date : c'.date = c.date
  place : c.place.SameSpot c'.place
  results : c.results = .empty
  results' : c'.results = .empty
  times : ∀ key, Option.Rel SameInstant (c.time? key) (c'.time? key)

/-- Contexts in use differ in nothing but offsets then; their faults are those of no evaluation. -/
theorem Context.DiffersInOffset.sameInstants {c c' : Context} (h : c.DiffersInOffset c')
    (hc : Used c) (hc' : Used c') :
    SameInstants { c with faults := [] } { c' with faults := [] } where
  date := h.date
  place := h.place
  sky := h.sky'.trans h.sky.symm
  ignores := h.sky ▸ Sky.computed_ignoresOffset
  knows := ⟨hc.knowsSky.sun, hc.knowsSky.angles⟩
  knows' := ⟨hc'.knowsSky.sun, hc'.knowsSky.angles⟩
  times := h.times
  results call := by
    rw [Context.result?, Context.result?, h.results, h.results']
    exact .none
  faults := rfl

namespace Formula

/-- **The offset only changes how times are shown**: in two contexts that differ in offsets a
formula evaluates to one instant, or to the same faults. -/
theorem evaluate_offset {c c' : Context} (hc : Used c) (hc' : Used c') (h : c.DiffersInOffset c')
    (f : Formula) :
    (∃ t t', (f.evaluate c).1 = .ok t ∧ (f.evaluate c').1 = .ok t' ∧ t'.instant = t.instant) ∨
      ∃ es, (f.evaluate c).1 = .error es ∧ (f.evaluate c').1 = .error es :=
  (sameOutcome_evaluate (h.sameInstants hc hc') f).1

/-- `@dusk - 18min` -/
def beforeDusk : Formula :=
  binary ⟨1, 1⟩ .sub (reference ⟨1, 1⟩ "dusk") (duration ⟨1, 9⟩ 18.0 "18min")

/-- The context of the equinox with a dusk, in another offset. -/
def equinoxDusk (offset : Int) : Context :=
  (Context.new (.ofNumbers 2026 3 20) ⟨31.8, 35.2, 800.0, offset⟩ .computed).insert "dusk"
    ⟨64800000000000, offset⟩

theorem evaluate_offset_equinox : Used (equinoxDusk 7200) ∧ Used (equinoxDusk (-18000)) ∧
    (equinoxDusk 7200).DiffersInOffset (equinoxDusk (-18000)) ∧
    ((∃ t t', (beforeDusk.evaluate (equinoxDusk 7200)).1 = .ok t ∧
        (beforeDusk.evaluate (equinoxDusk (-18000))).1 = .ok t' ∧ t'.instant = t.instant) ∨
      ∃ es, (beforeDusk.evaluate (equinoxDusk 7200)).1 = .error es ∧
        (beforeDusk.evaluate (equinoxDusk (-18000))).1 = .error es) := by
  have hused (offset : Int) : Used (equinoxDusk offset) :=
    .use (.new _ _ _) (.step (.insert _ _ _))
  have hdiffers : (equinoxDusk 7200).DiffersInOffset (equinoxDusk (-18000)) := by
    refine ⟨rfl, rfl, rfl, ⟨rfl, rfl, rfl⟩, rfl, rfl, fun key => ?_⟩
    rw [equinoxDusk, equinoxDusk, Context.time?_insert, Context.time?_insert]
    split
    · exact .some rfl
    · exact .none
  exact ⟨hused _, hused _, hdiffers, evaluate_offset (hused _) (hused _) hdiffers beforeDusk⟩

end Formula

end Sundial
