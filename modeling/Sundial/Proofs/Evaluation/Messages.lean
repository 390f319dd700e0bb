import Sundial.Proofs.Evaluation.Steps

/-!
# Messages of faults

What a fault is can be told from how its message starts. Only undefined references have messages
that start with a `u`, and only the faults of a formula as a whole have some that start with an `f`.
So no other fault has the message that there was no value (`message_ne_noValue`).
-/

set_option autoImplicit false

namespace Sundial.RuntimeFault

/-- The fault is one of a node, and not one of the formula as a whole. -/
def isOfNode : RuntimeFault → Bool
  | notTime _ | noValue => false
  | _ => true

/-- The text starts with a character that has the property. -/
def Starts (P : Char → Prop) (s : String) : Prop := ∃ c, s.toList.head? = some c ∧ P c

variable {P : Char → Prop} {cause : RuntimeFault}

theorem Starts.append {s : String} (h : Starts P s) (t : String) : Starts P (s ++ t) := by
  obtain ⟨c, hhead, hc⟩ := h
  refine ⟨c, ?_, hc⟩
  rw [String.toList_append, List.head?_append, hhead]
  rfl

theorem starts_message (h : cause.isUndefinedReference = false) :
    Starts (fun c => c ≠ 'u' ∧ (cause.isOfNode = true → c ≠ 'f')) cause.message := by
  unfold message
  cases cause with
  | undefinedReference => cases h
  | absentPrimitive p =>
    refine .append (.append (.append (.append ?_ _) _) _) _
    cases p <;> exact ⟨_, rfl, by decide, fun _ => by decide⟩
  | argumentCount function =>
    refine .append (.append ?_ _) _
    cases function <;> exact ⟨_, rfl, by decide, fun _ => by decide⟩
  | wrongKind slot =>
    refine .append (.append (.append (.append ?_ _) _) _) _
    cases slot
    case midpointArgument => exact .append ⟨_, rfl, by decide, fun _ => by decide⟩ _
    all_goals exact ⟨_, rfl, by decide, fun _ => by decide⟩
  | notTime =>
    refine .append (.append (.append (.append ?_ _) _) _) _
    exact ⟨_, rfl, by decide, fun hnode => by cases hnode⟩
  | noValue => exact ⟨_, rfl, by decide, fun hnode => by cases hnode⟩
  | _ =>
    dsimp only
    repeat with_reducible apply Starts.append
    exact ⟨_, rfl, by decide, fun _ => by decide⟩

/-- Both faults of a formula as a whole start alike, and part at the article. -/
theorem message_notTime_ne (v : Value) : (notTime v).message ≠ noValue.message := by
  intro hsame
  have hstart : "formula produced a ".toList <+: (notTime v).message.toList := by
    unfold message
    simp only [String.toList_append, List.append_assoc]
    exact List.prefix_append _ _
  rw [hsame] at hstart
  exact absurd hstart (by decide)

theorem message_ne_of_starts (h : Starts (· ≠ 'f') cause.message) :
    cause.message ≠ noValue.message := by
  intro hsame
  obtain ⟨c, hhead, hc⟩ := h
  rw [hsame] at hhead
  exact hc (Option.some.inj hhead).symm

/-- No other fault has the message that there was no value. -/
theorem message_ne_noValue (h : cause ≠ noValue) : cause.message ≠ noValue.message := by
  cases hundefined : cause.isUndefinedReference with
  | true =>
    obtain ⟨key, rfl⟩ := exists_of_isUndefinedReference hundefined
    exact message_ne_of_starts (.append ⟨_, rfl, by decide⟩ key)
  | false =>
    cases hnode : cause.isOfNode with
    | true =>
      obtain ⟨c, hhead, -, hc⟩ := starts_message hundefined
      exact message_ne_of_starts ⟨c, hhead, hc hnode⟩
    | false =>
      cases cause with
      | notTime v => exact message_notTime_ne v
      | noValue => exact absurd rfl h
      | _ => cases hnode

end Sundial.RuntimeFault
