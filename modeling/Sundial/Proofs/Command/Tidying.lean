import Sundial.Command.Tidy
import Sundial.Proofs.Printing.RoundTrip

/-!
# Tidying a tidy file

Tidying stops after one step as far as it goes: a tidy text that is tidied again stays as it is. But
not every tidy text is a formula, as the canonical text of some formulas cannot be read.
-/

set_option autoImplicit false

namespace Sundial

open Formula

variable {source out : String}

theorem tidy_eq_ok : tidy source = .ok out ↔ ∃ f, parse source = .ok f ∧ f.text ++ "\n" = out := by
  rw [tidy]
  cases parse source with
  | error ds => simp [Except.map]
  | ok f => simp [Except.map]

/-- A line feed behind it does not change what a text prints. -/
theorem Prints.scans_line {cs : List Char} {ws : List Word} (h : Prints cs ws) :
    Scans (cs ++ ['\n']) ws := by
  have hline : Scans ['\n'] [] := scans_nil.blank rfl
  have hbreaks : Breaks ['\n'] := by
    refine ⟨⟨?_, ?_⟩, ?_⟩
    · rintro c ⟨⟩
      rfl
    · rintro c ⟨⟩
      decide
    · rintro c ⟨⟩
  have hscan := h ['\n'] [] hbreaks hline
  rwa [List.append_nil] at hscan

/-- The tidy text of a formula is read as a formula exactly if no number in the formula is infinite
and no operation stands bare in a condition. It is read as the same formula then, positions aside,
and is tidy already. -/
theorem tidy_tidied (h : tidy source = .ok out) : ∃ f, parse source = .ok f ∧
    ((∃ again, tidy out = .ok again) ↔ ∀ g ∈ f.nodes, g.reprintable = true) ∧
    (∀ f', parse out = .ok f' → f'.unplaced = f.unplaced) ∧
    ∀ again, tidy out = .ok again → again = out := by
  obtain ⟨f, hparse, rfl⟩ := tidy_eq_ok.1 h
  have hlegible := legible_of_parse hparse
  -- Reading only sees words, and the line feed is none.
  have hscans : Scans (f.text ++ "\n").toList (canonicalWords f) := by
    rw [String.toList_append]
    exact (prints_text hlegible).scans_line
  obtain ⟨hread, hsame⟩ := parse_of_scans hlegible hscans
  refine ⟨f, hparse, Iff.trans ⟨?_, ?_⟩ hread, fun f' hf' => (hsame f' hf').1, ?_⟩
  · rintro ⟨again, hagain⟩
    obtain ⟨f', hf', -⟩ := tidy_eq_ok.1 hagain
    exact ⟨f', hf'⟩
  · rintro ⟨f', hf'⟩
    exact ⟨_, tidy_eq_ok.2 ⟨f', hf', rfl⟩⟩
  · intro again hagain
    obtain ⟨f', hf', rfl⟩ := tidy_eq_ok.1 hagain
    rw [(hsame f' hf').2]

def seasonal : String := "if(season==\"winter\")\x7bsunrise\x7delse\x7bsunset\x7d"

theorem tidy_seasonal : ∃ out, tidy seasonal = .ok out ∧ tidy out = .ok out := by
  have htidy : (tidy seasonal).toOption.map (fun out => (tidy out).toOption.isSome) =
      some true := by
    decide +kernel
  cases hout : tidy seasonal with
  | error ds =>
    rw [hout] at htidy
    cases htidy
  | ok out =>
    rw [hout] at htidy
    obtain ⟨-, -, -, -, hstable⟩ := tidy_tidied hout
    cases hagain : tidy out with
    | error ds =>
      rw [Except.toOption, Option.map_some, hagain] at htidy
      cases htidy
    | ok again => exact ⟨out, rfl, by rw [hagain, hstable again hagain]⟩

/-- The condition needs the parentheses around its operation, and the tidy text has none. -/
theorem tidy_bareDifference :
    ∃ out, tidy bareDifference = .ok out ∧ ∀ again, tidy out ≠ .ok again := by
  have htidy : (tidy bareDifference).toOption.map (fun out => (tidy out).toOption.isSome) =
      some false := by
    decide +kernel
  cases hout : tidy bareDifference with
  | error ds =>
    rw [hout] at htidy
    cases htidy
  | ok out =>
    rw [hout] at htidy
    refine ⟨out, rfl, fun again hagain => ?_⟩
    rw [Except.toOption, Option.map_some, hagain] at htidy
    cases htidy

end Sundial
