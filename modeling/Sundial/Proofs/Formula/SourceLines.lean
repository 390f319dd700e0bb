import Sundial.Proofs.Formula.Places
import Sundial.Proofs.Formula.Tiling

/-!
# The source lines of diagnostics

A diagnostic about a text names a line of it and quotes that line. Lines are counted by line feeds,
so that there is one after the last line feed, too; the lines that can be quoted end at line feeds
and at the end of the text. The two agree on every line but the last, which is quoted as it stands,
and not at all where nothing is behind the last line feed: `parse_quotes`.
-/

set_option autoImplicit false

namespace Sundial

/-! ## Lines of a text -/

namespace Text

theorem splitFeeds_eq_splitOn (cs : List Char) : splitFeeds cs = cs.splitOn '\n' := by
  induction cs with
  | nil => rfl
  | cons c cs ih =>
    rw [splitFeeds, ih, List.splitOn_cons_eq_if_modifyHead]
    by_cases hc : c = '\n'
    · simp [hc]
    · cases hpieces : cs.splitOn '\n' with
      | nil => exact absurd hpieces (List.splitOn_ne_nil _ _)
      | cons l ls => simp [hc]

/-- There is one more piece than there are line feeds. -/
theorem length_splitOn_feed (cs : List Char) : (cs.splitOn '\n').length = cs.count '\n' + 1 := by
  induction cs with
  | nil => rfl
  | cons c cs ih =>
    rw [List.splitOn_cons_eq_if_modifyHead]
    by_cases hc : c = '\n'
    · simp [hc, ih]
    · simp [hc, ih]

/-- The pieces that line feeds end, and the last one, which the text ends. -/
theorem endLines_append (ended : List (List Char)) (last : List Char) :
    endLines (ended ++ [last]) = ended.map dropReturn ++ if last = [] then [] else [last] := by
  induction ended with
  | nil => rfl
  | cons l ended ih =>
    rw [List.cons_append, endLines, ih, List.map_cons, List.cons_append]
    exact List.append_ne_nil_of_right_ne_nil _ (List.cons_ne_nil _ _)

variable {text : String} {before after : List (List Char)} {line : List Char}

/-- A line that a line feed ends is quoted without its carriage return. -/
theorem line?_of_ended (h : text.toList.splitOn '\n' = before ++ line :: after)
    (hafter : after ≠ []) :
    line? text (before.length + 1) = some (String.ofList (dropReturn line)) := by
  obtain ⟨ended, last, rfl⟩ := (List.eq_nil_or_concat' after).resolve_left hafter
  have hpieces : splitFeeds text.toList = (before ++ line :: ended) ++ [last] := by
    rw [splitFeeds_eq_splitOn, h]
    simp
  rw [line?, lines, hpieces, endLines_append]
  simp

/-- The last line is quoted as it stands, unless nothing is in it. -/
theorem line?_of_last (h : text.toList.splitOn '\n' = before ++ [line]) :
    line? text (before.length + 1) = if line = [] then none else some (String.ofList line) := by
  rw [line?, lines, splitFeeds_eq_splitOn, h, endLines_append]
  split_ifs <;> simp

end Text

/-! ## Positions of tokens -/

/-- A token stands behind some front of its text. -/
theorem exists_behind_of_mem_tokens {text : String} {t : Token} (h : t ∈ tokens text) :
    ∃ k, t.pos = .behind (text.toList.take k) := by
  obtain ⟨tiles, htokens, -, hreads⟩ := exists_tiling [] text.toList
  have hsame : tokens text = tiles.map Tile.token ++ [⟨.finish, "", .behind text.toList⟩] := htokens
  rw [hsame, List.mem_append, List.mem_singleton] at h
  rcases h with h | rfl
  · obtain ⟨tile, htile, rfl⟩ := List.mem_map.1 h
    exact ⟨tile.start, (hreads tile htile).pos⟩
  · exact ⟨text.toList.length, by rw [List.take_length]⟩

/-- The line of a token is one of the text's. -/
theorem exists_line_of_mem_tokens {text : String} {t : Token} (h : t ∈ tokens text) :
    ∃ before line after, text.toList.splitOn '\n' = before ++ line :: after ∧
      t.pos.line = before.length + 1 := by
  obtain ⟨k, hpos⟩ := exists_behind_of_mem_tokens h
  have hline : t.pos.line = (text.toList.take k).count '\n' + 1 := by
    rw [hpos, Position.behind, Nat.add_comm]
  have hcount := (List.take_sublist k text.toList).count_le '\n'
  have hlength := Text.length_splitOn_feed text.toList
  generalize (text.toList.take k).count '\n' = n at hline hcount
  generalize text.toList.splitOn '\n' = pieces at hlength ⊢
  have hn : n < pieces.length := by omega
  refine ⟨pieces.take n, pieces.get ⟨n, hn⟩, pieces.drop (n + 1), ?_, ?_⟩
  · rw [List.get_eq_getElem, ← List.drop_eq_getElem_cons, List.take_append_drop]
  · rw [hline, List.length_take_of_le hn.le]

/-! ## Diagnostics -/

/-- The diagnostic names a line of the text and quotes it. A line that a line feed ends is quoted
without a carriage return at its end; the last line is quoted as it stands, and not at all if it is
empty. -/
def Diagnostic.Quotes (text : String) (d : Diagnostic) : Prop :=
  ∃ before line after, text.toList.splitOn '\n' = before ++ line :: after ∧
    d.line = some (before.length + 1) ∧
    (after ≠ [] → d.context = some (String.ofList (Text.dropReturn line))) ∧
    (after = [] → d.context = if line = [] then none else some (String.ofList line))

/-- What is reported at a token quotes the token's line. -/
theorem quotes_of_mem_tokens {ε : Type} [Fault ε] {text : String} {x : Located ε} {t : Token}
    (ht : t ∈ tokens text) (hpos : x.pos = t.pos) :
    (x.diagnostic.withSource text).Quotes text := by
  obtain ⟨before, line, after, hpieces, hline⟩ := exists_line_of_mem_tokens ht
  have hcontext : (x.diagnostic.withSource text).context =
      Text.line? text (before.length + 1) := by
    rw [← hline, ← hpos]
    rfl
  refine ⟨before, line, after, hpieces, ?_, fun hafter => ?_, fun hafter => ?_⟩
  · rw [← hline, ← hpos]
    rfl
  · rw [hcontext, Text.line?_of_ended hpieces hafter]
  · rw [hafter] at hpieces
    rw [hcontext, Text.line?_of_last hpieces]

namespace Formula

/-- Whatever keeps a text from being read is told with the line it is in, which is quoted as far as
it can be. -/
theorem parse_quotes {text : String} {ds : List Diagnostic} (h : parse text = .error ds) :
    ds ≠ [] ∧ ∀ d ∈ ds, d.Quotes text := by
  rw [parse] at h
  cases hread : read text with
  | ok f =>
    rw [hread] at h
    cases h
  | error es =>
    rw [hread] at h
    obtain rfl := Except.error.inj h
    obtain ⟨hne, hplaced⟩ := (read_placed text).2 es hread
    refine ⟨by simpa [Diagnostics.withSource] using hne, fun d hd => ?_⟩
    obtain ⟨d', hd', rfl⟩ := List.mem_map.1 hd
    obtain ⟨x, hx, rfl⟩ := List.mem_map.1 hd'
    obtain ⟨t, ht, hpos⟩ := hplaced x hx
    exact quotes_of_mem_tokens ht hpos.symm

/-- What is told about a text that is not read. -/
def refusal? (text : String) : Option (List Diagnostic) :=
  match parse text with
  | .ok _ => none
  | .error ds => some ds

theorem refusal?_eq_some {text : String} {ds : List Diagnostic} (h : refusal? text = some ds) :
    parse text = .error ds := by
  rw [refusal?] at h
  cases hparse : parse text with
  | ok f => simp [hparse] at h
  | error es => simpa [hparse] using h

/-- A word that is none, on a second line that is ended as the first one is. -/
def unknownWord : String := "sunrise -\r\nfoo\r\n"

theorem parse_quotes_unknownWord : ∃ ds, parse unknownWord = .error ds ∧
    ds.map Diagnostic.context = [some "foo"] ∧ ds ≠ [] ∧ ∀ d ∈ ds, d.Quotes unknownWord := by
  have htold : (refusal? unknownWord).map (List.map Diagnostic.context) = some [some "foo"] := by
    decide +kernel
  obtain ⟨ds, hrefusal, hcontexts⟩ := Option.map_eq_some_iff.1 htold
  have hparse := refusal?_eq_some hrefusal
  exact ⟨ds, hparse, hcontexts, parse_quotes hparse⟩

/-- The end of the text is on a line behind the last line feed. Its line is the second one, which is
empty, but the diagnostic quotes none. And a carriage return at the end of a text is quoted. -/
theorem parse_blankLastLine :
    (∃ d, parse "sunrise +\n" = .error [d] ∧ d.line = some 2 ∧
      "sunrise +\n".toList.splitOn '\n' = ["sunrise +".toList, []] ∧
      d.context ≠ some (String.ofList (Text.dropReturn []))) ∧
    ∃ d, parse "sunrise +\r" = .error [d] ∧ d.line = some 1 ∧
      "sunrise +\r".toList.splitOn '\n' = ["sunrise +\r".toList] ∧
      d.context ≠ some (String.ofList (Text.dropReturn "sunrise +\r".toList)) := by
  have hfeed : refusal? "sunrise +\n" = some [⟨.parsing, "unexpected end of formula", some 2,
      some 1, none, some "The formula stops before the expression is complete"⟩] := by
    decide +kernel
  have hreturn : refusal? "sunrise +\r" = some [⟨.parsing, "unexpected end of formula", some 1,
      some 11, some "sunrise +\r",
      some "The formula stops before the expression is complete"⟩] := by
    decide +kernel
  exact ⟨⟨_, refusal?_eq_some hfeed, rfl, by decide, by decide⟩,
    _, refusal?_eq_some hreturn, rfl, by decide, by decide⟩

end Formula

end Sundial
