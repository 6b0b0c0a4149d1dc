import OpenApiClient.Package.Docstring
import OpenApiClient.Proofs.LiteralReading
import Mathlib.Data.List.DropRight

/-! # Reading documentation strings back

A literal in triple quotes goes up to the next triple quotes, and a backslash takes the character
behind it along. A documentation string is such a literal and says its lines as they are laid out.
Only where a single line ends in quotes that make no triple, the quotes of the literal do not close
it behind them. -/
namespace OpenApiClient

namespace Text

theorem trim_eq_rdropWhile (p : Char → Bool) (cs : List Char) :
    trim p cs = (cs.dropWhile p).rdropWhile p := rfl

end Text

namespace Package

variable {cs ds rest : List Char}

/-- What a literal says behind its triple quotes, and the text behind it. Of the escapes only those
by a single sign are read. -/
def readTriple : List Char → Option (List Char × List Char)
  | '"' :: '"' :: '"' :: rest => some ([], rest)
  | '\\' :: c :: rest => do
    let said ← Text.signEscape? c
    let (more, left) ← readTriple rest
    return (said ++ more, left)
  | c :: rest => (readTriple rest).map fun (more, left) => (c :: more, left)
  | [] => none

def readDocstring (code : String) : Option (String × String) :=
  match code.toList with
  | '"' :: '"' :: '"' :: rest =>
    (readTriple rest).map fun (said, left) => (String.ofList said, String.ofList left)
  | _ => none

def doubled (cs : List Char) : List Char :=
  cs.flatMap fun c => if c = '\\' then ['\\', '\\'] else [c]

def escaped (cs : List Char) : List Char := escapeTriples (doubled cs)

def StartsTriple (cs : List Char) : Prop := ∃ more, cs = '"' :: '"' :: '"' :: more

/-- How many of the quotes at the end of a text are in no triple. -/
def strayQuotes (cs : List Char) : Nat := (cs.rtakeWhile (· == '"')).length % 3

/-! ## Escaped texts -/

theorem doubled_eq_quote_iff {more : List Char} :
    doubled cs = '"' :: more ↔ ∃ rest, cs = '"' :: rest ∧ doubled rest = more := by
  cases cs with
  | nil => simp [doubled]
  | cons c cs =>
    by_cases hslash : c = '\\'
    · simp [doubled, hslash]
    · by_cases hquote : c = '"' <;> simp [doubled, hslash, hquote]

theorem startsTriple_doubled_iff : StartsTriple (doubled cs) ↔ StartsTriple cs := by
  simp only [StartsTriple, doubled_eq_quote_iff]
  constructor
  · rintro ⟨_, _, rfl, _, rfl, more, rfl, rfl⟩
    exact ⟨more, rfl⟩
  · rintro ⟨more, rfl⟩
    exact ⟨_, _, rfl, _, rfl, more, rfl, rfl⟩

private theorem escapeTriples_cons {c : Char} (h : ¬ StartsTriple (c :: rest)) :
    escapeTriples (c :: rest) = c :: escapeTriples rest := by
  rw [escapeTriples]
  rintro more rfl rfl
  exact h ⟨more, rfl⟩

theorem escaped_triple (rest : List Char) :
    escaped ('"' :: '"' :: '"' :: rest) =
      '\\' :: '"' :: '\\' :: '"' :: '\\' :: '"' :: escaped rest := by
  simp [escaped, doubled, escapeTriples]

theorem escaped_backslash (rest : List Char) :
    escaped ('\\' :: rest) = '\\' :: '\\' :: escaped rest := by
  simp [escaped, doubled, escapeTriples]

theorem escaped_cons {c : Char} (hslash : c ≠ '\\') (h : ¬ StartsTriple (c :: rest)) :
    escaped (c :: rest) = c :: escaped rest := by
  have hdoubled : doubled (c :: rest) = c :: doubled rest := by simp [doubled, hslash]
  rw [escaped, hdoubled, escapeTriples_cons (hdoubled ▸ mt startsTriple_doubled_iff.mp h), escaped]

/-- Induction over a text by how it is escaped. -/
theorem escaped_induction {P : List Char → Prop} (nil : P [])
    (triple : ∀ rest, P rest → P ('"' :: '"' :: '"' :: rest))
    (backslash : ∀ rest, P rest → P ('\\' :: rest))
    (char : ∀ c rest, c ≠ '\\' → ¬ StartsTriple (c :: rest) → P rest → P (c :: rest))
    (cs : List Char) : P cs := by
  induction cs using escapeTriples.induct with
  | case1 rest ih => exact triple rest ih
  | case2 c rest hne ih =>
    by_cases hslash : c = '\\'
    · exact hslash ▸ backslash rest ih
    · refine char c rest hslash ?_ ih
      rintro ⟨more, heq⟩
      obtain ⟨rfl, rfl⟩ := List.cons.inj heq
      exact hne more rfl rfl
  | case3 => exact nil

theorem escaped_eq_quote {more : List Char} (h : escaped cs = '"' :: more) :
    ∃ rest, cs = '"' :: rest ∧ escaped rest = more := by
  induction cs using escaped_induction with
  | nil => simp [escaped, doubled, escapeTriples] at h
  | triple rest => simp [escaped_triple] at h
  | backslash rest => simp [escaped_backslash] at h
  | char c rest hslash hc =>
    rw [escaped_cons hslash hc] at h
    obtain ⟨rfl, rfl⟩ := List.cons.inj h
    exact ⟨rest, rfl, rfl⟩

private theorem not_startsTriple_escaped (cs : List Char) : ¬ StartsTriple (escaped cs) := by
  rintro ⟨more, h⟩
  obtain ⟨_, rfl, h1⟩ := escaped_eq_quote h
  obtain ⟨_, rfl, h2⟩ := escaped_eq_quote h1
  obtain ⟨rest, rfl, -⟩ := escaped_eq_quote h2
  simp [escaped_triple] at h

theorem getLast?_escaped (cs : List Char) : (escaped cs).getLast? = cs.getLast? := by
  induction cs using escaped_induction with
  | nil => rfl
  | triple rest ih => simp [escaped_triple, List.getLast?_cons, ih]
  | backslash rest ih => simp [escaped_backslash, List.getLast?_cons, ih]
  | char c rest hslash hc ih => simp [escaped_cons hslash hc, List.getLast?_cons, ih]

/-- No quote at the end of the one text stands before a quote at the start of the other one. -/
def Apart (cs ds : List Char) : Prop := cs.getLast? ≠ some '"' ∨ ds.head? ≠ some '"'

theorem Apart.of_cons {c : Char} (h : Apart (c :: rest) ds) : Apart rest ds := by
  refine h.imp_left fun hlast hrest => hlast ?_
  simp [List.getLast?_cons, hrest]

theorem Apart.escaped (h : Apart cs ds) : Apart (escaped cs) ds := by
  rwa [Apart, getLast?_escaped]

theorem Apart.startsTriple {c : Char} (h : Apart (c :: rest) ds)
    (htriple : StartsTriple (c :: rest ++ ds)) : StartsTriple (c :: rest) := by
  obtain ⟨more, heq⟩ := htriple
  match rest with
  | [] => simp_all [Apart]
  | [_] => simp_all [Apart]
  | _ :: _ :: more => exact ⟨more, by simp_all⟩

theorem escaped_append (h : Apart cs ds) : escaped (cs ++ ds) = escaped cs ++ escaped ds := by
  induction cs using escaped_induction with
  | nil => rfl
  | triple rest ih =>
    simp only [List.cons_append, escaped_triple, ih h.of_cons.of_cons.of_cons]
  | backslash rest ih => simp only [List.cons_append, escaped_backslash, ih h.of_cons]
  | char c rest hslash hc ih =>
    have hstart : ¬ StartsTriple (c :: (rest ++ ds)) := mt h.startsTriple hc
    rw [List.cons_append, escaped_cons hslash hstart, ih h.of_cons, escaped_cons hslash hc,
      List.cons_append]

/-! ## Reading -/

private theorem readTriple_cons {c : Char} (hslash : c ≠ '\\') (h : ¬ StartsTriple (c :: rest)) :
    readTriple (c :: rest) = (readTriple rest).map fun (said, left) => (c :: said, left) := by
  rw [readTriple]
  · rintro more rfl rfl
    exact h ⟨more, rfl⟩
  · rintro d more rfl
    exact absurd rfl hslash

theorem readTriple_escape {c : Char} (h : Text.signEscape? c = some [c]) :
    readTriple ('\\' :: c :: rest) =
      (readTriple rest).map fun (said, left) => (c :: said, left) := by
  rw [readTriple, h]
  cases readTriple rest <;> rfl

/-- An escaped text is read back in front of what follows it. -/
theorem readTriple_escaped_append (h : Apart cs ds) :
    readTriple (escaped cs ++ ds) = (readTriple ds).map fun (said, left) => (cs ++ said, left) := by
  induction cs using escaped_induction with
  | nil => cases hds : readTriple ds <;> simp [escaped, doubled, escapeTriples, hds]
  | triple rest ih =>
    simp only [escaped_triple, List.cons_append, readTriple_escape (c := '"') rfl,
      ih h.of_cons.of_cons.of_cons, Option.map_map]
    rfl
  | backslash rest ih =>
    simp only [escaped_backslash, List.cons_append, readTriple_escape (c := '\\') rfl,
      ih h.of_cons, Option.map_map]
    rfl
  | char c rest hslash hc ih =>
    -- No triple starts here, neither in the escaped text nor over its end.
    have hnone := not_startsTriple_escaped (c :: rest)
    have hescaped := h.escaped
    rw [escaped_cons hslash hc] at hnone hescaped
    have hstart : ¬ StartsTriple (c :: (escaped rest ++ ds)) := mt hescaped.startsTriple hnone
    rw [escaped_cons hslash hc, List.cons_append, readTriple_cons hslash hstart, ih h.of_cons,
      Option.map_map]
    rfl

/-- Quotes in front of the triple at the end: those in no triple are left over, for as many of that
triple close the text in their place. -/
theorem readTriple_quotes (triples : Nat) {stray : Nat} (h : stray < 3) :
    readTriple (escaped (List.replicate (3 * triples + stray) '"') ++ ['"', '"', '"']) =
      some (List.replicate (3 * triples) '"', List.replicate stray '"') := by
  induction triples with
  | zero => match stray with | 0 | 1 | 2 => rfl
  | succ triples ih =>
    have hquotes : List.replicate (3 * (triples + 1) + stray) '"' =
        '"' :: '"' :: '"' :: List.replicate (3 * triples + stray) '"' := by
      rw [show 3 * (triples + 1) + stray = 3 * triples + stray + 1 + 1 + 1 by omega]
      simp only [List.replicate_succ]
    simp only [hquotes, escaped_triple, List.cons_append, readTriple_escape (c := '"') rfl, ih]
    simp [Nat.mul_add, List.replicate_succ]

theorem split_quotes (cs : List Char) : ∃ kept triples,
    cs = kept ++ List.replicate (3 * triples + strayQuotes cs) '"' ∧ kept.getLast? ≠ some '"' := by
  let quotes := cs.rtakeWhile (· == '"')
  have hquotes : quotes = List.replicate quotes.length '"' := List.eq_replicate_iff.mpr
    ⟨rfl, fun c hc => beq_iff_eq.mp (List.mem_rtakeWhile_imp (p := (· == '"')) (l := cs) hc)⟩
  refine ⟨cs.rdropWhile (· == '"'), quotes.length / 3, ?_, fun hlast => ?_⟩
  · rw [strayQuotes, Nat.div_add_mod, ← hquotes, List.rdropWhile_append_rtakeWhile]
  · have hne : cs.rdropWhile (· == '"') ≠ [] := fun heq => by simp [heq] at hlast
    rw [List.getLast?_eq_some_getLast hne] at hlast
    exact List.rdropWhile_last_not _ _ hne (by simpa using hlast)

theorem readTriple_escaped (cs : List Char) :
    readTriple (escaped cs ++ ['"', '"', '"']) =
      some (cs.rdrop (strayQuotes cs), List.replicate (strayQuotes cs) '"') := by
  obtain ⟨kept, triples, hcs, hkept⟩ := split_quotes cs
  have hstray : strayQuotes cs < 3 := Nat.mod_lt _ (by decide)
  generalize strayQuotes cs = stray at hcs hstray
  have hrdrop : cs.rdrop stray = kept ++ List.replicate (3 * triples) '"' := by
    rw [hcs, List.replicate_add, ← List.append_assoc]
    simpa using @List.rdrop_append_length _ (kept ++ List.replicate (3 * triples) '"')
      (List.replicate stray '"')
  rw [hrdrop, hcs, escaped_append (.inl hkept), List.append_assoc,
    readTriple_escaped_append (.inl hkept), readTriple_quotes triples hstray, Option.map_some]

/-! ## The laid-out text -/

def stripEnd (line : String) : String := String.ofList (line.toList.rdropWhile Text.isBlank)

def escapedText (s : String) : String := String.ofList (escaped s.toList)

def padded (indent : Nat) (line : String) : String :=
  if line = "" then "" else Text.spaces indent ++ line

/-- The lines between the quotes of a documentation string. The last one of several is the one on
which the quotes at the end stand. -/
def laidOut (indent : Nat) (lines : List String) : List String :=
  match lines.map stripEnd with
  | [] => []
  | [line] => [line]
  | first :: others => first :: (others.map (padded indent) ++ [Text.spaces indent])

private theorem escapeDocChars_eq (cs : List Char) :
    escapeDocChars cs = escaped (cs.rdropWhile Text.isBlank) := by
  change (escaped cs).rdropWhile Text.isBlank = _
  induction cs using List.reverseRecOn with
  | nil => rfl
  | append_singleton cs c ih =>
    by_cases hc : Text.isBlank c
    · have hquote : c ≠ '"' := by rintro rfl; simp [Text.isBlank] at hc
      have hslash : c ≠ '\\' := by rintro rfl; simp [Text.isBlank] at hc
      have hplain : escaped [c] = [c] := by simp [escaped, doubled, hslash, escapeTriples]
      rw [escaped_append (.inr (by simpa using hquote)), hplain, List.rdropWhile_concat_pos _ _ _ hc,
        ih, List.rdropWhile_concat_pos _ _ _ hc]
    · rw [List.rdropWhile_concat_neg _ _ _ hc, List.rdropWhile_eq_self_iff]
      intro hne
      have hlast := getLast?_escaped (cs ++ [c])
      rw [List.getLast?_eq_some_getLast hne, List.getLast?_concat, Option.some_inj] at hlast
      rwa [hlast]

private theorem escapeDocLine_eq (line : String) :
    escapeDocLine line = escapedText (stripEnd line) := by
  rw [escapeDocLine, escapeDocChars_eq, escapedText, stripEnd, String.toList_ofList]

private theorem escapedText_append {s t : String} (h : Apart s.toList t.toList) :
    escapedText (s ++ t) = escapedText s ++ escapedText t := by
  rw [escapedText, String.toList_append, escaped_append h, String.ofList_append, escapedText,
    escapedText]

theorem escapedText_eq_empty_iff {s : String} : escapedText s = "" ↔ s = "" := by
  have hlast := getLast?_escaped s.toList
  constructor
  · intro h
    have hnil : escaped s.toList = [] := by simpa [escapedText] using congrArg String.toList h
    simpa [hnil, List.getLast?_eq_none_iff] using hlast.symm
  · rintro rfl
    rfl

theorem escapedText_pad (count : Nat) (s : String) :
    escapedText (Text.spaces count ++ s) = Text.spaces count ++ escapedText s := by
  have hspaces : ∀ cs, escaped (List.replicate count ' ' ++ cs) =
      List.replicate count ' ' ++ escaped cs := by
    intro cs
    induction count with
    | zero => rfl
    | succ count ih =>
      rw [List.replicate_succ, List.cons_append, escaped_cons (by decide) (by simp [StartsTriple]),
        ih, List.cons_append]
  simp [escapedText, Text.spaces, hspaces, String.ofList_append]

private theorem escapedText_padded (indent : Nat) (line : String) :
    escapedText (padded indent line) = padded indent (escapedText line) := by
  simp only [padded, escapedText_eq_empty_iff]
  split
  · rfl
  · exact escapedText_pad indent line

theorem escapedText_intercalate (lines : List String) :
    escapedText ("\n".intercalate lines) = "\n".intercalate (lines.map escapedText) := by
  induction lines with
  | nil => rfl
  | cons line lines ih =>
    cases lines with
    | nil => simp
    | cons next lines =>
      rw [String.intercalate_cons_cons, String.append_assoc,
        escapedText_append (.inr (by simp)), escapedText_append (.inl (by simp)), ih]
      simp [show escapedText "\n" = "\n" from rfl, String.append_assoc]

/-- A documentation string is the text of its lines, escaped, in triple quotes. -/
theorem docstring_eq (indent : Nat) (lines : List String) :
    docstring indent lines =
      "\"\"\"" ++ escapedText ("\n".intercalate (laidOut indent lines)) ++ "\"\"\"" := by
  have hlines : lines.map escapeDocLine = (lines.map stripEnd).map escapedText := by
    simp [escapeDocLine_eq]
  rw [docstring, laidOut, hlines]
  rcases lines.map stripEnd with _ | ⟨first, _ | ⟨second, others⟩⟩
  · rfl
  · simp
  · have hspaces : escapedText (Text.spaces indent) = Text.spaces indent := by
      simpa [show escapedText "" = "" from rfl] using escapedText_pad indent ""
    have hlaid : (first :: ((second :: others).map (padded indent) ++ [Text.spaces indent])).map
          escapedText =
        escapedText first :: (((second :: others).map escapedText).map (padded indent) ++
          [Text.spaces indent]) := by
      simp [escapedText_padded, hspaces]
    rw [escapedText_intercalate]
    dsimp only
    rw [hlaid, String.intercalate_cons_of_ne_nil (by simp),
      String.intercalate_append_of_ne_nil (by simp) (by simp)]
    have hpadded : padded indent =
        fun line => if line = "" then "" else Text.spaces indent ++ line := rfl
    simp [String.append_assoc, hpadded]

theorem readDocstring_escapedText (s : String) :
    readDocstring ("\"\"\"" ++ escapedText s ++ "\"\"\"") =
      some (String.ofList (s.toList.rdrop (strayQuotes s.toList)),
        String.ofList (List.replicate (strayQuotes s.toList) '"')) := by
  simp [readDocstring, escapedText, readTriple_escaped]

private theorem strayQuotes_eq_zero (h : cs.getLast? ≠ some '"') : strayQuotes cs = 0 := by
  have hnil : cs.rtakeWhile (· == '"') = [] := by
    rw [List.rtakeWhile_eq_nil_iff]
    intro hne
    rw [List.getLast?_eq_some_getLast hne] at h
    simpa using h
  rw [strayQuotes, hnil, List.length_nil]

/-- The text of several lines ends with the spaces before the quotes. -/
theorem strayQuotes_laidOut {indent : Nat} {lines : List String}
    (h : ∀ line, lines = [line] → strayQuotes (stripEnd line).toList = 0) :
    strayQuotes ("\n".intercalate (laidOut indent lines)).toList = 0 := by
  match lines with
  | [] => rfl
  | [line] => simpa [laidOut] using h line rfl
  | first :: second :: others =>
    refine strayQuotes_eq_zero ?_
    simp only [laidOut, List.map_cons]
    rw [← List.cons_append, String.intercalate_append_of_ne_nil (by simp) (by simp),
      String.intercalate_singleton, String.append_assoc, String.toList_append,
      List.getLast?_append_of_ne_nil _ (by simp)]
    exact fun hlast => absurd (List.mem_of_getLast? hlast) (by simp [Text.spaces])

/-- The documentation string of no line, of several, or of one that ends in no quotes but in
triples, is one literal, and says its lines as they are laid out. -/
theorem docstring_one_literal (indent : Nat) :
    (∀ lines, (∀ line, lines = [line] → strayQuotes (stripEnd line).toList = 0) →
      readDocstring (docstring indent lines) =
        some ("\n".intercalate (laidOut indent lines), "")) ∧
    ∀ text, (∀ line, Text.lines text = [line] → strayQuotes (stripEnd line).toList = 0) →
      readDocstring (docstringOf indent text) =
        some ("\n".intercalate (laidOut indent (Text.lines text)), "") := by
  have hread : ∀ lines, (∀ line, lines = [line] → strayQuotes (stripEnd line).toList = 0) →
      readDocstring (docstring indent lines) =
        some ("\n".intercalate (laidOut indent lines), "") := by
    intro lines h
    rw [docstring_eq, readDocstring_escapedText, strayQuotes_laidOut h, List.rdrop_zero,
      String.ofList_toList]
    rfl
  exact ⟨hread, fun text => hread (Text.lines text)⟩

/-- A line that ends in triple quotes, and a text of two lines that ends in quotes. -/
theorem docstring_one_literal_quoted :
    (∀ line, ["Say \"\"\"hi\"\"\" "] = [line] → strayQuotes (stripEnd line).toList = 0) ∧
    readDocstring (docstring 4 ["Say \"\"\"hi\"\"\" "]) = some ("Say \"\"\"hi\"\"\"", "") ∧
    (∀ line, Text.lines "Say\nhi\\\"\"" = [line] → strayQuotes (stripEnd line).toList = 0) ∧
    readDocstring (docstringOf 4 "Say\nhi\\\"\"") = some ("Say\n    hi\\\"\"\n    ", "") := by
  have hone : ∀ line, ["Say \"\"\"hi\"\"\" "] = [line] →
      strayQuotes (stripEnd line).toList = 0 := by
    intro line hline
    obtain rfl := List.singleton_inj.mp hline
    decide
  have htwo : ∀ line, Text.lines "Say\nhi\\\"\"" = [line] →
      strayQuotes (stripEnd line).toList = 0 := by
    intro line hline
    have hlength : (Text.lines "Say\nhi\\\"\"").length = 2 := by decide
    simp [hline] at hlength
  exact ⟨hone, (docstring_one_literal 4).1 _ hone, htwo, (docstring_one_literal 4).2 _ htwo⟩

/-- Several lines say one more line than they are, and a quote at the end of a single line closes
the literal too early. -/
theorem not_docstring_joined :
    readDocstring (docstring 4 ["First.", "Second."]) ≠ some ("First.\n    Second.", "") ∧
    readDocstring (docstring 0 ["a\""]) ≠ some ("a\"", "") := by
  decide

end Package

end OpenApiClient
