import OpenApiClient.Package.Method
import OpenApiClient.Proofs.LiteralReading
import OpenApiClient.Proofs.ModelNames

/-! # The names that code reads

A line of code is cut into words, literals and marks. The words read as names are those that are no
keywords or numbers, follow no dot and are bound by no comprehension. The values of parameters are
written as they are, or as the argument of a call. -/
namespace OpenApiClient.Code

inductive Token
  | word (w : List Char)
  | literal
  | mark (c : Char)
  deriving DecidableEq

/-- Where the reading of a line stands. -/
inductive Reader
  | between
  | word (seen : List Char)
  | literal (quote : Char)
  | escape (quote : Char)
  deriving DecidableEq

def isQuote (c : Char) : Bool := c == '\'' || c == '"'

def isWordPart (c : Char) : Bool := Naming.isNameChar c || c == '_'

/-- What starts with a character outside of words and literals. Spaces are no pieces. -/
def start (c : Char) : List Token × Reader :=
  if isWordPart c then ([], .word [c])
  else if isQuote c then ([.literal], .literal c)
  else if c = ' ' then ([], .between)
  else ([.mark c], .between)

/-- The pieces that come with a character, and where the reading stands behind it. -/
def Reader.step : Reader → Char → List Token × Reader
  | .between, c => start c
  | .word seen, c =>
    if isWordPart c then ([], .word (seen ++ [c])) else (.word seen :: (start c).1, (start c).2)
  | .literal quote, c =>
    if c = quote then ([], .between) else if c = '\\' then ([], .escape quote) else ([], .literal quote)
  | .escape quote, _ => ([], .literal quote)

def Reader.finish : Reader → List Token
  | .word seen => [.word seen]
  | _ => []

def tokens (r : Reader) : List Char → List Token
  | [] => r.finish
  | c :: rest => (r.step c).1 ++ tokens (r.step c).2 rest

/-- The words of some pieces but those behind a dot. -/
def words (dotted : Bool) : List Token → List String
  | [] => []
  | .word w :: rest => (if dotted then [] else [String.ofList w]) ++ words false rest
  | .literal :: rest => words false rest
  | .mark c :: rest => words (c == '.') rest

/-- The variables of comprehensions. -/
def bound : List Token → List String
  | .word ['f', 'o', 'r'] :: .word w :: rest => String.ofList w :: bound rest
  | _ :: rest => bound rest
  | [] => []

/-- Whether a word is read as a name that stands for a value: `str` is a function wherever it
occurs. -/
def isName (bound : List String) (word : String) : Bool :=
  !(word.toList.head?.any Naming.isPlainDigit) && !Naming.keywords.contains word && word != "str" &&
    !bound.contains word

/-- The names that a text of code reads. -/
def readNames (code : String) : List String :=
  let pieces := tokens .between code.toList
  (words false pieces).filter (isName (bound pieces))

example : readNames "str(a).lower() + b.c['d.e']" = ["a", "b"] := by decide

variable {w rest : List Char}

private theorem tokens_word (h : ∀ c ∈ w, isWordPart c) (seen : List Char) :
    tokens (.word seen) (w ++ rest) = tokens (.word (seen ++ w)) rest := by
  induction w generalizing seen with
  | nil => rw [List.nil_append, List.append_nil]
  | cons c w ih =>
    obtain ⟨hc, hw⟩ := List.forall_mem_cons.mp h
    rw [List.cons_append, tokens, Reader.step, if_pos hc]
    simpa using ih hw (seen ++ [c])

theorem tokens_between_word (hne : w ≠ []) (h : ∀ c ∈ w, isWordPart c) :
    tokens .between (w ++ rest) = tokens (.word w) rest := by
  obtain ⟨c, w, rfl⟩ := List.exists_cons_of_ne_nil hne
  obtain ⟨hc, hw⟩ := List.forall_mem_cons.mp h
  rw [List.cons_append, tokens, Reader.step, start, if_pos hc]
  exact tokens_word hw [c]

theorem tokens_word_end (h : rest.head?.all (!isWordPart ·)) :
    tokens (.word w) rest = .word w :: tokens .between rest := by
  cases rest with
  | nil => rfl
  | cons c rest =>
    have hc : isWordPart c = false := by simpa using h
    simp [tokens, Reader.step, hc]

section Literals

variable {quote : Char}

theorem tokens_literal {cs : List Char} (h : ∀ c ∈ cs, c ≠ quote ∧ c ≠ '\\') :
    tokens (.literal quote) (cs ++ rest) = tokens (.literal quote) rest := by
  induction cs with
  | nil => rfl
  | cons c cs ih =>
    obtain ⟨⟨hquote, hslash⟩, hcs⟩ := List.forall_mem_cons.mp h
    rw [List.cons_append, tokens, Reader.step, if_neg hquote, if_neg hslash]
    exact ih hcs

theorem tokens_escape (hquote : quote = '"' ∨ quote = '\'') (sign : Char) {cs : List Char}
    (h : ∀ c ∈ cs, c ≠ quote ∧ c ≠ '\\') :
    tokens (.literal quote) ('\\' :: sign :: cs ++ rest) = tokens (.literal quote) rest := by
  have hslash : '\\' ≠ quote := by rcases hquote with rfl | rfl <;> decide
  rw [List.cons_append, List.cons_append, tokens, Reader.step, if_neg hslash, if_pos rfl, tokens,
    Reader.step]
  exact tokens_literal h

private theorem hexDigits_plain (hquote : quote = '"' ∨ quote = '\'') (width n : Nat) :
    ∀ c ∈ Text.hexDigits width n, c ≠ quote ∧ c ≠ '\\' := by
  have hdigit : ∀ d < 16, Text.hexDigit d ≠ '"' ∧ Text.hexDigit d ≠ '\'' ∧
      Text.hexDigit d ≠ '\\' := by decide
  induction width generalizing n with
  | zero => simp [Text.hexDigits]
  | succ width ih =>
    intro c hc
    rcases List.mem_append.mp hc with hc | hc
    · exact ih _ c hc
    · obtain ⟨hdouble, hsingle, hslash⟩ := hdigit (n % 16) (Nat.mod_lt _ (by decide))
      rw [List.mem_singleton.mp hc]
      exact ⟨by rcases hquote with rfl | rfl <;> assumption, hslash⟩

private theorem tokens_escapeIn (hquote : quote = '"' ∨ quote = '\'') (c : Char) :
    tokens (.literal quote) (Text.escapeIn quote c ++ rest) = tokens (.literal quote) rest := by
  unfold Text.escapeIn
  split
  · exact tokens_escape hquote c (by simp)
  rename_i hc
  obtain ⟨hne, hslash⟩ : c ≠ quote ∧ c ≠ '\\' := by simpa using hc
  split
  · exact tokens_escape hquote 't' (by simp)
  split
  · exact tokens_escape hquote 'n' (by simp)
  split
  · exact tokens_escape hquote 'r' (by simp)
  split
  · exact tokens_literal (by simpa using ⟨hne, hslash⟩)
  split
  · exact tokens_escape hquote 'x' (hexDigits_plain hquote _ _)
  split
  · exact tokens_escape hquote 'u' (hexDigits_plain hquote _ _)
  · exact tokens_escape hquote 'U' (hexDigits_plain hquote _ _)

/-- A quoted text is one literal, whatever stands in it. -/
theorem tokens_quoted (s : String) :
    tokens .between ((Text.quoted s).toList ++ rest) = .literal :: tokens .between rest := by
  have hquote := Text.quoteFor_cases s.toList
  have hinside : ∀ cs : List Char,
      tokens (.literal (Text.quoteFor s.toList))
        (cs.flatMap (Text.escapeIn (Text.quoteFor s.toList)) ++ Text.quoteFor s.toList :: rest) =
      tokens .between rest := by
    intro cs
    induction cs with
    | nil => rw [List.flatMap_nil, List.nil_append, tokens, Reader.step, if_pos rfl]; rfl
    | cons c cs ih => rw [List.flatMap_cons, List.append_assoc, tokens_escapeIn hquote, ih]
  have hstart : start (Text.quoteFor s.toList) = ([.literal], .literal (Text.quoteFor s.toList)) := by
    rcases hquote with h | h <;> rw [h] <;> rfl
  rw [Text.quoted, String.toList_ofList, Text.quotedChars]
  simp only [List.cons_append, List.append_assoc, List.nil_append]
  rw [tokens, Reader.step, hstart, hinside s.toList]
  rfl

end Literals

/-! ## Formatted literals -/

/-- The stretches in braces of a text that is read outside of braces, or within a stretch of which
something was seen. -/
def braced : (seen : Option (List Char)) → List Char → List (List Char)
  | _, [] => []
  | none, c :: rest => if c = '\x7b' then braced (some []) rest else braced none rest
  | some seen, c :: rest =>
    if c = '\x7d' then seen :: braced none rest else braced (some (seen ++ [c])) rest

/-- The names that the expressions in the braces of a line read. -/
def fieldNames (line : String) : List String :=
  (braced none line.toList).flatMap fun field => readNames (String.ofList field)

theorem braced_unbraced {cs : List Char} (h : ∀ c ∈ cs, c ≠ '\x7b') :
    braced none (cs ++ rest) = braced none rest := by
  induction cs with
  | nil => rfl
  | cons c cs ih =>
    obtain ⟨hc, hcs⟩ := List.forall_mem_cons.mp h
    rw [List.cons_append, braced, if_neg hc, ih hcs]

theorem braced_field {cs : List Char} (h : ∀ c ∈ cs, c ≠ '\x7d') (seen : List Char) :
    braced (some seen) (cs ++ '\x7d' :: rest) = (seen ++ cs) :: braced none rest := by
  induction cs generalizing seen with
  | nil => rw [List.nil_append, braced, if_pos rfl, List.append_nil]
  | cons c cs ih =>
    obtain ⟨hc, hcs⟩ := List.forall_mem_cons.mp h
    rw [List.cons_append, braced, if_neg hc, ih hcs, List.append_assoc]
    rfl

/-! ## Expressions of values -/

section Expressions

open Operation (serialized presence)
open Schema (Kind Registry TypeId)

variable {ident name : String}

structure IsWord (ident : String) : Prop where
  ne_nil : ident.toList ≠ []
  parts : ∀ c ∈ ident.toList, isWordPart c

theorem IsWord.tokens (h : IsWord ident) (rest : List Char) :
    tokens .between (ident.toList ++ rest) = tokens (.word ident.toList) rest :=
  tokens_between_word h.ne_nil h.parts

/-- Code in which a word alone can be read as a name. -/
theorem eq_of_mem_readNames {code : String} {pieces : List Token}
    (hpieces : tokens .between code.toList = pieces) (others : List String)
    (hwords : ∀ word ∈ words false pieces, word = ident ∨ word ∈ others)
    (hothers : ∀ word ∈ others, isName (bound pieces) word = false) (h : name ∈ readNames code) :
    name = ident := by
  obtain ⟨hmem, hname⟩ := List.mem_filter.mp h
  rw [hpieces] at hmem hname
  exact (hwords name hmem).resolve_right fun hother => by simp [hothers name hother] at hname

theorem isName_str (bound : List String) : isName bound "str" = false := by
  simp [isName]

theorem isName_of_mem_keywords {word : String} (h : word ∈ Naming.keywords) (bound : List String) :
    isName bound word = false := by
  simp [isName, h]

private theorem isName_of_mem_bound {bound : List String} {word : String} (h : word ∈ bound) :
    isName bound word = false := by
  simp [isName, h]

theorem tokens_closed (hident : IsWord ident) (more : String) :
    tokens .between (ident.toList ++ (")".toList ++ more.toList)) =
      .word ident.toList :: .mark ')' :: tokens .between more.toList := by
  rw [hident.tokens]
  rfl

theorem tokens_joined (hident : IsWord ident) (separator more : String) :
    tokens .between (Text.quoted separator ++ ".join(" ++ ident ++ (")" ++ more)).toList =
      .literal :: .mark '.' :: .word "join".toList :: .mark '(' :: .word ident.toList ::
        .mark ')' :: tokens .between more.toList := by
  have hjoin : ∀ rest, tokens .between (".join(".toList ++ rest) =
      .mark '.' :: .word "join".toList :: .mark '(' :: tokens .between rest := fun _ => rfl
  simp only [String.toList_append, List.append_assoc]
  rw [tokens_quoted, hjoin, tokens_closed hident]

/-- Values that are joined by their texts, with what stands behind them. -/
theorem tokens_joinedTexts (hident : IsWord ident) (separator more : String) :
    tokens .between
        (Text.quoted separator ++ ".join(str(v) for v in " ++ ident ++ (")" ++ more)).toList =
      .literal :: .mark '.' :: .word "join".toList :: .mark '(' :: .word "str".toList ::
        .mark '(' :: .word "v".toList :: .mark ')' :: .word "for".toList :: .word "v".toList ::
        .word "in".toList :: .word ident.toList :: .mark ')' :: tokens .between more.toList := by
  have hjoin : ∀ rest, tokens .between (".join(str(v) for v in ".toList ++ rest) =
      .mark '.' :: .word "join".toList :: .mark '(' :: .word "str".toList :: .mark '(' ::
        .word "v".toList :: .mark ')' :: .word "for".toList :: .word "v".toList ::
        .word "in".toList :: tokens .between rest := fun _ => rfl
  simp only [String.toList_append, List.append_assoc]
  rw [tokens_quoted, hjoin, tokens_closed hident]

/-- The text of a value, with what may be done to it. -/
theorem tokens_shownText (hident : IsWord ident) (more : String) :
    tokens .between ("str(" ++ ident ++ (")" ++ more)).toList =
      .word "str".toList :: .mark '(' :: .word ident.toList :: .mark ')' ::
        tokens .between more.toList := by
  have hstr : ∀ rest, tokens .between ("str(".toList ++ rest) =
      .word "str".toList :: .mark '(' :: tokens .between rest := fun _ => rfl
  simp only [String.toList_append, List.append_assoc]
  rw [hstr, hident.tokens]
  rfl

/-- The expression of a value reads the identifier alone, also where brackets are closed behind it. -/
theorem eq_of_mem_readNames_serialized (hident : IsWord ident) (r : Registry) (type : TypeId)
    (separator : String) (rule : Serialization) {ending : String} (hending : ending ∈ ["", "))"])
    (h : name ∈ readNames (serialized r type ident (.text separator) rule ++ ending)) :
    name = ident := by
  have hmarks : words false (tokens .between ending.toList) = [] := by
    rcases List.mem_pair.mp hending with rfl | rfl <;> rfl
  cases rule with
  | calendar =>
    have hpieces : tokens .between (ident ++ ".isoformat()" ++ ending).toList =
        .word ident.toList :: .mark '.' :: .word "isoformat".toList :: .mark '(' :: .mark ')' ::
          tokens .between ending.toList := by
      simp only [String.toList_append, List.append_assoc]
      rw [hident.tokens]
      rfl
    exact eq_of_mem_readNames hpieces [] (by simp [words, hmarks]) (by simp) h
  | verbatim =>
    have hend : ending.toList.head?.all (!isWordPart ·) := by
      rcases List.mem_pair.mp hending with rfl | rfl <;> decide
    have hpieces : tokens .between (ident ++ ending).toList =
        .word ident.toList :: tokens .between ending.toList := by
      rw [String.toList_append, hident.tokens, tokens_word_end hend]
    exact eq_of_mem_readNames hpieces [] (by simp [words, hmarks]) (by simp) h
  | joined =>
    rw [serialized] at h
    split at h <;> rw [String.append_assoc] at h
    · exact eq_of_mem_readNames (tokens_joined hident separator ending) []
        (by simp [words, hmarks]) (by simp) h
    · refine eq_of_mem_readNames (tokens_joinedTexts hident separator ending) ["str", "v", "for", "in"]
        (by simp [words, hmarks]) (fun word hword => ?_) h
      simp only [List.mem_cons, List.not_mem_nil, or_false] at hword
      rcases hword with rfl | rfl | rfl | rfl
      · exact isName_str _
      · exact isName_of_mem_bound List.mem_cons_self
      · exact isName_of_mem_keywords (by decide) _
      · exact isName_of_mem_keywords (by decide) _
  | display =>
    rw [serialized] at h
    split at h
    · have hpieces : tokens .between ("str(" ++ ident ++ ").lower()" ++ ending).toList =
          .word "str".toList :: .mark '(' :: .word ident.toList :: .mark ')' :: .mark '.' ::
            .word "lower".toList :: .mark '(' :: .mark ')' :: tokens .between ending.toList := by
        have hlower : "str(" ++ ident ++ ").lower()" ++ ending =
            "str(" ++ ident ++ (")" ++ (".lower()" ++ ending)) := by
          simp only [String.append_assoc, show ").lower()" = ")" ++ ".lower()" from rfl]
        rw [hlower, tokens_shownText hident, String.toList_append]
        rfl
      exact eq_of_mem_readNames hpieces ["str"] (by simp [words, hmarks]) (by simp [isName_str]) h
    · rw [String.append_assoc] at h
      exact eq_of_mem_readNames (tokens_shownText hident ending) ["str"] (by simp [words, hmarks])
        (by simp [isName_str]) h

/-- When a value is sent: it is not the empty one, it is above zero, or it is given. -/
inductive IsCondition (ident : String) : String → Prop
  | truthy : IsCondition ident ident
  | positive : IsCondition ident (ident ++ " > 0")
  | given : IsCondition ident (ident ++ " is not None")

theorem words_condition (hident : IsWord ident) {condition : String}
    (hcondition : IsCondition ident condition) {ending : String} (hending : ending ∈ ["", ":"]) :
    ∀ word ∈ words false (tokens .between (condition ++ ending).toList),
      word = ident ∨ word ∈ ["0", "is", "not", "None"] := by
  have hword : ∀ {rest : List Char}, rest.head?.all (!isWordPart ·) →
      (∀ word ∈ words false (tokens .between rest), word ∈ ["0", "is", "not", "None"]) →
      ∀ word ∈ words false (tokens .between (ident.toList ++ rest)),
        word = ident ∨ word ∈ ["0", "is", "not", "None"] := by
    intro rest hrest hothers word hmem
    rw [hident.tokens, tokens_word_end hrest, words] at hmem
    rcases List.mem_append.mp hmem with hmem | hmem
    · exact .inl (by simpa using hmem)
    · exact .inr (hothers word hmem)
  rcases List.mem_pair.mp hending with rfl | rfl <;> cases hcondition <;>
    simp only [String.toList_append, List.append_assoc]
  all_goals exact hword (by decide) (by decide)

/-- The words of a condition beside the identifier are no names. -/
theorem isName_of_mem_conditionWords {word : String}
    (h : word ∈ ["if", "0", "is", "not", "None"]) (bound : List String) :
    isName bound word = false := by
  simp only [List.mem_cons, List.not_mem_nil, or_false] at h
  rcases h with rfl | rfl | rfl | rfl | rfl
  case inr.inl => simp [isName, Naming.isPlainDigit]
  all_goals exact isName_of_mem_keywords (by decide) _

theorem eq_of_mem_readNames_condition (hident : IsWord ident) {condition : String}
    (hcondition : IsCondition ident condition) (h : name ∈ readNames condition) : name = ident := by
  have hwords := words_condition hident hcondition List.mem_cons_self
  rw [String.append_empty] at hwords
  exact eq_of_mem_readNames rfl _ hwords
    (fun word hword => isName_of_mem_conditionWords (List.mem_cons_of_mem _ hword) _) h

end Expressions

end OpenApiClient.Code
