import OpenApiClient.Document.Json
import OpenApiClient.Proofs.CanonicalText
import OpenApiClient.Text.Quoted

/-! # Reading literals and expressions back

Generated code holds literals and expressions within its statements. Both are read one character at
a time: a literal up to its second quote, by the rules of its escapes, and an expression up to the
first character outside of its brackets and quotes that cannot belong to it. -/
namespace OpenApiClient.Text

section Advance
variable {σ : Type} {step : σ → Char → Option σ} {s last : σ} {cs : List Char}

/-- The longest stretch of a text with a step for each character, where the steps lead, and the rest
of the text. -/
def advance (step : σ → Char → Option σ) (s : σ) : List Char → List Char × σ × List Char
  | [] => ([], s, [])
  | c :: rest =>
    match step s c with
    | none => ([], s, c :: rest)
    | some next =>
      let (taken, last, left) := advance step next rest
      (c :: taken, last, left)

/-- A text with a step for each character is gone along whole, up to a character without. -/
theorem advance_append (h : cs.foldlM step s = some last) {c : Char} (hstop : step last c = none)
    (rest : List Char) : advance step s (cs ++ c :: rest) = (cs, last, c :: rest) := by
  induction cs generalizing s with
  | nil =>
    obtain rfl : s = last := Option.some.inj h
    simp [advance, hstop]
  | cons d cs ih =>
    obtain ⟨next, hnext, hcs⟩ := Option.bind_eq_some_iff.mp (List.foldlM_cons (m := Option) ▸ h)
    simp [advance, hnext, ih hcs]

end Advance

/-- What a literal says at one place: a character, or the value of an expression in braces. -/
inductive Part
  | char (c : Char)
  | field (expression : List Char)
  deriving DecidableEq

/-- Where the reading of a literal stands: in plain text, behind a backslash, within the digits of
an escape (with the number of those still to come after the next one), behind a brace that was
opened or closed, or within braces. -/
inductive Mode
  | plain
  | escape
  | octal (left value : Nat)
  | hex (left value : Nat)
  | opened
  | closed
  | field (seen : List Char)
  deriving DecidableEq

structure Reading where
  parts : List Part := []
  mode : Mode := .plain
  deriving DecidableEq

/-- What an escape by a single sign says; a line break says nothing. -/
def signEscape? : Char → Option (List Char)
  | '\n' => some []
  | '\\' => some ['\\']
  | '\'' => some ['\'']
  | '"' => some ['"']
  | 'a' => some ['\x07']
  | 'b' => some ['\x08']
  | 'f' => some ['\x0c']
  | 'n' => some ['\n']
  | 'r' => some ['\r']
  | 't' => some ['\t']
  | 'v' => some ['\x0b']
  | _ => none

def codeDigits? : Char → Option Nat
  | 'x' => some 1
  | 'u' => some 3
  | 'U' => some 7
  | _ => none

def octalDigit? (c : Char) : Option Nat :=
  if '0' ≤ c ∧ c ≤ '7' then some (c.toNat - '0'.toNat) else none

/-- The characters that no literal on one line holds as they are. -/
def endsLine (c : Char) : Bool := c = '\n' || c = '\r' || c = '\x00'

/-- The characters that do not stand within the braces of a literal: its quote, backslashes, and
further braces. -/
def endsField (quote c : Char) : Bool :=
  c = quote || endsLine c || c = '\\' || c = '\x7b' || c = '\x7d'

section Steps
variable (quote : Char) (formatted : Bool)

/-- One character of plain text. Braces have a meaning in formatted literals alone. -/
def plainStep (parts : List Part) (c : Char) : Option Reading :=
  if c = quote || endsLine c then none
  else if c = '\\' then some ⟨parts, .escape⟩
  else if formatted && c = '\x7b' then some ⟨parts, .opened⟩
  else if formatted && c = '\x7d' then some ⟨parts, .closed⟩
  else some ⟨parts ++ [.char c], .plain⟩

/-- The character behind a backslash. The backslash stays where it starts no escape; characters by
their names are not read. -/
def escapeStep (parts : List Part) (c : Char) : Option Reading :=
  match signEscape? c, codeDigits? c, octalDigit? c with
  | some said, _, _ => some ⟨parts ++ said.map .char, .plain⟩
  | _, some left, _ => some ⟨parts, .hex left 0⟩
  | _, _, some digit => some ⟨parts, .octal 2 digit⟩
  | _, _, _ => if c = 'N' then none else plainStep quote formatted (parts ++ [.char '\\']) c

def fieldStep (parts : List Part) (seen : List Char) (c : Char) : Option Reading :=
  if endsField quote c then none else some ⟨parts, .field (seen ++ [c])⟩

def readStep : Reading → Char → Option Reading
  | ⟨parts, .plain⟩, c => plainStep quote formatted parts c
  | ⟨parts, .escape⟩, c => escapeStep quote formatted parts c
  | ⟨parts, .octal left value⟩, c =>
    match left, octalDigit? c with
    | left + 1, some digit => some ⟨parts, .octal left (value * 8 + digit)⟩
    | _, _ => plainStep quote formatted (parts ++ [.char (Char.ofNat value)]) c
  | ⟨parts, .hex (left + 1) value⟩, c =>
    (Json.hexValue? c).map fun digit => ⟨parts, .hex left (value * 16 + digit)⟩
  | ⟨parts, .hex 0 value⟩, c => do
    let code := value * 16 + (← Json.hexValue? c)
    if code < 0x110000 then some ⟨parts ++ [.char (ofCode code)], .plain⟩ else none
  | ⟨parts, .opened⟩, c =>
    if c = '\x7b' then some ⟨parts ++ [.char c], .plain⟩ else fieldStep quote parts [] c
  | ⟨parts, .closed⟩, c => if c = '\x7d' then some ⟨parts ++ [.char c], .plain⟩ else none
  | ⟨parts, .field seen⟩, c =>
    if c = '\x7d' then some ⟨parts ++ [.field seen], .plain⟩ else fieldStep quote parts seen c

end Steps

def Reading.finish : Reading → Option (List Part)
  | ⟨parts, .plain⟩ => some parts
  | ⟨parts, .octal _ value⟩ => some (parts ++ [.char (Char.ofNat value)])
  | _ => none

/-- A literal behind its first quote, and the text behind it. One that starts with three quotes is
not read. -/
def readQuoted (quote : Char) (formatted : Bool) (cs : List Char) :
    Option (List Part × List Char) :=
  if quote = '"' || quote = '\'' then
    match advance (readStep quote formatted) {} cs with
    | (taken, reached, c :: rest) =>
      if c = quote && !(taken.isEmpty && rest.head? == some quote) then
        reached.finish.map (·, rest)
      else none
    | (_, _, []) => none
  else none

/-- The literal at the start of a text, and the text behind it. -/
def readLiteral : List Char → Option (List Part × List Char)
  | 'f' :: quote :: rest => readQuoted quote true rest
  | quote :: rest => readQuoted quote false rest
  | [] => none

section Literals
variable {quote : Char} {formatted : Bool} {parts : List Part} {cs : List Char}

theorem readQuoted_append (hquote : quote = '"' ∨ quote = '\'')
    (h : cs.foldlM (readStep quote formatted) {} = some ⟨parts, .plain⟩) {rest : List Char}
    (hrest : rest.head? ≠ some quote) :
    readQuoted quote formatted (cs ++ quote :: rest) = some (parts, rest) := by
  have hstop : readStep quote formatted ⟨parts, .plain⟩ quote = none := by simp [readStep, plainStep]
  rw [readQuoted, if_pos (by simpa using hquote), advance_append h hstop]
  simp [hrest, Reading.finish]

/-- Texts whose pieces each say what they should say it together. -/
theorem foldlM_flatMap_of_parts {α : Type} {write : α → List Char} {said : α → List Part}
    {items : List α} (parts : List Part)
    (h : ∀ a ∈ items, ∀ parts, (write a).foldlM (readStep quote formatted) ⟨parts, .plain⟩ =
      some ⟨parts ++ said a, .plain⟩) :
    (items.flatMap write).foldlM (readStep quote formatted) ⟨parts, .plain⟩ =
      some ⟨parts ++ items.flatMap said, .plain⟩ := by
  induction items generalizing parts with
  | nil => simp
  | cons a items ih =>
    rw [List.flatMap_cons, List.foldlM_append, h a List.mem_cons_self]
    refine (ih _ fun b hb => h b (List.mem_cons_of_mem _ hb)).trans ?_
    simp

theorem readStep_plain_char {c : Char} (hquote : c ≠ quote) (hline : endsLine c = false)
    (hslash : c ≠ '\\') (hopen : c = '\x7b' → formatted = false)
    (hclose : c = '\x7d' → formatted = false) (parts : List Part) :
    readStep quote formatted ⟨parts, .plain⟩ c = some ⟨parts ++ [.char c], .plain⟩ := by
  by_cases ho : c = '\x7b'
  · simp [readStep, plainStep, hquote, hline, hslash, hopen ho]
  · by_cases hc : c = '\x7d'
    · simp [readStep, plainStep, hquote, hline, hslash, hclose hc]
    · simp [readStep, plainStep, hquote, hline, hslash, ho, hc]

theorem foldlM_backslash {c : Char} {said : List Char} (h : signEscape? c = some said)
    (hquote : quote = '"' ∨ quote = '\'') (parts : List Part) :
    ['\\', c].foldlM (readStep quote formatted) ⟨parts, .plain⟩ =
      some ⟨parts ++ said.map .char, .plain⟩ := by
  have hslash : readStep quote formatted ⟨parts, .plain⟩ '\\' = some ⟨parts, .escape⟩ := by
    rcases hquote with rfl | rfl <;> rfl
  simp only [List.foldlM_cons, hslash, List.foldlM_nil]
  simp [readStep, escapeStep, h]

theorem foldlM_hexDigits (quote : Char) (formatted : Bool) (left width value n : Nat)
    (parts : List Part) :
    (hexDigits width n).foldlM (readStep quote formatted) ⟨parts, .hex (left + width) value⟩ =
      some ⟨parts, .hex left (value * 16 ^ width + n % 16 ^ width)⟩ := by
  induction width generalizing left n with
  | zero => simp [hexDigits, Nat.mod_one]
  | succ width ih =>
    have hdigit : ∀ d, d < 16 → Json.hexValue? (hexDigit d) = some d := by decide
    rw [hexDigits, List.foldlM_append, show left + (width + 1) = (left + 1) + width by omega, ih]
    have hvalue : (value * 16 ^ width + n / 16 % 16 ^ width) * 16 + n % 16 =
        value * 16 ^ (width + 1) + n % 16 ^ (width + 1) := by
      rw [Nat.pow_succ', Nat.mod_mul, Nat.add_mul, Nat.mul_comm 16 (16 ^ width), Nat.mul_assoc]
      omega
    simp [readStep, hdigit _ (Nat.mod_lt n (by decide)), hvalue]

/-- A code point in the digits of its escape is read back. -/
theorem foldlM_hexEscape {sign c : Char} {width : Nat} (hsign : codeDigits? sign = some width)
    (hplain : signEscape? sign = none) (hfits : code c < 16 ^ (width + 1))
    (hquote : quote = '"' ∨ quote = '\'') (parts : List Part) :
    ('\\' :: sign :: hexDigits (width + 1) (code c)).foldlM (readStep quote formatted)
      ⟨parts, .plain⟩ = some ⟨parts ++ [.char c], .plain⟩ := by
  have hslash : readStep quote formatted ⟨parts, .plain⟩ '\\' = some ⟨parts, .escape⟩ := by
    rcases hquote with rfl | rfl <;> rfl
  have hstart : readStep quote formatted ⟨parts, .escape⟩ sign = some ⟨parts, .hex width 0⟩ := by
    simp [readStep, escapeStep, hplain, hsign]
  have hdigit : ∀ d, d < 16 → Json.hexValue? (hexDigit d) = some d := by decide
  have hfront := foldlM_hexDigits quote formatted 0 width 0 (code c / 16) parts
  rw [Nat.zero_add, Nat.zero_mul, Nat.zero_add,
    Nat.mod_eq_of_lt (by rw [Nat.pow_succ] at hfits; omega)] at hfront
  have hlast : code c / 16 * 16 + code c % 16 = code c := by omega
  simp only [List.foldlM_cons, hslash, hstart, hexDigits, List.foldlM_append, Option.bind_eq_bind,
    Option.bind_some, hfront, List.foldlM_nil]
  simp [readStep, hdigit _ (Nat.mod_lt (code c) (by decide)), hlast, code_lt, ofCode_code]

/-- Every character is read back from its escape. -/
theorem foldlM_escapeIn (hquote : quote = '"' ∨ quote = '\'') (c : Char) (parts : List Part) :
    (escapeIn quote c).foldlM (readStep quote false) ⟨parts, .plain⟩ =
      some ⟨parts ++ [.char c], .plain⟩ := by
  unfold escapeIn
  split
  · rename_i hc
    have hsign : signEscape? c = some [c] := by
      rcases (by simpa using hc : c = quote ∨ c = '\\') with rfl | rfl
      · rcases hquote with rfl | rfl <;> rfl
      · rfl
    exact foldlM_backslash hsign hquote parts
  rename_i hc
  obtain ⟨hne, hslash⟩ : c ≠ quote ∧ c ≠ '\\' := by simpa using hc
  split
  · subst c; exact foldlM_backslash (c := 't') rfl hquote parts
  split
  · subst c; exact foldlM_backslash (c := 'n') rfl hquote parts
  split
  · subst c; exact foldlM_backslash (c := 'r') rfl hquote parts
  split
  · rename_i hn hr hprintable
    have hnul : c ≠ '\x00' := by
      rintro rfl
      exact absurd hprintable (by decide)
    have hline : endsLine c = false := by simp [endsLine, hn, hr, hnul]
    simp [readStep_plain_char hne hline hslash (fun _ => rfl) (fun _ => rfl)]
  split
  · rename_i h
    exact foldlM_hexEscape rfl rfl (by simp; omega) hquote parts
  split
  · rename_i h
    exact foldlM_hexEscape rfl rfl (by simp; omega) hquote parts
  · exact foldlM_hexEscape rfl rfl ((code_lt c).trans (by decide)) hquote parts

theorem quoteFor_cases (cs : List Char) : quoteFor cs = '"' ∨ quoteFor cs = '\'' := by
  unfold quoteFor
  split <;> simp

/-- A quoted text is read back, whatever follows but a further quote. -/
theorem readLiteral_quoted (s : String) {c : Char} (hc : c ≠ '"' ∧ c ≠ '\'') (rest : List Char) :
    readLiteral ((quoted s).toList ++ c :: rest) = some (s.toList.map .char, c :: rest) := by
  have hquote := quoteFor_cases s.toList
  have hfold : (s.toList.flatMap (escapeIn (quoteFor s.toList))).foldlM
      (readStep (quoteFor s.toList) false) {} = some ⟨s.toList.map .char, .plain⟩ := by
    rw [List.map_eq_flatMap]
    exact foldlM_flatMap_of_parts [] fun c _ => foldlM_escapeIn hquote c
  have hhead : (c :: rest).head? ≠ some (quoteFor s.toList) := by
    intro h
    obtain rfl := Option.some.inj h
    exact hquote.elim hc.1 hc.2
  have hread := readQuoted_append hquote hfold hhead
  have hf : quoteFor s.toList ≠ 'f' := by rcases hquote with h | h <;> rw [h] <;> decide
  have hchars : (quoted s).toList ++ c :: rest = quoteFor s.toList ::
      (s.toList.flatMap (escapeIn (quoteFor s.toList)) ++ quoteFor s.toList :: c :: rest) := by
    simp [quoted, quotedChars]
  rw [hchars]
  unfold readLiteral
  split
  · rename_i h
    exact absurd (List.cons.inj h).1 hf
  · rename_i h
    obtain ⟨rfl, rfl⟩ := List.cons.inj h
    exact hread
  · rename_i h
    cases h

theorem readLiteral_marked {rest : List Char}
    (h : cs.foldlM (readStep '"' formatted) {} = some ⟨parts, .plain⟩)
    (hrest : rest.head? ≠ some '"') :
    readLiteral ((if formatted then ['f'] else []) ++ '"' :: cs ++ '"' :: rest) =
      some (parts, rest) := by
  have hread := readQuoted_append (.inl rfl) h hrest
  cases formatted <;> exact hread

theorem foldlM_braced {field : List Char} (hne : field ≠ [])
    (hchars : ∀ c ∈ field, endsField '"' c = false) (parts : List Part) :
    ('\x7b' :: field ++ ['\x7d']).foldlM (readStep '"' true) ⟨parts, .plain⟩ =
      some ⟨parts ++ [Part.field field], .plain⟩ := by
  have hseen : ∀ {cs : List Char}, (∀ c ∈ cs, endsField '"' c = false) → ∀ seen,
      cs.foldlM (readStep '"' true) ⟨parts, .field seen⟩ = some ⟨parts, .field (seen ++ cs)⟩ := by
    intro cs hcs seen
    induction cs generalizing seen with
    | nil => simp
    | cons c cs ih =>
      have hc := hcs c List.mem_cons_self
      have hclose : c ≠ '\x7d' := by
        rintro rfl
        exact absurd hc (by decide)
      have hstep : readStep '"' true ⟨parts, .field seen⟩ c =
          some ⟨parts, .field (seen ++ [c])⟩ := by
        simp [readStep, fieldStep, hclose, hc]
      simp only [List.foldlM_cons, hstep]
      refine (ih (fun d hd => hcs d (List.mem_cons_of_mem _ hd)) _).trans ?_
      simp
  cases field with
  | nil => exact absurd rfl hne
  | cons c field =>
    have hc := hchars c List.mem_cons_self
    have hopen : c ≠ '\x7b' := by
      rintro rfl
      exact absurd hc (by decide)
    have hstart : readStep '"' true ⟨parts, .opened⟩ c = some ⟨parts, .field [c]⟩ := by
      simp [readStep, fieldStep, hopen, hc]
    have hbrace : readStep '"' true ⟨parts, .plain⟩ '\x7b' = some ⟨parts, .opened⟩ := rfl
    have hrest := hseen (fun d hd => hchars d (List.mem_cons_of_mem c hd)) [c]
    simp only [List.cons_append, List.foldlM_cons, hbrace, hstart, List.foldlM_append,
      Option.bind_eq_bind, Option.bind_some, hrest]
    rfl

end Literals

example : readLiteral "'\\x41\\101\\q' + x".toList =
    some ([.char 'A', .char 'A', .char '\\', .char 'q'], " + x".toList) := by decide

inductive Quote
  | single
  | double
  deriving DecidableEq

def Quote.char : Quote → Char
  | single => '\''
  | double => '"'

/-- Where the reading of an expression stands: in its code, in a comment, behind a backslash, behind
quotes that may start a longer quote, or within a short or a long literal. -/
inductive Place
  | code
  | comment
  | joined
  | opening (quote : Quote) (twice : Bool)
  | short (quote : Quote)
  | shortEscape (quote : Quote)
  | long (quote : Quote) (seen : Nat)
  | longEscape (quote : Quote)
  deriving DecidableEq

/-- A place, and the brackets that are to be closed, the next one first. -/
structure Scan where
  awaited : List Char := []
  place : Place := .code
  deriving DecidableEq

def closing? : Char → Option Char
  | '(' => some ')'
  | '[' => some ']'
  | '\x7b' => some '\x7d'
  | _ => none

/-- The characters that an expression holds within brackets alone. -/
def endsExpression (c : Char) : Bool := c = ',' || c = ':' || c = '#' || c = '\n' || c = '\r'

def codeStep (awaited : List Char) (c : Char) : Option Scan :=
  if c = '\x00' || awaited.isEmpty && endsExpression c then none
  else if c = ')' || c = ']' || c = '\x7d' then
    match awaited with
    | bracket :: outer => if c = bracket then some ⟨outer, .code⟩ else none
    | [] => none
  else if c = '"' then some ⟨awaited, .opening .double false⟩
  else if c = '\'' then some ⟨awaited, .opening .single false⟩
  else if c = '#' then some ⟨awaited, .comment⟩
  else if c = '\\' then some ⟨awaited, .joined⟩
  else some ⟨(closing? c).toList ++ awaited, .code⟩

def shortStep (awaited : List Char) (quote : Quote) (c : Char) : Option Scan :=
  if endsLine c then none
  else if c = quote.char then some ⟨awaited, .code⟩
  else if c = '\\' then some ⟨awaited, .shortEscape quote⟩
  else some ⟨awaited, .short quote⟩

def scanStep : Scan → Char → Option Scan
  | ⟨awaited, .code⟩, c => codeStep awaited c
  | ⟨awaited, .comment⟩, c =>
    if c = '\x00' then none
    else some ⟨awaited, if c = '\n' || c = '\r' then .code else .comment⟩
  | ⟨awaited, .joined⟩, c => if c = '\n' then some ⟨awaited, .code⟩ else none
  | ⟨awaited, .opening quote false⟩, c =>
    if c = quote.char then some ⟨awaited, .opening quote true⟩ else shortStep awaited quote c
  | ⟨awaited, .opening quote true⟩, c =>
    if c = quote.char then some ⟨awaited, .long quote 0⟩ else codeStep awaited c
  | ⟨awaited, .short quote⟩, c => shortStep awaited quote c
  | ⟨awaited, .shortEscape quote⟩, c =>
    if c = '\x00' then none else some ⟨awaited, .short quote⟩
  | ⟨awaited, .long quote seen⟩, c =>
    if c = '\x00' then none
    else if c = '\\' then some ⟨awaited, .longEscape quote⟩
    else if c ≠ quote.char then some ⟨awaited, .long quote 0⟩
    else some ⟨awaited, if seen = 2 then .code else .long quote (seen + 1)⟩
  | ⟨awaited, .longEscape quote⟩, c =>
    if c = '\x00' then none else some ⟨awaited, .long quote 0⟩

def Scan.isClosed : Scan → Bool
  | ⟨[], .code⟩ => true
  | ⟨[], .opening _ twice⟩ => twice
  | _ => false

/-- Whether a text stands as one expression: it is not blank, its brackets and quotes are closed,
and neither commas, colons, comments nor line breaks stand outside of them. -/
def isExpression (s : String) : Bool :=
  !s.toList.all isBlank && (s.toList.foldlM scanStep {}).any Scan.isClosed

/-- The expression at the start of a text, and the text behind it. -/
def readExpression (cs : List Char) : Option (String × List Char) :=
  let (taken, reached, left) := advance scanStep {} cs
  if reached.isClosed && !taken.all isBlank then some (String.ofList taken, left) else none

theorem scanStep_of_isClosed {s : Scan} (h : s.isClosed) {c : Char} (hc : c = ')' ∨ c = ':') :
    scanStep s c = none := by
  have hcode : codeStep [] c = none := by rcases hc with rfl | rfl <;> rfl
  unfold Scan.isClosed at h
  split at h
  · exact hcode
  · subst h
    rename_i quote
    have hquote : c ≠ quote.char := by rcases hc with rfl | rfl <;> cases quote <;> decide
    rw [scanStep, if_neg hquote]
    exact hcode
  · cases h

theorem readExpression_append {s : String} (h : isExpression s) {c : Char}
    (hc : c = ')' ∨ c = ':') (rest : List Char) :
    readExpression (s.toList ++ c :: rest) = some (s, c :: rest) := by
  obtain ⟨hblank, hscan⟩ := Bool.and_eq_true_iff.mp h
  obtain ⟨last, hlast, hclosed⟩ := (Option.any_eq_true _ _).mp hscan
  rw [readExpression, advance_append hlast (scanStep_of_isClosed hclosed hc)]
  simp [hclosed, hblank]

end OpenApiClient.Text
