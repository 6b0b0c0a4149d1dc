import OpenApiClient.Proofs.LiteralReading
import OpenApiClient.Proofs.TemplateGrammar
import OpenApiClient.Text.Identifier
import Mathlib.Data.List.Basic

/-! # Reading the statements of an address back

The statements that give `url` its value come as text. They are read from this text alone, and what
is read are the statements that the segments of the path and the query table call for. -/
namespace OpenApiClient.Url

open Text (Part readLiteral readExpression isExpression readStep endsField endsLine)

/-- A statement of the generated code, by what it does. -/
inductive Statement
  /-- The arguments are none. -/
  | clear
  /-- One more argument. -/
  | append (name : List Part) (expression : String)
  /-- One more argument where the condition holds. -/
  | guarded (condition : String) (name : List Part) (expression : String)
  /-- The text of the arguments is `query`. -/
  | encode
  /-- The literal is `url`. -/
  | assign (address : List Part)
  /-- The first literal is `url` if `query` has characters, the second one if not. -/
  | choose (long short : List Part)
  deriving DecidableEq

def after (start : String) (cs : List Char) : Option (List Char) := cs.dropPrefix? start.toList

def clearText : String := "query_args: list[tuple[str, str]] = []"

def encodeText : String := "query = urllib.parse.urlencode(query_args, quote_via=urllib.parse.quote)"

def readAppend (cs : List Char) : Option ((List Part × String) × List Char) := do
  let rest ← after "query_args.append((" cs
  let (name, rest) ← readLiteral rest
  let rest ← after ", " rest
  let (expression, rest) ← readExpression rest
  let rest ← after "))" rest
  return ((name, expression), rest)

def readGuarded (cs : List Char) : Option (Statement × List Char) := do
  let rest ← after "if " cs
  let (condition, rest) ← readExpression rest
  let rest ← after ":\n    " rest
  let ((name, expression), rest) ← readAppend rest
  return (.guarded condition name expression, rest)

def readAddress (cs : List Char) : Option (Statement × List Char) := do
  let rest ← after "url = " cs
  let (long, rest) ← readLiteral rest
  match after " if query else " rest with
  | none => return (.assign long, rest)
  | some rest =>
    let (short, rest) ← readLiteral rest
    return (.choose long short, rest)

/-- The statement at the start of a text, and the text behind it. -/
def readStatement (cs : List Char) : Option (Statement × List Char) :=
  (readAppend cs).map (fun (argument, rest) => (.append argument.1 argument.2, rest)) <|>
  readGuarded cs <|>
  (after clearText cs).map (.clear, ·) <|>
  (after encodeText cs).map (.encode, ·) <|>
  readAddress cs

/-- As many statements as there is fuel for, one on each line. -/
def readProgramWith : (fuel : Nat) → List Char → Option (List Statement)
  | 0, _ => none
  | fuel + 1, cs => do
    let (first, rest) ← readStatement cs
    match rest with
    | [] => return [first]
    | '\n' :: rest => return first :: (← readProgramWith fuel rest)
    | _ => none

/-- The statements of a text: no more than there are line breaks, and one. -/
def readProgram (cs : List Char) : Option (List Statement) := readProgramWith (cs.length + 1) cs

def quoteCall (ident : List Char) : List Char :=
  "urllib.parse.quote(str(".toList ++ ident ++ "), safe='')".toList

def segmentParts (idents : String → String) : Segment → List Part
  | .literal text => text.toList.map .char
  | .placeholder name => [.field (quoteCall (idents name).toList)]

def pathParts (idents : String → String) (segments : List Segment) : List Part :=
  segments.flatMap (segmentParts idents)

def bindingStatement : String × Binding → Statement
  | (name, ⟨expression, none⟩) => .append (name.toList.map .char) expression
  | (name, ⟨expression, some condition⟩) =>
    .guarded condition (name.toList.map .char) expression

def addressStatements (idents : String → String) (segments : List Segment) (table : QueryTable) :
    List Statement :=
  let path := pathParts idents segments
  if table.isEmpty then [.assign path]
  else .clear :: table.map bindingStatement ++
    [.encode, .choose (path ++ [.char '?', .field "query".toList]) path]

/-! ## Texts one after the other -/

theorem after_append (start : String) (rest : List Char) :
    after start (start.toList ++ rest) = some rest :=
  List.dropPrefix?_append_of_beq rest (by simp)

theorem after_eq_none {start : String} {cs rest : List Char} (h : ¬ start.toList <+: cs)
    (h' : ¬ cs <+: start.toList) : after start (cs ++ rest) = none := by
  refine Option.eq_none_iff_forall_not_mem.mpr fun left hleft => ?_
  obtain ⟨start', hcs, hstart⟩ := List.dropPrefix?_eq_some_iff.mp hleft
  obtain rfl := beq_iff_eq.mp hstart
  rcases List.prefix_or_prefix_of_prefix (List.prefix_append cs rest) ⟨left, hcs.symm⟩ with h₁ | h₁
  · exact h' h₁
  · exact h h₁

theorem intercalate_flatten {sep : String} {groups : List (List String)}
    (h : ∀ g ∈ groups, g ≠ []) :
    sep.intercalate groups.flatten = sep.intercalate (groups.map sep.intercalate) := by
  induction groups with
  | nil => rfl
  | cons g groups ih =>
    have ih := ih fun g hg => h g (List.mem_cons_of_mem _ hg)
    cases groups with
    | nil => simp
    | cons g' groups =>
      have hne : (g' :: groups).flatten ≠ [] := by
        simp [h g' (List.mem_cons_of_mem _ List.mem_cons_self)]
      rw [List.flatten_cons, String.intercalate_append_of_ne_nil (h g List.mem_cons_self) hne, ih,
        List.map_cons (a := g), String.intercalate_cons_of_ne_nil (by simp)]

/-! ## One statement -/

def AtLineEnd (rest : List Char) : Prop := ∀ c ∈ rest.head?, c = '\n'

/-- The text of a statement reads as the statement, whatever lines follow. -/
def Reads (text : String) (statement : Statement) : Prop :=
  ∀ rest, AtLineEnd rest → readStatement (text.toList ++ rest) = some (statement, rest)

def appendText (name expression : String) : String :=
  "query_args.append((" ++ Text.quoted name ++ ", " ++ expression ++ "))"

variable {name expression condition : String}

theorem readAppend_append (name : String) (hexpression : isExpression expression)
    (rest : List Char) :
    readAppend ((appendText name expression).toList ++ rest) =
      some ((name.toList.map .char, expression), rest) := by
  have hcomma : ∀ rest, ", ".toList ++ rest = ',' :: ' ' :: rest := fun _ => rfl
  have hname : ∀ rest, readLiteral ((Text.quoted name).toList ++ (", ".toList ++ rest)) =
      some (name.toList.map .char, ", ".toList ++ rest) := by
    intro rest
    rw [hcomma, Text.readLiteral_quoted name (by decide)]
  have hclose : "))".toList ++ rest = ')' :: ')' :: rest := rfl
  have hread : readExpression (expression.toList ++ ("))".toList ++ rest)) =
      some (expression, "))".toList ++ rest) := by
    rw [hclose, Text.readExpression_append hexpression (.inl rfl)]
  unfold appendText
  -- The quoted name is made opaque, or the sums of texts around it are evaluated.
  generalize Text.quoted name = quoted at hname
  simp only [String.toList_append, List.append_assoc]
  rw [readAppend, after_append]
  simp only [Option.bind_eq_bind, Option.bind_some, hname, after_append, hread]
  rfl

private theorem reads_append (hexpression : isExpression expression) :
    Reads (appendText name expression) (.append (name.toList.map .char) expression) := by
  intro rest _
  rw [readStatement, readAppend_append name hexpression]
  rfl

theorem readAppend_eq_none {start : String} {rest : List Char}
    (h : ¬ "query_args.append((".toList <+: start.toList)
    (h' : ¬ start.toList <+: "query_args.append((".toList) :
    readAppend (start.toList ++ rest) = none := by
  rw [readAppend, after_eq_none h h']
  rfl

theorem readGuarded_eq_none {start : String} {rest : List Char}
    (h : ¬ "if ".toList <+: start.toList) (h' : ¬ start.toList <+: "if ".toList) :
    readGuarded (start.toList ++ rest) = none := by
  rw [readGuarded, after_eq_none h h']
  rfl

private theorem reads_guarded (hcondition : isExpression condition)
    (hexpression : isExpression expression) :
    Reads ("if " ++ condition ++ ":" ++ "\n" ++ ("    " ++ appendText name expression))
      (.guarded condition (name.toList.map .char) expression) := by
  intro rest _
  have hline : ∀ rest, ":".toList ++ ("\n".toList ++ ("    ".toList ++ rest)) =
      ":\n    ".toList ++ rest := fun _ => rfl
  have hread : ∀ rest, readExpression (condition.toList ++ (":\n    ".toList ++ rest)) =
      some (condition, ":\n    ".toList ++ rest) := by
    intro rest
    have hcolon : ":\n    ".toList ++ rest = ':' :: ("\n    ".toList ++ rest) := rfl
    rw [hcolon, Text.readExpression_append hcondition (.inr rfl)]
  have happend := readAppend_append name hexpression
  generalize appendText name expression = text at happend ⊢
  simp only [String.toList_append, List.append_assoc]
  rw [hline, readStatement, readAppend_eq_none (by decide) (by decide), readGuarded, after_append]
  simp only [Option.bind_eq_bind, Option.bind_some, hread, after_append, happend]
  rfl

private theorem reads_clear : Reads clearText .clear := by
  intro rest _
  rw [readStatement, readAppend_eq_none (by decide) (by decide),
    readGuarded_eq_none (by decide) (by decide), after_append]
  rfl

private theorem reads_encode : Reads encodeText .encode := by
  intro rest _
  rw [readStatement, readAppend_eq_none (by decide) (by decide),
    readGuarded_eq_none (by decide) (by decide), after_eq_none (by decide) (by decide),
    after_append]
  rfl

/-! ## The literal of the address -/

def segmentChars (idents : String → String) : Segment → List Char
  | .literal text => (PathTemplate.escapeLiteral text).toList
  | .placeholder name => '\x7b' :: quoteCall (idents name).toList ++ ['\x7d']

def pathChars (idents : String → String) (segments : List Segment) : List Char :=
  segments.flatMap (segmentChars idents)

def Segment.Writable (idents : String → String) : Segment → Prop
  | .literal text => ∀ c ∈ text.toList, endsLine c = false ∧ c ≠ '\x7b' ∧ c ≠ '\x7d'
  | .placeholder name => Text.isIdentifier (idents name)

variable {formatted : Bool} {idents : String → String}

theorem endsField_of_isIdentifier {ident : String} (h : Text.isIdentifier ident) {c : Char}
    (hc : c ∈ ident.toList) : endsField '"' c = false := by
  have hname := Text.isName_of_mem h hc
  by_contra hends
  simp only [endsField, endsLine, Bool.not_eq_false, Bool.or_eq_true, decide_eq_true_eq] at hends
  rcases hends with (((rfl | (rfl | rfl) | rfl) | rfl) | rfl) | rfl <;> revert hname <;> decide

private theorem foldlM_segment {segment : Segment} (hwritable : segment.Writable idents)
    (hformatted : segment.isPlaceholder → formatted) (parts : List Part) :
    (segmentChars idents segment).foldlM (readStep '"' formatted) ⟨parts, .plain⟩ =
      some ⟨parts ++ segmentParts idents segment, .plain⟩ := by
  cases segment with
  | literal text =>
    have hchar : ∀ c ∈ text.toList, ∀ parts : List Text.Part,
        (if c = '\\' || c = '"' then ['\\', c] else [c]).foldlM (readStep '"' formatted)
          ⟨parts, .plain⟩ = some ⟨parts ++ [Text.Part.char c], .plain⟩ := by
      intro c hc parts
      obtain ⟨hline, hopen, hclose⟩ := hwritable c hc
      split
      · rename_i h
        rcases (by simpa using h : c = '\\' ∨ c = '"') with rfl | rfl
        · exact Text.foldlM_backslash (c := '\\') rfl (.inl rfl) parts
        · exact Text.foldlM_backslash (c := '"') rfl (.inl rfl) parts
      · rename_i h
        obtain ⟨hslash, hquote⟩ : c ≠ '\\' ∧ c ≠ '"' := by simpa using h
        simp [Text.readStep_plain_char hquote hline hslash (absurd · hopen) (absurd · hclose)]
    rw [segmentChars, PathTemplate.escapeLiteral, String.toList_ofList,
      Text.foldlM_flatMap_of_parts parts hchar, ← List.map_eq_flatMap]
    rfl
  | placeholder name =>
    obtain rfl : formatted = true := hformatted rfl
    have hfront : ∀ c ∈ "urllib.parse.quote(str(".toList, endsField '"' c = false :=
      Text.forall_mem_of_all (by decide)
    have hback : ∀ c ∈ "), safe='')".toList, endsField '"' c = false :=
      Text.forall_mem_of_all (by decide)
    have hne : quoteCall (idents name).toList ≠ [] :=
      List.append_ne_nil_of_right_ne_nil _ (by decide)
    refine Text.foldlM_braced hne (fun c hc => ?_) parts
    rcases List.mem_append.mp hc with hc | hc
    · exact (List.mem_append.mp hc).elim (hfront c) (endsField_of_isIdentifier hwritable)
    · exact hback c hc

theorem foldlM_path {segments : List Segment} (hwritable : ∀ s ∈ segments, s.Writable idents)
    (hformatted : segments.any Segment.isPlaceholder → formatted) :
    (pathChars idents segments).foldlM (readStep '"' formatted) {} =
      some ⟨pathParts idents segments, .plain⟩ := by
  refine (Text.foldlM_flatMap_of_parts [] fun s hs => foldlM_segment (hwritable s hs) ?_).trans rfl
  exact fun h => hformatted (List.any_eq_true.mpr ⟨s, hs, h⟩)

def plainText (idents : String → String) (segments : List Segment) : String :=
  (if segments.any Segment.isPlaceholder then "f" else "") ++ "\"" ++
    String.ofList (pathChars idents segments) ++ "\""

theorem readLiteral_plainText {segments : List Segment}
    (hwritable : ∀ s ∈ segments, s.Writable idents) {rest : List Char} (hrest : AtLineEnd rest) :
    readLiteral ((plainText idents segments).toList ++ rest) =
      some (pathParts idents segments, rest) := by
  have hhead : rest.head? ≠ some '"' := fun h => absurd (hrest _ h) (by decide)
  have hread := Text.readLiteral_marked (foldlM_path hwritable id) hhead
  rw [← hread]
  congr 1
  rw [plainText]
  cases segments.any Segment.isPlaceholder <;> simp

def queriedText (idents : String → String) (segments : List Segment) : String :=
  "f\"" ++ String.ofList (pathChars idents segments) ++ "?\x7bquery\x7d\""

private theorem readLiteral_queriedText {segments : List Segment}
    (hwritable : ∀ s ∈ segments, s.Writable idents) {rest : List Char} (hrest : rest.head? ≠ some '"') :
    readLiteral ((queriedText idents segments).toList ++ rest) =
      some (pathParts idents segments ++ [Text.Part.char '?', Text.Part.field "query".toList], rest) := by
  have hfold : (pathChars idents segments ++ "?\x7bquery\x7d".toList).foldlM (readStep '"' true) {} =
      some ⟨pathParts idents segments ++ [Text.Part.char '?', Text.Part.field "query".toList], .plain⟩ := by
    rw [List.foldlM_append, foldlM_path hwritable fun _ => rfl]
    have hne : "query".toList ≠ [] := by decide
    have hbraced := Text.foldlM_braced hne (Text.forall_mem_of_all (by decide))
      (pathParts idents segments ++ [.char '?'])
    rw [List.append_assoc] at hbraced
    exact hbraced
  have hread := Text.readLiteral_marked hfold hrest
  rw [← hread]
  congr 1
  simp [queriedText]

theorem readAddress_append {rest : List Char} :
    readStatement ("url = ".toList ++ rest) = readAddress ("url = ".toList ++ rest) := by
  rw [readStatement, readAppend_eq_none (by decide) (by decide),
    readGuarded_eq_none (by decide) (by decide), after_eq_none (by decide) (by decide),
    after_eq_none (by decide) (by decide)]
  rfl

private theorem after_eq_none_of_atLineEnd {rest : List Char} (hrest : AtLineEnd rest) :
    after " if query else " rest = none := by
  cases rest with
  | nil => rfl
  | cons c rest =>
    obtain rfl : c = '\n' := hrest c rfl
    have hbreak : after " if query else " (['\n'] ++ rest) = none :=
      after_eq_none (by decide) (by decide)
    exact hbreak

variable {segments : List Segment}

private theorem reads_assign (hwritable : ∀ s ∈ segments, s.Writable idents) :
    Reads ("url = " ++ plainText idents segments) (.assign (pathParts idents segments)) := by
  intro rest hrest
  have hread := readLiteral_plainText hwritable hrest
  generalize plainText idents segments = text at hread ⊢
  rw [String.toList_append, List.append_assoc, readAddress_append, readAddress, after_append]
  simp only [Option.bind_eq_bind, Option.bind_some, hread, after_eq_none_of_atLineEnd hrest]
  rfl

private theorem reads_choose (hwritable : ∀ s ∈ segments, s.Writable idents) :
    Reads ("url = " ++ queriedText idents segments ++ " if query else " ++ plainText idents segments)
      (.choose (pathParts idents segments ++ [Text.Part.char '?', Text.Part.field "query".toList])
        (pathParts idents segments)) := by
  intro rest hrest
  have hlong : ∀ rest, readLiteral ((queriedText idents segments).toList ++
      (" if query else ".toList ++ rest)) =
      some (pathParts idents segments ++ [Text.Part.char '?', Text.Part.field "query".toList],
        " if query else ".toList ++ rest) :=
    fun rest => readLiteral_queriedText hwritable (by simp)
  have hshort := readLiteral_plainText hwritable hrest
  generalize plainText idents segments = short at hshort ⊢
  generalize queriedText idents segments = long at hlong ⊢
  simp only [String.toList_append, List.append_assoc]
  rw [readAddress_append, readAddress, after_append]
  simp only [Option.bind_eq_bind, Option.bind_some, hlong, after_append, hshort]
  rfl

/-! ## The whole text -/

private theorem length_le_intercalate (lines : List String) :
    lines.length ≤ ("\n".intercalate lines).toList.length + 1 := by
  induction lines with
  | nil => simp
  | cons line lines ih =>
    cases lines with
    | nil => simp
    | cons next lines =>
      rw [String.intercalate_cons_cons, String.toList_append, String.toList_append,
        List.length_append, List.length_append, List.length_cons]
      have hbreak : "\n".toList.length = 1 := rfl
      omega

theorem readProgramWith_lines {lines : List (String × Statement)} (hne : lines ≠ [])
    (h : ∀ l ∈ lines, Reads l.1 l.2) {fuel : Nat} (hfuel : lines.length ≤ fuel) :
    readProgramWith fuel ("\n".intercalate (lines.map Prod.fst)).toList =
      some (lines.map Prod.snd) := by
  induction lines generalizing fuel with
  | nil => exact absurd rfl hne
  | cons line lines ih =>
    have hline := h line List.mem_cons_self
    obtain ⟨fuel, rfl⟩ : ∃ k, fuel = k + 1 := ⟨fuel - 1, by simp at hfuel; omega⟩
    cases lines with
    | nil =>
      have hread := hline [] (by simp [AtLineEnd])
      rw [List.append_nil] at hread
      simp [readProgramWith, hread]
    | cons next lines =>
      have ih := ih (by simp) (fun l hl => h l (List.mem_cons_of_mem _ hl))
        (Nat.le_of_succ_le_succ hfuel)
      have hread := hline ('\n' :: ("\n".intercalate ((next :: lines).map Prod.fst)).toList)
        (by simp [AtLineEnd])
      have hchars : ("\n".intercalate ((line :: next :: lines).map Prod.fst)).toList = line.1.toList ++
          '\n' :: ("\n".intercalate ((next :: lines).map Prod.fst)).toList := by
        rw [List.map_cons, String.intercalate_cons_of_ne_nil (by simp)]
        simp only [String.toList_append, List.append_assoc]
        rfl
      rw [hchars, readProgramWith, hread]
      simp only [Option.bind_eq_bind, Option.bind_some, ih]
      rfl

def bindingGroup : String × Binding → List String
  | (name, ⟨expression, none⟩) => [appendText name expression]
  | (name, ⟨expression, some condition⟩) =>
    ["if " ++ condition ++ ":", "    " ++ appendText name expression]

theorem bindingLines_eq (table : QueryTable) :
    PathTemplate.bindingLines table = (table.map bindingGroup).flatten := by
  rw [PathTemplate.bindingLines, List.flatMap_def]
  congr 1
  refine List.map_congr_left fun ⟨name, expression, condition⟩ _ => ?_
  cases condition <;> rfl

def QueryTable.Readable (table : QueryTable) : Prop :=
  ∀ e ∈ table, isExpression e.2.expression ∧ ∀ c ∈ e.2.condition, isExpression c

private theorem reads_binding {e : String × Binding} (hexpression : isExpression e.2.expression)
    (hcondition : ∀ c ∈ e.2.condition, isExpression c) :
    Reads ("\n".intercalate (bindingGroup e)) (bindingStatement e) := by
  obtain ⟨name, expression, condition⟩ := e
  cases condition with
  | none =>
    rw [bindingGroup, String.intercalate_singleton]
    exact reads_append hexpression
  | some condition =>
    rw [bindingGroup, String.intercalate_cons_cons, String.intercalate_singleton]
    exact reads_guarded (hcondition condition rfl) hexpression

def statementTexts (idents : String → String) (segments : List Segment) (table : QueryTable) :
    List (String × Statement) :=
  let path := pathParts idents segments
  let plain := plainText idents segments
  if table.isEmpty then [("url = " ++ plain, .assign path)]
  else (clearText, .clear) ::
    table.map (fun e => ("\n".intercalate (bindingGroup e), bindingStatement e)) ++
    [(encodeText, .encode),
      ("url = " ++ queriedText idents segments ++ " if query else " ++ plain,
        .choose (path ++ [.char '?', .field "query".toList]) path)]

private theorem map_snd_statementTexts (table : QueryTable) :
    (statementTexts idents segments table).map Prod.snd =
      addressStatements idents segments table := by
  rw [statementTexts, addressStatements]
  split <;> simp

private theorem reads_statementTexts {table : QueryTable}
    (hwritable : ∀ s ∈ segments, s.Writable idents)
    (htable : table.Readable) :
    ∀ l ∈ statementTexts idents segments table, Reads l.1 l.2 := by
  intro l hl
  rw [statementTexts] at hl
  split at hl
  · obtain rfl := List.mem_singleton.mp hl
    exact reads_assign hwritable
  · rcases List.mem_append.mp hl with hl | hl
    · rcases List.mem_cons.mp hl with rfl | hl
      · exact reads_clear
      · obtain ⟨e, he, rfl⟩ := List.mem_map.mp hl
        exact reads_binding (htable e he).1 (htable e he).2
    · rcases List.mem_pair.mp hl with rfl | rfl
      · exact reads_encode
      · exact reads_choose hwritable

theorem toList_braced (ident : String) :
    ("\x7burllib.parse.quote(str(" ++ ident ++ "), safe='')\x7d").toList =
      '\x7b' :: quoteCall ident.toList ++ ['\x7d'] := by
  have hopen : "\x7burllib.parse.quote(str(".toList =
      '\x7b' :: "urllib.parse.quote(str(".toList := rfl
  have hclose : "), safe='')\x7d".toList = "), safe='')".toList ++ ['\x7d'] := rfl
  unfold quoteCall
  simp only [String.toList_append, hopen, hclose, List.cons_append, List.append_assoc]

private theorem mapM_segmentCode {names : String → Except Fault String}
    (hnames : ∀ name, .placeholder name ∈ segments → names name = .ok (idents name)) :
    segments.mapM (PathTemplate.segmentCode names) =
      .ok (segments.map fun s => String.ofList (segmentChars idents s)) := by
  induction segments with
  | nil => rfl
  | cons s segments ih =>
    have hs : PathTemplate.segmentCode names s = .ok (String.ofList (segmentChars idents s)) := by
      cases s with
      | literal text => rw [PathTemplate.segmentCode, segmentChars, String.ofList_toList]
      | placeholder name =>
        rw [PathTemplate.segmentCode, hnames name List.mem_cons_self]
        refine congrArg Except.ok (String.toList_injective ?_)
        rw [String.toList_ofList]
        exact toList_braced (idents name)
    rw [List.mapM_cons, hs, ih fun name hname => hnames name (List.mem_cons_of_mem _ hname)]
    rfl

def addressLines (idents : String → String) (segments : List Segment) (table : QueryTable) :
    List String :=
  let plain := plainText idents segments
  if table.isEmpty then ["url = " ++ plain]
  else [clearText] ++ PathTemplate.bindingLines table ++
    [encodeText, "url = " ++ queriedText idents segments ++ " if query else " ++ plain]

theorem codeLines_eq {t : PathTemplate} {names : String → Except Fault String}
    (hnames : ∀ name, .placeholder name ∈ t.segments → names name = .ok (idents name))
    (table : QueryTable) :
    t.codeLines table names = .ok (addressLines idents t.segments table) := by
  have hpath : String.join (t.segments.map fun s => String.ofList (segmentChars idents s)) =
      String.ofList (pathChars idents t.segments) := by
    refine String.toList_injective ?_
    rw [String.toList_join, String.toList_ofList, pathChars, List.flatMap_map]
    simp
  have hqueried : "url = f\"" ++ String.ofList (pathChars idents t.segments) ++
      "?\x7bquery\x7d\" if query else " = "url = " ++ queriedText idents t.segments ++
        " if query else " := by
    have hopen : "url = f\"".toList = "url = ".toList ++ "f\"".toList := rfl
    have hclose : "?\x7bquery\x7d\" if query else ".toList =
        "?\x7bquery\x7d\"".toList ++ " if query else ".toList := rfl
    refine String.toList_injective ?_
    rw [queriedText]
    generalize String.ofList (pathChars idents t.segments) = path
    simp only [String.toList_append, hopen, hclose, List.append_assoc]
  rw [PathTemplate.codeLines, addressLines, mapM_segmentCode hnames]
  simp only [bind, Except.bind, hpath, hqueried]
  split <;> rfl

theorem code_eq_intercalate {t : PathTemplate} {names : String → Except Fault String}
    (hnames : ∀ name, .placeholder name ∈ t.segments → names name = .ok (idents name))
    (table : QueryTable) :
    t.code table names = .ok ("\n".intercalate (addressLines idents t.segments table)) := by
  rw [PathTemplate.code, codeLines_eq hnames]
  rfl

private theorem code_eq {t : PathTemplate} {names : String → Except Fault String}
    (hnames : ∀ name, .placeholder name ∈ t.segments → names name = .ok (idents name))
    (table : QueryTable) :
    t.code table names =
      .ok ("\n".intercalate ((statementTexts idents t.segments table).map Prod.fst)) := by
  rw [code_eq_intercalate hnames, addressLines, statementTexts]
  split
  · rfl
  · have hgroups : [clearText] ++ PathTemplate.bindingLines table ++
        [encodeText, "url = " ++ queriedText idents t.segments ++ " if query else " ++
          plainText idents t.segments] =
        ([[clearText]] ++ table.map bindingGroup ++ [[encodeText],
          ["url = " ++ queriedText idents t.segments ++ " if query else " ++
            plainText idents t.segments]]).flatten := by
      simp [bindingLines_eq]
    have hne : ∀ g ∈ table.map bindingGroup, g ≠ [] := by
      intro g hg
      obtain ⟨⟨name, expression, condition⟩, -, rfl⟩ := List.mem_map.mp hg
      cases condition <;> simp [bindingGroup]
    refine congrArg Except.ok ?_
    rw [hgroups, intercalate_flatten (by simpa [or_imp, forall_and] using hne)]
    simp [Function.comp_def]

/-! ## Segments of a path -/

def Unbraced (segments : List Segment) : Prop :=
  ∀ text, .literal text ∈ segments → ∀ c ∈ text.toList, c ≠ '\x7b' ∧ c ≠ '\x7d'

theorem unbraced_of_parse {path : String} {t : PathTemplate}
    (h : PathTemplate.parse path = .ok t) : Unbraced t.segments := by
  intro text htext c hc
  obtain ⟨-, hplain⟩ := (parse_ok_iff.mp h).2.proper _ htext
  simpa [isBrace] using hplain c hc

/-- The code of a parsed path reads as the statements of its address. -/
theorem readProgram_code {path : String} {t : PathTemplate}
    (hparse : PathTemplate.parse path = .ok t)
    (hline : ∀ text, .literal text ∈ t.segments → ∀ c ∈ text.toList, endsLine c = false)
    {names : String → Except Fault String}
    (hnames : ∀ name, .placeholder name ∈ t.segments → names name = .ok (idents name))
    (hidents : ∀ name, .placeholder name ∈ t.segments → Text.isIdentifier (idents name))
    {table : QueryTable} (htable : table.Readable) :
    ∃ code, t.code table names = .ok code ∧
      readProgram code.toList = some (addressStatements idents t.segments table) := by
  have hwritable : ∀ s ∈ t.segments, s.Writable idents := by
    intro s hs
    cases s with
    | literal text =>
      intro c hc
      obtain ⟨hopen, hclose⟩ := unbraced_of_parse hparse text hs c hc
      exact ⟨hline text hs c hc, hopen, hclose⟩
    | placeholder name => exact hidents name hs
  refine ⟨_, code_eq hnames table, ?_⟩
  have hne : statementTexts idents t.segments table ≠ [] := by
    rw [statementTexts]
    split <;> simp
  rw [readProgram, readProgramWith_lines hne (reads_statementTexts hwritable htable)
    (by simpa using length_le_intercalate ((statementTexts idents t.segments table).map Prod.fst)),
    map_snd_statementTexts]

end OpenApiClient.Url
