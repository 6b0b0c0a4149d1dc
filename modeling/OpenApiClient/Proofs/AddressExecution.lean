import OpenApiClient.Proofs.AddressReading
import OpenApiClient.Naming.SnakeCase

/-! # Running the statements of an address

The statements are read from the text of the code and run on the names that hold texts. `url` ends
as the segments of the path, its placeholders quoted, with the encoded arguments behind them. -/
namespace OpenApiClient.Url

open Text (Part endsLine)

/-- The texts of names and expressions, the truth of conditions, and the functions of the library
that the code calls. -/
structure Environment where
  /-- The name that an identifier is read as. -/
  normal : String → String
  normal_ascii : ∀ ident, (∀ c ∈ ident.toList, c.toNat < 128) → normal ident = ident
  /-- The texts of names before the code runs. -/
  initial : String → Option String
  value : String → String
  holds : String → Bool
  quote : String → String
  urlencode : List (String × String) → String

/-- The names that hold texts, and the list of arguments if there is one. -/
structure State where
  texts : String → Option String
  arguments : Option (List (String × String)) := none

def State.set (s : State) (name : String) (text : Option String) : State :=
  { s with texts := fun other => if other = name then text else s.texts other }

def isVariable (ident : String) : Bool :=
  Text.isIdentifier ident && !Naming.keywords.contains ident

/-- The identifier whose value an expression quotes, if this is what it does. -/
def quotedIdent? (field : List Char) : Option (List Char) := do
  let ident := (← after "urllib.parse.quote(str(" field).takeWhile (· ≠ ')')
  if field = quoteCall ident then some ident else none

namespace Environment
variable (env : Environment)

def variableText (s : State) (ident : List Char) : Option String :=
  if isVariable (String.ofList ident) then s.texts (env.normal (String.ofList ident)) else none

/-- The text of an expression in braces: the text of a variable, or its quoted text. The function
is called by two names, so that neither may hold a text. -/
def fieldText (s : State) (field : List Char) : Option String :=
  match quotedIdent? field with
  | some ident =>
    if (s.texts "urllib").isNone && (s.texts "str").isNone then
      (env.variableText s ident).map env.quote
    else none
  | none => env.variableText s field

def literalText (s : State) : List Part → Option String
  | [] => some ""
  | .char c :: parts => (literalText s parts).map (String.singleton c ++ ·)
  | .field field :: parts => do return (← env.fieldText s field) ++ (← literalText s parts)

def append (s : State) (name : List Part) (expression : String) : Option State := do
  return { s with
    arguments := some ((← s.arguments) ++ [(← env.literalText s name, env.value expression)]) }

def execute (s : State) : Statement → Option State
  | .clear => some { s.set "query_args" none with arguments := some [] }
  | .append name expression => env.append s name expression
  | .guarded condition name expression =>
    if env.holds condition then env.append s name expression else some s
  | .encode => do
    if (s.texts "urllib").isNone then
      return s.set "query" (env.urlencode (← s.arguments))
    else none
  | .assign address => do return s.set "url" (← env.literalText s address)
  | .choose long short => do
    let query ← s.texts "query"
    return s.set "url" (← env.literalText s (if query = "" then short else long))

def run (s : State) (statements : List Statement) : Option State :=
  statements.foldlM env.execute s

/-- The text of `url` after code has run. -/
def urlAfter (code : String) : Option String := do
  let last ← env.run ⟨env.initial, none⟩ (← readProgram code.toList)
  last.texts "url"

/-- What a segment becomes in the address, `values` being the texts of the placeholders. -/
def segmentText (values : String → String) : Segment → String
  | .literal text => text
  | .placeholder name => env.quote (values name)

/-- The arguments that are sent: those without a condition, and those whose condition holds. -/
def sent (table : QueryTable) : List (String × String) :=
  (table.filter fun e => e.2.condition.all env.holds).map fun e => (e.1, env.value e.2.expression)

def addressText (values : String → String) (segments : List Segment) (table : QueryTable) :
    String :=
  String.join (segments.map (env.segmentText values)) ++
    if (env.sent table).isEmpty then "" else "?" ++ env.urlencode (env.sent table)

/-- Whether the code of a path gives `url` the address. -/
def Reaches (t : PathTemplate) (table : QueryTable) (names : String → Except Fault String)
    (values : String → String) : Prop :=
  ∃ code, t.code table names = .ok code ∧
    env.urlAfter code = some (env.addressText values t.segments table)

/-- The texts of names where the address is made: a query table takes two names for itself. -/
def lastTexts (table : QueryTable) : String → Option String :=
  if table.isEmpty then env.initial
  else fun name =>
    if name = "query" then some (env.urlencode (env.sent table))
    else if name = "query_args" then none
    else env.initial name

end Environment

/-! ## Texts of literals -/

section Literals
variable {env : Environment} {s : State}

theorem literalText_append {parts parts' : List Part} {text text' : String}
    (h : env.literalText s parts = some text) (h' : env.literalText s parts' = some text') :
    env.literalText s (parts ++ parts') = some (text ++ text') := by
  induction parts generalizing text with
  | nil =>
    obtain rfl := Option.some.inj h
    simpa using h'
  | cons part parts ih =>
    cases part with
    | char c =>
      obtain ⟨rest, hrest, rfl⟩ := Option.map_eq_some_iff.mp h
      simp [Environment.literalText, ih hrest, String.append_assoc]
    | field field =>
      obtain ⟨here, hhere, h⟩ := Option.bind_eq_some_iff.mp h
      obtain ⟨rest, hrest, h⟩ := Option.bind_eq_some_iff.mp h
      obtain rfl := Option.some.inj h
      simp [Environment.literalText, hhere, ih hrest, String.append_assoc]

theorem literalText_chars (text : String) :
    env.literalText s (text.toList.map .char) = some text := by
  have h : ∀ cs : List Char, env.literalText s (cs.map .char) = some (String.ofList cs) := by
    intro cs
    induction cs with
    | nil => rfl
    | cons c cs ih =>
      rw [List.map_cons, Environment.literalText, ih, Option.map_some]
      refine congrArg some (String.toList_injective ?_)
      simp
  rw [h, String.ofList_toList]

theorem variableText_of_isVariable {ident : String} (h : isVariable ident) :
    env.variableText s ident.toList = s.texts (env.normal ident) := by
  rw [Environment.variableText, String.ofList_toList, if_pos h]

private theorem quotedIdent?_quoteCall {ident : List Char} (h : ')' ∉ ident) :
    quotedIdent? (quoteCall ident) = some ident := by
  have hafter : after "urllib.parse.quote(str(" (quoteCall ident) =
      some (ident ++ "), safe='')".toList) := by
    unfold quoteCall
    rw [List.append_assoc]
    exact after_append _ _
  have hident : (ident ++ "), safe='')".toList).takeWhile (· ≠ ')') = ident := by
    refine (List.takeWhile_append_of_pos fun c hc => ?_).trans (List.append_nil ident)
    exact decide_eq_true fun hclose => h (hclose ▸ hc)
  rw [quotedIdent?, hafter]
  simp only [Option.bind_eq_bind, Option.bind_some, hident, if_true]

private theorem fieldText_quoteCall {ident text : String} (hvariable : isVariable ident)
    (hlibrary : s.texts "urllib" = none ∧ s.texts "str" = none)
    (htext : s.texts (env.normal ident) = some text) :
    env.fieldText s (quoteCall ident.toList) = some (env.quote text) := by
  have hident := (Bool.and_eq_true_iff.mp hvariable).1
  have hclose : ')' ∉ ident.toList := by
    intro h
    have hname := Text.isName_of_mem hident h
    revert hname
    decide
  rw [Environment.fieldText, quotedIdent?_quoteCall hclose]
  simp [hlibrary, variableText_of_isVariable hvariable, htext]

private theorem fieldText_query : env.fieldText s "query".toList = s.texts "query" := by
  have hquery : quotedIdent? "query".toList = none := by decide
  have hvariable : isVariable "query" := by decide
  rw [Environment.fieldText, hquery]
  exact (variableText_of_isVariable hvariable).trans
    (congrArg s.texts (env.normal_ascii "query" (Text.forall_mem_of_all (by decide))))

private theorem literalText_query {text : String} (h : s.texts "query" = some text) :
    env.literalText s [.char '?', .field "query".toList] = some ("?" ++ text) := by
  rw [Environment.literalText, Environment.literalText, fieldText_query, h]
  simp [Environment.literalText]

/-- The literal of a path says the segments, once its names hold the texts of the placeholders. -/
theorem literalText_path {idents values : String → String} {segments : List Segment}
    (hlibrary : s.texts "urllib" = none ∧ s.texts "str" = none)
    (hvalues : ∀ name, .placeholder name ∈ segments →
      isVariable (idents name) ∧ s.texts (env.normal (idents name)) = some (values name)) :
    env.literalText s (pathParts idents segments) =
      some (String.join (segments.map (env.segmentText values))) := by
  induction segments with
  | nil => rfl
  | cons segment segments ih =>
    have hhere : env.literalText s (segmentParts idents segment) =
        some (env.segmentText values segment) := by
      cases segment with
      | literal text => exact literalText_chars text
      | placeholder name =>
        obtain ⟨hvariable, htext⟩ := hvalues name List.mem_cons_self
        simp [segmentParts, Environment.literalText, Environment.segmentText,
          fieldText_quoteCall hvariable hlibrary htext]
    have hrest := ih fun name hname => hvalues name (List.mem_cons_of_mem _ hname)
    rw [List.map_cons, String.join_cons]
    exact literalText_append hhere hrest

end Literals

/-! ## Arguments -/

section Arguments
variable {env : Environment} {s : State} {arguments : List (String × String)}

private theorem execute_binding (h : s.arguments = some arguments) (e : String × Binding) :
    env.execute s (bindingStatement e) =
      some { s with arguments := some (arguments ++ env.sent [e]) } := by
  obtain ⟨name, expression, condition⟩ := e
  have happend : env.append s (name.toList.map .char) expression =
      some { s with arguments := some (arguments ++ [(name, env.value expression)]) } := by
    simp [Environment.append, h, literalText_chars]
  cases condition with
  | none => simpa [bindingStatement, Environment.execute, Environment.sent] using happend
  | some condition =>
    cases hcondition : env.holds condition with
    | true =>
      simpa [bindingStatement, Environment.execute, Environment.sent, hcondition] using happend
    | false =>
      simp [bindingStatement, Environment.execute, Environment.sent, hcondition, ← h]

private theorem sent_cons (e : String × Binding) (table : QueryTable) :
    env.sent (e :: table) = env.sent [e] ++ env.sent table := by
  simp [Environment.sent, ← List.map_append, ← List.filter_append]

theorem run_bindings (h : s.arguments = some arguments) (table : QueryTable) :
    env.run s (table.map bindingStatement) =
      some { s with arguments := some (arguments ++ env.sent table) } := by
  induction table generalizing s arguments with
  | nil => simp [Environment.run, Environment.sent, ← h]
  | cons e table ih =>
    rw [List.map_cons, Environment.run, List.foldlM_cons, execute_binding h]
    refine (ih rfl).trans ?_
    rw [sent_cons e table, List.append_assoc]

end Arguments

/-! ## Addresses -/

section Addresses
variable {env : Environment} {path : String} {t : PathTemplate} {table : QueryTable}
  {names : String → Except Fault String} {idents values : String → String}

/-- The statements give `url` the address, `values` being what the names of the placeholders hold
where it is made. -/
theorem run_addressStatements {segments : List Segment}
    (hvariable : ∀ name, .placeholder name ∈ segments → isVariable (idents name))
    (hvalues : ∀ name, .placeholder name ∈ segments →
      env.lastTexts table (env.normal (idents name)) = some (values name))
    (hlibrary : env.initial "urllib" = none ∧ env.initial "str" = none)
    (hencode : ∀ arguments, env.urlencode arguments = "" ↔ arguments = []) :
    ∃ last, env.run ⟨env.initial, none⟩ (addressStatements idents segments table) = some last ∧
      last.texts "url" = some (env.addressText values segments table) := by
  cases table with
  | nil =>
    have hpath : env.literalText ⟨env.initial, none⟩ (pathParts idents segments) =
        some (String.join (segments.map (env.segmentText values))) :=
      literalText_path hlibrary fun name hname => ⟨hvariable name hname, hvalues name hname⟩
    simp [addressStatements, Environment.run, Environment.execute, hpath, State.set,
      Environment.addressText, Environment.sent]
  | cons e table =>
    -- The states behind the first statement and behind the encoding of the arguments.
    let arguments := env.sent (e :: table)
    let cleared : State := { State.set ⟨env.initial, none⟩ "query_args" none with arguments := some [] }
    let encoded : State :=
      { cleared with arguments := some arguments }.set "query" (env.urlencode arguments)
    have hbindings : env.run cleared ((e :: table).map bindingStatement) =
        some { cleared with arguments := some ([] ++ arguments) } := run_bindings rfl _
    have hencoded : env.execute { cleared with arguments := some arguments } .encode =
        some encoded := by
      simp [Environment.execute, cleared, State.set, hlibrary.1, encoded]
    have hquery : encoded.texts "query" = some (env.urlencode arguments) := by
      simp [encoded, State.set]
    have hpath : env.literalText encoded (pathParts idents segments) =
        some (String.join (segments.map (env.segmentText values))) := by
      refine literalText_path ?_ fun name hname => ⟨hvariable name hname, hvalues name hname⟩
      simpa [encoded, cleared, State.set] using hlibrary
    have hchosen : env.literalText encoded
        (if env.urlencode arguments = "" then pathParts idents segments
          else pathParts idents segments ++ [.char '?', .field "query".toList]) =
        some (env.addressText values segments (e :: table)) := by
      rw [Environment.addressText]
      split
      · rename_i hempty
        have hnone : env.sent (e :: table) = [] := (hencode _).mp hempty
        simp [hpath, hnone]
      · rename_i hsome
        have hany : env.sent (e :: table) ≠ [] := fun h => hsome ((hencode _).mpr h)
        rw [literalText_append hpath (literalText_query hquery), if_neg (by simpa using hany)]
    have hchoose : env.execute encoded (.choose
        (pathParts idents segments ++ [.char '?', .field "query".toList])
        (pathParts idents segments)) =
        some (encoded.set "url" (env.addressText values segments (e :: table))) := by
      simp only [Environment.execute, hquery, Option.bind_eq_bind, Option.bind_some, hchosen]
      rfl
    refine ⟨encoded.set "url" (env.addressText values segments (e :: table)), ?_, by simp [State.set]⟩
    rw [addressStatements, if_neg (by simp), Environment.run, List.foldlM_append]
    refine (congrArg (Option.bind · _) hbindings).trans ?_
    refine (congrArg (Option.bind · _) hencoded).trans ?_
    exact (congrArg (Option.bind · _) hchoose).trans rfl

/-- What `url` holds after the code has run, whatever the names of the placeholders are. -/
theorem urlAfter_code (hparse : PathTemplate.parse path = .ok t)
    (hline : ∀ text, .literal text ∈ t.segments → ∀ c ∈ text.toList, endsLine c = false)
    (hnames : ∀ name, .placeholder name ∈ t.segments → names name = .ok (idents name))
    (hvariable : ∀ name, .placeholder name ∈ t.segments → isVariable (idents name))
    (hvalues : ∀ name, .placeholder name ∈ t.segments →
      env.lastTexts table (env.normal (idents name)) = some (values name))
    (hlibrary : env.initial "urllib" = none ∧ env.initial "str" = none)
    (htable : table.Readable)
    (hencode : ∀ arguments, env.urlencode arguments = "" ↔ arguments = []) :
    env.Reaches t table names values := by
  have hidents : ∀ name, .placeholder name ∈ t.segments → Text.isIdentifier (idents name) :=
    fun name hname => (Bool.and_eq_true_iff.mp (hvariable name hname)).1
  obtain ⟨code, hcode, hread⟩ := readProgram_code hparse hline hnames hidents htable
  obtain ⟨last, hrun, hurl⟩ := run_addressStatements hvariable hvalues hlibrary hencode
  exact ⟨code, hcode, by simp [Environment.urlAfter, hread, hrun, hurl]⟩

/-- The code of a path gives `url` its address: the literal text and the quoted texts of the
placeholders, and behind them the arguments that are sent, if there are any. The names of the
placeholders are none of those that the code uses itself. -/
theorem reaches_address (env : Environment) (hparse : PathTemplate.parse path = .ok t)
    (hline : ∀ text, .literal text ∈ t.segments → ∀ c ∈ text.toList, endsLine c = false)
    (hnames : ∀ name, .placeholder name ∈ t.segments → names name = .ok (idents name))
    (hvariable : ∀ name, .placeholder name ∈ t.segments → isVariable (idents name))
    (hvalues : ∀ name, .placeholder name ∈ t.segments →
      env.initial (env.normal (idents name)) = some (values name))
    (hlibrary : env.initial "urllib" = none ∧ env.initial "str" = none)
    (hown : ∀ name, .placeholder name ∈ t.segments → table ≠ [] →
      env.normal (idents name) ≠ "query" ∧ env.normal (idents name) ≠ "query_args")
    (htable : table.Readable)
    (hencode : ∀ arguments, env.urlencode arguments = "" ↔ arguments = []) :
    env.Reaches t table names values := by
  refine urlAfter_code hparse hline hnames hvariable (fun name hname => ?_) hlibrary htable hencode
  rw [Environment.lastTexts]
  split
  · exact hvalues name hname
  · rename_i hne
    obtain ⟨hquery, hargs⟩ := hown name hname (by simpa using hne)
    simp only [hquery, hargs, if_false, hvalues name hname]

end Addresses

/-! ## One environment -/

/-- A byte of a text within an address: a letter, a digit or one of four signs as it is, another
byte by its two digits. -/
def percentChars (byte : UInt8) : List Char :=
  let c := Char.ofNat byte.toNat
  if c.isAlphanum || ['_', '.', '-', '~'].contains c then [c]
  else '%' :: (Text.hexDigits 2 byte.toNat).map Char.toUpper

def percentEncoded (s : String) : String :=
  String.ofList (s.toByteArray.data.toList.flatMap percentChars)

def encodedArguments (arguments : List (String × String)) : String :=
  "&".intercalate (arguments.map fun a => percentEncoded a.1 ++ "=" ++ percentEncoded a.2)

/-- The environment where one name holds a text, every expression has one text, and no condition
holds. All names are read as they are. -/
def singleEnvironment (name text value : String) : Environment where
  normal := id
  normal_ascii := fun _ _ => rfl
  initial := fun other => if other = name then some text else none
  value := fun _ => value
  holds := fun _ => false
  quote := percentEncoded
  urlencode := encodedArguments

theorem encodedArguments_eq_empty (arguments : List (String × String)) :
    encodedArguments arguments = "" ↔ arguments = [] := by
  constructor
  · intro h
    have hchars := congrArg String.toList h
    match arguments with
    | [] => rfl
    | [a] => simp [encodedArguments] at hchars
    | a :: b :: arguments => simp [encodedArguments, String.toList_append] at hchars
  · rintro rfl
    rfl

theorem reaches_items :
    (singleEnvironment "item_id" "a b" "x").Reaches
      ⟨"/items/{itemId}", [.literal "/items/", .placeholder "itemId"]⟩
      [("q", ⟨"q", none⟩), ("page", ⟨"str(page)", some "page is not None"⟩)]
      PathTemplate.ownNames fun _ => "a b" := by
  have hparse : PathTemplate.parse "/items/{itemId}" =
      .ok ⟨"/items/{itemId}", [.literal "/items/", .placeholder "itemId"]⟩ := rfl
  have hident : Naming.identifier [] "itemId" = "item_id" := by decide
  have hvariable : isVariable "item_id" := by decide
  have hname : ∀ name, .placeholder name ∈ [Segment.literal "/items/", .placeholder "itemId"] →
      name = "itemId" := by simp
  refine reaches_address _ hparse ?_ (fun _ _ => rfl) ?_ ?_ ⟨by decide, by decide⟩ ?_ ?_
    encodedArguments_eq_empty
  · intro text h
    obtain rfl : text = "/items/" := by simpa using h
    exact Text.forall_mem_of_all (by decide)
  · intro name h
    rw [hname name h, hident]
    exact hvariable
  · intro name h
    rw [hname name h, hident]
    rfl
  · intro name h _
    rw [hname name h, hident]
    decide
  · intro e he
    obtain rfl | rfl := List.mem_pair.mp he
    · exact ⟨by decide, by simp⟩
    · exact ⟨by decide, by rintro c ⟨⟩; decide⟩

private theorem Environment.Reaches.unique {env : Environment} {t : PathTemplate} {table : QueryTable}
    {names : String → Except Fault String} {values values' : String → String}
    (h : env.Reaches t table names values) (h' : env.Reaches t table names values') :
    env.addressText values t.segments table = env.addressText values' t.segments table := by
  obtain ⟨code, hcode, hurl⟩ := h
  obtain ⟨code', hcode', hurl'⟩ := h'
  obtain rfl := Except.ok.inj (hcode.symm.trans hcode')
  exact Option.some.inj (hurl.symm.trans hurl')

/-- A placeholder that is read from `query` gets the encoded arguments. -/
theorem reaches_query :
    (singleEnvironment "query" "v" "x").Reaches
      ⟨"/{query}", [.literal "/", .placeholder "query"]⟩ [("a", ⟨"b", none⟩)]
      PathTemplate.ownNames fun _ => "a=x" := by
  have hparse : PathTemplate.parse "/{query}" =
      .ok ⟨"/{query}", [.literal "/", .placeholder "query"]⟩ := rfl
  have hident : Naming.identifier [] "query" = "query" := by decide
  have hvariable : isVariable "query" := by decide
  have hname : ∀ name, .placeholder name ∈ [Segment.literal "/", .placeholder "query"] →
      name = "query" := by simp
  refine urlAfter_code hparse ?_ (fun _ _ => rfl) ?_ ?_ ⟨by decide, by decide⟩ ?_
    encodedArguments_eq_empty
  · intro text h
    obtain rfl : text = "/" := by simpa using h
    exact Text.forall_mem_of_all (by decide)
  · intro name h
    rw [hname name h, hident]
    exact hvariable
  · intro name h
    rw [hname name h, hident]
    decide
  · intro e he
    obtain rfl := List.mem_singleton.mp he
    exact ⟨by decide, by simp⟩

/-- Where the code uses the names of placeholders itself, or where the path has a character that no
line of code holds, `url` does not get the address. -/
theorem not_reaches :
    ¬ (singleEnvironment "query" "v" "x").Reaches
      ⟨"/{query}", [.literal "/", .placeholder "query"]⟩ [("a", ⟨"b", none⟩)]
      PathTemplate.ownNames (fun _ => "v") ∧
    ¬ (singleEnvironment "str" "v" "x").Reaches
      ⟨"/{str}", [.literal "/", .placeholder "str"]⟩ [] PathTemplate.ownNames (fun _ => "v") ∧
    ¬ (singleEnvironment "a" "v" "x").Reaches ⟨"/\x00", [.literal "/\x00"]⟩ []
      PathTemplate.ownNames (fun _ => "v") := by
  refine ⟨fun h => ?_, ?_, ?_⟩
  · exact absurd (reaches_query.unique h) (by decide)
  · rintro ⟨code, hcode, hurl⟩
    obtain rfl : "url = f\"/\x7burllib.parse.quote(str(str), safe='')\x7d\"" = code :=
      Except.ok.inj hcode
    rw [show (singleEnvironment "str" "v" "x").urlAfter
      "url = f\"/\x7burllib.parse.quote(str(str), safe='')\x7d\"" = none by decide +kernel] at hurl
    cases hurl
  · rintro ⟨code, hcode, hurl⟩
    obtain rfl : "url = \"/\x00\"" = code := Except.ok.inj hcode
    have hread : readProgram "url = \"/\x00\"".toList = none := by decide +kernel
    rw [Environment.urlAfter, hread] at hurl
    cases hurl

end OpenApiClient.Url
