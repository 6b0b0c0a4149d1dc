import OpenApiClient.Proofs.AddressReading
import OpenApiClient.Proofs.EscapedNames
import OpenApiClient.Proofs.LineBreaks
import OpenApiClient.Proofs.MethodHygiene

/-! # The lines of the statements of an address

The code of an address is lines that are joined. Where it is put into a method it is taken apart into
lines again, and these are the lines of before exactly where no text that is written as it comes, such
as the literal text of the path, holds a line break. -/
namespace OpenApiClient.Url

open Text (EndsPlain endsPlain_append)

/-- How many lines the code of an address is meant to have. -/
def lineCount (table : QueryTable) : Nat :=
  if table.isEmpty then 1
  else 3 + table.countP (·.2.condition.isNone) + 2 * table.countP (·.2.condition.isSome)

/-- Whether what is written for a segment holds no line break. -/
def Segment.Unbroken (idents : String → String) : Segment → Prop
  | .literal text => Text.Unbroken text
  | .placeholder name => Text.Unbroken (idents name)

instance (idents : String → String) (s : Segment) : Decidable (s.Unbroken idents) :=
  match s with
  | .literal text => inferInstanceAs (Decidable (Text.Unbroken text))
  | .placeholder name => inferInstanceAs (Decidable (Text.Unbroken (idents name)))

/-- No text that is written as it comes holds a line break. -/
structure Whole (idents : String → String) (segments : List Segment) (table : QueryTable) : Prop where
  segments : ∀ s ∈ segments, s.Unbroken idents
  expressions : ∀ e ∈ table, Text.Unbroken e.2.expression
  conditions : ∀ e ∈ table, ∀ c ∈ e.2.condition, Text.Unbroken c

variable {idents : String → String} {segments : List Segment} {table : QueryTable}

theorem whole_iff : Whole idents segments table ↔ (∀ s ∈ segments, s.Unbroken idents) ∧
    ∀ e ∈ table, Text.Unbroken e.2.expression ∧ ∀ c ∈ e.2.condition, Text.Unbroken c := by
  constructor
  · rintro ⟨hsegments, hexpressions, hconditions⟩
    exact ⟨hsegments, fun e he => ⟨hexpressions e he, hconditions e he⟩⟩
  · rintro ⟨hsegments, htable⟩
    exact ⟨hsegments, fun e he => (htable e he).1, fun e he => (htable e he).2⟩

instance : Decidable (Whole idents segments table) := decidable_of_iff _ whole_iff.symm

/-! ## How many lines are written -/

private theorem length_bindingLines (table : QueryTable) :
    (PathTemplate.bindingLines table).length =
      table.countP (·.2.condition.isNone) + 2 * table.countP (·.2.condition.isSome) := by
  rw [bindingLines_eq]
  induction table with
  | nil => rfl
  | cons e table ih =>
    obtain ⟨name, expression, condition⟩ := e
    rw [List.map_cons, List.flatten_cons, List.length_append, ih]
    cases condition <;> simp [bindingGroup] <;> omega

private theorem length_addressLines (idents : String → String) (segments : List Segment)
    (table : QueryTable) : (addressLines idents segments table).length = lineCount table := by
  unfold addressLines lineCount
  split
  · rfl
  · simp only [List.length_append, List.length_cons, List.length_nil, length_bindingLines]
    omega

/-! ## How they end -/

private theorem endsPlain_appendText (name expression : String) :
    EndsPlain (appendText name expression).toList :=
  endsPlain_append _ ⟨')', rfl, rfl⟩

private theorem endsPlain_plainText (idents : String → String) (segments : List Segment) :
    EndsPlain (plainText idents segments).toList :=
  endsPlain_append _ ⟨'"', rfl, rfl⟩

private theorem endsPlain_bindingGroup (e : String × Binding) :
    ∀ l ∈ bindingGroup e, EndsPlain l.toList := by
  obtain ⟨name, expression, condition⟩ := e
  have happend := endsPlain_appendText name expression
  cases condition with
  | none => simpa [bindingGroup] using happend
  | some condition =>
    simp only [bindingGroup, List.forall_mem_cons]
    exact ⟨endsPlain_append _ ⟨':', rfl, rfl⟩, endsPlain_append _ happend, by simp⟩

theorem endsPlain_addressLines (idents : String → String) (segments : List Segment)
    (table : QueryTable) : ∀ l ∈ addressLines idents segments table, EndsPlain l.toList := by
  have hplain := endsPlain_plainText idents segments
  intro l hl
  rw [addressLines] at hl
  split at hl
  · obtain rfl := List.mem_singleton.mp hl
    exact endsPlain_append _ hplain
  · rw [bindingLines_eq] at hl
    simp only [List.mem_append, List.mem_cons, List.not_mem_nil, or_false, List.mem_flatten,
      List.mem_map] at hl
    rcases hl with (rfl | ⟨_, ⟨e, -, rfl⟩, hl⟩) | rfl | rfl
    · exact ⟨']', rfl, rfl⟩
    · exact endsPlain_bindingGroup e l hl
    · exact ⟨')', rfl, rfl⟩
    · exact endsPlain_append _ hplain

/-! ## Where they hold no line break -/

theorem unbroken_escapeLiteral_iff (text : String) :
    Text.Unbroken (PathTemplate.escapeLiteral text) ↔ Text.Unbroken text := by
  have hchar : ∀ c : Char, (∀ d ∈ if c = '\\' || c = '"' then ['\\', c] else [c],
      Text.isLineBreak d = false) ↔ Text.isLineBreak c = false := by
    intro c
    split <;> simp [show Text.isLineBreak '\\' = false from rfl]
  rw [PathTemplate.escapeLiteral, Text.unbroken_ofList, List.forall_mem_flatMap]
  exact forall₂_congr fun c _ => hchar c

theorem unbroken_quoteCall_iff (ident : String) :
    (∀ c ∈ '\x7b' :: quoteCall ident.toList ++ ['\x7d'], Text.isLineBreak c = false) ↔
      Text.Unbroken ident := by
  have hopen : Text.Unbroken "\x7burllib.parse.quote(str(" := by decide
  have hclose : Text.Unbroken "), safe='')\x7d" := by decide
  rw [← toList_braced]
  change Text.Unbroken _ ↔ _
  simp [hopen, hclose]

theorem unbroken_pathChars_iff (idents : String → String) (segments : List Segment) :
    Text.Unbroken (String.ofList (pathChars idents segments)) ↔
      ∀ s ∈ segments, s.Unbroken idents := by
  rw [Text.unbroken_ofList, pathChars, List.forall_mem_flatMap]
  refine forall₂_congr fun s _ => ?_
  cases s with
  | literal text => exact unbroken_escapeLiteral_iff text
  | placeholder name => exact unbroken_quoteCall_iff (idents name)

theorem unbroken_plainText_iff (idents : String → String) (segments : List Segment) :
    Text.Unbroken (plainText idents segments) ↔ ∀ s ∈ segments, s.Unbroken idents := by
  have hmark : ∀ mark : Bool, Text.Unbroken (if mark then "f" else "") := by decide
  have hquote : Text.Unbroken "\"" := by decide
  rw [plainText, Text.unbroken_append, Text.unbroken_append, Text.unbroken_append,
    unbroken_pathChars_iff]
  simp only [hmark (segments.any _), hquote, true_and, and_true]

theorem unbroken_queriedText_iff (idents : String → String) (segments : List Segment) :
    Text.Unbroken (queriedText idents segments) ↔ ∀ s ∈ segments, s.Unbroken idents := by
  have hopen : Text.Unbroken "f\"" := by decide
  have hclose : Text.Unbroken "?\x7bquery\x7d\"" := by decide
  rw [queriedText, Text.unbroken_append, Text.unbroken_append, unbroken_pathChars_iff]
  simp only [hopen, hclose, true_and, and_true]

theorem unbroken_appendText_iff (name expression : String) :
    Text.Unbroken (appendText name expression) ↔ Text.Unbroken expression := by
  have hmarks : Text.Unbroken "query_args.append((" ∧ Text.Unbroken ", " ∧ Text.Unbroken "))" := by
    decide
  have hname := Text.unbroken_quoted name
  unfold appendText
  -- The quoted name is made opaque, or it is evaluated.
  generalize Text.quoted name = quoted at hname ⊢
  simp only [Text.unbroken_append, hname, hmarks, true_and, and_true]

theorem unbroken_bindingGroup_iff (e : String × Binding) :
    (∀ l ∈ bindingGroup e, Text.Unbroken l) ↔
      Text.Unbroken e.2.expression ∧ ∀ c ∈ e.2.condition, Text.Unbroken c := by
  obtain ⟨name, expression, condition⟩ := e
  have hmarks : Text.Unbroken "if " ∧ Text.Unbroken ":" ∧ Text.Unbroken "    " := by decide
  have happend := unbroken_appendText_iff name expression
  cases condition with
  | none => simp [bindingGroup, happend]
  | some condition => simp [bindingGroup, happend, hmarks, and_comm]

/-- The lines of an address hold no line break exactly where the texts do not that are written in
them. -/
theorem unbroken_addressLines_iff (idents : String → String) (segments : List Segment)
    (table : QueryTable) :
    (∀ l ∈ addressLines idents segments table, Text.Unbroken l) ↔ Whole idents segments table := by
  have hmarks : Text.Unbroken "url = " ∧ Text.Unbroken " if query else " ∧
      Text.Unbroken clearText ∧ Text.Unbroken encodeText := by decide
  have hlines : (∀ l ∈ addressLines idents segments table, Text.Unbroken l) ↔
      (∀ s ∈ segments, s.Unbroken idents) ∧ ∀ e ∈ table, ∀ l ∈ bindingGroup e, Text.Unbroken l := by
    rw [addressLines]
    split
    · rename_i hempty
      obtain rfl := List.isEmpty_iff.mp hempty
      simp [hmarks, unbroken_plainText_iff]
    · simp only [bindingLines_eq, ← List.flatMap_def, List.forall_mem_append, List.forall_mem_cons,
        List.forall_mem_flatMap, Text.unbroken_append, unbroken_queriedText_iff,
        unbroken_plainText_iff, hmarks, true_and]
      simp [and_comm]
  rw [hlines, whole_iff]
  simp only [unbroken_bindingGroup_iff]

/-! ## Taken apart again -/

variable {t : PathTemplate} {names : String → Except Fault String}

private theorem addressLines_ne_nil (idents : String → String) (segments : List Segment)
    (table : QueryTable) : addressLines idents segments table ≠ [] := by
  unfold addressLines
  split <;> simp

theorem length_lines_addressLines_iff (idents : String → String) (segments : List Segment)
    (table : QueryTable) :
    (Text.lines ("\n".intercalate (addressLines idents segments table))).length = lineCount table ↔
      Whole idents segments table := by
  rw [← unbroken_addressLines_iff, ← length_addressLines idents segments]
  exact Text.length_lines_intercalate_iff (endsPlain_addressLines idents segments table)

private theorem lines_addressLines (h : Whole idents segments table) :
    Text.lines ("\n".intercalate (addressLines idents segments table)) =
      addressLines idents segments table :=
  Text.lines_intercalate_eq (endsPlain_addressLines idents segments table)
    ((unbroken_addressLines_iff idents segments table).mpr h)

/-- The statements of a method go on behind its code, if its lines are joined to the code again. -/
theorem exists_statements {m : ClientMethod} (hne : Text.lines m.urlCode ≠ [])
    (h : "\n".intercalate (Text.lines m.urlCode) = m.urlCode) :
    ∃ more, m.statements = m.urlCode ++ "\n" ++ more := by
  rw [ClientMethod.statements, List.append_assoc,
    String.intercalate_append_of_ne_nil hne (by simp), h]
  exact ⟨_, rfl⟩

/-- The code of an address has as many lines as it is meant to have exactly where no line break is
written within them, and is joined to itself again exactly where all line breaks are line feeds.
Without line breaks its lines are those that were written, the statements of a method start with
them, and each of them is moved as it is. -/
theorem code_lines_iff
    (hnames : ∀ name, .placeholder name ∈ t.segments → names name = .ok (idents name))
    (table : QueryTable) :
    ∃ code, t.code table names = .ok code ∧
      ((Text.lines code).length = lineCount table ↔ Whole idents t.segments table) ∧
      ("\n".intercalate (Text.lines code) = code ↔
        ∀ c ∈ code.toList, Text.isLineBreak c = true → c = '\n') ∧
      (Whole idents t.segments table → t.codeLines table names = .ok (Text.lines code) ∧
        ∀ m : ClientMethod, m.urlCode = code → ∃ more, m.statements = code ++ "\n" ++ more ∧
          ∀ width, ∃ after, Text.indentRest width m.statements =
            "\n".intercalate (Text.moved width (Text.lines code) ++ after)) := by
  have hne := addressLines_ne_nil idents t.segments table
  have hends := endsPlain_addressLines idents t.segments table
  have hcode : EndsPlain ("\n".intercalate (addressLines idents t.segments table)).toList :=
    Text.endsPlain_intercalate hne hends
  refine ⟨_, code_eq_intercalate hnames table, length_lines_addressLines_iff _ _ _,
    Text.intercalate_lines_iff hcode, fun hwhole => ?_⟩
  have hlines := lines_addressLines hwhole
  refine ⟨by rw [hlines, codeLines_eq hnames], fun m hm => ?_⟩
  obtain ⟨more, hmore⟩ : ∃ more, m.statements = m.urlCode ++ "\n" ++ more := by
    apply exists_statements <;> rw [hm, hlines]
    exact hne
  rw [hm] at hmore
  refine ⟨more, hmore, fun width => ?_⟩
  rw [hmore]
  apply Text.indentRest_append hcode
  rw [hlines]
  exact fun l hl => Text.ne_empty_of_endsPlain (hends l hl)

/-- A placeholder, one name that is always sent and one that is sent if it is there. -/
theorem code_lines_items : ∃ t code, PathTemplate.parse "/items/\x7bid\x7d" = .ok t ∧
    t.code [("a", ⟨"a", none⟩), ("b", ⟨"b", some "b"⟩)] PathTemplate.ownNames = .ok code ∧
    (Text.lines code).length = 6 ∧ "\n".intercalate (Text.lines code) = code ∧
    ∀ m : ClientMethod, m.urlCode = code → ∃ more, m.statements = code ++ "\n" ++ more := by
  let segments := [Segment.literal "/items/", .placeholder "id"]
  let table : QueryTable := [("a", ⟨"a", none⟩), ("b", ⟨"b", some "b"⟩)]
  have hwhole : Whole (Naming.identifier []) segments table := by decide
  obtain ⟨code, hcode, hlength, -, hkept⟩ :=
    code_lines_iff (t := ⟨"/items/\x7bid\x7d", segments⟩) (fun name _ => rfl) table
  obtain ⟨hlines, hmethods⟩ := hkept hwhole
  refine ⟨_, code, rfl, hcode, hlength.mpr hwhole, ?_, fun m hm => ?_⟩
  · rw [PathTemplate.code, hlines] at hcode
    exact Except.ok.inj hcode
  · obtain ⟨more, hmore, -⟩ := hmethods m hm
    exact ⟨more, hmore⟩

/-- A line feed in the literal text of a path makes one line two. -/
theorem not_always_lineCount : ¬ ∀ (path : String) (t : PathTemplate) (table : QueryTable)
    (code : String), PathTemplate.parse path = .ok t →
      t.code table PathTemplate.ownNames = .ok code → (Text.lines code).length = lineCount table := by
  intro h
  have hcount := h "/a\nb" ⟨"/a\nb", [.literal "/a\nb"]⟩ [] "url = \"/a\nb\"" rfl
    (by decide)
  revert hcount
  decide

end OpenApiClient.Url

namespace OpenApiClient.Operation

open Schema Schema.RegistryM

variable {document : Value} {shared : Members} {settings : Settings} {r t : Registry}
  {o : ListedOperation} {m : ClientMethod} {p : Parameter}

private theorem unbroken_identifier (reserved : List String) (name : String) :
    Text.Unbroken (Naming.identifier reserved name) := by
  intro c hc
  apply Text.isLineBreak_eq_false_of (p := Naming.isNameLetter) (by decide)
  exact (Naming.identifierForm_identifier reserved name).letters c hc

private theorem unbroken_serialized {type : TypeId} {ident : String} (hident : Text.Unbroken ident)
    (separator : Value) (s : Serialization) :
    Text.Unbroken (serialized r type ident separator s) := by
  have hmarks : Text.Unbroken ".isoformat()" ∧ Text.Unbroken ".join(" ∧ Text.Unbroken ")" ∧
      Text.Unbroken ".join(str(v) for v in " ∧ Text.Unbroken "str(" ∧ Text.Unbroken ").lower()" := by
    decide
  have hseparator := separator.unbroken_literal
  unfold serialized
  generalize separator.literal = separator at hseparator ⊢
  cases s with
  | calendar => simp [hident, hmarks]
  | verbatim => exact hident
  | joined =>
    dsimp only
    split <;> simp [hident, hmarks, hseparator]
  | display =>
    dsimp only
    split <;> simp [hident, hmarks]

private theorem unbroken_of_isCondition {ident c : String} (hident : Text.Unbroken ident)
    (h : Code.IsCondition ident c) : Text.Unbroken c := by
  have hmarks : Text.Unbroken " > 0" ∧ Text.Unbroken " is not None" := by decide
  cases h <;> simp [hident, hmarks]

theorem Classified.unbroken (h : Classified settings p) : Text.Unbroken p.identifier ∧
    Text.Unbroken p.expression ∧ ∀ c ∈ p.condition, Text.Unbroken c := by
  obtain ⟨reserved, -, hidentifier⟩ := h.identifier
  obtain ⟨s, type, hexpression⟩ := h.expression
  have hident : Text.Unbroken p.identifier := hidentifier ▸ unbroken_identifier reserved p.name
  refine ⟨hident, ?_, fun c hc => unbroken_of_isCondition hident (h.condition c hc)⟩
  rw [hexpression]
  exact unbroken_serialized hident settings.arraySeparator p.serialization

/-- In a method that is built only the literal text of the path can bring in more lines. -/
theorem urlCode_lines_iff (h : outcome (build document shared settings o) r = (.ok m, t)) :
    ∃ template, Url.PathTemplate.parse m.path = .ok template ∧
      ((Text.lines m.urlCode).length = Url.lineCount (queryTable m.parameters) ↔
        ∀ text, .literal text ∈ template.segments → Text.Unbroken text) := by
  obtain ⟨hbuilds, declared, s, s', hclassified⟩ := build_ok h
  obtain ⟨hparameters, -⟩ := classifyAll_ok hclassified
  obtain ⟨template, idents, hparse, hcode, hfound⟩ := urlCode_lines hbuilds.address
  have hidents : ∀ name, .placeholder name ∈ template.segments → Text.Unbroken (idents name) := by
    intro name hname
    obtain ⟨p, hp, -, heq⟩ := hfound name hname
    exact heq ▸ (hparameters p hp).unbroken.1
  refine ⟨template, hparse, ?_⟩
  rw [hcode, Url.length_lines_addressLines_iff, Url.whole_iff]
  constructor
  · rintro ⟨hsegments, -⟩ text htext
    exact hsegments _ htext
  · refine fun htexts => ⟨fun s hs => ?_, fun e he => ?_⟩
    · cases s with
      | literal text => exact htexts text hs
      | placeholder name => exact hidents name hs
    · obtain ⟨p, hp, -, rfl⟩ := mem_queryTable he
      exact (hparameters p hp).unbroken.2

end OpenApiClient.Operation
