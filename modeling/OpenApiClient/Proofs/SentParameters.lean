import OpenApiClient.Proofs.AddressReading
import OpenApiClient.Proofs.QueryTables
import OpenApiClient.Proofs.SendingReports

/-! # Arguments that are sent

What a method is given reaches the request in its address, in the place of a placeholder or in the
query string, or in a header. A parameter of the query that is not sent is reported, and so is every
cookie. But nothing looks whether the path has a placeholder for a parameter: one without is an
argument that the body of the method never uses, and no record tells of it. All others are sent or
reported. -/
namespace OpenApiClient

/-! ## Lines that may be guarded -/

section Lines

variable {start other more text : String}

/-- Whether texts with these starts are different, whatever follows. -/
def Apart (start other : String) : Prop :=
  ¬ start.toList <+: other.toList ∧ ¬ other.toList <+: start.toList

instance (start other : String) : Decidable (Apart start other) := inferInstanceAs (Decidable (_ ∧ _))

theorem Apart.ne (h : Apart start other) (text more : String) : start ++ text ≠ other ++ more := by
  intro heq
  have hchars := congrArg String.toList heq
  rw [String.toList_append, String.toList_append] at hchars
  rcases List.prefix_or_prefix_of_prefix (List.prefix_append _ _) ⟨_, hchars.symm⟩ with hp | hp
  · exact h.1 hp
  · exact h.2 hp

def guardedLines (condition : Option String) (text : String) : List String :=
  match condition with
  | none => [text]
  | some condition => ["if " ++ condition ++ ":", "    " ++ text]

def States (lines : List String) (text : String) : Prop :=
  ∃ indent ∈ ["", "    "], indent ++ text ∈ lines

theorem states_cons {line : String} {lines : List String} :
    States (line :: lines) text ↔ States [line] text ∨ States lines text := by
  simp only [States, List.mem_cons, List.not_mem_nil, or_false, and_or_left, exists_or]

private theorem states_append {lines lines' : List String} :
    States (lines ++ lines') text ↔ States lines text ∨ States lines' text := by
  simp only [States, List.mem_append, and_or_left, exists_or]

theorem states_flatMap {α : Type} {as : List α} {f : α → List String} :
    States (as.flatMap f) text ↔ ∃ a ∈ as, States (f a) text := by
  simp only [States, List.mem_flatMap]
  tauto

theorem not_states_line (h : Apart start other) (hspaces : Apart "    " other) (text more : String) :
    ¬ States [other ++ more] (start ++ text) := by
  rintro ⟨indent, hindent, hmem⟩
  have hline := List.mem_singleton.mp hmem
  rcases List.mem_pair.mp hindent with rfl | rfl
  · exact h.ne text more (by rwa [String.empty_append] at hline)
  · exact hspaces.ne _ more hline

theorem states_guardedLines_iff (hspaces : Apart start "    ") (hif : Apart start "if ")
    (condition : Option String) (text more : String) :
    States (guardedLines condition (start ++ more)) (start ++ text) ↔
      start ++ text = start ++ more := by
  have hspaces' : Apart "    " "if " := by decide
  constructor
  · rintro ⟨indent, hindent, hmem⟩
    cases condition with
    | none =>
      have hline := List.mem_singleton.mp hmem
      rcases List.mem_pair.mp hindent with rfl | rfl
      · rwa [String.empty_append] at hline
      · exact absurd hline.symm (hspaces.ne _ _)
    | some condition =>
      have hguard : "if " ++ condition ++ ":" = "if " ++ (condition ++ ":") := String.append_assoc
      rcases List.mem_pair.mp hindent with rfl | rfl
      · rw [String.empty_append] at hmem
        rcases List.mem_pair.mp hmem with hline | hline
        · exact absurd (hline.trans hguard) (hif.ne _ _)
        · exact absurd hline (hspaces.ne _ _)
      · rcases List.mem_pair.mp hmem with hline | hline
        · exact absurd (hline.trans hguard) (hspaces'.ne _ _)
        · exact (String.append_right_inj _).mp hline
  · intro h
    rw [h]
    cases condition with
    | none => exact ⟨"", by simp, by simp [guardedLines]⟩
    | some condition => exact ⟨"    ", by simp, by simp [guardedLines]⟩

end Lines

namespace Text

theorem quoted_append_inj {a b rest rest' : String} {c d : Char} (hc : c ≠ '"' ∧ c ≠ '\'')
    (hd : d ≠ '"' ∧ d ≠ '\'') (hrest : c ∈ rest.toList.head?) (hrest' : d ∈ rest'.toList.head?)
    (h : quoted a ++ rest = quoted b ++ rest') : a = b := by
  obtain ⟨xs, hxs⟩ := List.head?_eq_some_iff.mp hrest
  obtain ⟨ys, hys⟩ := List.head?_eq_some_iff.mp hrest'
  have hchars := congrArg String.toList h
  rw [String.toList_append, String.toList_append, hxs, hys] at hchars
  have hread := readLiteral_quoted a hc xs
  rw [hchars, readLiteral_quoted b hd ys, Option.some.injEq, Prod.mk.injEq] at hread
  refine String.toList_injective (List.map_injective_iff.mpr ?_ hread.1.symm)
  exact fun x y hxy => Part.char.inj hxy

end Text

/-! ## Statements that send -/

namespace Url

theorem appendText_eq (name expression : String) : appendText name expression =
    "query_args.append((" ++ (Text.quoted name ++ (", " ++ (expression ++ "))"))) :=
  String.append_assoc.trans (String.append_assoc.trans String.append_assoc)

private theorem appendText_inj {name name' expression expression' : String}
    (h : appendText name expression = appendText name' expression') : name = name' := by
  have hhead : ∀ more : String, ',' ∈ (", " ++ more).toList.head? := fun more => by
    rw [String.toList_append]
    rfl
  rw [appendText_eq, appendText_eq, String.append_right_inj] at h
  exact Text.quoted_append_inj (by decide) (by decide) (hhead _) (hhead _) h

private theorem bindingLines_eq_flatMap (table : QueryTable) : PathTemplate.bindingLines table =
    table.flatMap fun e => guardedLines e.2.condition (appendText e.1 e.2.expression) := by
  refine congrArg (List.flatMap · table) (funext fun ⟨name, expression, condition⟩ => ?_)
  cases condition <;> rfl

/-- A line with another start than the lines of a binding have sends nothing. -/
theorem not_states_appendText {other : String} (h : Apart "query_args.append((" other)
    (hspaces : Apart "    " other) (name expression more : String) :
    ¬ States [other ++ more] (appendText name expression) := by
  rw [appendText_eq]
  exact not_states_line h hspaces _ _

theorem states_bindingLines_iff (table : QueryTable) (name expression : String) :
    States (PathTemplate.bindingLines table) (appendText name expression) ↔
      ∃ e ∈ table, appendText name expression = appendText e.1 e.2.expression := by
  rw [bindingLines_eq_flatMap, states_flatMap]
  refine exists_congr fun e => and_congr_right fun _ => ?_
  rw [appendText_eq, appendText_eq]
  exact states_guardedLines_iff (by decide) (by decide) _ _ _

/-- The lines of an address send an expression under a name exactly where the query table says so. -/
theorem states_codeLines_iff {t : PathTemplate} {table : QueryTable}
    {names : String → Except Fault String} {lines : List String}
    (h : t.codeLines table names = .ok lines) (name expression : String) :
    States lines (appendText name expression) ↔
      ∃ e ∈ table, appendText name expression = appendText e.1 e.2.expression := by
  simp only [PathTemplate.codeLines, except_bind_ok_iff] at h
  obtain ⟨parts, -, h⟩ := h
  split at h
  · rename_i hempty
    have hapart : Apart "query_args.append((" "url = " := by decide
    have hurl := not_states_appendText hapart (by decide) name expression
    rw [← except_pure_ok_iff.mp h, List.isEmpty_iff.mp hempty]
    exact iff_of_false (hurl _) (by simp)
  · have hlines := except_pure_ok_iff.mp h
    rw [← clearText, ← encodeText] at hlines
    have hclear : ¬ States [clearText] (appendText name expression) := by
      have hapart : Apart "query_args.append((" clearText := by decide
      simpa using not_states_appendText hapart (by decide) name expression ""
    have hencode : ¬ States [encodeText] (appendText name expression) := by
      have hapart : Apart "query_args.append((" encodeText := by decide
      simpa using not_states_appendText hapart (by decide) name expression ""
    have hurl : ∀ path plain, ¬ States
        ["url = f\"" ++ path ++ "?\x7bquery\x7d\" if query else " ++ plain]
        (appendText name expression) := by
      intro path plain
      have hapart : Apart "query_args.append((" "url = f\"" := by decide
      have hline := not_states_appendText hapart (by decide) name expression
        (path ++ ("?\x7bquery\x7d\" if query else " ++ plain))
      rwa [← String.append_assoc, ← String.append_assoc] at hline
    rw [← hlines, states_append, states_append, states_bindingLines_iff, or_iff_right hclear]
    exact or_iff_left fun hs => (states_cons.mp hs).elim hencode (hurl _ _)

end Url

namespace ClientMethod

open Operation Schema Schema.RegistryM

variable {document : Value} {shared : Members} {settings : Settings} {o : ListedOperation}
  {m : ClientMethod} {r t : Registry} {template : Url.PathTemplate} {lines : List String}

def assignText (name expression : String) : String :=
  "headers[" ++ Text.quoted name ++ "] = " ++ expression

theorem assignText_eq (name expression : String) :
    assignText name expression = "headers[" ++ (Text.quoted name ++ ("] = " ++ expression)) :=
  String.append_assoc.trans String.append_assoc

private theorem assignText_inj {name name' expression expression' : String}
    (h : assignText name expression = assignText name' expression') : name = name' := by
  have hhead : ∀ more : String, ']' ∈ ("] = " ++ more).toList.head? := fun more => by
    rw [String.toList_append]
    rfl
  rw [assignText_eq, assignText_eq, String.append_right_inj] at h
  exact Text.quoted_append_inj (by decide) (by decide) (hhead _) (hhead _) h

/-- Behind the declaration of the headers there is one statement for each of them. -/
theorem headerLines_eq (h : m.parameters.filter (·.place == .header) ≠ []) :
    m.headerLines = "headers: dict[str, str] = \x7b\x7d" ::
      (m.parameters.filter (·.place == .header)).flatMap fun p =>
        guardedLines p.condition (assignText p.name p.expression) := by
  unfold headerLines
  split
  · rename_i hnil
    exact absurd hnil h
  · refine congrArg (List.cons _) (congrArg (List.flatMap · _) (funext fun p => ?_))
    unfold assignText guardedLines
    rfl

/-- An expression is assigned to a header exactly where a parameter that goes there says so. -/
theorem states_headerLines_iff (m : ClientMethod) (name expression : String) :
    States m.headerLines (assignText name expression) ↔
      ∃ p ∈ m.parameters.filter (·.place == .header),
        assignText name expression = assignText p.name p.expression := by
  have hassign : ∀ p : Parameter,
      States (guardedLines p.condition (assignText p.name p.expression))
        (assignText name expression) ↔
      assignText name expression = assignText p.name p.expression := by
    intro p
    rw [assignText_eq, assignText_eq]
    exact states_guardedLines_iff (by decide) (by decide) _ _ _
  have hfirst : ¬ States ["headers: dict[str, str] = \x7b\x7d"] (assignText name expression) := by
    have hapart : Apart "headers[" "headers: dict[str, str] = \x7b\x7d" := by decide
    rw [assignText_eq]
    simpa using not_states_line hapart (by decide) (Text.quoted name ++ ("] = " ++ expression)) ""
  by_cases hnil : m.parameters.filter (·.place == .header) = []
  · simp [headerLines, States, hnil]
  · rw [headerLines_eq hnil, states_cons, or_iff_right hfirst, states_flatMap]
    exact exists_congr fun p => and_congr_right fun _ => hassign p

/-- Whether a method uses a parameter: in the place of a placeholder, in its query string, or in a
header. -/
inductive Uses (m : ClientMethod) (template : Url.PathTemplate) (lines : List String)
    (p : Parameter) : Prop
  | placeholder {name : String} (h : name ∈ template.placeholders)
    (hname : placeholderNames m.parameters name = .ok p.identifier) : Uses m template lines p
  | query (h : States lines (Url.appendText p.name p.expression)) : Uses m template lines p
  | header (h : States m.headerLines (assignText p.name p.expression)) : Uses m template lines p

/-- Whether a parameter has where to go to. -/
def HasPlace (template : Url.PathTemplate) (p : Parameter) : Prop :=
  match p.place with
  | .path => p.name ∈ template.placeholders
  | .query => p.inQueryTable = true
  | .header => True
  | .cookie => False

/-- The parameters of a method have different names and different identifiers. -/
theorem nodup_parameters (h : outcome (build document shared settings o) r = (.ok m, t)) :
    (m.parameters.map Parameter.identifier).Nodup ∧ (m.parameters.map Parameter.name).Nodup := by
  obtain ⟨-, declared, s, s', hparameters⟩ := build_ok h
  obtain ⟨hclassified, hnodup⟩ := classifyAll_ok hparameters
  exact ⟨hnodup, nodup_names hclassified hnodup⟩

/-- What is used of a method is what has where to go to. -/
theorem uses_iff (h : outcome (build document shared settings o) r = (.ok m, t))
    (htemplate : Url.PathTemplate.parse m.path = .ok template)
    (hlines : template.codeLines (queryTable m.parameters) (placeholderNames m.parameters) =
      .ok lines) {p : Parameter} (hp : p ∈ m.parameters)
    (hsent : p.inQueryTable = true → p.place = .query) :
    m.Uses template lines p ↔ HasPlace template p := by
  obtain ⟨hidentifiers, hnames⟩ := nodup_parameters h
  obtain ⟨_, htemplate', -, hplaceholders⟩ := urlCode_placeholders (build_ok h).1.address
  obtain rfl := Except.ok.inj (htemplate'.symm.trans htemplate)
  have hsame : ∀ q ∈ m.parameters, p.name = q.name → q = p := fun q hq heq =>
    List.inj_on_of_nodup_map hnames hq hp heq.symm
  constructor
  · rintro (⟨hmem, hname⟩ | hstates | hstates)
    · obtain ⟨q, hq, hplace, rfl, hidentifier⟩ := hplaceholders _ hmem
      obtain rfl := List.inj_on_of_nodup_map hidentifiers hq hp
        (Except.ok.inj (hidentifier.symm.trans hname))
      rwa [HasPlace, hplace]
    · obtain ⟨e, he, heq⟩ := (Url.states_codeLines_iff hlines _ _).mp hstates
      obtain ⟨q, hq, hquery, rfl⟩ := mem_queryTable he
      obtain rfl := hsame q hq (Url.appendText_inj heq)
      rwa [HasPlace, hsent hquery]
    · obtain ⟨q, hq, heq⟩ := (states_headerLines_iff m _ _).mp hstates
      obtain ⟨hq, hplace⟩ := List.mem_filter.mp hq
      obtain rfl := hsame q hq (assignText_inj heq)
      rw [HasPlace, beq_iff_eq.mp hplace]
      trivial
  · intro hplace
    unfold HasPlace at hplace
    split at hplace
    · obtain ⟨q, hq, -, heq, hidentifier⟩ := hplaceholders _ hplace
      obtain rfl := hsame q hq heq.symm
      exact .placeholder hplace hidentifier
    · refine .query ((Url.states_codeLines_iff hlines _ _).mpr ⟨bindingOf p, ?_, rfl⟩)
      rw [queryTable_eq hnames, Table.sorted, List.mem_mergeSort]
      exact List.mem_map_of_mem (List.mem_filter.mpr ⟨hp, hplace⟩)
    · rename_i hheader
      refine .header ((states_headerLines_iff m _ _).mpr ⟨p, List.mem_filter.mpr ⟨hp, ?_⟩, rfl⟩)
      exact beq_iff_eq.mpr hheader
    · cases hplace

theorem clientCall_ok {operation : String} {method : HttpMethod} {body : Option RequestBody}
    {passesHeaders : Bool} {call : ClientCall}
    (h : outcome (clientCall settings operation method body passesHeaders) r = (.ok call, t)) :
    call.passesHeaders = passesHeaders ∧
      call.body = if method = .get then none else some (bodyExpression body) := by
  unfold clientCall at h
  split at h
  · rename_i hget
    obtain ⟨rfl, -⟩ := pure_ok_iff.mp h
    rw [if_pos hget]
    exact ⟨rfl, rfl⟩
  · rename_i hget
    rw [if_neg hget]
    split at h
    · obtain ⟨_, _, -, h⟩ := bind_ok_iff.mp h
      obtain ⟨_, _, -, h⟩ := bind_ok_iff.mp h
      obtain ⟨rfl, -⟩ := pure_ok_iff.mp h
      exact ⟨rfl, rfl⟩
    · split at h
      · obtain ⟨rfl, -⟩ := pure_ok_iff.mp h
        exact ⟨rfl, rfl⟩
      · simp at h

/-- A signature has the parameters and the body. The body is passed on in every method but `GET`, and
the headers are where there are any. Every parameter is used by the address or by a header, or it was
reported when it was classified, unless it is one of the path without a placeholder: that is neither
used nor reported. -/
theorem sent_or_reported (h : outcome (build document shared settings o) r = (.ok m, t)) :
    m.signature.drop 1 = m.parameters.map parameterLine ++
      (m.body.toList.map fun body => "body: " ++ body.typeText) ∧
    m.call.body = (if m.method = .get then none else some (bodyExpression m.body)) ∧
    m.call.passesHeaders = m.parameters.any (·.place == .header) ∧
    ∃ template lines records,
      Url.PathTemplate.parse m.path = .ok template ∧
      template.codeLines (queryTable m.parameters) (placeholderNames m.parameters) = .ok lines ∧
      m.urlCode = String.intercalate "\n" lines ∧
      t.warningRecords = r.warningRecords ++ records.flatten ∧
      List.Forall₂ (fun p reported => Reports document shared settings p reported ∧
        (m.Uses template lines p ∨ reported ≠ [] ↔
          (p.place = .path → p.name ∈ template.placeholders))) m.parameters records := by
  have hbuilds := (build_ok h).1
  obtain ⟨s, s', hcall⟩ := hbuilds.call
  obtain ⟨hheaders, hbody⟩ := clientCall_ok hcall
  obtain ⟨template, htemplate, hcode, -⟩ := urlCode_placeholders hbuilds.address
  obtain ⟨lines, hlines, hurl⟩ := except_map_ok_iff.mp hcode
  obtain ⟨_, hwarnings, records, hrecords, rfl⟩ := build_warns o r m t h
  refine ⟨drop_signature m, hbody, hheaders, template, lines, records, htemplate, hlines, hurl.symm,
    hwarnings, ?_⟩
  have hall := (List.forall₂_and_left _ _).mpr ⟨fun p (hp : p ∈ m.parameters) => hp, hrecords⟩
  refine hall.imp fun p reported ⟨hp, hreports⟩ => ⟨hreports, ?_⟩
  rw [uses_iff h htemplate hlines hp hreports.sending.place_eq_query, HasPlace]
  have hsending := hreports.sending
  generalize p.place = place at hsending
  generalize p.inQueryTable = sent at hsending
  cases hsending <;> simp

/-- An operation with a parameter of the path that has no placeholder, a cookie and a parameter of the
query. -/
def itemsOperation : ListedOperation where
  path := .text "/items"
  method := .get
  declaration := .mapping [(.text "tags", .sequence [.text "items"]),
    (.text "parameters", .sequence [namedParameter "path" "id" "string",
      namedParameter "cookie" "session" "string", namedParameter "query" "q" "string"]),
    (.text "responses", .mapping [(.text "204", .mapping [])])]

def itemsRun : Except Fault ClientMethod × Registry :=
  outcome (build .empty [] .default itemsOperation) {}

theorem itemsRun_parameters :
    itemsRun.1.map (fun m => (m.path, m.parameters.map fun p => (p.name, p.place))) =
        .ok ("/items", [("id", .path), ("session", .cookie), ("q", .query)]) ∧
      itemsRun.2.warningRecords =
        [⟨.warning, .parameters, "cookie parameter 'session' is not sent"⟩] := by
  decide +kernel

theorem placeholders_items (h : Url.PathTemplate.parse "/items" = .ok template) :
    template.placeholders = [] := by
  have hnone : (Url.PathTemplate.parse "/items").map Url.PathTemplate.placeholders = .ok [] := by
    decide
  rw [h] at hnone
  exact Except.ok.inj hnone

theorem sent_or_reported_items : ∃ m t template lines records, itemsRun = (.ok m, t) ∧
    m.parameters.map Parameter.name = ["id", "session", "q"] ∧ template.placeholders = [] ∧
    t.warningRecords = [⟨.warning, .parameters, "cookie parameter 'session' is not sent"⟩] ∧
    t.warningRecords = records.flatten ∧
    List.Forall₂ (fun p reported => Reports .empty [] .default p reported ∧
      (m.Uses template lines p ∨ reported ≠ [] ↔
        (p.place = .path → p.name ∈ template.placeholders))) m.parameters records := by
  obtain ⟨hparameters, hwarned⟩ := itemsRun_parameters
  cases hrun : itemsRun with
  | mk x t =>
    rw [hrun] at hparameters hwarned
    obtain ⟨m, rfl, hm⟩ := except_map_ok_iff.mp hparameters
    obtain ⟨hpath, hparameters⟩ := Prod.mk.inj hm
    obtain ⟨-, -, -, template, lines, records, htemplate, -, -, hwarnings, hall⟩ :=
      sent_or_reported hrun
    have hnames := congrArg (List.map Prod.fst) hparameters
    rw [List.map_map] at hnames
    exact ⟨m, t, template, lines, records, rfl, hnames,
      placeholders_items (hpath ▸ htemplate), hwarned, hwarnings, hall⟩

/-- The parameter of the path is neither used nor reported. -/
theorem not_all_sent : ¬ ∀ (document : Value) (shared : Members) (settings : Settings)
    (o : ListedOperation) (r t : Registry) (m : ClientMethod),
    outcome (build document shared settings o) r = (.ok m, t) → ∃ template lines records,
      Url.PathTemplate.parse m.path = .ok template ∧
      template.codeLines (queryTable m.parameters) (placeholderNames m.parameters) = .ok lines ∧
      List.Forall₂ (fun p reported => Reports document shared settings p reported ∧
        (m.Uses template lines p ∨ reported ≠ [])) m.parameters records := by
  intro h
  have hparameters := itemsRun_parameters.1
  cases hrun : itemsRun with
  | mk x t =>
    rw [hrun] at hparameters
    obtain ⟨m, rfl, hm⟩ := except_map_ok_iff.mp hparameters
    obtain ⟨hpath, hparameters⟩ := Prod.mk.inj hm
    obtain ⟨template, lines, records, htemplate, hlines, hall⟩ := h _ _ _ _ _ _ _ hrun
    obtain ⟨p, others, hps, hp, -⟩ := List.map_eq_cons_iff.mp hparameters
    obtain ⟨hname, hplace⟩ := Prod.mk.inj hp
    rw [hps, List.forall₂_cons_left_iff] at hall
    obtain ⟨reported, _, ⟨hreports, hsent⟩, -⟩ := hall
    have hsending := hreports.sending
    have hmem : p ∈ m.parameters := hps ▸ List.mem_cons_self
    rw [uses_iff hrun htemplate hlines hmem hsending.place_eq_query, HasPlace, hplace] at hsent
    rw [hplace] at hsending
    rcases hsent with hsent | hsent
    · have hsent : p.name ∈ template.placeholders := hsent
      rw [placeholders_items (hpath ▸ htemplate)] at hsent
      cases hsent
    · generalize p.inQueryTable = sent at hsending
      cases hsending
      exact hsent rfl

end ClientMethod

end OpenApiClient
