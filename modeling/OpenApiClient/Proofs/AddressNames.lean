import OpenApiClient.Proofs.AddressReading
import OpenApiClient.Proofs.ReadNames

/-! # The names that the text of an address reads

The lines about the query string read what their expressions and conditions read. The line that gives
`url` its value has a literal, whose braces hold the calls that quote the placeholders. -/
namespace OpenApiClient.Url

open Code

variable {idents : String → String} {segments : List Segment} {table : QueryTable}
  {name ident key expression condition : String} {rest : List Char}

def queryLines (table : QueryTable) : List String :=
  if table.isEmpty then [] else [clearText] ++ PathTemplate.bindingLines table ++ [encodeText]

def addressLine (idents : String → String) (segments : List Segment) (table : QueryTable) : String :=
  if table.isEmpty then "url = " ++ plainText idents segments
  else "url = " ++ queriedText idents segments ++ " if query else " ++ plainText idents segments

/-- What the lines about the query string read beside parameters; names of arguments count. -/
def queryWords : List String := ["query_args", "list", "tuple", "query", "urllib", "quote_via"]

/-- What the line of the address reads beside parameters; the mark of a formatted literal counts. -/
def addressWords : List String := ["url", "f", "query", "urllib", "safe"]

theorem addressLines_eq (idents : String → String) (segments : List Segment) (table : QueryTable) :
    addressLines idents segments table =
      queryLines table ++ [addressLine idents segments table] := by
  unfold addressLines queryLines addressLine
  split <;> simp

/-! ## The literal of the address -/

/-- A character that ends neither a literal nor what stands in braces. -/
private def Inner (c : Char) : Prop := c ≠ '"' ∧ c ≠ '\\' ∧ c ≠ '\x7b' ∧ c ≠ '\x7d'

private theorem inner_quoteCall (hident : IsWord ident) :
    ∀ c ∈ quoteCall ident.toList, Inner c := by
  have hword : ∀ c ∈ ident.toList, Inner c := by
    intro c hc
    have hpart := hident.parts c hc
    refine ⟨?_, ?_, ?_, ?_⟩ <;> rintro rfl <;> exact absurd hpart (by decide)
  have hopen : ∀ c ∈ "urllib.parse.quote(str(".toList, Inner c := by simp [Inner]
  have hclose : ∀ c ∈ "), safe='')".toList, Inner c := by simp [Inner]
  intro c hc
  rcases List.mem_append.mp hc with hc | hc
  · exact (List.mem_append.mp hc).elim (hopen c) (hword c)
  · exact hclose c hc

def segmentField? (idents : String → String) : Segment → Option (List Char)
  | .literal _ => none
  | .placeholder name => some (quoteCall (idents name).toList)

theorem braced_pathChars (hsegments : Unbraced segments)
    (hidents : ∀ name, .placeholder name ∈ segments → IsWord (idents name)) :
    braced none (pathChars idents segments ++ rest) =
      segments.filterMap (segmentField? idents) ++ braced none rest := by
  induction segments with
  | nil => rfl
  | cons s segments ih =>
    have ih := ih (fun text htext => hsegments text (List.mem_cons_of_mem _ htext))
      fun name hname => hidents name (List.mem_cons_of_mem _ hname)
    rw [pathChars, List.flatMap_cons, List.append_assoc]
    cases s with
    | literal text =>
      have hplain : ∀ c ∈ segmentChars idents (.literal text), c ≠ '\x7b' := by
        intro c hc
        rw [segmentChars, PathTemplate.escapeLiteral, String.toList_ofList] at hc
        obtain ⟨d, hd, hc⟩ := List.mem_flatMap.mp hc
        split at hc
        · rcases List.mem_pair.mp hc with rfl | rfl
          · decide
          · exact (hsegments text List.mem_cons_self _ hd).1
        · exact List.mem_singleton.mp hc ▸ (hsegments text List.mem_cons_self _ hd).1
      rw [braced_unbraced hplain]
      exact ih
    | placeholder name =>
      have hinner := inner_quoteCall (hidents name List.mem_cons_self)
      have hchars (more : List Char) : segmentChars idents (.placeholder name) ++ more =
          '\x7b' :: (quoteCall (idents name).toList ++ '\x7d' :: more) := by
        simp [segmentChars]
      rw [hchars, braced, if_pos rfl, braced_field fun c hc => (hinner c hc).2.2.2]
      exact congrArg (_ :: ·) ih

theorem tokens_pathChars (hidents : ∀ name, .placeholder name ∈ segments → IsWord (idents name)) :
    tokens (.literal '"') (pathChars idents segments ++ rest) = tokens (.literal '"') rest := by
  induction segments with
  | nil => rfl
  | cons s segments ih =>
    have ih := ih fun name hname => hidents name (List.mem_cons_of_mem _ hname)
    rw [pathChars, List.flatMap_cons, List.append_assoc]
    refine Eq.trans ?_ ih
    cases s with
    | literal text =>
      rw [segmentChars, PathTemplate.escapeLiteral, String.toList_ofList]
      induction text.toList with
      | nil => rfl
      | cons c cs ihc =>
        rw [List.flatMap_cons, List.append_assoc]
        split
        · exact (tokens_escape (.inl rfl) c (List.forall_mem_nil _)).trans ihc
        · rename_i hc
          have hplain : ∀ d ∈ [c], d ≠ '"' ∧ d ≠ '\\' := by
            simpa [and_comm] using hc
          exact (tokens_literal hplain).trans ihc
    | placeholder name =>
      have hinner := inner_quoteCall (hidents name List.mem_cons_self)
      have hplain : ∀ c ∈ segmentChars idents (.placeholder name), c ≠ '"' ∧ c ≠ '\\' := by
        intro c hc
        rw [segmentChars] at hc
        rcases List.mem_append.mp hc with hc | hc
        · rcases List.mem_cons.mp hc with rfl | hc
          · decide
          · exact ⟨(hinner c hc).1, (hinner c hc).2.1⟩
        · rw [List.mem_singleton.mp hc]
          decide
      exact tokens_literal hplain

private theorem tokens_quoteCall (hident : IsWord ident) :
    tokens .between (quoteCall ident.toList) =
      [.word "urllib".toList, .mark '.', .word "parse".toList, .mark '.', .word "quote".toList,
        .mark '(', .word "str".toList, .mark '(', .word ident.toList, .mark ')', .mark ',',
        .word "safe".toList, .mark '=', .literal, .mark ')'] := by
  have hopen : ∀ rest, tokens .between ("urllib.parse.quote(str(".toList ++ rest) =
      .word "urllib".toList :: .mark '.' :: .word "parse".toList :: .mark '.' ::
        .word "quote".toList :: .mark '(' :: .word "str".toList :: .mark '(' ::
          tokens .between rest := fun _ => rfl
  have hclose : tokens .between (ident.toList ++ "), safe='')".toList) =
      [.word ident.toList, .mark ')', .mark ',', .word "safe".toList, .mark '=', .literal,
        .mark ')'] := by
    rw [hident.tokens]
    rfl
  unfold quoteCall
  rw [List.append_assoc, hopen, hclose]

theorem mem_readNames_quoteCall (hident : IsWord ident)
    (h : name ∈ readNames (String.ofList (quoteCall ident.toList))) :
    name ∈ addressWords ∨ name = ident := by
  have hwords : words false (tokens .between (quoteCall ident.toList)) =
      ["urllib", "str", ident, "safe"] := by
    rw [tokens_quoteCall hident]
    simp [words]
  obtain ⟨hmem, hname⟩ := List.mem_filter.mp h
  rw [String.toList_ofList, hwords] at hmem
  simp only [List.mem_cons, List.not_mem_nil, or_false] at hmem
  rcases hmem with rfl | rfl | rfl | rfl
  · exact .inl (by decide)
  · rw [isName_str] at hname
    cases hname
  · exact .inr rfl
  · exact .inl (by decide)

section Literals
variable (hidents : ∀ name, .placeholder name ∈ segments → IsWord (idents name))
include hidents

/-- The address is a literal, which may be marked as formatted. -/
theorem tokens_plainText (rest : List Char) :
    tokens .between ((plainText idents segments).toList ++ rest) =
      (if segments.any Segment.isPlaceholder then [.word ['f']] else []) ++
        .literal :: tokens .between rest := by
  have hliteral : tokens (.literal '"') (pathChars idents segments ++ ("\"".toList ++ rest)) =
      tokens .between rest := by
    rw [tokens_pathChars hidents]
    rfl
  unfold plainText
  simp only [String.toList_append, String.toList_ofList, List.append_assoc]
  rw [← hliteral]
  cases segments.any Segment.isPlaceholder <;> rfl

private theorem tokens_queriedText (rest : List Char) :
    tokens .between ((queriedText idents segments).toList ++ rest) =
      .word ['f'] :: .literal :: tokens .between rest := by
  have hliteral : tokens (.literal '"') (pathChars idents segments ++
      ("?\x7bquery\x7d\"".toList ++ rest)) = tokens .between rest := by
    rw [tokens_pathChars hidents]
    rfl
  unfold queriedText
  simp only [String.toList_append, String.toList_ofList, List.append_assoc]
  rw [← hliteral]
  rfl

theorem mem_readNames_addressLine (h : name ∈ readNames (addressLine idents segments table)) :
    name ∈ addressWords := by
  have hplain := tokens_plainText hidents []
  rw [List.append_nil] at hplain
  have hstart : ∀ rest, tokens .between ("url = ".toList ++ rest) =
      .word "url".toList :: .mark '=' :: tokens .between rest := fun _ => rfl
  have hchoice : ∀ rest, tokens .between (" if query else ".toList ++ rest) =
      .word "if".toList :: .word "query".toList :: .word "else".toList :: tokens .between rest :=
    fun _ => rfl
  have hwords : ∀ word ∈ words false (tokens .between (addressLine idents segments table).toList),
      word ∈ "if" :: "else" :: addressWords := by
    unfold addressLine
    split <;> simp only [String.toList_append, List.append_assoc] <;> rw [hstart]
    · rw [hplain]
      cases segments.any Segment.isPlaceholder <;> decide
    · rw [tokens_queriedText hidents, hchoice, hplain]
      cases segments.any Segment.isPlaceholder <;> decide
  obtain ⟨hmem, hname⟩ := List.mem_filter.mp h
  rcases List.mem_cons.mp (hwords name hmem) with rfl | hmem
  · rw [isName_of_mem_keywords (by decide)] at hname
    cases hname
  rcases List.mem_cons.mp hmem with rfl | hmem
  · rw [isName_of_mem_keywords (by decide)] at hname
    cases hname
  · exact hmem

variable (hsegments : Unbraced segments)
include hsegments

private theorem braced_pathText {opening : String} (hopening : ∀ c ∈ opening.toList, c ≠ '\x7b')
    (rest : List Char) :
    braced none ((opening ++ String.ofList (pathChars idents segments)).toList ++ rest) =
      segments.filterMap (segmentField? idents) ++ braced none rest := by
  rw [String.toList_append, String.toList_ofList, List.append_assoc, braced_unbraced hopening,
    braced_pathChars hsegments hidents]

private theorem braced_plainText (rest : List Char) :
    braced none ((plainText idents segments).toList ++ rest) =
      segments.filterMap (segmentField? idents) ++ braced none rest := by
  have hmark : ∀ c ∈ ((if segments.any Segment.isPlaceholder then "f" else "") ++ "\"").toList,
      c ≠ '\x7b' := by
    cases segments.any Segment.isPlaceholder <;> simp
  unfold plainText
  rw [String.toList_append, List.append_assoc, braced_pathText hidents hsegments hmark]
  rfl

private theorem braced_queriedText (rest : List Char) :
    braced none ((queriedText idents segments).toList ++ rest) =
      segments.filterMap (segmentField? idents) ++ "query".toList :: braced none rest := by
  have hmark : ∀ c ∈ "f\"".toList, c ≠ '\x7b' := by simp
  unfold queriedText
  rw [String.toList_append, List.append_assoc, braced_pathText hidents hsegments hmark]
  rfl

private theorem mem_braced_addressLine {field : List Char}
    (h : field ∈ braced none (addressLine idents segments table).toList) :
    field = "query".toList ∨ ∃ placeholder, .placeholder placeholder ∈ segments ∧
      field = quoteCall (idents placeholder).toList := by
  have hfield (h : field ∈ segments.filterMap (segmentField? idents)) :
      ∃ placeholder, .placeholder placeholder ∈ segments ∧
        field = quoteCall (idents placeholder).toList := by
    obtain ⟨s, hs, hfield⟩ := List.mem_filterMap.mp h
    cases s with
    | literal text => cases hfield
    | placeholder name => exact ⟨name, hs, (Option.some.inj hfield).symm⟩
  have hplain : braced none (plainText idents segments).toList =
      segments.filterMap (segmentField? idents) := by
    have hplain := braced_plainText hidents hsegments []
    rwa [List.append_nil, braced, List.append_nil] at hplain
  have hstart : ∀ rest, braced none ("url = ".toList ++ rest) = braced none rest := fun _ => rfl
  have hchoice : ∀ rest, braced none (" if query else ".toList ++ rest) = braced none rest :=
    fun _ => rfl
  unfold addressLine at h
  split at h <;> simp only [String.toList_append, List.append_assoc] at h <;> rw [hstart] at h
  · rw [hplain] at h
    exact .inr (hfield h)
  · rw [braced_queriedText hidents hsegments, hchoice, hplain] at h
    rcases List.mem_append.mp h with h | h
    · exact .inr (hfield h)
    · exact (List.mem_cons.mp h).imp_right hfield

theorem mem_fieldNames_addressLine (h : name ∈ fieldNames (addressLine idents segments table)) :
    name ∈ addressWords ∨ ∃ placeholder, .placeholder placeholder ∈ segments ∧
      name = idents placeholder := by
  obtain ⟨field, hfield, hname⟩ := List.mem_flatMap.mp h
  rcases mem_braced_addressLine hidents hsegments hfield with rfl | ⟨placeholder, hmem, rfl⟩
  · have hquery : readNames (String.ofList "query".toList) = ["query"] := by decide
    rw [hquery] at hname
    exact .inl (List.mem_singleton.mp hname ▸ by decide)
  · exact (mem_readNames_quoteCall (hidents _ hmem) hname).imp_right fun hname =>
      ⟨placeholder, hmem, hname⟩

end Literals

/-! ## The lines about the query string -/

/-- An argument of the query string reads what its value reads. -/
theorem mem_readNames_appendText {indent : String} (hindent : indent ∈ ["", "    "])
    (h : name ∈ readNames (indent ++ appendText key expression)) :
    name = "query_args" ∨ name ∈ readNames (expression ++ "))") := by
  have hhead : ∀ rest, tokens .between ("query_args.append((".toList ++ rest) =
      .word "query_args".toList :: .mark '.' :: .word "append".toList :: .mark '(' :: .mark '(' ::
        tokens .between rest := fun _ => rfl
  have hcomma : ∀ rest, tokens .between (", ".toList ++ rest) = .mark ',' :: tokens .between rest :=
    fun _ => rfl
  have hspaces : ∀ rest, tokens .between (indent.toList ++ rest) = tokens .between rest := by
    rcases List.mem_pair.mp hindent with rfl | rfl <;> exact fun _ => rfl
  have hpieces : tokens .between (indent ++ appendText key expression).toList =
      .word "query_args".toList :: .mark '.' :: .word "append".toList :: .mark '(' :: .mark '(' ::
        .literal :: .mark ',' :: tokens .between (expression ++ "))").toList := by
    unfold appendText
    simp only [String.toList_append, List.append_assoc]
    rw [hspaces, hhead, tokens_quoted, hcomma]
  obtain ⟨hmem, hname⟩ := List.mem_filter.mp h
  rw [hpieces] at hmem hname
  simp only [words, Bool.false_eq_true, if_false, List.singleton_append, List.mem_cons] at hmem
  rcases hmem with hmem | hmem
  · exact .inl (by simpa using hmem)
  · exact .inr (List.mem_filter.mpr ⟨by simpa using hmem, hname⟩)

/-- A line about the query string reads what a value or a condition of the table reads. -/
theorem mem_readNames_queryLines {line : String} (hline : line ∈ queryLines table)
    (h : name ∈ readNames line) : name ∈ queryWords ∨ ∃ e ∈ table,
      name ∈ readNames (e.2.expression ++ "))") ∨
        ∃ c ∈ e.2.condition, name ∈ readNames ("if " ++ c ++ ":") := by
  have happend {e : String × Binding} {indent : String} (he : e ∈ table)
      (hindent : indent ∈ ["", "    "])
      (h : name ∈ readNames (indent ++ appendText e.1 e.2.expression)) :
      name ∈ queryWords ∨ ∃ e ∈ table, name ∈ readNames (e.2.expression ++ "))") ∨
        ∃ c ∈ e.2.condition, name ∈ readNames ("if " ++ c ++ ":") := by
    rcases mem_readNames_appendText hindent h with rfl | h
    · exact .inl List.mem_cons_self
    · exact .inr ⟨e, he, .inl h⟩
  unfold queryLines at hline
  split at hline
  · cases hline
  obtain ⟨hclear, hencode⟩ :
      readNames clearText ⊆ queryWords ∧ readNames encodeText ⊆ queryWords := by
    decide +kernel
  rw [List.append_assoc, List.singleton_append] at hline
  rcases List.mem_cons.mp hline with rfl | hline
  · exact .inl (hclear h)
  rcases List.mem_append.mp hline with hline | hline
  · rw [bindingLines_eq] at hline
    obtain ⟨group, hgroup, hline⟩ := List.mem_flatten.mp hline
    obtain ⟨⟨key, expression, condition⟩, he, rfl⟩ := List.mem_map.mp hgroup
    cases condition with
    | none =>
      obtain rfl := List.mem_singleton.mp hline
      have hindent : readNames (appendText key expression) =
          readNames ("" ++ appendText key expression) := by rw [String.empty_append]
      exact happend he List.mem_cons_self (hindent ▸ h)
    | some condition =>
      rcases List.mem_pair.mp hline with rfl | rfl
      · exact .inr ⟨_, he, .inr ⟨condition, rfl, h⟩⟩
      · exact happend he (List.mem_cons_of_mem _ List.mem_cons_self) h
  · obtain rfl := List.mem_singleton.mp hline
    exact .inl (hencode h)

end OpenApiClient.Url
