import OpenApiClient.Package.Method
import OpenApiClient.Proofs.AddressNames
import OpenApiClient.Proofs.BuiltMethods
import OpenApiClient.Proofs.PlainNames
import OpenApiClient.Proofs.PresentedParameters
import OpenApiClient.Proofs.ReadNames

/-! # Methods read their own parameters

The identifier of a parameter stands in the signature of its method, in the address, in the query
table and in the headers. Each of these takes it from the classified parameter, and no two parameters
of a method have one identifier. -/
namespace OpenApiClient.Operation

open Schema Schema.RegistryM Naming Code

variable {document : Value} {shared : Members} {settings : Settings} {r t : Registry}
  {p : Parameter} {ps : List Parameter}

structure Classified (settings : Settings) (p : Parameter) : Prop where
  identifier : ∃ reserved, settings.reserved = .ok reserved ∧
    p.identifier = Naming.identifier reserved p.name
  expression : ∃ r type,
    p.expression = serialized r type p.identifier settings.arraySeparator p.serialization
  condition : ∀ c ∈ p.condition, IsCondition p.identifier c

private theorem isCondition_presence (kind : Kind) (ident : String) :
    IsCondition ident (presence kind ident) := by
  unfold presence
  split
  · exact .positive
  · exact .truthy

private theorem presenceOf_ok {schema : Value} {required : Bool} {type : TypeId} {ident hint : String}
    {found : TypeId × Option String × Option String}
    (h : outcome (presenceOf document schema required type ident hint) r = (.ok found, t)) :
    ∀ c ∈ found.2.2, IsCondition ident c := by
  intro c hc
  cases presenceOf_ok_iff.mp h with
  | required => cases hc
  | preset =>
    cases hc
    exact isCondition_presence _ ident
  | null =>
    cases hc
    exact .given

theorem classify_ok {parameter : Value}
    (h : outcome (classify document shared settings parameter) r = (.ok p, t)) :
    Classified settings p := by
  obtain ⟨_, _, _, _, _, _, _, -, hdeclares, -, -, -, hfound, -, hexpression⟩ := classify_steps h
  exact ⟨hdeclares.identifier, ⟨t, p.type, hexpression⟩, presenceOf_ok hfound⟩

/-- All parameters are classified one by one, and their identifiers are different. -/
theorem classifyAll_ok {parameters : List Value}
    (h : outcome (classifyAll document shared settings parameters) r = (.ok ps, t)) :
    (∀ p ∈ ps, Classified settings p) ∧ (ps.map Parameter.identifier).Nodup := by
  refine foldlM_invariant (P := fun ps => (∀ p ∈ ps, Classified settings p) ∧
    (ps.map Parameter.identifier).Nodup) ?_ ⟨by simp, .nil⟩ h
  rintro classified parameter next s s' ⟨hall, hnodup⟩ hnext
  obtain ⟨p, _, hp, hnext⟩ := bind_ok_iff.mp hnext
  split at hnext
  · simp at hnext
  · rename_i hfresh
    obtain ⟨rfl, -⟩ := pure_ok_iff.mp hnext
    refine ⟨fun q hq => ?_, ?_⟩
    · rcases List.mem_append.mp hq with hq | hq
      · exact hall q hq
      · exact List.mem_singleton.mp hq ▸ classify_ok hp
    · have hnew : p.identifier ∉ classified.map Parameter.identifier := by
        intro hmem
        obtain ⟨q, hq, heq⟩ := List.mem_map.mp hmem
        exact List.find?_eq_none.mp hfresh q hq (beq_iff_eq.mpr heq)
      rw [List.map_append, List.map_singleton, ← List.concat_eq_append]
      exact hnodup.concat hnew

/-! ## Identifiers -/

theorem append_underscore_not_mem_default (name : String) :
    name ++ "_" ∉ Settings.defaultReservedWords := by
  have hlast : ∀ w ∈ Settings.defaultReservedWords, w.toList.getLast? ≠ some '_' := by decide
  exact fun hmem => hlast _ hmem (by simp)

private theorem escapeReserved_not_mem {reserved : List String}
    (h : ∀ w ∈ Settings.defaultReservedWords, w ∈ reserved) (name : String) :
    escapeReserved reserved name ∉ Settings.defaultReservedWords := by
  unfold escapeReserved
  split
  · exact append_underscore_not_mem_default name
  · exact fun hmem => absurd (h _ hmem) ‹_›

theorem Classified.isPlainName (h : Classified settings p)
    (hreserved : ∀ w ∈ Settings.defaultReservedWords, w ∈ settings.reservedWords) :
    IsPlainName p.identifier ∧ p.identifier ∉ Settings.defaultReservedWords := by
  obtain ⟨reserved, hsettings, heq⟩ := h.identifier
  have hall : ∀ w ∈ Settings.defaultReservedWords, w ∈ reserved :=
    fun w hw => Settings.reservedWords_subset hsettings (hreserved w hw)
  have hkeywords : ∀ w ∈ keywords, w ∈ reserved := fun w hw =>
    hall w (List.mem_append_left _ (List.mem_append_left _ hw))
  rw [heq]
  exact ⟨isPlainName_identifier hkeywords p.name, escapeReserved_not_mem hall _⟩

theorem isWord_of_letters {name : String} (hne : name.toList ≠ [])
    (hletters : ∀ c ∈ name.toList, isNameLetter c) : IsWord name where
  ne_nil := hne
  parts c hc := by
    have hletter := hletters c hc
    simp only [isNameLetter, isWordChar, Bool.or_eq_true] at hletter
    simp only [isWordPart, isNameChar, Bool.or_eq_true]
    tauto

private theorem isWord_of_isPlainName {name : String} (h : IsPlainName name) : IsWord name := by
  obtain ⟨first, rest, hname, -⟩ := h.chars.1
  exact isWord_of_letters (by simp [hname]) h.letters

theorem Classified.eq_of_mem_readNames {separator name ending : String} (h : Classified settings p)
    (hword : IsWord p.identifier) (hseparator : settings.arraySeparator = .text separator)
    (hending : ending ∈ ["", "))"]) (hname : name ∈ readNames (p.expression ++ ending)) :
    name = p.identifier := by
  obtain ⟨r, type, heq⟩ := h.expression
  rw [heq, hseparator] at hname
  exact eq_of_mem_readNames_serialized hword r type separator _ hending hname

/-! ## Where parameters are read -/

theorem mem_of_lookup_pathIdentifiers {name ident : String}
    (h : (pathIdentifiers ps).lookup name = some ident) :
    ∃ p ∈ ps, p.place = .path ∧ p.name = name ∧ p.identifier = ident := by
  obtain ⟨p, hp, heq⟩ := List.mem_map.mp (Table.mem_ofList (mem_of_lookup h))
  obtain ⟨hmem, hplace⟩ := List.mem_filter.mp hp
  obtain ⟨hname, hident⟩ := Prod.mk.inj heq
  exact ⟨p, hmem, beq_iff_eq.mp hplace, hname, hident⟩

/-- What the address has in the place of a placeholder. -/
def placeholderNames (parameters : List Parameter) (name : String) : Except Fault String :=
  match (pathIdentifiers parameters).lookup name with
  | some identifier => .ok identifier
  | none => .error .missingEntry

/-- The address is the code of its template, and every placeholder has a parameter. -/
theorem urlCode_placeholders {path code : String} (h : urlCode path ps = .ok code) :
    ∃ template, Url.PathTemplate.parse path = .ok template ∧
      template.code (queryTable ps) (placeholderNames ps) = .ok code ∧
      ∀ name ∈ template.placeholders,
        ∃ p ∈ ps, p.place = .path ∧ p.name = name ∧ placeholderNames ps name = .ok p.identifier := by
  simp only [urlCode, except_bind_ok_iff] at h
  obtain ⟨template, htemplate, h⟩ := h
  split at h
  · cases h
  · rename_i hnone
    refine ⟨template, htemplate, h, fun name hname => ?_⟩
    have hfound := List.find?_eq_none.mp hnone name hname
    cases hlookup : (pathIdentifiers ps).lookup name with
    | none => simp [hlookup] at hfound
    | some ident =>
      obtain ⟨p, hp, hplace, hpname, rfl⟩ := mem_of_lookup_pathIdentifiers hlookup
      exact ⟨p, hp, hplace, hpname, by simp [placeholderNames, hlookup]⟩

/-- The address is the code of its template, with the identifiers of parameters in its
placeholders. -/
theorem urlCode_ok {path code : String} (h : urlCode path ps = .ok code) :
    ∃ template names, Url.PathTemplate.parse path = .ok template ∧
      template.code (queryTable ps) names = .ok code ∧
      ∀ name ∈ template.placeholders,
        ∃ p ∈ ps, p.place = .path ∧ p.name = name ∧ names name = .ok p.identifier := by
  obtain ⟨template, htemplate⟩ := urlCode_placeholders h
  exact ⟨template, _, htemplate⟩

theorem mem_queryTable {e : String × Url.Binding} (h : e ∈ queryTable ps) :
    ∃ p ∈ ps, p.inQueryTable = true ∧ e = (p.name, ⟨p.expression, p.condition⟩) := by
  rw [queryTable, Table.sorted, List.mem_mergeSort] at h
  obtain ⟨p, hp, rfl⟩ := List.mem_map.mp (Table.mem_ofList h)
  exact ⟨p, (List.mem_filter.mp hp).1, (List.mem_filter.mp hp).2, rfl⟩

theorem mem_readNames_assignment {indent name : String} (hindent : indent ∈ ["", "    "])
    {key expression : String}
    (h : name ∈ readNames (indent ++ ("headers[" ++ Text.quoted key ++ "] = " ++ expression))) :
    name = "headers" ∨ name ∈ readNames expression := by
  have hhead : ∀ rest, tokens .between ("headers[".toList ++ rest) =
      .word "headers".toList :: .mark '[' :: tokens .between rest := fun _ => rfl
  have htail : ∀ rest, tokens .between ("] = ".toList ++ rest) =
      .mark ']' :: .mark '=' :: tokens .between rest := fun _ => rfl
  have hpieces : tokens .between
      (indent ++ ("headers[" ++ Text.quoted key ++ "] = " ++ expression)).toList =
      .word "headers".toList :: .mark '[' :: .literal :: .mark ']' :: .mark '=' ::
        tokens .between expression.toList := by
    have hspaces : ∀ rest, tokens .between (indent.toList ++ rest) = tokens .between rest := by
      rcases List.mem_pair.mp hindent with rfl | rfl <;> exact fun _ => rfl
    simp only [String.toList_append, List.append_assoc]
    rw [hspaces, hhead, tokens_quoted, htail]
  obtain ⟨hmem, hname⟩ := List.mem_filter.mp h
  rw [hpieces] at hmem hname
  simp only [words, Bool.false_eq_true, if_false, List.singleton_append, List.mem_cons] at hmem
  rcases hmem with hmem | hmem
  · exact .inl (by simpa using hmem)
  · exact .inr (List.mem_filter.mpr ⟨hmem, hname⟩)

/-- The head of a statement that is conditional reads what its condition reads. -/
theorem eq_of_mem_readNames_guard {ident condition name : String} (hword : IsWord ident)
    (hcondition : IsCondition ident condition)
    (h : name ∈ readNames ("if " ++ condition ++ ":")) : name = ident := by
  have hhead : ∀ rest, tokens .between ("if ".toList ++ rest) =
      .word "if".toList :: tokens .between rest := fun _ => rfl
  have hpieces : tokens .between ("if " ++ condition ++ ":").toList =
      .word "if".toList :: tokens .between (condition ++ ":").toList := by
    rw [String.append_assoc, String.toList_append, hhead]
  refine eq_of_mem_readNames hpieces ["if", "0", "is", "not", "None"]
    (fun word hmem => ?_) (fun word hmem => ?_) h
  · rw [words] at hmem
    rcases List.mem_append.mp hmem with hmem | hmem
    · exact .inr (by simp_all)
    · have hwords := words_condition hword hcondition (List.mem_cons_of_mem _ List.mem_cons_self)
      exact (hwords word hmem).imp_right (List.mem_cons_of_mem _)
  · exact isName_of_mem_conditionWords hmem _

/-- The address is written in lines, with the identifiers of parameters in the place of its
placeholders. -/
theorem urlCode_lines {path code : String} (h : urlCode path ps = .ok code) :
    ∃ template idents, Url.PathTemplate.parse path = .ok template ∧
      code = "\n".intercalate (Url.addressLines idents template.segments (queryTable ps)) ∧
      ∀ name, .placeholder name ∈ template.segments →
        ∃ p ∈ ps, p.place = .path ∧ idents name = p.identifier := by
  obtain ⟨template, hparse, hcode, hplaceholders⟩ := urlCode_placeholders h
  let idents (name : String) : String := ((pathIdentifiers ps).lookup name).getD ""
  have hfound : ∀ name, .placeholder name ∈ template.segments →
      placeholderNames ps name = .ok (idents name) ∧
        ∃ p ∈ ps, p.place = .path ∧ idents name = p.identifier := by
    intro name hname
    obtain ⟨p, hp, hplace, -, hident⟩ :=
      hplaceholders name (List.mem_filterMap.mpr ⟨_, hname, rfl⟩)
    have heq : idents name = p.identifier := by
      unfold placeholderNames at hident
      split at hident <;> simp_all [idents]
    exact ⟨heq ▸ hident, p, hp, hplace, heq⟩
  rw [Url.code_eq_intercalate fun name hname => (hfound name hname).1] at hcode
  exact ⟨template, idents, hparse, (Except.ok.inj hcode).symm, fun name hname =>
    (hfound name hname).2⟩

/-- The address is made of lines about the query string and one line that gives `url` its value. Beside
words of their own they read the identifiers of the parameters that go there. -/
theorem urlCode_names {path code separator : String} (h : urlCode path ps = .ok code)
    (hclassified : ∀ p ∈ ps, Classified settings p) (hwords : ∀ p ∈ ps, IsWord p.identifier)
    (hseparator : settings.arraySeparator = .text separator) :
    ∃ last, code = "\n".intercalate (Url.queryLines (queryTable ps) ++ [last]) ∧
      (∀ line ∈ Url.queryLines (queryTable ps), ∀ name ∈ readNames line, name ∈ Url.queryWords ∨
        ∃ p ∈ ps, p.inQueryTable = true ∧ name = p.identifier) ∧
      ∀ name ∈ readNames last ++ fieldNames last, name ∈ Url.addressWords ∨
        ∃ p ∈ ps, p.place = .path ∧ name = p.identifier := by
  obtain ⟨template, idents, hparse, rfl, hfound⟩ := urlCode_lines h
  have hidents : ∀ name, .placeholder name ∈ template.segments → IsWord (idents name) := by
    intro name hname
    obtain ⟨p, hp, -, heq⟩ := hfound name hname
    exact heq ▸ hwords p hp
  rw [Url.addressLines_eq]
  refine ⟨Url.addressLine idents template.segments (queryTable ps), rfl,
    fun line hline name hname => ?_, fun name hname => ?_⟩
  · refine (Url.mem_readNames_queryLines hline hname).imp_right fun ⟨e, he, hname⟩ => ?_
    obtain ⟨p, hp, hquery, rfl⟩ := mem_queryTable he
    refine ⟨p, hp, hquery, ?_⟩
    rcases hname with hname | ⟨condition, hcondition, hname⟩
    · exact (hclassified p hp).eq_of_mem_readNames (hwords p hp) hseparator (by simp) hname
    · exact eq_of_mem_readNames_guard (hwords p hp) ((hclassified p hp).condition _ hcondition) hname
  · rcases List.mem_append.mp hname with hname | hname
    · exact .inl (Url.mem_readNames_addressLine hidents hname)
    · refine (Url.mem_fieldNames_addressLine hidents (Url.unbraced_of_parse hparse) hname).imp_right ?_
      rintro ⟨placeholder, hmem, rfl⟩
      exact hfound placeholder hmem

end OpenApiClient.Operation

namespace OpenApiClient.ClientMethod

open Operation Schema Schema.RegistryM Naming Code

variable {document : Value} {shared : Members} {settings : Settings} {o : ListedOperation}
  {m : ClientMethod} {r t : Registry}

def argumentName (line : String) : String := String.ofList (line.toList.takeWhile (· ≠ ':'))

/-- The names in the signature of a method, after the star that makes them keywords. -/
def argumentNames (m : ClientMethod) : List String := (m.signature.drop 1).map argumentName

theorem argumentName_append {name : String} (h : ∀ c ∈ name.toList, c ≠ ':') (rest : String) :
    argumentName (name ++ ": " ++ rest) = name := by
  have hname : ∀ c ∈ name.toList, (decide (c ≠ ':')) = true := fun c hc => decide_eq_true (h c hc)
  refine String.toList_injective ?_
  rw [argumentName, String.toList_ofList, String.append_assoc, String.toList_append,
    List.takeWhile_append_of_pos hname, String.toList_append]
  exact List.append_nil _

private theorem argumentName_parameterLine {p : Parameter}
    (h : ∀ c ∈ p.identifier.toList, isNameLetter c) :
    argumentName (parameterLine p) = p.identifier := by
  have hchars : ∀ c ∈ p.identifier.toList, c ≠ ':' := by
    rintro c hc rfl
    exact absurd (h _ hc) (by decide)
  unfold parameterLine
  dsimp only
  split
  · rename_i preset _
    have hline : p.identifier ++ ": " ++ p.typeText ++ " = " ++ preset =
        p.identifier ++ ": " ++ (p.typeText ++ " = " ++ preset) := by
      simp only [String.append_assoc]
    rw [hline]
    exact argumentName_append hchars _
  · exact argumentName_append hchars _

/-- Behind the star a signature has a line for each parameter, in their order, and then one for the
body. -/
theorem drop_signature (m : ClientMethod) : m.signature.drop 1 =
    m.parameters.map parameterLine ++ m.body.toList.map fun body => "body: " ++ body.typeText := by
  unfold signature
  cases m.body with
  | none =>
    dsimp only
    split
    · rename_i hnil
      simpa using hnil.symm
    · simp
  | some body =>
    dsimp only
    split
    · rename_i hnil
      simp at hnil
    · simp

/-- A signature declares the parameters in their order, and then the body. -/
theorem argumentNames_eq
    (h : ∀ p ∈ m.parameters, ∀ c ∈ p.identifier.toList, isNameLetter c) :
    m.argumentNames = m.parameters.map Parameter.identifier ++ m.body.toList.map fun _ => "body" := by
  have hchars : ∀ c ∈ "body".toList, c ≠ ':' := by simp
  have hbody : ∀ text : String, argumentName ("body: " ++ text) = "body" := fun text =>
    argumentName_append hchars text
  rw [argumentNames, drop_signature, List.map_append, List.map_map, List.map_map]
  exact congrArg₂ (· ++ ·)
    (List.map_congr_left fun p hp => argumentName_parameterLine (h p hp))
    (List.map_congr_left fun body _ => hbody _)

/-- The lines about headers read nothing but the headers and the parameters that go there. -/
theorem mem_readNames_headerLines {separator line name : String}
    (hclassified : ∀ p ∈ m.parameters, Classified settings p)
    (hwords : ∀ p ∈ m.parameters, IsWord p.identifier)
    (hseparator : settings.arraySeparator = .text separator) (hline : line ∈ m.headerLines)
    (hname : name ∈ readNames line) :
    name ∈ ["headers", "dict"] ∨ ∃ p ∈ m.parameters, p.place = .header ∧ name = p.identifier := by
  have hheader : ∀ p ∈ m.parameters.filter (·.place == .header), ∀ {indent}, indent ∈ ["", "    "] →
      name ∈ readNames (indent ++ ("headers[" ++ Text.quoted p.name ++ "] = " ++ p.expression)) →
      name ∈ ["headers", "dict"] ∨ ∃ p ∈ m.parameters, p.place = .header ∧ name = p.identifier := by
    intro p hp indent hindent hname
    obtain ⟨hp, hplace⟩ := List.mem_filter.mp hp
    rcases mem_readNames_assignment hindent hname with rfl | hname
    · exact .inl List.mem_cons_self
    · rw [← String.append_empty (s := p.expression)] at hname
      exact .inr ⟨p, hp, beq_iff_eq.mp hplace, (hclassified p hp).eq_of_mem_readNames (hwords p hp)
        hseparator List.mem_cons_self hname⟩
  unfold headerLines at hline
  split at hline
  · cases hline
  rcases List.mem_cons.mp hline with rfl | hline
  · have hfirst : readNames "headers: dict[str, str] = \x7b\x7d" = ["headers", "dict"] := by
      decide
    exact .inl (hfirst ▸ hname)
  obtain ⟨p, hp, hline⟩ := List.mem_flatMap.mp hline
  dsimp only at hline
  split at hline
  · rw [List.mem_singleton.mp hline] at hname
    exact @hheader p hp "" List.mem_cons_self (by rwa [String.empty_append])
  · rename_i condition hcondition
    rcases List.mem_pair.mp hline with rfl | rfl
    · obtain ⟨hp, hplace⟩ := List.mem_filter.mp hp
      exact .inr ⟨p, hp, beq_iff_eq.mp hplace, eq_of_mem_readNames_guard (hwords p hp)
        ((hclassified p hp).condition _ hcondition) hname⟩
    · exact hheader p hp (List.mem_cons_of_mem _ List.mem_cons_self) hname

/-- When the words that are reserved by default are reserved, and the separator of arrays is a text as
it is declared to be, a method has a signature of different names, `self` and `body` apart, each an
ASCII identifier that is no keyword and no name of the generated code. The placeholders of its
address, the entries of its query table and the values of its headers read the identifiers of the
parameters that they are about. So do the lines of its address and its headers as they are written,
beside the words of the generated code. -/
theorem hygienic {separator : String}
    (hreserved : ∀ w ∈ Settings.defaultReservedWords, w ∈ settings.reservedWords)
    (hseparator : settings.arraySeparator = .text separator)
    (h : outcome (build document shared settings o) r = (.ok m, t)) :
    m.argumentNames = m.parameters.map Parameter.identifier ++ (m.body.toList.map fun _ => "body") ∧
      ("self" :: "body" :: m.parameters.map Parameter.identifier).Nodup ∧
      (∀ p ∈ m.parameters, Text.isIdentifier p.identifier ∧
        (∀ c ∈ p.identifier.toList, c.toNat < 128) ∧
        p.identifier ∉ keywords ++ Settings.generatedNames) ∧
      (∃ template names, Url.PathTemplate.parse m.path = .ok template ∧
        template.code (queryTable m.parameters) names = .ok m.urlCode ∧
        ∀ name ∈ template.placeholders,
          ∃ p ∈ m.parameters, p.place = .path ∧ p.name = name ∧ names name = .ok p.identifier) ∧
      (∃ last, m.urlCode = "\n".intercalate (Url.queryLines (queryTable m.parameters) ++ [last]) ∧
        (∀ line ∈ Url.queryLines (queryTable m.parameters), ∀ name ∈ readNames line,
          name ∈ Url.queryWords ∨ ∃ p ∈ m.parameters, p.inQueryTable = true ∧ name = p.identifier) ∧
        ∀ name ∈ readNames last ++ fieldNames last,
          name ∈ Url.addressWords ∨ ∃ p ∈ m.parameters, p.place = .path ∧ name = p.identifier) ∧
      (∀ e ∈ queryTable m.parameters, ∃ p ∈ m.parameters, p.name = e.1 ∧
        (∀ name ∈ readNames e.2.expression, name = p.identifier) ∧
        ∀ condition ∈ e.2.condition, ∀ name ∈ readNames condition, name = p.identifier) ∧
      ∀ line ∈ m.headerLines, ∀ name ∈ readNames line,
        name ∈ ["headers", "dict"] ∨ ∃ p ∈ m.parameters, p.place = .header ∧ name = p.identifier := by
  obtain ⟨hbuilds, declared, s, s', hparameters⟩ := build_ok h
  obtain ⟨hclassified, hnodup⟩ := classifyAll_ok hparameters
  have hplain := fun p hp => (hclassified p hp).isPlainName hreserved
  have hwords : ∀ p ∈ m.parameters, IsWord p.identifier :=
    fun p hp => isWord_of_isPlainName (hplain p hp).1
  refine ⟨argumentNames_eq fun p hp => (hplain p hp).1.letters, ?_, fun p hp => ⟨?_, ?_, ?_⟩,
    urlCode_ok hbuilds.address, urlCode_names hbuilds.address hclassified hwords hseparator,
    fun e he => ?_, fun line hline name hname => ?_⟩
  · have hnew : ∀ word ∈ Settings.defaultReservedWords,
        word ∉ m.parameters.map Parameter.identifier := by
      intro word hword hmem
      obtain ⟨p, hp, rfl⟩ := List.mem_map.mp hmem
      exact (hplain p hp).2 hword
    refine List.nodup_cons.mpr ⟨fun hmem => ?_, List.nodup_cons.mpr ⟨hnew _ (by decide), hnodup⟩⟩
    exact hnew "self" (by decide) ((List.mem_cons.mp hmem).resolve_left (by decide))
  · exact (hplain p hp).1.isIdentifier
  · exact fun c hc => toNat_lt_of_isNameLetter ((hplain p hp).1.letters c hc)
  · intro hmem
    refine (hplain p hp).2 ?_
    rcases List.mem_append.mp hmem with hmem | hmem
    · exact List.mem_append_left _ (List.mem_append_left _ hmem)
    · exact List.mem_append_right _ hmem
  · obtain ⟨p, hp, -, rfl⟩ := mem_queryTable he
    refine ⟨p, hp, rfl, fun name hname => ?_, fun condition hcondition name hname => ?_⟩
    · rw [← String.append_empty (s := p.expression)] at hname
      exact (hclassified p hp).eq_of_mem_readNames (hwords p hp) hseparator List.mem_cons_self hname
    · exact eq_of_mem_readNames_condition (hwords p hp)
        ((hclassified p hp).condition _ hcondition) hname
  · exact mem_readNames_headerLines hclassified hwords hseparator hline hname

def namedParameter (place name type : String) : Value :=
  .mapping [(.text "in", .text place), (.text "name", .text name),
    (.text "schema", .mapping [(.text "type", .text type),
      (.text "items", .mapping [(.text "type", .text "integer")])])]

/-- An operation with a parameter in every place and a body. -/
def itemOperation : ListedOperation where
  path := .text "/items/\x7bitem-id\x7d"
  method := .post
  declaration := .mapping [(.text "tags", .sequence [.text "items"]),
    (.text "parameters", .sequence [namedParameter "path" "item-id" "string",
      namedParameter "query" "class" "array", namedParameter "header" "Self" "string",
      namedParameter "cookie" "2nd" "string"]),
    (.text "requestBody", .mapping [(.text "content", .mapping [(.text "application/json",
      .mapping [(.text "schema", .mapping [(.text "type", .text "string")])])])]),
    (.text "responses", .mapping [(.text "204", .mapping [])])]

def itemRun : Except Fault ClientMethod × Registry :=
  outcome (build .empty [] .default itemOperation) {}

theorem hygienic_item : ∃ m, itemRun.1 = .ok m ∧
    m.argumentNames = ["item_id", "class_", "self_", "_2nd", "body"] ∧
    ("self" :: "body" :: m.parameters.map Parameter.identifier).Nodup ∧
    (queryTable m.parameters).map (fun e => readNames e.2.expression) = [["class_"]] ∧
    m.headerLines.map readNames =
      [["headers", "dict"], ["self_"], ["headers", "self_"]] ∧
    ∀ line ∈ m.headerLines, ∀ name ∈ readNames line,
      name ∈ ["headers", "dict"] ∨ ∃ p ∈ m.parameters, p.place = .header ∧ name = p.identifier := by
  have hread : itemRun.1.map (fun m => (m.argumentNames,
      (queryTable m.parameters).map fun e => readNames e.2.expression, m.headerLines.map readNames)) =
      .ok (["item_id", "class_", "self_", "_2nd", "body"], [["class_"]],
        [["headers", "dict"], ["self_"], ["headers", "self_"]]) := by decide +kernel
  cases hrun : itemRun with
  | mk x r =>
    rw [hrun] at hread
    obtain ⟨m, rfl, hm⟩ := except_map_ok_iff.mp hread
    obtain ⟨hnames, hm⟩ := Prod.mk.inj hm
    obtain ⟨hquery, hheaders⟩ := Prod.mk.inj hm
    obtain ⟨-, hnodup, -, -, -, -, hlines⟩ := hygienic (fun _ => id) rfl hrun
    exact ⟨m, rfl, hnames, hnodup, hquery, hheaders, hlines⟩

end OpenApiClient.ClientMethod
