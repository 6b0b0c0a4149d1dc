import OpenApiClient.Proofs.AnnotationGrammar
import OpenApiClient.Proofs.OperationRuns
import OpenApiClient.Proofs.PlainTexts
import OpenApiClient.Proofs.StatementLines
import OpenApiClient.Proofs.TitleLines

/-! # One line for each parameter

The documentation of a method has a line about each parameter: its identifier, its type and the longer
one of its descriptions, put on one line without its tags. Identifiers and types hold no line break,
unless the name of the models module does. -/
namespace OpenApiClient

open Text (Unbroken)

/-! ## Texts of types -/

theorem Text.unbroken_of_isIdentifier {s : String} (h : Text.isIdentifier s) : Unbroken s := by
  intro c hc
  apply Text.isLineBreak_eq_false_of (p := fun c => Text.isNameStart c || Text.isNameContinue c)
    (by decide +kernel)
  simpa using Text.isName_of_mem h hc

namespace Schema

variable {r : Registry} {q : String}

private theorem TypeExpr.unbroken_text {a : TypeExpr} (hq : Unbroken q) (h : a.IsSpelled containers) :
    Unbroken (a.text q) := by
  induction a with
  | word text =>
    have hwords : ∀ word ∈ typeWords, Unbroken word := by decide
    rcases h with rfl | h
    · exact List.forall_mem_nil _
    · exact hwords text h
  | model name =>
    exact Text.unbroken_append.mpr ⟨hq, Text.unbroken_of_isIdentifier (isIdentifier_of_isModelName h)⟩
  | within front item ih =>
    have hfronts : ∀ front ∈ containers, Unbroken front := by decide
    rw [text, Text.unbroken_append, Text.unbroken_append]
    exact ⟨⟨hfronts front h.1, ih h.2⟩, by decide⟩
  | quoted item => cases h
  | either first rest ih ih' =>
    rw [text, Text.unbroken_append, Text.unbroken_append]
    exact ⟨⟨ih h.1, by decide⟩, ih' h.2⟩

private theorem Registry.unbroken_qualifier {m : String} (hm : Text.isIdentifier m) :
    Unbroken (Registry.qualifier (.text m)) := by
  unfold Registry.qualifier
  split
  · exact Text.unbroken_append.mpr ⟨Text.unbroken_of_isIdentifier hm, by decide⟩
  · decide

/-- What is written of a type in the course of a run holds no line break. -/
theorem Registry.Writes.unbroken {t : Registry} {modelsModule : Value} {n text : String}
    {view : View} {id : TypeId} (h : t.Writes (Registry.qualifier modelsModule) view id text)
    (hr : r.Made) (ht : r.Grows t) (hmodels : modelsModule = .text n) (hn : Text.isIdentifier n) :
    Unbroken text := by
  have hmade : t.Made := Relation.ReflTransGen.trans hr ht.steps
  have hdistinct : t.Distinct := Registry.Steps.distinct hmade Registry.distinct_empty
  rw [h.2, hmodels]
  apply TypeExpr.unbroken_text (Registry.unbroken_qualifier hn)
  exact hdistinct.isSpelled_typeExpr view.fronts_subset View.owned.fronts_subset id

end Schema

namespace Operation

open Schema Schema.RegistryM

variable {document : Value} {shared : Members} {settings : Settings} {r t : Registry}
  {o : ListedOperation} {m : ClientMethod} {p : Parameter} {s : String}

/-! ## Lines about parameters -/

def bullet (p : Parameter) (description : String) : String :=
  let shown := String.ofList ((Text.plain description).toList.rdropWhile (· == '.'))
  "* `" ++ p.identifier ++ ": " ++ p.typeText ++ "`" ++
    if shown = "" then "" else " -- " ++ shown ++ "."

private theorem parameterDoc_eq (p : Parameter) :
    parameterDoc p = (longerDescription p).map (bullet p) := by
  unfold parameterDoc
  cases longerDescription p <;> rfl

theorem longerDescription_ok (h : p.description = .text s) : ∃ d, longerDescription p = .ok d := by
  unfold longerDescription
  rw [h]
  split
  · exact ⟨_, rfl⟩
  · simp only [Value.size, Value.elements, Value.asText, Except.map, bind, Except.bind]
    split <;> exact ⟨_, rfl⟩

private theorem unbroken_bullet (hidentifier : Unbroken p.identifier) (htype : Unbroken p.typeText)
    (description : String) : Unbroken (bullet p description) := by
  have hmarks : Unbroken "* `" ∧ Unbroken ": " ∧ Unbroken "`" ∧ Unbroken " -- " ∧ Unbroken "." := by
    decide
  have hshown : Unbroken
      (String.ofList ((Text.plain description).toList.rdropWhile (· == '.'))) := by
    rw [Text.unbroken_ofList]
    intro c hc
    exact Text.unbroken_singleSpaced _ c ((List.rdropWhile_prefix _ _).subset hc)
  unfold bullet
  generalize String.ofList _ = shown at hshown ⊢
  dsimp only
  split <;> simp [hidentifier, htype, hmarks, hshown]

private theorem lines_bullet (hidentifier : Unbroken p.identifier) (htype : Unbroken p.typeText)
    (description : String) : Text.lines (bullet p description) = [bullet p description] := by
  have hne : (bullet p description).toList ≠ [] := by simp [bullet]
  rw [Text.lines, Text.lineChars_eq_singleton (unbroken_bullet hidentifier htype description) hne,
    List.map_singleton, String.ofList_toList]

/-- Every description that is a text gives a line about a parameter, and what is written about a
parameter is one line. -/
theorem lines_parameterDoc (hidentifier : Unbroken p.identifier) (htype : Unbroken p.typeText) :
    (∀ s, p.description = .text s → ∃ l, parameterDoc p = .ok l) ∧
      ∀ l, parameterDoc p = .ok l → Text.lines l = [l] := by
  rw [parameterDoc_eq]
  constructor
  · intro s hs
    obtain ⟨d, hd⟩ := longerDescription_ok hs
    exact ⟨bullet p d, by rw [hd]; rfl⟩
  · intro l hl
    obtain ⟨d, -, rfl⟩ := except_map_ok_iff.mp hl
    exact lines_bullet hidentifier htype d

/-- Every text without its tags, on one line, has no tag and no white space but single spaces between
other characters, and so is not changed by this any more. For every parameter that is classified where
an identifier names the models module, a description that is a text gives a line about the parameter,
and what is written about a parameter is one line. -/
theorem plain_parameter_lines :
    (∀ s : String,
      (∃ kept, Text.Untagged s.toList kept ∧
        Text.plain s = Text.singleSpaced (String.ofList kept)) ∧
      ¬ Text.HasTag (Text.plain s).toList ∧ Text.SingleSpaced (Text.plain s).toList ∧
      Text.plain (Text.plain s) = Text.plain s) ∧
    ∀ (document : Value) (shared : Members) (settings : Settings) (n : String) (parameter : Value)
      (r t : Registry) (p : Parameter), settings.modelsModule = .text n → Text.isIdentifier n →
      r.Made → outcome (classify document shared settings parameter) r = (.ok p, t) →
      (∀ s, p.description = .text s → ∃ l, parameterDoc p = .ok l) ∧
        ∀ l, parameterDoc p = .ok l → Text.lines l = [l] := by
  constructor
  · intro s
    have hplain := Text.isPlain_plain s
    exact ⟨⟨_, Text.untagged_outsideTags s.toList, rfl⟩, hplain.no_tag, hplain.spaced,
      (Text.plain_eq_self_iff _).mpr hplain⟩
  · intro document shared settings n parameter r t p hmodels hn hr h
    obtain ⟨hgrows, hwritten⟩ := classify_yields parameter p t hr.wellFormed h
    exact lines_parameterDoc (classify_ok h).unbroken.1 (hwritten.unbroken hr hgrows hmodels hn)

def markedText : String := "Items <b>per\u2028page</b>,\n<i>at most</i> 100 <>."

def markedParameter : Value :=
  .mapping [(.text "name", .text "per-page"), (.text "in", .text "query"),
    (.text "description", .text markedText),
    (.text "schema", .mapping [(.text "type", .text "integer")])]

theorem plain_parameter_lines_marked : Text.isIdentifier "models" ∧ ({} : Registry).Made ∧ ∃ p t l,
    outcome (classify .empty [] .default markedParameter) {} = (.ok p, t) ∧
      p.description = .text markedText ∧ parameterDoc p = .ok l ∧
      l = "* `per_page: int` -- Items per page, at most 100 <>." ∧ Text.lines l = [l] ∧
      Text.plain (Text.plain markedText) = Text.plain markedText := by
  have hmodels : Text.isIdentifier "models" := by decide
  have hmade : ({} : Registry).Made := .refl
  have hread : (outcome (classify .empty [] .default markedParameter) {}).1.map
      (fun p => (p.description, (parameterDoc p).toOption)) = .ok
        (.text markedText, some "* `per_page: int` -- Items per page, at most 100 <>.") := by
    decide +kernel
  refine ⟨hmodels, hmade, ?_⟩
  cases hrun : outcome (classify .empty [] .default markedParameter) {} with
  | mk x t =>
    rw [hrun] at hread
    obtain ⟨p, rfl, hp⟩ := except_map_ok_iff.mp hread
    obtain ⟨hdescription, hshown⟩ := Prod.mk.inj hp
    obtain ⟨hdoc, hline⟩ := plain_parameter_lines.2 _ _ _ "models" _ _ _ _ rfl hmodels hmade hrun
    obtain ⟨l, hl⟩ := hdoc _ hdescription
    rw [hl] at hshown
    exact ⟨p, t, l, rfl, hdescription, hl, Option.some.inj hshown, hline l hl,
      (plain_parameter_lines.1 _).2.2.2⟩

/-! ## The documentation of methods -/

private theorem docsOf_parameters {declaration : Value} {method : HttpMethod} {path : String}
    {ps : List Parameter} {docs : MethodDocs} (h : docsOf declaration method path ps = .ok docs) :
    ps.mapM parameterDoc = .ok docs.parameters := by
  simp only [docsOf, except_bind_ok_iff, except_pure_ok_iff] at h
  obtain ⟨_, -, _, -, _, -, _, -, _, -, _, -, ls, hls, rfl⟩ := h
  exact hls

theorem suffix_docLines {docs : MethodDocs} (h : ∀ l ∈ docs.parameters, Text.lines l = [l]) :
    docs.parameters <:+ ClientMethod.docLines docs := by
  have hflat : docs.parameters.flatMap Text.lines = docs.parameters := by
    rw [List.flatMap_def, List.map_congr_left h]
    exact List.flatMap_singleton' _
  have hlast : docs.parameters <:+ if docs.parameters.isEmpty then []
      else ["", "**Parameters:**", ""] ++ docs.parameters.flatMap Text.lines := by
    rw [hflat]
    split
    · rename_i hnone
      exact List.isEmpty_iff.mp hnone ▸ List.suffix_refl _
    · exact List.suffix_append _ _
  exact hlast.trans (List.suffix_append _ _)

/-- The documentation of a method ends with one line about each parameter, in their order. -/
theorem docLines_parameters {n : String} (hmodels : settings.modelsModule = .text n)
    (hn : Text.isIdentifier n) (hr : r.Made)
    (h : outcome (build document shared settings o) r = (.ok m, t)) :
    ∃ ls, m.parameters.mapM parameterDoc = .ok ls ∧ ls <:+ ClientMethod.docLines m.docs := by
  obtain ⟨-, ⟨declared, s, s', hparameters⟩, hdocs⟩ := build_parts h
  have hlines := docsOf_parameters hdocs
  refine ⟨_, hlines, suffix_docLines fun l hl => ?_⟩
  obtain ⟨p, hp, hl⟩ := exists_mem_of_mapM_ok hlines hl
  obtain ⟨hgrows, hwritten⟩ := build_yields o m t hr.wellFormed h
  have hidentifier := ((classifyAll_ok hparameters).1 p hp).unbroken.1
  have htype := (hwritten.parameters p hp).unbroken hr hgrows hmodels hn
  exact (lines_parameterDoc hidentifier htype).2 l hl

end Operation

end OpenApiClient
