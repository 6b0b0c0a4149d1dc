import OpenApiClient.Proofs.AnnotationGrammar
import OpenApiClient.Proofs.ReadNames

/-! # References between models

In the models module a type is written as it is, from words that the module has, or as one literal,
if the name of a model is part of it. The search for such a name follows the writing: it does not
look into models, and all other types are made of types before them, so it comes to an end. -/
namespace OpenApiClient

/-! ## Code made of some words -/

namespace Code

def Token.isAmong (names : List String) : Token → Bool
  | .word w => names.contains (String.ofList w)
  | .literal => false
  | .mark _ => true

/-- Whether code has no literals and no words but some. -/
def MadeOf (names : List String) (code : List Char) : Prop :=
  ∀ piece ∈ tokens .between code, piece.isAmong names

instance (names : List String) (code : List Char) : Decidable (MadeOf names code) :=
  inferInstanceAs (Decidable (∀ piece ∈ tokens .between code, piece.isAmong names))

variable {names : List String} {word : String} {rest : List Char}

private theorem MadeOf.append_word (hword : IsWord word) (hmem : word ∈ names)
    (hend : rest.head?.all (!isWordPart ·)) (h : MadeOf names rest) :
    MadeOf names (word.toList ++ rest) := by
  rw [MadeOf, hword.tokens, tokens_word_end hend]
  refine List.forall_mem_cons.mpr ⟨?_, h⟩
  simpa [Token.isAmong] using hmem

private theorem MadeOf.cons_mark {c : Char}
    (hc : start c = ([.mark c], .between) ∨ start c = ([], .between))
    (h : MadeOf names rest) : MadeOf names (c :: rest) := by
  rw [MadeOf, tokens, Reader.step]
  rcases hc with hc | hc
  · rw [hc]
    exact List.forall_mem_cons.mpr ⟨rfl, h⟩
  · rw [hc]
    exact h

end Code

namespace Schema

open Code Naming

variable {r : Registry} {id : TypeId} {b : Body} {e : Entry} {a : TypeExpr} {text : String}

def builtinWords : List String := ["None", "bool", "bytes", "dict", "float", "int", "list", "str"]

/-- The words of types that are written without the name of a model: besides those that are built
in, that of any type, and those of dates and times. -/
def freeWords : List String := builtinWords ++ ["Any", "datetime", "date"]

private theorem isWord_freeWords : ∀ word ∈ freeWords, IsWord word := by
  have hall : freeWords.all fun word => !word.toList.isEmpty && word.toList.all isWordPart := by
    decide
  intro word hword
  have h := List.all_eq_true.mp hall word hword
  rw [Bool.and_eq_true, List.all_eq_true] at h
  exact ⟨by simpa using h.1, h.2⟩

private theorem typeWords_cases : ∀ word ∈ typeWords, word ∈ freeWords ∨
    ∃ last ∈ freeWords, word.toList = "datetime".toList ++ '.' :: last.toList := by decide

/-- What is written without the name of a model is made of the free words. -/
theorem TypeExpr.madeOf_text (h : a.IsSpelled View.owned.fronts) (hmodels : a.models = [])
    {rest : List Char} (hend : rest.head?.all (!isWordPart ·)) (hrest : MadeOf freeWords rest) :
    MadeOf freeWords ((a.text "").toList ++ rest) := by
  have hword : ∀ (word : String) {rest : List Char}, word ∈ freeWords →
      rest.head?.all (!isWordPart ·) → MadeOf freeWords rest →
      MadeOf freeWords (word.toList ++ rest) :=
    fun word _ hmem hend hrest => .append_word (isWord_freeWords word hmem) hmem hend hrest
  induction a generalizing rest with
  | word text =>
    rcases h with rfl | h
    · exact hrest
    · rcases typeWords_cases text h with hmem | ⟨last, hlast, htext⟩
      · exact hword text hmem hend hrest
      · rw [TypeExpr.text, htext, List.append_assoc]
        exact hword "datetime" (by decide) rfl
          (.cons_mark (.inl (by decide)) (hword last hlast hend hrest))
  | model name => cases hmodels
  | within front item ih =>
    have hitem : MadeOf freeWords ((item.text "").toList ++ (']' :: rest)) :=
      ih h.2 hmodels rfl (.cons_mark (.inl (by decide)) hrest)
    have htext : ((within front item).text "").toList ++ rest =
        front.toList ++ ((item.text "").toList ++ (']' :: rest)) := by
      simp [TypeExpr.text, String.toList_append]
    have hfront : front = "list[" ∨ front = "dict[str, " := by simpa [View.fronts] using h.1
    rw [htext]
    rcases hfront with rfl | rfl
    · exact hword "list" (by decide) rfl (.cons_mark (.inl (by decide)) hitem)
    · refine hword "dict" (by decide) rfl (.cons_mark (.inl (by decide)) ?_)
      refine hword "str" (by decide) rfl (.cons_mark (.inl (by decide)) ?_)
      exact .cons_mark (.inr (by decide)) hitem
  | quoted item => cases h
  | either first rest' ih ih' =>
    obtain ⟨hfirst, hrest'⟩ := List.append_eq_nil_iff.mp hmodels
    have htext : ((either first rest').text "").toList ++ rest =
        (first.text "").toList ++ (' ' :: '|' :: ' ' :: ((rest'.text "").toList ++ rest)) := by
      simp [TypeExpr.text, String.toList_append]
    rw [htext]
    exact ih h.1 hfirst rfl (.cons_mark (.inr (by decide)) (.cons_mark (.inl (by decide))
      (.cons_mark (.inr (by decide)) (ih' h.2 hrest' hend hrest))))

namespace Registry

/-- Whether the name of a model is written as part of a type. -/
inductive WritesModel (r : Registry) : TypeId → Prop
  | named {id : TypeId} {e : Entry} (he : r.entries[id]? = some e) (hname : e.name.isSome) :
      WritesModel r id
  | part {id i : TypeId} {e : Entry} (he : r.entries[id]? = some e) (hname : e.name = none)
      (hi : i ∈ e.body.children) (h : WritesModel r i) : WritesModel r id

/-- In a well formed registry the search for the name of a model looks into all the types in a type,
whatever their ids. -/
theorem WellFormed.mentionsModel_eq (h : r.WellFormed) (id : TypeId) :
    r.mentionsModel id =
      match r.entries[id]? with
      | none => false
      | some e => e.name.isSome || e.body.children.any r.mentionsModel := by
  rw [mentionsModel]
  cases he : r.entries[id]? with
  | none => rfl
  | some e =>
    cases hname : e.name with
    | some name => simp [hname]
    | none =>
      simp only [hname, Option.isSome_none, Bool.false_or]
      -- The guard that ends the search holds of all types in a type without a name.
      refine Bool.eq_iff_iff.mpr ?_
      simp only [List.any_eq_true]
      refine exists_congr fun i => and_congr_right fun hi => ?_
      rw [if_pos (h.older he hname i (children_subset_ids hi))]

theorem WellFormed.mentionsModel_iff (h : r.WellFormed) :
    r.mentionsModel id ↔ r.WritesModel id := by
  constructor
  · intro hmentions
    induction id using Nat.strongRecOn with
    | ind id ih =>
      rw [h.mentionsModel_eq] at hmentions
      cases he : r.entries[id]? with
      | none => simp [he] at hmentions
      | some e =>
        cases hname : e.name with
        | some name => exact .named he (by rw [hname]; rfl)
        | none =>
          simp only [he, hname, Option.isSome_none, Bool.false_or, List.any_eq_true] at hmentions
          obtain ⟨i, hi, hmentions⟩ := hmentions
          exact .part he hname hi (ih i (h.older he hname i (children_subset_ids hi)) hmentions)
  · intro hwrites
    induction hwrites with
    | named he hname =>
      rw [h.mentionsModel_eq, he]
      exact Bool.or_eq_true_iff.mpr (.inl hname)
    | part he hname hi _ ih =>
      rw [h.mentionsModel_eq, he]
      exact Bool.or_eq_true_iff.mpr (.inr (List.any_eq_true.mpr ⟨_, hi, ih⟩))

end Registry

/-! ## Definitions -/

/-- Whether a text refers to what is written of a type: by a literal if the name of a model is part
of it, and by itself, made of the free words, otherwise. -/
structure RefersForward (written : Except Fault String) (models : Prop) (text : String) :
    Prop where
  quoted : models → ∃ w, written = .ok w ∧ text = Text.quoted w
  plain : ¬ models → written = .ok text ∧ MadeOf freeWords text.toList

theorem RefersForward.of_forward {written : Except Fault String} {models : Prop}
    (hwritten : written = .ok (a.text "")) (hmodels : a.models.isEmpty ↔ ¬ models)
    (h : a.IsSpelled View.owned.fronts) : RefersForward written models (a.forward.text "") := by
  constructor
  · intro hyes
    refine ⟨_, hwritten, ?_⟩
    rw [TypeExpr.forward, if_neg fun hempty => hmodels.mp hempty hyes]
    rfl
  · intro hno
    have hempty := hmodels.mpr hno
    rw [TypeExpr.forward, if_pos hempty]
    refine ⟨hwritten, ?_⟩
    have hmade : MadeOf freeWords ((a.text "").toList ++ []) :=
      TypeExpr.madeOf_text h (List.isEmpty_iff.mp hempty) rfl (by decide)
    rwa [List.append_nil] at hmade

namespace Registry

/-- Whether a definition refers to other types forward: a record by its properties, those that may
be left out in brackets of their own, and a synonym by the type that it stands for. -/
inductive DefinesForward (r : Registry) (b : Body) : ModelForm → Prop
  | record {fields : List Field} {written : List ModelField} {classSyntax : Bool}
      (hbody : b = .object fields)
      (h : List.Forall₂ (fun f w => ∃ inner,
        w.typeText = (if f.required then inner else "NotRequired[" ++ inner ++ "]") ∧
          RefersForward (r.typeTextWith "" .owned f.type) (r.WritesModel f.type) inner)
        fields written) : DefinesForward r b (.record written classSyntax)
  | enumeration {values : List String} {members : List (String × String)}
      (hbody : b = .enumeration values) : DefinesForward r b (.enumeration members)
  | synonym {target : String}
      (h : RefersForward (b.typeText (r.typeTextWith "") .owned)
        (∃ i ∈ b.children, r.WritesModel i) target) : DefinesForward r b (.synonym target)

variable (h : r.WellFormed) (hdistinct : r.Distinct)
include h hdistinct

private theorem refersForward_bodyText (hneeds : b.needsName = false)
    (hids : ∀ i ∈ b.ids, i < r.entries.size) (htext : r.bodyText b = .ok text) :
    RefersForward (b.typeText (r.typeTextWith "") .owned) (∃ i ∈ b.children, r.WritesModel i)
      text := by
  obtain rfl := Except.ok.inj ((h.bodyText_typeExpr hneeds hids).symm.trans htext)
  refine .of_forward ?_ ?_ ?_
  · exact Body.typeText_typeExpr hneeds fun view i hi =>
      h.typeTextWith_typeExpr "" view (hids i (children_subset_ids hi))
  · rw [Body.models_typeExpr_isEmpty fun view i _ => r.models_isEmpty_eq view i]
    simp [h.mentionsModel_iff]
  · have hspelled : ∀ i, (r.typeExpr .owned i).IsSpelled View.owned.fronts :=
      hdistinct.isSpelled_typeExpr (List.Subset.refl _) (List.Subset.refl _)
    exact Body.isSpelled_typeExpr (List.Subset.refl _) (fun i _ => hspelled i)
      fun i _ => hspelled i

private theorem refersForward_forwardText (hid : id < r.entries.size)
    (htext : r.forwardText id = .ok text) :
    RefersForward (r.typeTextWith "" .owned id) (r.WritesModel id) text := by
  obtain rfl := Except.ok.inj ((h.forwardText_typeExpr hid).symm.trans htext)
  refine .of_forward (h.typeTextWith_typeExpr "" .owned hid) ?_
    (hdistinct.isSpelled_typeExpr (List.Subset.refl _) (List.Subset.refl _) id)
  rw [r.models_isEmpty_eq, ← h.mentionsModel_iff, Bool.not_eq_true', Bool.not_eq_true]

private theorem refersForward_modelField {f : Field} (hid : f.type < r.entries.size) {w : ModelField}
    (hw : r.modelField f = .ok w) : ∃ inner,
      w.typeText = (if f.required then inner else "NotRequired[" ++ inner ++ "]") ∧
        RefersForward (r.typeTextWith "" .owned f.type) (r.WritesModel f.type) inner := by
  simp only [modelField, except_bind_ok_iff, except_pure_ok_iff] at hw
  obtain ⟨inner, hinner, _, -, rfl⟩ := hw
  exact ⟨inner, rfl, refersForward_forwardText h hdistinct hid hinner⟩

theorem definesForward_of_model? (he : e ∈ r.entries.toList) {model : Model}
    (hmodel : r.model? e = .ok (some model)) :
    e.name = some model.name ∧ r.DefinesForward e.body model.form := by
  obtain ⟨id, hid⟩ := Array.mem_iff_getElem?.mp (Array.mem_toList_iff.mp he)
  have hids := h.ids hid
  rw [model?] at hmodel
  cases hname : e.name with
  | none => simp [hname] at hmodel
  | some name =>
    simp only [hname, except_bind_ok_iff] at hmodel
    obtain ⟨docs, -, hmodel⟩ := hmodel
    cases hbody : e.body with
    | object fields =>
      rw [hbody] at hids
      simp only [hbody, except_bind_ok_iff, except_pure_ok_iff, Option.some.injEq] at hmodel
      obtain ⟨written, hwritten, classSyntax, -, _, rfl, rfl⟩ := hmodel
      refine ⟨rfl, .record rfl ?_⟩
      have hfields : ∀ f ∈ fields, f.type < r.entries.size := fun f hf =>
        hids _ (List.mem_append_right _ (List.mem_map_of_mem hf))
      have hall := (List.forall₂_and_left _ _).mpr ⟨hfields, mapM_ok_iff_forall₂.mp hwritten⟩
      exact hall.imp fun f w hw => refersForward_modelField h hdistinct hw.1 hw.2
    | enumeration values =>
      simp only [hbody, except_bind_ok_iff, except_pure_ok_iff, Option.some.injEq] at hmodel
      obtain ⟨_, rfl, rfl⟩ := hmodel
      exact ⟨rfl, .enumeration rfl⟩
    | _ =>
      rw [hbody] at hids
      simp only [hbody, except_bind_ok_iff, except_pure_ok_iff, Option.some.injEq] at hmodel
      obtain ⟨target, htarget, _, rfl, rfl⟩ := hmodel
      exact ⟨rfl, .synonym (refersForward_bodyText h hdistinct rfl hids htarget)⟩

end Registry

/-- After all calls, successful or not, each definition refers to other types forward: what is
written of a type is quoted just where the name of a model is part of it, and else is made of words
that the models module has. The search for such a name finds it where there is one. It looks into all
types in a type without a name, and these are older ones, so that it ends. -/
theorem definitions_refer_forward (document : Value) (calls : List Call) :
    let r := Registry.history document calls
    (∀ e ∈ r.entries.toList, ∀ model, r.model? e = .ok (some model) →
        e.name = some model.name ∧ r.DefinesForward e.body model.form) ∧
      (∀ id, r.mentionsModel id ↔ r.WritesModel id) ∧
      (∀ id, r.mentionsModel id =
        match r.entries[id]? with
        | none => false
        | some e => e.name.isSome || e.body.children.any r.mentionsModel) ∧
      ∀ (id : TypeId) (e : Entry), r.entries[id]? = some e → e.name = none →
        ∀ i ∈ e.body.children, i < id := by
  intro r
  have h : r.WellFormed := history_wellFormed document calls
  have hdistinct : r.Distinct := (history_steps document calls).distinct Registry.distinct_empty
  refine ⟨fun e he model hmodel => Registry.definesForward_of_model? h hdistinct he hmodel,
    fun id => h.mentionsModel_iff, h.mentionsModel_eq, fun id e he hname i hi => ?_⟩
  exact h.older he hname i (Registry.children_subset_ids hi)

def nodeDocument : Value :=
  .mapping [(.text "Node", .mapping [
    (.text "type", .text "object"),
    (.text "properties", .mapping [
      (.text "next", .mapping [(.text "$ref", .text "#/Node")]),
      (.text "day", .mapping [(.text "type", .text "string"), (.text "format", .text "date")])]),
    (.text "required", .sequence [.text "day"])])]

def nodeEntry : Entry where
  body := .object [⟨.text "next", 0, false, .text ""⟩, ⟨.text "day", 1, true, .text ""⟩]
  name := some "Node"

def nodeCall : Call := ⟨none, .mapping [(.text "$ref", .text "#/Node")], false, ""⟩

private theorem entries_node : (Registry.history nodeDocument [nodeCall]).entries =
    #[nodeEntry, { body := .primitive .date }] := by rfl

/-- What is defined for nodes, in any registry that has them at its start. -/
theorem model?_node (hentries : r.entries = #[nodeEntry, { body := .primitive .date }]) :
    r.model? nodeEntry = .ok (some ⟨"Node", "", .record
      [⟨.text "next", "NotRequired['Node']", ""⟩, ⟨.text "day", "datetime.date", ""⟩] true⟩) := by
  have hnext : r.forwardText 0 = .ok "'Node'" := by
    have hentry : r.entry 0 = .ok nodeEntry := by
      rw [Registry.entry, hentries]
      rfl
    have hquoted : Text.quoted "Node" = "'Node'" := by decide
    rw [Registry.forwardText, hentry, ← hquoted]
    rfl
  have hday : r.forwardText 1 = .ok "datetime.date" := by
    have hentry : r.entry 1 = .ok { body := .primitive .date } := by
      rw [Registry.entry, hentries]
      rfl
    rw [Registry.forwardText, hentry]
    rfl
  have hclass : allClassKeys [.text "next", .text "day"] = .ok true := by decide
  have hblank : (Value.text "").stripped = .ok "" := rfl
  simp only [Registry.model?, nodeEntry, hblank, List.mapM_cons, List.mapM_nil,
    Registry.modelField, hnext, hday, List.map_cons, List.map_nil, hclass, bind, Except.bind, pure,
    Except.pure]
  rfl

theorem definitions_refer_forward_node :
    ∃ written, (Registry.history nodeDocument [nodeCall]).model? nodeEntry =
        .ok (some ⟨"Node", "", .record written true⟩) ∧
      written.map ModelField.typeText = ["NotRequired['Node']", "datetime.date"] ∧
      (Registry.history nodeDocument [nodeCall]).DefinesForward nodeEntry.body
        (.record written true) := by
  obtain ⟨hforward, -⟩ := definitions_refer_forward nodeDocument [nodeCall]
  have hmem : nodeEntry ∈ (Registry.history nodeDocument [nodeCall]).entries.toList := by
    rw [entries_node]
    exact List.mem_cons_self
  have hmodel := model?_node entries_node
  exact ⟨_, hmodel, rfl, (hforward nodeEntry hmem _ hmodel).2⟩

def dayCall : Call :=
  ⟨some "day", .mapping [(.text "type", .text "string"), (.text "format", .text "date")], false, ""⟩

/-- The type of dates is neither built in nor one of those that the models module binds itself. -/
theorem not_builtin_day :
    ∃ e ∈ (Registry.history .empty [dayCall]).entries.toList,
      (Registry.history .empty [dayCall]).model? e =
        .ok (some ⟨"Day", "", .synonym "datetime.date"⟩) ∧
      ¬ MadeOf (builtinWords ++ takenNames) "datetime.date".toList :=
  ⟨{ body := .primitive .date, name := some "Day" }, by decide, by decide, by decide⟩

end Schema

end OpenApiClient
