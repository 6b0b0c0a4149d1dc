import OpenApiClient.Package.Files
import OpenApiClient.Proofs.AddressReading
import OpenApiClient.Proofs.AnnotationGrammar
import OpenApiClient.Proofs.ModelNames
import OpenApiClient.Proofs.NormalizedText

/-! # The keys of records that are classes

A record is written as a class where all of its keys are identifiers. Behind a class line the keys are
read as names: in their normal form, and with the name of the class if they are private. As the entries
of a table they are read as literals, so the two ways to write a record declare the same keys exactly
where the keys are in normal form and none is private. -/
namespace OpenApiClient

namespace Schema

open Text (normalName isNameStart isNameContinue)
open Naming (isModelName isCapital)

/-- Whether a name is private to its class: it starts with two underscores and does not end with two. -/
def IsPrivate (name : String) : Prop :=
  Text.startsWith name "__" = true ∧ Text.endsWith name "__" = false

instance (name : String) : Decidable (IsPrivate name) := inferInstanceAs (Decidable (_ ∧ _))

/-- A name within a class. A private one gets the name of the class, without the underscores that this
starts with, unless these are all of it. -/
def mangled (className name : String) : String :=
  let owner := className.toList.dropWhile (· == '_')
  if IsPrivate name ∧ owner ≠ [] then "_" ++ String.ofList owner ++ name else name

def readClassKey (className line : String) : String :=
  let name := (line.toList.dropWhile (· == ' ')).takeWhile fun c => isNameStart c || isNameContinue c
  mangled className (normalName (String.ofList name))

def plainChar? : Text.Part → Option Char
  | .char c => some c
  | .field _ => none

/-- The key of an entry of a table, if it is a literal. -/
def readEntryKey (line : String) : Option String := do
  let (parts, _) ← Text.readLiteral (line.toList.dropWhile (· == ' '))
  return String.ofList (← parts.mapM plainChar?)

def ModelField.classLine (f : ModelField) : String := "    " ++ f.key.display ++ ": " ++ f.typeText

def ModelField.entryLine (f : ModelField) : String :=
  "        " ++ f.key.literal ++ ": " ++ f.typeText ++ ","

theorem modelText_class {m : Model} {fields : List ModelField} (h : m.form = .record fields true) :
    ∃ head, Package.modelText m =
      head ++ String.join (fields.map fun f => f.classLine ++ "\n") := by
  rw [Package.modelText, h]
  exact ⟨_, rfl⟩

theorem modelText_table {m : Model} {fields : List ModelField} (h : m.form = .record fields false) :
    ∃ head tail, Package.modelText m =
      head ++ String.join (fields.map fun f => f.entryLine ++ "\n") ++ tail := by
  have hline : ∀ f : ModelField, f.entryLine ++ "\n" =
      "        " ++ f.key.literal ++ ": " ++ f.typeText ++ ",\n" :=
    fun f => String.append_assoc
  simp only [hline]
  rw [Package.modelText, h]
  exact ⟨_, _, rfl⟩

/-! ## Names within a class -/

variable {className key : String}

theorem exists_of_isModelName (h : isModelName className) :
    ∃ first rest, className.toList = first :: rest ∧ isCapital first := by
  unfold isModelName at h
  cases hname : className.toList with
  | nil => simp [hname] at h
  | cons first rest =>
    rw [hname] at h
    exact ⟨first, rest, rfl, (Bool.and_eq_true_iff.mp h).1⟩

private theorem code_eq_of_ofNat_eq_underscore {n : Nat} (h : Char.ofNat n = '_') : n = 0x5f := by
  unfold Char.ofNat at h
  by_cases hvalid : n.isValidChar
  · rw [dif_pos hvalid] at h
    exact congrArg Char.toNat h
  · rw [dif_neg hvalid] at h
    cases h

theorem not_isPrivate_normalName {rest : String} (hclass : isModelName className)
    (hkey : key = "_" ++ className ++ rest) : ¬ IsPrivate (normalName key) := by
  obtain ⟨first, others, hname, hfirst⟩ := exists_of_isModelName hclass
  have hne : first ≠ '_' := by
    rintro rfl
    exact absurd hfirst (by decide)
  have hlow : first.toNat < 0xa0 := by
    have hascii := toNat_lt_of_isNameChar (c := first) (by simp [Naming.isNameChar, hfirst])
    omega
  have hcodes : key.toList.map Char.toNat =
      0x5f :: first.toNat :: (others ++ rest.toList).map Char.toNat := by
    simp [hkey, hname]
  obtain ⟨k, more, hnormal, hk⟩ :=
    Text.normalCodes_underscore hlow ((others ++ rest.toList).map Char.toNat)
  rintro ⟨hstart, -⟩
  have hsecond : Char.ofNat k = '_' := by
    have hchars : (normalName key).toList =
        Char.ofNat 0x5f :: Char.ofNat k :: more.map Char.ofNat := by
      rw [normalName, hcodes, hnormal, String.toList_ofList]
      rfl
    obtain ⟨left, hleft⟩ := List.isPrefixOf_iff_prefix.mp hstart
    rw [hchars] at hleft
    exact (List.cons.inj (List.cons.inj hleft).2).1.symm
  have hcode := code_eq_of_ofNat_eq_underscore hsecond
  rcases hk with rfl | hk
  · rw [Char.ofNat_toNat] at hsecond
    exact hne hsecond
  · omega

/-- Within a class a name is itself exactly if it is in normal form and not private. -/
theorem mangled_normalName_eq_iff (hclass : isModelName className) :
    mangled className (normalName key) = key ↔ ¬ IsPrivate key ∧ normalName key = key := by
  have howner : className.toList.dropWhile (· == '_') = className.toList ∧ className.toList ≠ [] := by
    obtain ⟨first, rest, hname, hfirst⟩ := exists_of_isModelName hclass
    have hne : first ≠ '_' := by
      rintro rfl
      exact absurd hfirst (by decide)
    simp [hname, hne]
  unfold mangled
  simp only [howner.1, String.ofList_toList]
  by_cases hprivate : IsPrivate (normalName key)
  · rw [if_pos ⟨hprivate, howner.2⟩]
    constructor
    · intro heq
      exact absurd hprivate (not_isPrivate_normalName hclass heq.symm)
    · rintro ⟨hkey, heq⟩
      rw [heq] at hprivate
      exact absurd hprivate hkey
  · rw [if_neg (mt And.left hprivate)]
    constructor
    · intro heq
      rw [heq] at hprivate
      exact ⟨hprivate, heq⟩
    · exact And.right

/-! ## Reading the two ways to write a field -/

theorem dropWhile_spaces {c : Char} (hc : c ≠ ' ') (spaces : List Char)
    (hspaces : spaces.all (· == ' ')) (rest : List Char) :
    (spaces ++ c :: rest).dropWhile (· == ' ') = c :: rest := by
  rw [List.dropWhile_append_of_pos (List.all_eq_true.mp hspaces)]
  exact List.dropWhile_cons_of_neg (by simpa using hc)

private theorem readClassKey_classLine {f : ModelField} (hkey : f.key = .text key)
    (hident : Text.isIdentifier key) :
    readClassKey className f.classLine = mangled className (normalName key) := by
  have hname := fun c hc => Text.isName_of_mem hident (c := c) hc
  have hchars : f.classLine.toList =
      "    ".toList ++ (key.toList ++ ':' :: ' ' :: f.typeText.toList) := by
    simp [ModelField.classLine, hkey, Scalar.display]
  have hstop : (key.toList ++ ':' :: ' ' :: f.typeText.toList).takeWhile
      (fun c => isNameStart c || isNameContinue c) = key.toList := by
    rw [List.takeWhile_append_of_pos fun c hc => by simpa using hname c hc]
    have hcolon : (isNameStart ':' || isNameContinue ':') = false := by decide
    simp [hcolon]
  obtain ⟨first, rest, hfirst⟩ : ∃ first rest, key.toList = first :: rest :=
    List.exists_cons_of_ne_nil (mt String.toList_eq_nil_iff.mp (Text.ne_empty_of_isIdentifier hident))
  have hne : first ≠ ' ' := by
    rintro rfl
    have hspace := hname ' ' (by simp [hfirst])
    revert hspace
    decide
  rw [hfirst] at hchars hstop
  rw [readClassKey, hchars, List.cons_append, dropWhile_spaces hne _ (by decide)]
  rw [List.cons_append] at hstop
  simp only [hstop, ← hfirst, String.ofList_toList]

private theorem mapM_plainChar? (cs : List Char) :
    (cs.map Text.Part.char).mapM plainChar? = some cs := by
  induction cs with
  | nil => rfl
  | cons c cs ih =>
    rw [List.map_cons, List.mapM_cons, ih]
    rfl

private theorem readEntryKey_entryLine {f : ModelField} (hkey : f.key = .text key) :
    readEntryKey f.entryLine = some key := by
  have hread := Text.readLiteral_quoted key (c := ':') (by decide)
    (' ' :: (f.typeText.toList ++ [',']))
  obtain ⟨quote, rest, hquoted, hquote⟩ :
      ∃ quote rest, (Text.quoted key).toList = quote :: rest ∧ quote ≠ ' ' := by
    rw [Text.quoted, String.toList_ofList]
    refine ⟨_, _, rfl, ?_⟩
    rcases Text.quoteFor_cases key.toList with hquote | hquote <;> rw [hquote] <;> decide
  have hchars : f.entryLine.toList = "        ".toList ++
      (quote :: rest ++ ':' :: ' ' :: (f.typeText.toList ++ [','])) := by
    rw [← hquoted]
    simp [ModelField.entryLine, hkey, Scalar.literal]
  rw [hquoted] at hread
  rw [readEntryKey, hchars, List.cons_append, dropWhile_spaces hquote _ (by decide), ← List.cons_append,
    hread]
  simp only [Option.bind_eq_bind, Option.bind_some, mapM_plainChar?]
  exact congrArg some String.ofList_toList

/-! ## The models of a registry -/

private theorem of_allClassKeys {keys : List Scalar} (h : allClassKeys keys = .ok true) :
    ∀ k ∈ keys, ∃ key, k = .text key ∧ Text.isIdentifier key ∧ key ∉ Naming.keywords := by
  induction keys with
  | nil => simp
  | cons k keys ih =>
    obtain ⟨isKey, hkey, h⟩ := except_bind_ok_iff.mp h
    cases isKey with
    | false => cases h
    | true =>
      refine List.forall_mem_cons.mpr ⟨?_, ih h⟩
      cases k with
      | text key =>
        have hboth : (Text.isIdentifier key && !Naming.keywords.contains key) = true :=
          Except.ok.inj hkey
        obtain ⟨hident, hkeyword⟩ := Bool.and_eq_true_iff.mp hboth
        exact ⟨key, rfl, hident, by simpa using hkeyword⟩
      | _ => cases hkey

private theorem Registry.key_modelField {r : Registry} {f : Field} {w : ModelField}
    (h : r.modelField f = .ok w) : w.key = f.key := by
  simp only [modelField, except_bind_ok_iff, except_pure_ok_iff] at h
  obtain ⟨_, -, _, -, rfl⟩ := h
  rfl

/-- A record that is written as a class has identifiers as its keys, and none is a keyword. -/
theorem Registry.classKeys_of_model? {r : Registry} {e : Entry} {m : Model} {fields : List ModelField}
    (h : r.model? e = .ok (some m)) (hform : m.form = .record fields true) :
    e.name = some m.name ∧ ∀ f ∈ fields, ∃ key, f.key = .text key ∧ Text.isIdentifier key ∧
      key ∉ Naming.keywords := by
  rw [model?] at h
  cases hname : e.name with
  | none => simp [hname] at h
  | some name =>
    simp only [hname, except_bind_ok_iff] at h
    obtain ⟨docs, -, h⟩ := h
    cases hbody : e.body with
    | object declared =>
      simp only [hbody, except_bind_ok_iff, except_pure_ok_iff, Option.some.injEq] at h
      obtain ⟨written, hwritten, classSyntax, hclass, _, rfl, rfl⟩ := h
      obtain ⟨rfl, rfl⟩ := ModelForm.record.inj hform
      refine ⟨rfl, fun f hf => ?_⟩
      obtain ⟨d, hd, hfield⟩ := exists_mem_of_mapM_ok hwritten hf
      rw [key_modelField hfield]
      exact of_allClassKeys hclass d.key (List.mem_map_of_mem hd)
    | enumeration values =>
      simp only [hbody, except_bind_ok_iff, except_pure_ok_iff, Option.some.injEq] at h
      obtain ⟨_, rfl, rfl⟩ := h
      cases hform
    | _ =>
      simp only [hbody, except_bind_ok_iff, except_pure_ok_iff, Option.some.injEq] at h
      obtain ⟨target, -, _, rfl, rfl⟩ := h
      cases hform

private theorem Registry.exists_of_mem_models {r : Registry} {models : List Model} {m : Model}
    (h : r.models = .ok models) (hm : m ∈ models) :
    ∃ e ∈ r.entries.toList, r.model? e = .ok (some m) := by
  obtain ⟨found, hfound, h⟩ := except_bind_ok_iff.mp h
  obtain rfl := except_pure_ok_iff.mp h
  obtain ⟨_, hmem, rfl⟩ := List.mem_filterMap.mp hm
  exact exists_mem_of_mapM_ok hfound hmem

/-- After all calls, successful or not, the keys of a model that is written as a class are read from
its lines as they are exactly where they are in normal form and not private to the class. As entries of
a table they are always read as they are, so the two ways to write the model declare the same keys
exactly where this holds of all of them. -/
theorem class_keys_agree_iff (document : Value) (calls : List Call) {models : List Model}
    (hmodels : (Registry.history document calls).models = .ok models) :
    ∀ m ∈ models, ∀ fields, m.form = .record fields true →
      (∃ head, Package.modelText m =
        head ++ String.join (fields.map fun f => f.classLine ++ "\n")) ∧
      (∃ head tail, Package.modelText { m with form := .record fields false } =
        head ++ String.join (fields.map fun f => f.entryLine ++ "\n") ++ tail) ∧
      (∀ f ∈ fields, ∃ key, f.key = .text key ∧ Text.isIdentifier key ∧ key ∉ Naming.keywords ∧
        readEntryKey f.entryLine = some key ∧
        readClassKey m.name f.classLine = mangled m.name (normalName key) ∧
        (readClassKey m.name f.classLine = key ↔ ¬ IsPrivate key ∧ normalName key = key)) ∧
      (fields.map (fun f => some (readClassKey m.name f.classLine)) =
          fields.map (fun f => readEntryKey f.entryLine) ↔
        ∀ f ∈ fields, ∀ key, f.key = .text key → ¬ IsPrivate key ∧ normalName key = key) := by
  intro m hm fields hform
  obtain ⟨e, he, hmodel⟩ := Registry.exists_of_mem_models hmodels hm
  obtain ⟨hname, hkeys⟩ := Registry.classKeys_of_model? hmodel hform
  have hclass : isModelName m.name := by
    have hdistinct := (history_steps document calls).distinct Registry.distinct_empty
    exact hdistinct.form m.name (List.mem_filterMap.mpr ⟨e, he, hname⟩)
  have hread : ∀ f ∈ fields, ∃ key, f.key = .text key ∧ Text.isIdentifier key ∧
      key ∉ Naming.keywords ∧ readEntryKey f.entryLine = some key ∧
      readClassKey m.name f.classLine = mangled m.name (normalName key) ∧
      (readClassKey m.name f.classLine = key ↔ ¬ IsPrivate key ∧ normalName key = key) := by
    intro f hf
    obtain ⟨key, hkey, hident, hkeyword⟩ := hkeys f hf
    have hline : readClassKey m.name f.classLine = mangled m.name (normalName key) :=
      readClassKey_classLine hkey hident
    refine ⟨key, hkey, hident, hkeyword, readEntryKey_entryLine hkey, hline, ?_⟩
    rw [hline]
    exact mangled_normalName_eq_iff hclass
  refine ⟨modelText_class hform, modelText_table rfl, hread, ?_⟩
  rw [List.map_inj_left]
  refine forall₂_congr fun f hf => ?_
  obtain ⟨key, hkey, -, -, hentry, -, hclassKey⟩ := hread f hf
  rw [hentry, Option.some_inj, hclassKey]
  simp [hkey]

def itemCall (key : String) : Call :=
  ⟨none, .mapping [(.text "type", .text "object"), (.text "title", .text "Item"),
    (.text "properties", .mapping [(.text key, .mapping [(.text "type", .text "string")])])], false, ""⟩

def itemModel (key : String) : Model :=
  ⟨"Item", "", .record [⟨.text key, "NotRequired[str]", ""⟩] true⟩

theorem class_keys_agree_item : ∃ models, (Registry.history .empty [itemCall "id"]).models = .ok models ∧
    ∃ m ∈ models, ∃ fields, m.form = .record fields true ∧ fields ≠ [] ∧
      fields.map (fun f => some (readClassKey m.name f.classLine)) =
        fields.map fun f => readEntryKey f.entryLine := by
  have hmodels : (Registry.history .empty [itemCall "id"]).models = .ok [itemModel "id"] := by
    decide
  have hkey : ¬ IsPrivate "id" ∧ normalName "id" = "id" := by decide
  obtain ⟨-, -, -, hagree⟩ :=
    class_keys_agree_iff .empty [itemCall "id"] hmodels _ List.mem_cons_self _ rfl
  refine ⟨_, hmodels, _, List.mem_cons_self, _, rfl, by simp, hagree.mpr fun f hf key hf' => ?_⟩
  obtain rfl := List.mem_singleton.mp hf
  obtain rfl : "id" = key := by simpa using hf'
  exact hkey

/-- A private key is read with the name of its class, and a ligature as the letters that it stands for. -/
theorem not_always_own_keys :
    (¬ ∀ (document : Value) (calls : List Call) (models : List Model),
      (Registry.history document calls).models = .ok models → ∀ m ∈ models, ∀ fields,
        m.form = .record fields true → ∀ f ∈ fields, ∀ key, f.key = .text key →
          readClassKey m.name f.classLine = key) ∧
    ¬ ∀ (document : Value) (calls : List Call) (models : List Model),
      (Registry.history document calls).models = .ok models → ∀ m ∈ models, ∀ fields,
        m.form = .record fields true → ∀ f ∈ fields, ∀ key, f.key = .text key → ¬ IsPrivate key →
          readClassKey m.name f.classLine = key := by
  constructor
  · intro h
    have hread := h .empty [itemCall "__id"] [itemModel "__id"] (by decide) _
      List.mem_cons_self _ rfl _ List.mem_cons_self "__id" rfl
    revert hread
    decide +kernel
  · intro h
    have hread := h .empty [itemCall "\ufb01"] [itemModel "\ufb01"] (by decide +kernel) _
      List.mem_cons_self _ rfl _ List.mem_cons_self "\ufb01" rfl (by decide)
    revert hread
    decide +kernel

end Schema

end OpenApiClient
