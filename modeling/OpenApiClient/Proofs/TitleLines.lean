import OpenApiClient.Package.Files
import OpenApiClient.Proofs.LineBreaks
import OpenApiClient.Proofs.RegistryRuns
import OpenApiClient.Proofs.SharedIdentifiers
import OpenApiClient.Proofs.SpacedTexts
import OpenApiClient.Proofs.TableKeys
import Mathlib.Data.List.Infix

/-! # Titles in comments and literals

The title of a document stands in the comment that every module starts with, and in the documentation
of the package. The text of the title is put on one line before, and the version is not: a line break
within the version ends the comment. Triple quotes stay in both. -/
namespace OpenApiClient

namespace Text

variable {needle cs ds before after : List Char} {c : Char}

/-! ## Texts within others -/

private theorem eq_nil_of_infix (h : ∀ c ∈ cs, c ∉ needle) (hfound : needle <:+: cs) : needle = [] := by
  apply List.eq_nil_iff_forall_not_mem.mpr
  intro c hc
  exact h c (hfound.subset hc) hc

private theorem eq_nil_of_prefix_cons (h : c ∉ needle) (hstart : needle <+: c :: ds) : needle = [] := by
  rcases List.prefix_cons_iff.mp hstart with hnil | ⟨rest, rfl, -⟩
  · exact hnil
  · exact absurd List.mem_cons_self h

theorem infix_append_cons_iff (h : c ∉ needle) :
    needle <:+: cs ++ c :: ds ↔ needle <:+: cs ∨ needle <:+: ds := by
  constructor
  · intro hfound
    rcases List.infix_append_iff.mp hfound with hcs | hds | ⟨front, back, rfl, hfront, hback⟩
    · exact .inl hcs
    · rcases List.infix_cons_iff.mp hds with hstart | hds
      · exact .inl (eq_nil_of_prefix_cons h hstart ▸ List.nil_infix)
      · exact .inr hds
    · have hnil : back = [] :=
        eq_nil_of_prefix_cons (fun hc => h (List.mem_append_right front hc)) hback
      rw [hnil, List.append_nil]
      exact .inl hfront.isInfix
  · rintro (hcs | hds)
    · exact hcs.trans (List.prefix_append _ _).isInfix
    · exact hds.trans ((List.suffix_cons c ds).trans (List.suffix_append _ _)).isInfix

theorem infix_padded_iff (hbefore : ∀ c ∈ before, c ∉ needle) (hafter : ∀ c ∈ after, c ∉ needle) :
    needle <:+: before ++ (cs ++ after) ↔ needle <:+: cs := by
  have hnil : ∀ {ds}, (∀ c ∈ ds, c ∉ needle) → needle <:+: ds → needle <:+: cs :=
    fun h hfound => eq_nil_of_infix h hfound ▸ List.nil_infix
  have hback : needle <:+: cs ++ after ↔ needle <:+: cs := by
    cases after with
    | nil => rw [List.append_nil]
    | cons c after =>
      obtain ⟨hc, hafter⟩ := List.forall_mem_cons.mp hafter
      rw [infix_append_cons_iff hc]
      exact or_iff_left_of_imp (hnil hafter)
  rcases List.eq_nil_or_concat before with rfl | ⟨before, c, rfl⟩
  · exact hback
  · rw [List.concat_eq_append] at hbefore ⊢
    obtain ⟨hbefore, hc⟩ := List.forall_mem_append.mp hbefore
    rw [List.append_assoc, List.singleton_append, infix_append_cons_iff (hc c (by simp)), hback]
    exact or_iff_right_of_imp (hnil hbefore)

def triple : List Char := ['"', '"', '"']

def HasTriple (s : String) : Prop := triple <:+: s.toList

instance (s : String) : Decidable (HasTriple s) := inferInstanceAs (Decidable (_ <:+: _))

private theorem not_mem_triple_of_isBlank (h : isBlank c = true) : c ∉ triple := by
  intro hc
  obtain rfl : c = '"' := by simpa [triple] using hc
  revert h
  decide

/-! ## White space at the ends -/

theorem exists_trimmed (p : Char → Bool) (cs : List Char) : ∃ before after,
    cs = before ++ (trim p cs ++ after) ∧ (∀ c ∈ before, p c) ∧ ∀ c ∈ after, p c := by
  refine ⟨cs.takeWhile p, (cs.dropWhile p).rtakeWhile p, ?_, fun c => List.mem_takeWhile_imp,
    fun c => List.mem_rtakeWhile_imp⟩
  rw [trim_eq_rdropWhile, List.rdropWhile_append_rtakeWhile, List.takeWhile_append_dropWhile]

theorem hasTriple_strip_iff (s : String) : HasTriple (strip s) ↔ HasTriple s := by
  obtain ⟨before, after, hs, hbefore, hafter⟩ := exists_trimmed isBlank s.toList
  rw [HasTriple, HasTriple, strip, String.toList_ofList, hs, infix_padded_iff, ← hs]
  · exact fun c hc => not_mem_triple_of_isBlank (hbefore c hc)
  · exact fun c hc => not_mem_triple_of_isBlank (hafter c hc)

private theorem isLineBreak_of_not_isBlank (h : isBlank c = false) : isLineBreak c = false :=
  isLineBreak_eq_false_of (p := fun c => !isBlank c) (by decide) (by simpa using h)

/-! ## A text on one line -/

theorem unbroken_singleSpaced (s : String) : Unbroken (singleSpaced s) := by
  intro c hc
  cases hblank : isBlank c with
  | true => rw [(spaced_singleSpaced s).spaces c hc hblank]; decide
  | false => exact isLineBreak_of_not_isBlank hblank

private theorem rdropWhile_append (p : Char → Bool) (cs ds : List Char) : (cs ++ ds).rdropWhile p =
    if ds.rdropWhile p = [] then cs.rdropWhile p else cs ++ ds.rdropWhile p := by
  simp only [List.rdropWhile, List.reverse_append, List.dropWhile_append, List.isEmpty_iff,
    List.reverse_eq_nil_iff]
  split <;> simp

/-- What follows a text on one line and a space is stripped as it is, or its end alone where the text
has characters. -/
def shownBehind (name version : String) : String :=
  if name = "" then strip version else Package.stripEnd version

private theorem unbroken_shownBehind {version : String} (h : Unbroken version) (name : String) :
    Unbroken (shownBehind name version) := by
  unfold shownBehind
  split
  · rw [strip, unbroken_ofList]
    obtain ⟨before, after, heq, -, -⟩ := exists_trimmed isBlank version.toList
    intro c hc
    apply h
    rw [heq]
    exact List.mem_append_right _ (List.mem_append_left _ hc)
  · rw [Package.stripEnd, unbroken_ofList]
    exact fun c hc => h c ((List.rdropWhile_prefix _ _).subset hc)

/-- The line breaks of a stripped text come of what stands behind the first space. -/
theorem unbroken_strip_iff (s version : String) :
    Unbroken (strip (singleSpaced s ++ " " ++ version)) ↔
      Unbroken (shownBehind (singleSpaced s) version) := by
  have hname := unbroken_singleSpaced s
  have hhead := (spaced_singleSpaced s).start
  generalize singleSpaced s = name at hname hhead ⊢
  have hspace : isBlank ' ' := rfl
  unfold shownBehind
  split
  · rename_i hempty
    rw [hempty, strip, strip, trim]
    simp [hspace, trim]
  · rename_i hne
    obtain ⟨c, rest, hc⟩ := List.exists_cons_of_ne_nil (mt String.toList_eq_nil_iff.mp hne)
    have hfirst : isBlank c = false := hhead c (by simp [hc])
    have hstrip : strip (name ++ " " ++ version) = Package.stripEnd (name ++ " " ++ version) := by
      rw [strip, trim_eq_rdropWhile, Package.stripEnd]
      simp [hc, hfirst]
    have hchars : (name ++ " " ++ version).toList = (name.toList ++ [' ']) ++ version.toList := by
      simp
    rw [hstrip, Package.stripEnd, Package.stripEnd, hchars, rdropWhile_append]
    split
    · -- Nothing is left of the version, and nothing but the text before it can be left.
      rename_i hnil
      have hkept : Unbroken (String.ofList ((name.toList ++ [' ']).rdropWhile isBlank)) := by
        rw [List.rdropWhile_concat_pos _ _ _ hspace, unbroken_ofList]
        exact fun c hc => hname c ((List.rdropWhile_prefix _ _).subset hc)
      simp [hnil, hkept, show Unbroken "" by decide]
    · have hname : ∀ c ∈ name.toList ++ [' '], isLineBreak c = false :=
        List.forall_mem_append.mpr ⟨hname, List.forall_mem_singleton.mpr (by decide)⟩
      rw [unbroken_ofList, List.forall_mem_append, unbroken_ofList]
      exact and_iff_right hname

end Text

namespace Package

open Text (HasTriple)

variable {document : Value} {t : String}

/-! ## The title -/

/-- What the title of a document is made of: the text of the title on one line, and the version. -/
def titleParts (document : Value) : Except Fault (String × Value) := do
  let info := (← document.get "info").orEmpty
  let name := Text.singleSpaced ((← info.get? "title").getD (.text "")).display
  return (name, ← info.get "version")

def titleOf (name : String) (version : Value) : String :=
  if version.isTruthy then Text.strip (name ++ " " ++ version.display) else name

private theorem title_ok (h : title document = .ok t) : ∃ s version,
    titleParts document = .ok (Text.singleSpaced s, version) ∧
      t = titleOf (Text.singleSpaced s) version := by
  simp only [title, except_bind_ok_iff] at h
  obtain ⟨info, hinfo, name, hname, version, hversion, h⟩ := h
  refine ⟨(name.getD (.text "")).display, version, ?_, ?_⟩
  · simp only [titleParts, except_bind_ok_iff]
    exact ⟨info, hinfo, name, hname, version, hversion, rfl⟩
  · unfold titleOf
    split at h <;> simp_all [except_pure_ok_iff]

/-- Only a version that is a text can bring in a line break. -/
theorem unbroken_titleOf_iff (s : String) (version : Value) :
    Text.Unbroken (titleOf (Text.singleSpaced s) version) ↔
      ∀ v, version = .text v → Text.Unbroken (Text.shownBehind (Text.singleSpaced s) v) := by
  have hname := Text.unbroken_singleSpaced s
  by_cases htext : ∃ v, version = .text v
  · obtain ⟨v, rfl⟩ := htext
    have hv : (∀ w, Value.text v = .text w →
        Text.Unbroken (Text.shownBehind (Text.singleSpaced s) w)) ↔
        Text.Unbroken (Text.shownBehind (Text.singleSpaced s) v) := by
      simp [Value.text]
    rw [hv, titleOf]
    split
    · exact Text.unbroken_strip_iff s v
    · rename_i hempty
      obtain rfl : v = "" := by simpa [Value.isTruthy, Scalar.isTruthy] using hempty
      exact iff_of_true hname (Text.unbroken_shownBehind (by decide) _)
  · have hdisplay : Text.Unbroken version.display :=
      Value.unbroken_display fun v hv => htext ⟨v, hv⟩
    refine iff_of_true ?_ fun v hv => absurd ⟨v, hv⟩ htext
    unfold titleOf
    split
    · exact (Text.unbroken_strip_iff s version.display).mpr (Text.unbroken_shownBehind hdisplay _)
    · exact hname

theorem hasTriple_titleOf_iff (name : String) (version : Value) :
    HasTriple (titleOf name version) ↔
      HasTriple name ∨ version.isTruthy ∧ HasTriple version.display := by
  have hchars : (name ++ " " ++ version.display).toList =
      name.toList ++ ' ' :: version.display.toList := by simp
  unfold titleOf
  split
  · rename_i htruthy
    rw [Text.hasTriple_strip_iff, HasTriple, hchars, Text.infix_append_cons_iff (by decide)]
    simp [HasTriple, htruthy]
  · rename_i htruthy
    simp [htruthy]

/-! ## The first line of a module -/

def headerLine (title : String) : String :=
  "# Code generated by clientgen" ++ (if title = "" then "" else " from " ++ title) ++
    ". DO NOT EDIT."

private theorem banner_eq (title : String) : banner title = headerLine title ++ "\n" := by
  have hend : ". DO NOT EDIT.\n" = ". DO NOT EDIT." ++ "\n" := rfl
  unfold banner headerLine
  generalize (if title = "" then "" else " from " ++ title) = source
  exact (congrArg _ hend).trans String.append_assoc.symm

theorem unbroken_headerLine_iff (title : String) :
    Text.Unbroken (headerLine title) ↔ Text.Unbroken title := by
  have hstart : Text.Unbroken "# Code generated by clientgen" := by decide
  have hend : Text.Unbroken ". DO NOT EDIT." := by decide
  have hsource : Text.Unbroken (if title = "" then "" else " from " ++ title) ↔
      Text.Unbroken title := by
    split
    · rename_i hempty
      rw [hempty]
    · exact Text.unbroken_append.trans (and_iff_right (by decide))
  unfold headerLine
  generalize (if title = "" then "" else " from " ++ title) = source at hsource ⊢
  rw [Text.unbroken_append, Text.unbroken_append, and_iff_right hstart, and_iff_left hend, hsource]

/-- The comment is the whole first line exactly where the title holds no line break. -/
theorem head?_lines_banner (title rest : String) :
    (Text.lines (banner title ++ rest)).head? = some (headerLine title) ↔
      Text.Unbroken title := by
  rw [banner_eq, Text.head?_lines_iff, unbroken_headerLine_iff]
  exact Text.endsPlain_append _ ⟨'.', rfl, rfl⟩

/-! ## The documentation of the package -/

/-- What stands behind the triple quotes that end a literal. A backslash takes the character behind it
along. -/
def behindTriple : List Char → Option (List Char)
  | '"' :: '"' :: '"' :: rest => some rest
  | '\\' :: _ :: rest => behindTriple rest
  | _ :: rest => behindTriple rest
  | [] => none

theorem behindTriple_append {cs : List Char} (h : ¬ Text.triple <:+: cs) (rest : List Char) :
    behindTriple (cs ++ '.' :: (Text.triple ++ rest)) = some rest := by
  induction cs using behindTriple.induct with
  | case1 more => exact absurd (List.prefix_append _ more).isInfix h
  | case2 c more ih =>
    rw [List.cons_append, List.cons_append, behindTriple]
    exact ih fun hmore => h (List.infix_cons (List.infix_cons hmore))
  | case3 c more hquotes hslash ih =>
    by_cases hlast : c = '\\' ∧ more = []
    · -- A backslash at the end takes the full stop along.
      rw [hlast.1, hlast.2]
      rfl
    · rw [List.cons_append, behindTriple.eq_3]
      · exact ih fun hmore => h (List.infix_cons hmore)
      · intro left hc heq
        rcases more with _ | ⟨d, _ | ⟨e, more⟩⟩
        · cases heq
        · cases heq
        · obtain ⟨hd, heq⟩ := List.cons.inj heq
          obtain ⟨he, -⟩ := List.cons.inj heq
          exact hquotes more hc (by rw [hd, he])
      · intro d left hc heq
        cases more with
        | nil => exact hlast ⟨hc, rfl⟩
        | cons d more => exact hslash d more hc rfl
  | case4 => rfl

def docText (title : String) : String :=
  "Generated API client" ++ (if title = "" then "" else " for " ++ title) ++ "."

/-- A title without triple quotes leaves the documentation of the package one literal. -/
theorem behindTriple_docText (h : ¬ HasTriple t) (rest : String) :
    behindTriple (docText t ++ ("\"\"\"" ++ rest)).toList = some rest.toList := by
  have hsubject :
      ¬ HasTriple ("Generated API client" ++ if t = "" then "" else " for " ++ t) := by
    split
    · decide
    · have hchars : ("Generated API client" ++ (" for " ++ t)).toList =
          "Generated API client for".toList ++ ' ' :: t.toList := by simp
      rw [HasTriple, hchars, Text.infix_append_cons_iff (by decide)]
      exact not_or_intro (by decide) h
  have hchars : ("." ++ ("\"\"\"" ++ rest)).toList = '.' :: (Text.triple ++ rest.toList) := by
    simp [Text.triple]
  unfold docText
  generalize "Generated API client" ++ (if t = "" then "" else " for " ++ t) = subject at hsubject ⊢
  rw [String.append_assoc, String.toList_append, hchars]
  exact behindTriple_append hsubject rest.toList

theorem packageText_eq (title : String) (modelsModule : Value) (groups : List TagGroup) :
    ∃ rest, packageText title modelsModule groups =
      banner title ++ ("\"\"\"" ++ (docText title ++ ("\"\"\"" ++ rest))) := by
  unfold packageText docText
  generalize banner title = start
  generalize (if title = "" then "" else " for " ++ title) = subject
  simp only [String.append_assoc]
  have hparts : ∀ more, start ++ ("\"\"\"Generated API client" ++ (subject ++ (".\"\"\"\n" ++ more))) =
      start ++ ("\"\"\"" ++ ("Generated API client" ++ (subject ++ ("." ++
        ("\"\"\"" ++ ("\n" ++ more)))))) := by
    intro more
    apply String.toList_injective
    simp
  exact ⟨_, hparts _⟩

/-! ## The modules -/

private theorem groupModule_eq (title : String) (modelsModule : Value) (group : TagGroup) :
    ∃ rest, groupModule title modelsModule group = banner title ++ rest := by
  unfold groupModule
  generalize banner title = start
  simp only [String.append_assoc]
  exact ⟨_, rfl⟩

private theorem modelsText_eq (title : String) (models : List Schema.Model) :
    ∃ rest, modelsText title models = banner title ++ rest := by
  unfold modelsText
  generalize banner title = start
  simp only [String.append_assoc]
  exact ⟨_, rfl⟩

section Modules
open Operation Schema Schema.RegistryM

variable {settings : Settings} {r r' : Registry} {modules : Table Scalar String}

/-- Every module starts with the comment of the title, and the package module has its documentation
behind it. -/
theorem files_texts (h : outcome (files document settings) r = (.ok modules, r'))
    (ht : title document = .ok t) :
    (∀ e ∈ modules, ∃ rest, e.2 = banner t ++ rest) ∧
      ∃ groups, (.text packageModule, packageText t settings.modelsModule groups) ∈ modules := by
  obtain ⟨built, title, texts, models, -, htitle, -, -, rfl⟩ := files_parts h
  obtain rfl : title = t := Except.ok.inj (htitle.symm.trans ht)
  constructor
  · intro e he
    have he := Table.mem_ofList he
    simp only [List.mem_append, List.mem_map, List.mem_cons, List.not_mem_nil, or_false] at he
    rcases he with ⟨group, -, rfl⟩ | rfl | rfl
    · exact groupModule_eq title _ group
    · exact modelsText_eq title _
    · obtain ⟨rest, hrest⟩ := packageText_eq title settings.modelsModule built
      exact ⟨_, hrest⟩
  · refine ⟨built, ?_⟩
    rw [List.append_cons]
    exact Table.mem_ofList_concat _ _

/-- The title holds a line break exactly where the version is a text with one that is not stripped,
and triple quotes exactly where its parts hold them. The comment that every module starts with is the
first line exactly where the title holds no line break. The literal of the documentation of the package
ends where it is meant to if the title holds no triple quotes. -/
theorem title_contained (h : title document = .ok t) :
    ∃ name version, titleParts document = .ok (name, version) ∧
      (Text.Unbroken t ↔ ∀ v, version = .text v → Text.Unbroken (Text.shownBehind name v)) ∧
      (HasTriple t ↔ HasTriple name ∨ version.isTruthy ∧ HasTriple version.display) ∧
      ∀ {settings r r' modules}, outcome (files document settings) r = (.ok modules, r') →
        (∀ e ∈ modules, (Text.lines e.2).head? = some (headerLine t) ↔ Text.Unbroken t) ∧
        ∃ rest, (.text packageModule,
            banner t ++ ("\"\"\"" ++ (docText t ++ ("\"\"\"" ++ rest)))) ∈ modules ∧
          (¬ HasTriple t →
            behindTriple (docText t ++ ("\"\"\"" ++ rest)).toList = some rest.toList) := by
  obtain ⟨s, version, hparts, ht⟩ := title_ok h
  refine ⟨_, version, hparts, ht ▸ unbroken_titleOf_iff s version,
    ht ▸ hasTriple_titleOf_iff _ version, fun hfiles => ?_⟩
  obtain ⟨hmodules, groups, hpackage⟩ := files_texts hfiles h
  obtain ⟨rest, hrest⟩ := packageText_eq t _ groups
  refine ⟨fun e he => ?_, rest, hrest ▸ hpackage, fun hquotes => ?_⟩
  · obtain ⟨left, hleft⟩ := hmodules e he
    rw [hleft]
    exact head?_lines_banner t left
  · exact behindTriple_docText hquotes rest

def petsDocument : Value :=
  .mapping [(.text "info", .mapping [(.text "title", .text "Pets"), (.text "version", .text "1.0")])]

theorem title_contained_pets : title petsDocument = .ok "Pets 1.0" ∧ Text.Unbroken "Pets 1.0" ∧
    ¬ HasTriple "Pets 1.0" := by
  have htitle : title petsDocument = .ok "Pets 1.0" := by decide
  obtain ⟨name, version, hparts, hbreaks, hquotes, -⟩ := title_contained htitle
  obtain ⟨rfl, rfl⟩ : name = "Pets" ∧ version = .text "1.0" := by
    have hpets : titleParts petsDocument = .ok ("Pets", .text "1.0") := by decide
    rw [hpets] at hparts
    simpa [eq_comm] using hparts
  refine ⟨htitle, hbreaks.mpr ?_, hquotes.not.mpr (by decide)⟩
  rintro v hv
  obtain rfl : "1.0" = v := by simpa [Value.text] using hv
  decide

/-- A version of two lines brings its line break into the title, and quotes stay in the text of the
title. -/
theorem not_always_contained :
    (¬ ∀ (document : Value) (t : String), title document = .ok t → Text.Unbroken t) ∧
      ¬ ∀ (document : Value) (t : String), title document = .ok t → ¬ HasTriple t := by
  constructor
  · intro h
    have hbroken := h (.mapping [(.text "info", .mapping [(.text "title", .text "T"),
      (.text "version", .text "1\nimport os")])]) "T 1\nimport os" (by decide)
    revert hbroken
    decide
  · intro h
    have hquotes := h (.mapping [(.text "info", .mapping [(.text "title", .text "a\"\"\"b")])])
      "a\"\"\"b" (by decide)
    revert hquotes
    decide

end Modules

end Package

end OpenApiClient
