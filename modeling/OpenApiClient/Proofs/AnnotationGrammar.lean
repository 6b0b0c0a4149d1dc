import OpenApiClient.Proofs.TypeExprs
import Mathlib.Data.List.Chain

/-! # The grammar of annotations

An annotation is one part or several with bars between them. A part is a name, a name of a module,
or a container of an annotation. Since no part is empty, nothing that opens a place for a part is
followed at once by what closes it: such a gap tells a text that is no annotation. -/
namespace OpenApiClient.Schema

open Naming

variable {s t front : String} {cs : List Char} {c d : Char}

/-! ## The grammar -/

/-- What stands before the type that a container is of, in a view. -/
def View.fronts : View → List String
  | owned => ["list[", "dict[str, "]
  | accepted => ["Sequence[", "Mapping[str, "]

def containers : List String := View.owned.fronts ++ View.accepted.fronts

theorem View.fronts_subset (view : View) : view.fronts ⊆ containers := by
  cases view with
  | owned => exact List.subset_append_left _ _
  | accepted => exact List.subset_append_right _ _

inductive AnnotationForm
  | part
  | whole
  deriving DecidableEq

inductive Derives : AnnotationForm → String → Prop
  | name {s : String} (h : Text.isIdentifier s) : Derives .part s
  | qualified {m s : String} (hm : Text.isIdentifier m) (hs : Text.isIdentifier s) :
      Derives .part (m ++ "." ++ s)
  | within {front t : String} (hfront : front ∈ containers) (h : Derives .whole t) :
      Derives .part (front ++ t ++ "]")
  | single {s : String} (h : Derives .part s) : Derives .whole s
  | either {t s : String} (ht : Derives .whole t) (hs : Derives .part s) :
      Derives .whole (t ++ " | " ++ s)

/-- Whether a text is an annotation as a whole. -/
abbrev IsTypeText : String → Prop := Derives .whole

theorem Derives.bar {form : AnnotationForm} (hs : IsTypeText s) (ht : Derives form t) :
    form = .whole → IsTypeText (s ++ " | " ++ t) := by
  induction ht with
  | name h | qualified hm h | within hfront h => exact fun hform => by cases hform
  | single h => exact fun _ => .either hs h
  | @either t u ht hu ih =>
    intro _
    have hassoc : s ++ " | " ++ (t ++ " | " ++ u) = s ++ " | " ++ t ++ " | " ++ u := by
      simp only [String.append_assoc]
    exact hassoc ▸ .either (ih rfl) hu

/-! ## Gaps -/

def isOpening (c : Char) : Bool := c == '[' || c == ' '

def isClosing (c : Char) : Bool := c == ']' || c == ' '

abbrev NoGap (c d : Char) : Prop := ¬ (isOpening c ∧ isClosing d)

def Tight (s : String) : Prop := List.IsChain NoGap ('[' :: (s.toList ++ [']']))

instance (s : String) : Decidable (Tight s) := inferInstanceAs (Decidable (List.IsChain _ _))

theorem isChain_placed (hc : isOpening c) (hd : isClosing d) :
    List.IsChain NoGap (c :: (s.toList ++ [d])) ↔ Tight s := by
  rw [Tight]
  cases s.toList with
  | nil => simp [NoGap, hc, hd, show isOpening '[' by decide, show isClosing ']' by decide]
  | cons first rest =>
    simp only [List.cons_append, List.isChain_cons_cons, NoGap, hc, true_and]
    rw [← List.cons_append, ← List.cons_append, List.isChain_append, List.isChain_append]
    simp [hd, show isOpening '[' by decide, show isClosing ']' by decide]

private theorem containers_open : ∀ front ∈ containers,
    front.toList.getLast?.any isOpening ∧ List.IsChain NoGap ('[' :: front.toList) := by
  decide

theorem tight_within (hfront : front ∈ containers) : Tight (front ++ t ++ "]") ↔ Tight t := by
  obtain ⟨hlast, hchain⟩ := containers_open front hfront
  obtain ⟨c, hc, hopening⟩ := (Option.any_eq_true _ _).mp hlast
  obtain ⟨init, hinit⟩ := List.getLast?_eq_some_iff.mp hc
  have htext : '[' :: ((front ++ t ++ "]").toList ++ [']']) =
      ('[' :: init) ++ c :: (t.toList ++ ']' :: [']']) := by
    simp [String.toList_append, hinit]
  have hinner : List.IsChain NoGap (c :: (t.toList ++ ']' :: [']'])) ↔
      Tight t ∧ List.IsChain NoGap [']', ']'] := by
    rw [← List.cons_append, List.isChain_split, List.cons_append,
      isChain_placed hopening (by decide)]
  have hclosed : List.IsChain NoGap [']', ']'] := by decide
  rw [hinit, ← List.cons_append] at hchain
  rw [Tight, htext, List.isChain_split, hinner]
  exact ⟨fun h => h.2.1, fun h => ⟨hchain, h, hclosed⟩⟩

theorem tight_either : Tight (s ++ " | " ++ t) ↔ Tight s ∧ Tight t := by
  have htext : '[' :: ((s ++ " | " ++ t).toList ++ [']']) =
      ('[' :: s.toList) ++ ' ' :: '|' :: ' ' :: (t.toList ++ [']']) := by
    simp [String.toList_append]
  have hbar : NoGap ' ' '|' ∧ NoGap '|' ' ' := by decide
  rw [Tight, htext, List.isChain_split, List.cons_append, isChain_placed (by decide) (by decide),
    List.isChain_cons_cons, List.isChain_cons_cons, isChain_placed (by decide) (by decide)]
  exact ⟨fun h => ⟨h.1, h.2.2.2⟩, fun h => ⟨h.1, hbar.1, hbar.2, h.2⟩⟩

theorem not_tight_empty : ¬ Tight "" := by decide

theorem tight_of_plain (hne : s ≠ "") (h : ∀ c ∈ s.toList, ¬ isOpening c ∧ ¬ isClosing c) :
    Tight s := by
  have hchain : ∀ cs : List Char, (∀ c ∈ cs, ¬ isOpening c) → List.IsChain NoGap (cs ++ [']']) := by
    intro cs hcs
    induction cs with
    | nil => exact List.isChain_singleton _
    | cons first rest ih =>
      obtain ⟨hfirst, hrest⟩ := List.forall_mem_cons.mp hcs
      exact List.isChain_cons.mpr ⟨fun _ _ hgap => hfirst hgap.1, ih hrest⟩
  rw [Tight, List.isChain_cons]
  refine ⟨fun c hc hgap => ?_, hchain _ fun c hc => (h c hc).1⟩
  cases hs : s.toList with
  | nil => exact hne (String.toList_eq_nil_iff.mp hs)
  | cons first rest =>
    rw [hs] at h hc
    obtain rfl := Option.some.inj hc
    exact (h first List.mem_cons_self).2 hgap.2

theorem isIdentifier_plain (h : Text.isIdentifier s) :
    s ≠ "" ∧ ∀ c ∈ s.toList, ¬ isOpening c ∧ ¬ isClosing c := by
  refine ⟨Text.ne_empty_of_isIdentifier h, fun c hc => ?_⟩
  have hname := Text.isName_of_mem h hc
  simp only [isOpening, isClosing, Bool.or_eq_true, beq_iff_eq, not_or]
  refine ⟨⟨?_, ?_⟩, ?_, ?_⟩
  all_goals
    rintro rfl
    revert hname
    decide

/-- No text that the grammar derives has a gap. -/
theorem Derives.tight {form : AnnotationForm} (h : Derives form s) : Tight s := by
  induction h with
  | name h =>
    obtain ⟨hne, hplain⟩ := isIdentifier_plain h
    exact tight_of_plain hne hplain
  | @qualified m s hm hs =>
    obtain ⟨hne, hplain⟩ := isIdentifier_plain hs
    obtain ⟨-, hplain'⟩ := isIdentifier_plain hm
    refine tight_of_plain (by simp [hne]) fun c hc => ?_
    rw [String.toList_append, String.toList_append, List.mem_append, List.mem_append] at hc
    rcases hc with (hc | hc) | hc
    · exact hplain' c hc
    · obtain rfl := List.mem_singleton.mp hc
      decide
    · exact hplain c hc
  | within hfront _ ih => exact (tight_within hfront).mpr ih
  | single _ ih => exact ih
  | either _ _ ih ih' => exact tight_either.mpr ⟨ih, ih'⟩

theorem Derives.ne_empty {form : AnnotationForm} (h : Derives form s) : s ≠ "" := by
  rintro rfl
  exact not_tight_empty h.tight

/-! ## Texts of type expressions -/

def typeWords : List String :=
  ["Any", "str", "int", "float", "bool", "bytes", "datetime.date", "datetime.datetime", "None"]

private theorem derives_typeWords : ∀ word ∈ typeWords, Derives .part word := by
  simp only [typeWords, List.forall_mem_cons, List.not_mem_nil, false_implies, implies_true, and_true]
  have hdatetime : ∀ {s : String}, Text.isIdentifier s → Derives .part ("datetime" ++ "." ++ s) :=
    fun hs => .qualified (by decide) hs
  exact ⟨.name (by decide), .name (by decide), .name (by decide),
    .name (by decide), .name (by decide), .name (by decide),
    hdatetime (by decide : Text.isIdentifier "date"),
    hdatetime (by decide : Text.isIdentifier "datetime"), .name (by decide)⟩

theorem toNat_lt_of_isNameChar (h : isNameChar c) : c.toNat < 128 := by
  simp only [isNameChar, isCapital, isSmall, isPlainDigit, Bool.or_eq_true, Bool.and_eq_true,
    decide_eq_true_eq, Char.le_def, UInt32.le_iff_toNat_le] at h
  rcases h with (⟨-, h⟩ | ⟨-, h⟩) | ⟨-, h⟩
  · exact Nat.lt_of_le_of_lt h (by decide)
  · exact Nat.lt_of_le_of_lt h (by decide)
  · exact Nat.lt_of_le_of_lt h (by decide)

theorem isIdentifier_of_isModelName (h : isModelName s) : Text.isIdentifier s := by
  have hascii : ∀ n < 128, (isCapital (Char.ofNat n) → Text.isNameStart (Char.ofNat n)) ∧
      (isNameChar (Char.ofNat n) → Text.isNameContinue (Char.ofNat n)) := by decide
  have hchar : ∀ c, isNameChar c → (isCapital c → Text.isNameStart c) ∧ Text.isNameContinue c := by
    intro c hc
    have hc' := hascii c.toNat (toNat_lt_of_isNameChar hc)
    rw [Char.ofNat_toNat] at hc'
    exact ⟨hc'.1, hc'.2 hc⟩
  rw [isModelName] at h
  rw [Text.isIdentifier]
  cases hs : s.toList with
  | nil => simp [hs] at h
  | cons first rest =>
    simp only [hs, Bool.and_eq_true, List.all_eq_true] at h
    have hfirst : isNameChar first := by simp [isNameChar, h.1]
    rw [Text.isIdentifierChars, Bool.and_eq_true, List.all_eq_true]
    exact ⟨(hchar first hfirst).1 h.1, fun c hc => (hchar c (h.2 c hc)).2⟩

namespace TypeExpr

/-- Whether an expression is of the words that types are written with, models and some containers.
The empty word is written of a union without members. -/
def IsSpelled (fronts : List String) : TypeExpr → Prop
  | word text => text = "" ∨ text ∈ typeWords
  | model name => isModelName name
  | within front item => front ∈ fronts ∧ item.IsSpelled fronts
  | quoted _ => False
  | either first rest => first.IsSpelled fronts ∧ rest.IsSpelled fronts

def hasGap : TypeExpr → Bool
  | word text => text == ""
  | model _ => false
  | within _ item | quoted item => item.hasGap
  | either first rest => first.hasGap || rest.hasGap

variable {a : TypeExpr} {m : String}

/-- A text without gaps at which nothing is missing is an annotation, with models in their
module. -/
theorem derives_text (hm : Text.isIdentifier m) (h : a.IsSpelled containers)
    (hgap : a.hasGap = false) : IsTypeText (a.text (m ++ ".")) := by
  induction a with
  | word text =>
    have hne : text ≠ "" := by simpa [hasGap] using hgap
    exact .single (derives_typeWords text (h.resolve_left hne))
  | model name => exact .single (.qualified hm (isIdentifier_of_isModelName h))
  | within front item ih => exact .single (.within h.1 (ih h.2 hgap))
  | quoted item => cases h
  | either first rest ih ih' =>
    obtain ⟨hfirst, hrest⟩ := Bool.or_eq_false_iff.mp hgap
    exact (ih h.1 hfirst).bar (ih' h.2 hrest) rfl

/-- Where nothing is written at some place, the text has a gap. -/
theorem not_tight_text (q : String) (h : a.IsSpelled containers) (hgap : a.hasGap) :
    ¬ Tight (a.text q) := by
  induction a with
  | word text =>
    obtain rfl : text = "" := by simpa [hasGap] using hgap
    exact not_tight_empty
  | model name => cases hgap
  | within front item ih =>
    rw [text, tight_within h.1]
    exact ih h.2 hgap
  | quoted item => cases h
  | either first rest ih ih' =>
    rw [text, tight_either, not_and_or]
    exact (Bool.or_eq_true_iff.mp hgap).imp (ih h.1) (ih' h.2)

/-- What is written of a type is an annotation just where something is written at every place. -/
theorem isTypeText_text_iff (hm : Text.isIdentifier m) (h : a.IsSpelled containers) :
    IsTypeText (a.text (m ++ ".")) ↔ a.hasGap = false := by
  refine ⟨fun hwhole => ?_, derives_text hm h⟩
  rw [← Bool.not_eq_true]
  exact fun hgap => not_tight_text _ h hgap hwhole.tight

private theorem isSpelled_union {fronts : List String} {members : List TypeExpr}
    (h : ∀ a ∈ members, a.IsSpelled fronts) : (union members).IsSpelled fronts := by
  induction members with
  | nil => exact .inl rfl
  | cons first rest ih =>
    obtain ⟨hfirst, hrest⟩ := List.forall_mem_cons.mp h
    cases rest with
    | nil => exact hfirst
    | cons next rest => exact ⟨hfirst, ih hrest⟩

private theorem hasGap_union (members : List TypeExpr) :
    (union members).hasGap ↔ members = [] ∨ ∃ a ∈ members, a.hasGap := by
  induction members with
  | nil => simp [union, hasGap]
  | cons first rest ih =>
    cases rest with
    | nil => simp [union]
    | cons next rest =>
      rw [union, hasGap, Bool.or_eq_true, ih]
      simp

end TypeExpr

variable {r : Registry} {id : TypeId} {b : Body} {view : View} {child : View → TypeId → TypeExpr}
  {fronts : List String}

theorem Body.isSpelled_typeExpr (hview : view.fronts ⊆ fronts)
    (h : ∀ i ∈ b.children, (child view i).IsSpelled fronts)
    (howned : ∀ i ∈ b.children, (child .owned i).IsSpelled fronts) :
    (b.typeExpr child view).IsSpelled fronts := by
  cases b with
  | primitive p =>
    refine .inr ?_
    cases p <;> decide
  | array item =>
    refine ⟨hview ?_, howned item List.mem_cons_self⟩
    cases view <;> decide
  | map item =>
    refine ⟨hview ?_, howned item List.mem_cons_self⟩
    cases view <;> decide
  | optional item => exact ⟨h item List.mem_cons_self, .inr (by decide)⟩
  | synonym item => exact h item List.mem_cons_self
  | union members => exact TypeExpr.isSpelled_union (List.forall_mem_map.mpr h)
  | object fields => exact .inl rfl
  | enumeration values => exact .inl rfl

/-- Nothing is written at a place of a body that needs no name if it is a union without members, or
if this holds of a type in it. -/
theorem Body.hasGap_typeExpr (hneeds : b.needsName = false) {gap : TypeId → Prop}
    (h : ∀ view, ∀ i ∈ b.children, (child view i).hasGap ↔ gap i) :
    (b.typeExpr child view).hasGap ↔ b = .union [] ∨ ∃ i ∈ b.children, gap i := by
  cases b with
  | primitive p => cases p <;> simp [typeExpr, TypeExpr.hasGap, Primitive.typeText, children]
  | object fields => cases hneeds
  | enumeration values => cases hneeds
  | union members =>
    rw [typeExpr, TypeExpr.hasGap_union]
    simp only [List.map_eq_nil_iff, List.mem_map, exists_exists_and_eq_and, children,
      union.injEq]
    exact or_congr_right (exists_congr fun i => and_congr_right (h view i))
  | optional item =>
    have hitem := h view item List.mem_cons_self
    simpa [typeExpr, TypeExpr.hasGap, children] using hitem
  | synonym item =>
    have hitem := h view item List.mem_cons_self
    simpa [typeExpr, TypeExpr.hasGap, children] using hitem
  | array item | map item =>
    have hitem := h .owned item List.mem_cons_self
    simpa [typeExpr, TypeExpr.hasGap, children] using hitem

namespace Registry

/-- Whether a union without members is written as part of a type. Types with names are not looked
into. -/
inductive ShowsEmptyUnion (r : Registry) : TypeId → Prop
  | here {id : TypeId} {e : Entry} (he : r.entries[id]? = some e) (hname : e.name = none)
      (hbody : e.body = .union []) : ShowsEmptyUnion r id
  | part {id i : TypeId} {e : Entry} (he : r.entries[id]? = some e) (hname : e.name = none)
      (hi : i ∈ e.body.children) (h : ShowsEmptyUnion r i) : ShowsEmptyUnion r id

theorem showsEmptyUnion_iff {e : Entry} (he : r.entries[id]? = some e) :
    r.ShowsEmptyUnion id ↔ e.name = none ∧
      (e.body = .union [] ∨ ∃ i ∈ e.body.children, r.ShowsEmptyUnion i) := by
  constructor
  · rintro (⟨he', hname, hbody⟩ | ⟨he', hname, hi, h⟩)
    · obtain rfl := Option.some.inj (he.symm.trans he')
      exact ⟨hname, .inl hbody⟩
    · obtain rfl := Option.some.inj (he.symm.trans he')
      exact ⟨hname, .inr ⟨_, hi, h⟩⟩
  · rintro ⟨hname, hbody | ⟨i, hi, h⟩⟩
    · exact .here he hname hbody
    · exact .part he hname hi h

theorem Distinct.isSpelled_typeExpr (h : r.Distinct) (hview : view.fronts ⊆ fronts)
    (howned : View.owned.fronts ⊆ fronts) (id : TypeId) :
    (r.typeExpr view id).IsSpelled fronts := by
  induction id using Nat.strongRecOn generalizing view with
  | ind id ih =>
    rw [typeExpr]
    cases he : r.entries[id]? with
    | none => exact .inl rfl
    | some e =>
      cases hname : e.name with
      | some name =>
        have hmem : e ∈ r.entries.toList := Array.mem_toList_iff.mpr (Array.mem_of_getElem? he)
        simp only [hname]
        exact h.form name (List.mem_filterMap.mpr ⟨e, hmem, hname⟩)
      | none =>
        simp only [hname]
        have hchild : ∀ {view : View}, view.fronts ⊆ fronts → ∀ i : TypeId,
            (if i < id then r.typeExpr view i else .word "").IsSpelled fronts := by
          intro view hview i
          split
          · exact ih i ‹_› hview
          · exact .inl rfl
        exact Body.isSpelled_typeExpr hview (fun i _ => hchild hview i) fun i _ => hchild howned i

theorem WellFormed.hasGap_typeExpr (h : r.WellFormed) (view : View) (hid : id < r.entries.size) :
    (r.typeExpr view id).hasGap ↔ r.ShowsEmptyUnion id := by
  induction id using Nat.strongRecOn generalizing view with
  | ind id ih =>
    have he := Array.getElem?_eq_getElem hid
    rw [h.typeExpr_eq, he, showsEmptyUnion_iff he]
    dsimp only
    cases hname : r.entries[id].name with
    | some name => simp [TypeExpr.hasGap]
    | none =>
      simp only [Option.elim_none, true_and]
      refine Body.hasGap_typeExpr (h.needsName_eq_false he hname) fun view i hi => ?_
      have hlt := h.older he hname i (children_subset_ids hi)
      exact ih i hlt view (Nat.lt_trans hlt hid)

/-- A type is written as an annotation just where no union without members is part of it. -/
theorem WellFormed.isTypeText_typeText_iff (h : r.WellFormed) (hdistinct : r.Distinct)
    {m : String} (hm : Text.isIdentifier m) (view : View) (hid : id < r.entries.size) :
    ∃ text, r.typeText (.text m) view id = .ok text ∧
      (IsTypeText text ↔ ¬ r.ShowsEmptyUnion id) := by
  have hne := (isIdentifier_plain hm).1
  have hqualifier : qualifier (.text m) = m ++ "." := by
    rw [qualifier, if_pos (by simpa [Value.isTruthy, Scalar.isTruthy] using hne)]
    rfl
  refine ⟨_, h.typeTextWith_typeExpr _ view hid, ?_⟩
  rw [hqualifier, TypeExpr.isTypeText_text_iff hm
      (hdistinct.isSpelled_typeExpr view.fronts_subset View.owned.fronts_subset id),
    ← h.hasGap_typeExpr view hid, Bool.not_eq_true]

end Registry

end OpenApiClient.Schema
