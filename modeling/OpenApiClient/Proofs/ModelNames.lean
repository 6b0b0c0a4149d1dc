import OpenApiClient.Proofs.RegistrySteps
import Mathlib.Data.List.Nodup
import Std.Data.String.ToNat

/-! # The names of models

A name that is taken gets the first number that makes it another one. Each model name is handed out
once, so that no two models share one, and none is a name that the models module binds itself. -/
namespace OpenApiClient

/-- A name for the first time, and with a number from two on at every further time. -/
def numbered (base separator : String) : Nat → String
  | 0 => base
  | n + 1 => base ++ separator ++ toString (n + 2)

theorem numbered_injective {base separator : String} {m n : Nat}
    (h : numbered base separator (m + 1) = numbered base separator (n + 1)) : m = n := by
  have htexts := congrArg String.toList h
  simp only [numbered, String.toList_append] at htexts
  have hnumbers := Nat.repr_injective (String.toList_injective (List.append_cancel_left htexts))
  omega

theorem isDigit_of_mem_toString {n : Nat} {c : Char} (h : c ∈ (toString n).toList) : c.isDigit := by
  rw [Nat.toString_eq_ofList_toDigits, String.toList_ofList] at h
  exact Nat.isDigit_of_mem_toDigits (by decide) (by decide) h

/-- There are more numbers than names that are taken. -/
theorem exists_numbered_not_mem (taken : List String) (base separator : String) :
    ∃ i < taken.length + 1, numbered base separator (i + 1) ∉ taken := by
  -- Else all of these numbered names would be taken, and they are more than the names that are.
  by_contra hall
  push Not at hall
  have hnodup : ((List.range (taken.length + 1)).map fun i =>
      numbered base separator (i + 1)).Nodup :=
    List.nodup_range.map fun _ _ => numbered_injective
  have hsubset : ((List.range (taken.length + 1)).map fun i =>
      numbered base separator (i + 1)) ⊆ taken := by
    intro name hname
    obtain ⟨i, hi, rfl⟩ := List.mem_map.mp hname
    exact hall i (List.mem_range.mp hi)
  have hlength := hnodup.length_le_of_subset hsubset
  rw [List.length_map, List.length_range] at hlength
  exact Nat.lt_irrefl _ hlength

namespace Schema

open Registry

/-- The search for a free name ends, at the first one that is not taken. -/
theorem freeName_eq_numbered (taken : List String) (base separator : String) :
    ∃ n, freeName taken base separator = numbered base separator n ∧
      numbered base separator n ∉ taken ∧ ∀ m < n, numbered base separator m ∈ taken := by
  by_cases hbase : base ∈ taken
  · have hsome : ((List.range (taken.length + 1)).find? fun i =>
        decide (numbered base separator (i + 1) ∉ taken)).isSome := by
      obtain ⟨i, hi, hfree⟩ := exists_numbered_not_mem taken base separator
      exact List.find?_isSome.mpr ⟨i, List.mem_range.mpr hi, decide_eq_true hfree⟩
    obtain ⟨i, hfound⟩ := Option.isSome_iff_exists.mp hsome
    obtain ⟨hfree, -, hbefore⟩ := List.find?_range_eq_some.mp hfound
    refine ⟨i + 1, ?_, of_decide_eq_true hfree, fun m hm => ?_⟩
    · have hmap : ((List.range (taken.length + 1)).map fun i =>
          base ++ separator ++ toString (i + 2)).find? (· ∉ taken) =
            some (numbered base separator (i + 1)) := by
        rw [List.find?_map]
        exact congrArg (Option.map _) hfound
      simp only [freeName, if_pos hbase, hmap, Option.getD_some]
    · cases m with
      | zero => exact hbase
      | succ m => simpa using hbefore m (Nat.lt_of_succ_lt_succ hm)
  · exact ⟨0, if_neg hbase, hbase, fun m hm => absurd hm (Nat.not_lt_zero m)⟩

private theorem freeName_not_mem (taken : List String) (base separator : String) :
    freeName taken base separator ∉ taken := by
  obtain ⟨n, hn, hfree, -⟩ := freeName_eq_numbered taken base separator
  exact hn ▸ hfree

end Schema

namespace Naming

def isNameChar (c : Char) : Bool := isCapital c || isSmall c || isPlainDigit c

def isCapitalName (inside : Char → Bool) (name : String) : Bool :=
  match name.toList with
  | [] => false
  | first :: rest => isCapital first && rest.all inside

/-- Whether a text is a capital Latin letter with Latin letters and digits behind it. -/
def isModelName (name : String) : Bool :=
  match name.toList with
  | [] => false
  | first :: rest => isCapital first && rest.all isNameChar

theorem isCapitalName_append {inside : Char → Bool} {base suffix : String}
    (h : isCapitalName inside base) (hsuffix : suffix.toList.all inside) :
    isCapitalName inside (base ++ suffix) := by
  rw [isCapitalName, String.toList_append]
  rw [isCapitalName] at h
  cases hbase : base.toList with
  | nil => simp [hbase] at h
  | cons first rest => simp_all

theorem isCapitalName_numbered {inside : Char → Bool} {base separator : String}
    (h : isCapitalName inside base) (hseparator : separator.toList.all inside)
    (hdigit : ∀ c, isPlainDigit c → inside c) (n : Nat) :
    isCapitalName inside (numbered base separator n) := by
  cases n with
  | zero => exact h
  | succ n =>
    rw [numbered]
    refine isCapitalName_append (isCapitalName_append h hseparator) ?_
    refine List.all_eq_true.mpr fun c hc => hdigit c ?_
    simpa [Char.isDigit, isPlainDigit, Char.le_def] using isDigit_of_mem_toString hc

theorem val_toUpper {c : Char} (h : isSmall c) :
    c.toUpper.val = c.val + ('A'.val - 'a'.val) := by
  simp only [isSmall, Bool.and_eq_true, decide_eq_true_eq, Char.le_def] at h
  delta Char.toUpper
  rw [dif_pos h]

theorem isCapital_toUpper {c : Char} (h : isSmall c) : isCapital c.toUpper := by
  have hval := val_toUpper h
  simp only [isSmall, Bool.and_eq_true, decide_eq_true_eq, Char.le_def] at h
  simp only [isCapital, Bool.and_eq_true, decide_eq_true_eq, Char.le_def, hval]
  -- The capital is behind the small letter, so the difference wraps around.
  have hlow := UInt32.le_iff_toNat_le.mp h.1
  have hhigh := UInt32.le_iff_toNat_le.mp h.2
  rw [UInt32.le_iff_toNat_le, UInt32.le_iff_toNat_le, UInt32.toNat_add]
  have ha : 'a'.val.toNat = 97 := rfl
  have hz : 'z'.val.toNat = 122 := rfl
  have hA : 'A'.val.toNat = 65 := rfl
  have hZ : 'Z'.val.toNat = 90 := rfl
  have hshift : ('A'.val - 'a'.val).toNat = 4294967264 := rfl
  omega

theorem toUpper_of_isPlainDigit {c : Char} (h : isPlainDigit c) : c.toUpper = c := by
  simp only [isPlainDigit, Bool.and_eq_true, decide_eq_true_eq, Char.le_def] at h
  delta Char.toUpper
  refine dif_neg fun hsmall => ?_
  exact absurd (UInt32.le_trans hsmall.1 h.2) (by decide)

/-- A word of small letters and digits is one of letters and digits when its first is a capital. -/
theorem capitalized_cons {c : Char} {rest : List Char} (h : ∀ d ∈ c :: rest, isWordChar d) :
    (isCapital c.toUpper ∨ isPlainDigit c.toUpper) ∧
      ∀ d ∈ capitalized (c :: rest), isNameChar d := by
  obtain ⟨hc, hrest⟩ := List.forall_mem_cons.mp h
  have hfirst : isCapital c.toUpper ∨ isPlainDigit c.toUpper := by
    rw [isWordChar, Bool.or_eq_true] at hc
    rcases hc with hsmall | hdigit
    · exact .inl (isCapital_toUpper hsmall)
    · exact .inr ((toUpper_of_isPlainDigit hdigit).symm ▸ hdigit)
  refine ⟨hfirst, List.forall_mem_cons.mpr ⟨?_, fun d hd => ?_⟩⟩
  · rcases hfirst with hcapital | hdigit
    · simp [isNameChar, hcapital]
    · simp [isNameChar, hdigit]
  · have hword := hrest d hd
    rw [isWordChar, Bool.or_eq_true] at hword
    rcases hword with hsmall | hdigit
    · simp [isNameChar, hsmall]
    · simp [isNameChar, hdigit]

private theorem head_capitalized_words {name rest : List Char} {first : Char}
    (h : (wordChars name).flatMap capitalized = first :: rest) :
    isCapital first ∨ isPlainDigit first := by
  cases hwords : wordChars name with
  | nil => simp [hwords] at h
  | cons w ws =>
    have hw : w ∈ wordChars name := hwords ▸ List.mem_cons_self
    cases w with
    | nil => exact absurd rfl (ne_nil_of_mem_wordChars hw)
    | cons c cs =>
      rw [hwords, List.flatMap_cons, capitalized, List.cons_append] at h
      exact (List.cons.inj h).1 ▸ (capitalized_cons fun d => isWordChar_of_mem_wordChars hw).1

theorem isModelName_className (name : String) : isModelName (className name) := by
  have hchars : ∀ c ∈ (wordChars name.toList).flatMap capitalized, isNameChar c := by
    intro c hc
    obtain ⟨w, hw, hc⟩ := List.mem_flatMap.mp hc
    cases w with
    | nil => simp [capitalized] at hc
    | cons d rest => exact (capitalized_cons fun d => isWordChar_of_mem_wordChars hw).2 c hc
  rw [isModelName, className, String.toList_ofList, classChars]
  cases hwords : (wordChars name.toList).flatMap capitalized with
  | nil => decide
  | cons first rest =>
    rw [hwords] at hchars
    obtain ⟨hfirst, hrest⟩ := List.forall_mem_cons.mp hchars
    by_cases hdigit : isPlainDigit first
    · simpa [hdigit, hfirst, show isCapital 'T' by decide] using hrest
    · have hcapital : isCapital first := (head_capitalized_words hwords).resolve_right hdigit
      simpa [hdigit, hcapital] using hrest

private theorem isModelName_numbered {base : String} (h : isModelName base) (n : Nat) :
    isModelName (numbered base "" n) :=
  isCapitalName_numbered h rfl (fun c hc => by simp [isNameChar, hc]) n

end Naming

namespace Schema

open Registry Naming

variable {r s : Registry}

namespace Registry

def modelNames (r : Registry) : List String := r.entries.toList.filterMap Entry.name

/-- Whether the names that are taken are those of the types, newest first, and those that the models
module binds, each of them once. -/
structure Distinct (r : Registry) : Prop where
  taken : r.names = r.modelNames.reverse ++ takenNames
  nodup : r.names.Nodup
  form : ∀ name ∈ r.modelNames, isModelName name

theorem distinct_empty : ({} : Registry).Distinct where
  taken := by simp [modelNames]
  nodup := by decide
  form := by simp [modelNames]

private theorem nameFor_not_mem (r : Registry) (text : String) : r.nameFor text ∉ r.names :=
  freeName_not_mem r.names _ ""

private theorem isModelName_nameFor (r : Registry) (text : String) : isModelName (r.nameFor text) := by
  obtain ⟨n, hn, -⟩ := freeName_eq_numbered r.names (className text) ""
  rw [nameFor, hn]
  exact isModelName_numbered (isModelName_className text) n

theorem modelNames_push {e : Entry} (h : s.entries = r.entries.push e) :
    s.modelNames = r.modelNames ++ e.name.toList := by
  rw [modelNames, h, Array.toList_push, List.filterMap_append, modelNames]
  cases hname : e.name <;> simp [hname]

private theorem modelNames_replace {i : TypeId} {e old : Entry} (hold : r.entries[i]? = some old)
    (hname : e.name = old.name) : (r.replace i e).modelNames = r.modelNames := by
  have hmap : ∀ q : Registry, q.modelNames = (q.entries.toList.map Entry.name).filterMap id := by
    intro q
    rw [List.filterMap_map]
    rfl
  obtain ⟨hi, rfl⟩ := Array.getElem?_eq_some_iff.mp hold
  have hset : (r.replace i e).entries.toList.map Entry.name = r.entries.toList.map Entry.name := by
    rw [replace, Array.toList_setIfInBounds, List.map_set, hname]
    refine List.ext_getElem (by simp) fun j hj hj' => ?_
    by_cases heq : i = j
    · subst heq
      simp
    · simp [heq]
  rw [hmap, hmap, hset]

namespace Distinct

theorem add (h : r.Distinct) (text : String) {e : Entry} (he : e.name = some (r.nameFor text))
    (hentries : s.entries = r.entries.push e) (hnames : s.names = r.nameFor text :: r.names) :
    s.Distinct := by
  have hmodels : s.modelNames = r.modelNames ++ [r.nameFor text] := by
    rw [modelNames_push hentries, he, Option.toList_some]
  constructor
  · rw [hnames, hmodels, h.taken, List.reverse_append]
    rfl
  · rw [hnames]
    exact List.nodup_cons.mpr ⟨r.nameFor_not_mem text, h.nodup⟩
  · rw [hmodels]
    intro name hname
    rcases List.mem_append.mp hname with hname | hname
    · exact h.form name hname
    · exact List.mem_singleton.mp hname ▸ r.isModelName_nameFor text

private theorem of_eq (h : r.Distinct) (hmodels : s.modelNames = r.modelNames)
    (hnames : s.names = r.names) : s.Distinct where
  taken := by rw [hnames, hmodels, h.taken]
  nodup := hnames ▸ h.nodup
  form := hmodels ▸ h.form

end Distinct

theorem Step.distinct (h : r.Step s) (hr : r.Distinct) : s.Distinct := by
  cases h with
  | named text => exact hr.add text rfl rfl rfl
  | opened reference hnew => exact hr.add _ rfl rfl rfl
  | filled hplace hids => exact hr.of_eq (modelNames_replace hplace rfl) rfl
  | settled h hkey hname hids =>
    cases h with
    | unnamed hneeds =>
      refine hr.of_eq ?_ rfl
      rw [modelNames_push rfl, hname, Option.toList_none, List.append_nil]
    | named text hneeds htext => exact hr.add text rfl rfl rfl
  | logged record => exact ⟨hr.taken, hr.nodup, hr.form⟩

theorem Steps.distinct (h : r.Steps s) (hr : r.Distinct) : s.Distinct := by
  induction h with
  | refl => exact hr
  | tail _ hstep ih => exact hstep.distinct ih

end Registry

/-- After all calls, successful or not, the models have names of their own. Each name is a capital
letter with letters and digits behind it, and none is one that the models module binds. The search
for a name that is free ends at the first one. -/
theorem modelNames_of_history (document : Value) (calls : List Call) :
    let r := Registry.history document calls
    r.modelNames.Nodup ∧ (∀ name ∈ r.modelNames, isModelName name ∧ name ∉ takenNames) ∧
      ∀ text, ∃ n, r.nameFor text = numbered (className text) "" n ∧
        numbered (className text) "" n ∉ r.names ∧
          ∀ m < n, numbered (className text) "" m ∈ r.names := by
  intro r
  have h : r.Distinct := (history_steps document calls).distinct distinct_empty
  have hnodup := h.nodup
  rw [h.taken] at hnodup
  obtain ⟨hmodels, -, hdisjoint⟩ := List.nodup_append.mp hnodup
  refine ⟨List.nodup_reverse.mp hmodels, fun name hname => ⟨h.form name hname, fun htaken => ?_⟩,
    fun text => freeName_eq_numbered r.names _ ""⟩
  exact hdisjoint name (List.mem_reverse.mpr hname) name htaken rfl

end Schema

end OpenApiClient
