import OpenApiClient.Proofs.MethodNames
import OpenApiClient.Proofs.PlainNames
import OpenApiClient.Schema.Definition
import Mathlib.Data.List.Induction

/-! # Members of enumerations

Each value of an enumeration becomes one member, in the order of the values. A member is named by its
value in capitals, and by the first number that makes this another name where an earlier member has it.
Values may look like numbered names, before or behind the values that are numbered; since every name is
compared with all earlier ones, no two members share one. -/
namespace OpenApiClient

namespace Naming

/-- Whether a character is a capital Latin letter, a common digit or an underscore. -/
def isMemberChar (c : Char) : Bool := isCapital c || isPlainDigit c || c == '_'

def isMemberName (name : String) : Bool := isCapitalName isMemberChar name

private theorem isMemberChar_toUpper {c : Char} (h : isNameLetter c) : isMemberChar c.toUpper :=
  of_isNameLetter (P := fun c => isNameLetter c → isMemberChar c.toUpper) (by decide) h h

theorem isCapital_toUpper_of_isWordChar {c : Char} (h : isWordChar c)
    (hdigit : isPlainDigit c.toUpper = false) : isCapital c.toUpper := by
  rw [isWordChar, Bool.or_eq_true] at h
  rcases h with hsmall | hplain
  · exact isCapital_toUpper hsmall
  · rw [toUpper_of_isPlainDigit hplain, hplain] at hdigit
    cases hdigit

end Naming

namespace Schema

open Naming

variable {values : List String}

/-! ## One name -/

private theorem isMemberName_memberBase (value : String) : isMemberName (memberBase value) := by
  have hsnake : IsSnake (snakeChars value.toList) := by
    simpa [snakeCase] using isSnake_snakeCase value
  rw [memberBase]
  cases hchars : snakeChars value.toList with
  | nil => decide
  | cons first rest =>
    rw [hchars] at hsnake
    have hmembers : ∀ c ∈ (first :: rest).map Char.toUpper, isMemberChar c := by
      intro c hc
      obtain ⟨d, hd, rfl⟩ := List.mem_map.mp hc
      exact isMemberChar_toUpper (hsnake.letters d hd)
    have hne : String.ofList ((first :: rest).map Char.toUpper) ≠ "" := by
      intro h
      simpa using congrArg String.toList h
    have hname : (String.ofList ((first :: rest).map Char.toUpper)).toList =
        first.toUpper :: rest.map Char.toUpper := by simp
    simp only [if_neg hne, hname, List.head?_cons, Option.any_some]
    split
    · refine isCapitalName_append (by decide) ?_
      rw [hname]
      exact List.all_eq_true.mpr hmembers
    · rename_i hdigit
      have hfirst : isWordChar first := hsnake.first first (by simp)
      have hcapital := isCapital_toUpper_of_isWordChar hfirst (Bool.eq_false_iff.mpr hdigit)
      have hrest := List.forall_mem_cons.mp hmembers
      rw [isMemberName, isCapitalName, hname]
      simpa [hcapital] using hrest.2

private theorem isMemberName_numbered (value : String) (n : Nat) :
    isMemberName (numbered (memberBase value) "_" n) :=
  isCapitalName_numbered (isMemberName_memberBase value) (by decide)
    (fun c hc => by simp [isMemberChar, hc]) n

/-! ## The names of all members -/

private theorem memberNames_append (taken before after : List String) :
    memberNames taken (before ++ after) = memberNames taken before ++
      memberNames ((memberNames taken before).reverse ++ taken) after := by
  induction before generalizing taken with
  | nil => rfl
  | cons value before ih => simp [memberNames, ih]

@[simp] theorem length_memberNames (taken values : List String) :
    (memberNames taken values).length = values.length := by
  induction values generalizing taken with
  | nil => rfl
  | cons value values ih => rw [memberNames, List.length_cons, List.length_cons, ih]

private theorem map_fst_enumMembers (values : List String) :
    (enumMembers values).map Prod.fst = memberNames [] values :=
  List.map_fst_zip (by simp)

/-- A further value adds a member behind the others: its name is the first one that none of them
has. -/
theorem enumMembers_concat (before : List String) (value : String) :
    ∃ n, enumMembers (before ++ [value]) =
        enumMembers before ++ [(numbered (memberBase value) "_" n, Text.quoted value)] ∧
      numbered (memberBase value) "_" n ∉ (enumMembers before).map Prod.fst ∧
      ∀ m < n, numbered (memberBase value) "_" m ∈ (enumMembers before).map Prod.fst := by
  obtain ⟨n, hn, hnew, htaken⟩ :=
    freeName_eq_numbered (memberNames [] before).reverse (memberBase value) "_"
  refine ⟨n, ?_, ?_, fun m hm => ?_⟩
  · have hnames : memberNames [] (before ++ [value]) =
        memberNames [] before ++ [numbered (memberBase value) "_" n] := by
      rw [memberNames_append, List.append_nil, memberNames, memberNames, hn]
    rw [enumMembers, hnames, List.map_append, List.zip_append (by simp)]
    rfl
  · rwa [map_fst_enumMembers, ← List.mem_reverse]
  · rw [map_fst_enumMembers, ← List.mem_reverse]
    exact htaken m hm

private theorem nodup_enumMembers (values : List String) :
    ((enumMembers values).map Prod.fst).Nodup := by
  induction values using List.reverseRecOn with
  | nil => exact .nil
  | append_singleton before value ih =>
    obtain ⟨n, hmembers, hnew, -⟩ := enumMembers_concat before value
    rw [hmembers, List.map_append]
    refine List.nodup_append.mpr ⟨ih, List.nodup_singleton _, fun name hname last hlast => ?_⟩
    obtain rfl := List.mem_singleton.mp hlast
    rintro rfl
    exact hnew hname

private theorem isMemberName_of_mem (values : List String) :
    ∀ m ∈ enumMembers values, isMemberName m.1 := by
  induction values using List.reverseRecOn with
  | nil => exact fun m hm => absurd hm List.not_mem_nil
  | append_singleton before value ih =>
    obtain ⟨n, hmembers, -⟩ := enumMembers_concat before value
    intro m hm
    rw [hmembers, List.mem_append, List.mem_singleton] at hm
    rcases hm with hm | rfl
    · exact ih m hm
    · exact isMemberName_numbered value n

theorem Registry.model?_enumeration (r : Registry) (name : String) (description : Value)
    (values : List String) :
    r.model? ⟨.enumeration values, some name, description⟩ =
      description.stripped.map fun docs => some ⟨name, docs, .enumeration (enumMembers values)⟩ := by
  unfold model?
  cases description.stripped <;> rfl

/-- An enumeration has a member for each of its values, in their order. The names of the members are
all different, and each is a capital letter with capitals, digits and underscores behind it. The
search for the name of a further member ends at the first one that none before it has. -/
theorem enumMembers_named (values : List String) :
    (enumMembers values).map Prod.snd = values.map Text.quoted ∧
      ((enumMembers values).map Prod.fst).Nodup ∧
      (∀ m ∈ enumMembers values, isMemberName m.1) ∧
      (∀ before value, ∃ n, enumMembers (before ++ [value]) =
          enumMembers before ++ [(numbered (memberBase value) "_" n, Text.quoted value)] ∧
        numbered (memberBase value) "_" n ∉ (enumMembers before).map Prod.fst ∧
        ∀ m < n, numbered (memberBase value) "_" m ∈ (enumMembers before).map Prod.fst) ∧
      ∀ (r : Registry) name description, r.model? ⟨.enumeration values, some name, description⟩ =
        description.stripped.map fun docs =>
          some ⟨name, docs, .enumeration (enumMembers values)⟩ := by
  exact ⟨List.map_snd_zip (by simp), nodup_enumMembers values, isMemberName_of_mem values,
    enumMembers_concat, fun r name description => r.model?_enumeration name description values⟩

/-- Values of which one is the numbered name of another one, one starts with a digit, and one has no
letter of a name. -/
def competing : List String := ["a-b", "a b", "a_b_2", "2x", "é", "a-b", "é"]

theorem enumMembers_named_competing :
    enumMembers competing = [("A_B", "'a-b'"), ("A_B_2", "'a b'"), ("A_B_2_2", "'a_b_2'"),
        ("VALUE_2X", "'2x'"), ("EMPTY", "'é'"), ("A_B_3", "'a-b'"), ("EMPTY_2", "'é'")] ∧
      isMemberName "A_B_2_2" ∧ ((enumMembers competing).map Prod.fst).Nodup := by
  have hmembers : enumMembers competing = [("A_B", "'a-b'"), ("A_B_2", "'a b'"),
      ("A_B_2_2", "'a_b_2'"), ("VALUE_2X", "'2x'"), ("EMPTY", "'é'"), ("A_B_3", "'a-b'"),
      ("EMPTY_2", "'é'")] := by decide
  obtain ⟨-, hnodup, hform, -⟩ := enumMembers_named competing
  exact ⟨hmembers, hform ("A_B_2_2", "'a_b_2'") (by simp [hmembers]), hnodup⟩

end Schema

end OpenApiClient
