import OpenApiClient.Document.Pointer
import OpenApiClient.Proofs.Looks
import OpenApiClient.Proofs.TextParts

/-! # Pointers along the steps of a document

A pointer writes the steps from the root of a document to a node. Every step is read back from what
is written, so the pointer leads to the node, and it leads nowhere where a step does. Only an index
is not read that has more digits than a number may have. -/
namespace OpenApiClient

namespace Pointer

/-- A step from a node: to a member of a mapping, or to an item of a sequence. -/
inductive Step
  | key (name : String)
  | index (i : Nat)
  deriving DecidableEq

namespace Step

def text : Step → String
  | key name => name
  | index i => String.ofList (Nat.toDigits 10 i)

/-- An index is read if it has no more digits than a number may have. -/
def IsReadable : Step → Prop
  | key _ => True
  | index i => i < 10 ^ Text.digitLimit

instance : DecidablePred IsReadable
  | key _ => isTrue trivial
  | index i => inferInstanceAs (Decidable (i < 10 ^ Text.digitLimit))

end Step

def ofSteps (steps : List Step) : String :=
  "#/" ++ String.intercalate "/" (steps.map fun s => String.ofList (encodeStep s.text.toList))

end Pointer

namespace Value
open Pointer (Step)

def child? : Value → Step → Option Value
  | .mapping ms, .key name => Members.get? ms name
  | .sequence items, .index i => items[i]?
  | _, _ => none

/-- The node that some steps lead to. -/
def descend? (v : Value) (steps : List Step) : Option Value := steps.foldlM child? v

/-- A mapping without a key, or a sequence that ends before an index. -/
def Lacks : Value → Step → Prop
  | .mapping ms, .key name => Members.get? ms name = none
  | .sequence items, .index i => items.length ≤ i
  | _, _ => False

end Value

namespace Pointer

variable {document node found : Value} {s : Step} {steps before after : List Step}

/-! ## Steps as they are written -/

private theorem slash_not_mem_encodeStep (cs : List Char) : '/' ∉ encodeStep cs := by
  intro h
  obtain ⟨c, -, hc⟩ := List.mem_flatMap.mp h
  split at hc
  · simp at hc
  split at hc
  · simp at hc
  · rename_i hslash
    exact hslash (List.mem_singleton.mp hc).symm

theorem decodeSlashes_encodeStep (cs : List Char) :
    decodeSlashes (encodeStep cs) = cs.flatMap fun c => if c = '~' then ['~', '0'] else [c] := by
  induction cs with
  | nil => rfl
  | cons c cs ih =>
    rw [encodeStep] at ih
    rw [encodeStep, List.flatMap_cons, List.flatMap_cons, ← ih]
    by_cases htilde : c = '~'
    · simp [htilde, decodeSlashes]
    · by_cases hslash : c = '/'
      · simp [hslash, decodeSlashes]
      · simp [htilde, hslash, decodeSlashes]

private theorem decodeTildes_flatMap (cs : List Char) :
    decodeTildes (cs.flatMap fun c => if c = '~' then ['~', '0'] else [c]) = cs := by
  induction cs with
  | nil => rfl
  | cons c cs ih =>
    rw [List.flatMap_cons]
    by_cases htilde : c = '~'
    · simp [htilde, decodeTildes, ih]
    · simp [htilde, decodeTildes, ih]

/-- A step is decoded to what was encoded. -/
theorem decodeStep_encodeStep (cs : List Char) : decodeStep (encodeStep cs) = cs := by
  rw [decodeStep, decodeSlashes_encodeStep, decodeTildes_flatMap]

/-- The steps are read back from their pointer. No steps at all would be read as an empty key. -/
theorem steps?_ofSteps (h : steps ≠ []) : steps? (ofSteps steps) = some (steps.map Step.text) := by
  have htext : (ofSteps steps).toList =
      '#' :: '/' :: List.intercalate ['/'] (steps.map fun s => encodeStep s.text.toList) := by
    simp [ofSteps, Function.comp_def]
  have hfields : Text.fields (· == '/')
      (List.intercalate ['/'] (steps.map fun s => encodeStep s.text.toList)) =
      steps.map fun s => encodeStep s.text.toList := by
    refine Text.fields_intercalate (by simpa using h) fun part hpart => ?_
    obtain ⟨s, -, rfl⟩ := List.mem_map.mp hpart
    exact slash_not_mem_encodeStep _
  rw [steps?, htext]
  simp [hfields, decodeStep_encodeStep, Function.comp_def]

/-! ## Steps as they are taken -/

/-- Into a sequence the digits of an index lead where the index does, if they are read. -/
theorem step_index (items : List Value) (i : Nat) :
    step (.sequence items) (Step.index i).text =
      if (Step.index i).IsReadable then
        (items[i]?).elim (.error .missingEntry) .ok
      else .error .badValue := by
  have hdigits : (Nat.toDigits 10 i).all Text.isDigitSign := by
    refine List.all_eq_true.mpr fun c hc => ?_
    have hdigit : c.isDigit := Nat.isDigit_of_mem_toDigits (by decide) (by decide) hc
    simp [Text.isDigitSign, Text.isDecimalDigit, Text.decimalDigit?_of_isDigit hdigit]
  simp only [step, Step.text, String.toList_ofList]
  rw [if_neg (by simp [hdigits, Nat.toDigits_ne_nil]), Text.readDigits?_toDigits]
  by_cases hread : (Step.index i).IsReadable
  · have hbound : i < 10 ^ Text.digitLimit := hread
    simp only [hread, hbound, if_true]
    cases items[i]? <;> rfl
  · have hbound : ¬ i < 10 ^ Text.digitLimit := hread
    simp only [hread, hbound, if_false]

private theorem step_of_child? (h : node.child? s = some found) :
    step node s.text = if s.IsReadable then .ok found else .error .badValue := by
  cases node with
  | scalar x => cases s <;> cases h
  | mapping ms =>
    cases s with
    | index i => cases h
    | key name =>
      have hget : Members.get? ms name = some found := h
      simp [step, Step.text, Step.IsReadable, hget]
  | sequence items =>
    cases s with
    | key name => cases h
    | index i =>
      have hitem : items[i]? = some found := h
      rw [step_index, hitem]
      rfl

theorem step_of_lacks (h : node.Lacks s) :
    step node s.text = if s.IsReadable then .error .missingEntry else .error .badValue := by
  cases node with
  | scalar x => cases s <;> cases h
  | mapping ms =>
    cases s with
    | index i => cases h
    | key name =>
      have hget : Members.get? ms name = none := h
      simp [step, Step.text, Step.IsReadable, hget]
  | sequence items =>
    cases s with
    | key name => cases h
    | index i =>
      have hitem : items[i]? = none := List.getElem?_eq_none h
      rw [step_index, hitem]
      rfl

/-- Steps that lead to a node are taken up to the first index that is not read. -/
theorem foldlM_step_of_descend? (h : document.descend? steps = some node) :
    (steps.map Step.text).foldlM step document =
      if ∀ s ∈ steps, s.IsReadable then .ok node else .error .badValue := by
  induction steps generalizing document with
  | nil =>
    obtain rfl : document = node := Option.some.inj h
    simp [pure, Except.pure]
  | cons s steps ih =>
    rw [Value.descend?, List.foldlM_cons] at h
    obtain ⟨next, hnext, hrest⟩ := Option.bind_eq_some_iff.mp h
    rw [List.map_cons, List.foldlM_cons, step_of_child? hnext]
    by_cases hs : s.IsReadable
    · simp only [hs, if_true, List.forall_mem_cons, true_and]
      exact ih hrest
    · simp [hs, bind, Except.bind]

/-- A step that fails behind others ends the pointer there, unless one before is not read. -/
theorem resolve_of_step_error {fault : Fault} (h : document.descend? before = some node)
    (hs : step node s.text = .error fault) :
    document.resolve (ofSteps (before ++ s :: after)) =
      if ∀ t ∈ before, t.IsReadable then .error fault else .error .badValue := by
  rw [Value.resolve, steps?_ofSteps (by simp)]
  simp only [List.map_append, List.map_cons, List.foldlM_append, foldlM_step_of_descend? h]
  split
  · simp [bind, Except.bind, hs]
  · rfl

/-- The pointer of some steps leads to the node that they lead to, and nowhere if one of them is
lacking or none is possible. An index is not read that has too many digits. -/
theorem resolve_ofSteps (document : Value) :
    (∀ steps node, steps ≠ [] → document.descend? steps = some node →
      document.resolve (ofSteps steps) =
        if ∀ s ∈ steps, s.IsReadable then .ok node else .error .badValue) ∧
    (∀ before s after node, document.descend? before = some node → node.Lacks s →
      document.resolve (ofSteps (before ++ s :: after)) =
        if ∀ t ∈ before ++ [s], t.IsReadable then .error .missingEntry else .error .badValue) ∧
    ∀ before s after x, document.descend? before = some (.scalar x) →
      document.resolve (ofSteps (before ++ s :: after)) =
        if ∀ t ∈ before, t.IsReadable then .error .missingEntry else .error .badValue := by
  refine ⟨fun steps node hne h => ?_, fun before s after node h hs => ?_,
    fun before s after x h => resolve_of_step_error h rfl⟩
  · rw [Value.resolve, steps?_ofSteps hne]
    exact foldlM_step_of_descend? h
  · by_cases hread : s.IsReadable
    · rw [resolve_of_step_error h ((step_of_lacks hs).trans (if_pos hread))]
      simp [hread, or_imp, forall_and]
    · rw [resolve_of_step_error h ((step_of_lacks hs).trans (if_neg hread))]
      simp [hread]

def slashed : Value :=
  .mapping [(.text "a/b", .sequence [.mapping [(.text "~1", .int 5)]])]

def slashedSteps : List Step := [.key "a/b", .index 0, .key "~1"]

/-- The pointers to this number, to an item that there is not, and below the number. -/
theorem resolve_ofSteps_slashed :
    slashed.resolve "#/a~1b/0/~01" = .ok (.int 5) ∧
      slashed.resolve "#/a~1b/1" = .error .missingEntry ∧
      slashed.resolve "#/a~1b/0/~01/x" = .error .missingEntry := by
  obtain ⟨hreach, hlack, hbelow⟩ := resolve_ofSteps slashed
  have hsteps : ∀ s ∈ slashedSteps, s.IsReadable := by
    intro s hs
    obtain rfl | rfl | rfl : s = .key "a/b" ∨ s = .index 0 ∨ s = .key "~1" := by
      simpa [slashedSteps] using hs
    exacts [trivial, Nat.pow_pos (by decide), trivial]
  have hitems : ∀ s ∈ [.key "a/b"] ++ [Step.index 1], s.IsReadable := by
    have hone : 1 < 10 ^ Text.digitLimit := Nat.one_lt_pow (by decide) (by decide)
    simpa [Step.IsReadable] using hone
  have hnode := hreach slashedSteps (.int 5) (by decide) rfl
  have hitem := hlack [.key "a/b"] (.index 1) [] _ rfl (Nat.le_refl 1)
  have hnumber := hbelow slashedSteps (.key "x") [] _ rfl
  rw [if_pos hsteps] at hnode hnumber
  rw [if_pos hitems] at hitem
  exact ⟨hnode, hitem, hnumber⟩

/-- The index with one digit more than a number may have is out of range, and is not read. -/
theorem not_resolve_missing : ¬ ∀ (document node : Value) (before after : List Step) (s : Step),
    document.descend? before = some node → node.Lacks s →
      document.resolve (ofSteps (before ++ s :: after)) = .error .missingEntry := by
  intro h
  have hlong : ¬ (Step.index (10 ^ Text.digitLimit)).IsReadable := Nat.lt_irrefl _
  have hlacks : (Value.sequence [.null]).Lacks (.index (10 ^ Text.digitLimit)) :=
    Nat.pow_pos (by decide)
  have hstep := (step_of_lacks hlacks).trans (if_neg hlong)
  have hbad : Value.resolve _ (ofSteps ([] ++ _ :: [])) = _ := resolve_of_step_error rfl hstep
  rw [if_pos (by simp)] at hbad
  cases hbad.symm.trans (h _ _ [] [] _ rfl hlacks)

end Pointer

end OpenApiClient
