import OpenApiClient.Proofs.BuiltMethods
import OpenApiClient.Proofs.NormalNames

/-! # Operations without a name

A declared id is replaced by one that is made of the path only where it is empty as it stands. In snake
case nothing is left of an id without Latin letters and digits either, and an operation with such an id
has nothing that its method could be named after. Every other operation has a name: what the tag leaves
of its id, or else the whole id. -/
namespace OpenApiClient

namespace Naming

variable {name : String} {fault : Fault}

/-- What a method is named after: the id of its operation without the tag, or all of it where the tag
leaves nothing. -/
def ownName (oid tag : String) : String := if stripTag oid tag = "" then oid else stripTag oid tag

theorem functionName_eq (reserved : List String) (oid tag : String) :
    functionName reserved oid tag = if ownName oid tag = "" then .error .emptyText
      else .ok (escapeReserved reserved (guardDigit Text.isDigitSign (ownName oid tag))) := rfl

private theorem stripTag_empty (tag : String) : stripTag "" tag = "" := by
  have hnil : stripTagChars tag.toList [] = [] :=
    List.eq_nil_iff_forall_not_mem.mpr fun _ hc => List.not_mem_nil (stripTagChars_subset _ _ hc)
  rw [stripTag, String.toList_empty, hnil]
  rfl

theorem ownName_eq_empty_iff (oid tag : String) : ownName oid tag = "" ↔ oid = "" := by
  unfold ownName
  split
  · exact Iff.rfl
  · rename_i hleft
    exact iff_of_false hleft fun hoid => hleft (hoid ▸ stripTag_empty tag)

private theorem guardDigit_ne_empty (isDigit : Char → Bool) (h : name ≠ "") :
    guardDigit isDigit name ≠ "" := by
  unfold guardDigit
  split
  · split
    · simp
    · exact h
  · exact h

private theorem escapeReserved_ne_empty (reserved : List String) (h : name ≠ "") :
    escapeReserved reserved name ≠ "" := by
  unfold escapeReserved
  split
  · simp
  · exact h

/-- Naming fails on an empty id alone, for want of a first character. -/
theorem functionName_error_iff (reserved : List String) (oid tag : String) :
    functionName reserved oid tag = .error fault ↔ oid = "" ∧ fault = .emptyText := by
  rw [functionName_eq, ← ownName_eq_empty_iff oid tag]
  by_cases hown : ownName oid tag = ""
  · rw [if_pos hown, Except.error.injEq, and_iff_right hown, eq_comm]
  · rw [if_neg hown]
    exact iff_of_false (by simp) fun h => hown h.1

private theorem exists_functionName (reserved : List String) {oid : String} (tag : String)
    (h : oid ≠ "") :
    ∃ name, functionName reserved oid tag = .ok name ∧ name ≠ "" := by
  have hown : ownName oid tag ≠ "" := fun hown => h ((ownName_eq_empty_iff oid tag).mp hown)
  rw [functionName_eq, if_neg hown]
  exact ⟨_, rfl, escapeReserved_ne_empty reserved (guardDigit_ne_empty _ hown)⟩

/-- An id that is made of a method and a path has an underscore behind its action. -/
theorem fallbackId_ne_empty (method path : String) : fallbackId method path ≠ "" := by
  obtain ⟨action, rest, heq, -, -⟩ := fallbackId_eq method path
  rw [heq]
  simp

/-- Nothing is left of a name in snake case exactly where its lower case has neither small Latin letters
nor digits. -/
theorem snakeCase_eq_empty_iff (name : String) :
    snakeCase name = "" ↔ ∀ c ∈ (Text.lower name).toList, isWordChar c = false := by
  have hwords := isWord_wordChars name.toList
  have hchars : snakeCase name = "" ↔ snakeChars name.toList = [] := by
    rw [snakeCase, ← String.toList_inj, String.toList_ofList, String.toList_empty]
  have hflat : snakeChars name.toList = [] ↔ (wordChars name.toList).flatten = [] := by
    constructor
    · intro h
      rw [← filter_underscore_intercalate hwords, ← snakeChars, h]
      rfl
    · intro h
      have hnone : wordChars name.toList = [] := by
        refine List.eq_nil_iff_forall_not_mem.mpr fun w hw => (hwords w hw).ne_nil ?_
        exact List.flatten_eq_nil_iff.mp h w hw
      rw [snakeChars, hnone]
      rfl
  rw [hchars, hflat, flatten_wordChars, Text.lower, String.toList_ofList, List.filter_eq_nil_iff]
  simp only [Bool.not_eq_true]

end Naming

namespace Operation

open Schema Schema.RegistryM Naming

variable {declaration : Value} {id tag : String}

private theorem tagOf_single (h : declaration.get "tags" = .ok (.sequence [.text tag])) (oid : String) :
    tagOf declaration oid = .ok (snakeCase tag) := by
  rw [tagOf, h]
  rfl

/-- An id that is a text gives the id of an operation, whatever the method and the path are. -/
theorem idOf_text (h : declaration.get "operationId" = .ok (.text id)) (method : HttpMethod)
    (path : String) : idOf declaration method (.text path) =
      .ok (if id = "" then fallbackId method.name path else snakeCase id) := by
  rw [idOf, h]
  by_cases hid : id = ""
  · rw [if_pos hid, hid]
    rfl
  · have htruthy : (Value.text id).isTruthy = true := by
      simpa [Value.isTruthy, Scalar.isTruthy] using hid
    rw [if_neg hid]
    dsimp only [bind, Except.bind]
    rw [if_pos htruthy]
    rfl

theorem idOf_eq_empty_iff (method : HttpMethod) (path : String) :
    (if id = "" then fallbackId method.name path else snakeCase id) = "" ↔
      id ≠ "" ∧ ∀ c ∈ (Text.lower id).toList, isWordChar c = false := by
  rw [← snakeCase_eq_empty_iff]
  by_cases hid : id = ""
  · simp [hid, fallbackId_ne_empty]
  · simp [hid]

/-- An operation with an id that is a text, and with one tag that is a text, has an id in the end. It is
empty exactly where the declared one is not empty but has neither small Latin letters nor digits in its
lower case. Then the name of the method fails, and no method is built; otherwise there is a name, and
it is not empty. -/
theorem naming_fails_iff (hid : declaration.get "operationId" = .ok (.text id))
    (htag : declaration.get "tags" = .ok (.sequence [.text tag])) (method : HttpMethod)
    (path : String) (reserved : List String) :
    ∃ oid, idOf declaration method (.text path) = .ok oid ∧
      tagOf declaration oid = .ok (snakeCase tag) ∧
      (oid = "" ↔ id ≠ "" ∧ ∀ c ∈ (Text.lower id).toList, isWordChar c = false) ∧
      (functionName reserved oid (snakeCase tag) = .error .emptyText ↔ oid = "") ∧
      (oid ≠ "" → ∃ name, functionName reserved oid (snakeCase tag) = .ok name ∧ name ≠ "") ∧
      ∀ document shared settings m r t,
        outcome (build document shared settings ⟨.text path, method, declaration⟩) r = (.ok m, t) →
        oid ≠ "" := by
  refine ⟨_, idOf_text hid method path, tagOf_single htag _, idOf_eq_empty_iff method path, ?_,
    exists_functionName reserved _, fun document shared settings m r t h => ?_⟩
  · rw [functionName_error_iff, and_iff_left rfl]
  · obtain ⟨hoperation, -, -, -, -, ⟨reserved', -, hname⟩, -⟩ := (build_ok h).1
    have hsame := Except.ok.inj ((idOf_text hid method path).symm.trans hoperation)
    intro hempty
    have hfails := (functionName_error_iff reserved' m.operation m.tag).mpr
      ⟨hsame.symm.trans hempty, rfl⟩
    cases hfails.symm.trans hname

def namedDeclaration (id tag : String) : Value :=
  .mapping [(.text "operationId", .text id), (.text "tags", .sequence [.text tag]),
    (.text "responses", .mapping [(.text "204", .mapping [])])]

/-- An id in Greek capitals leaves nothing, and one with a Kelvin sign leaves its small letter. -/
theorem naming_fails_greek :
    (∃ oid, idOf (namedDeclaration "ΣΑΣ" "t") .get (.text "/items") = .ok oid ∧ oid = "" ∧
      functionName [] oid (snakeCase "t") = .error .emptyText) ∧
    ∃ oid, idOf (namedDeclaration "Σ\u212A" "k") .get (.text "/items") = .ok oid ∧ oid = "k" ∧
      ∃ name, functionName [] oid (snakeCase "k") = .ok name ∧ name ≠ "" := by
  have hdeclared : ∀ id tag, (namedDeclaration id tag).get "operationId" = .ok (.text id) ∧
      (namedDeclaration id tag).get "tags" = .ok (.sequence [.text tag]) := fun _ _ => ⟨rfl, rfl⟩
  constructor
  · obtain ⟨hid, htag⟩ := hdeclared "ΣΑΣ" "t"
    obtain ⟨oid, hoid, -, hempty, hfails, -⟩ := naming_fails_iff hid htag .get "/items" []
    have hnone := hempty.mpr ⟨by decide, Text.forall_mem_of_all (by decide)⟩
    exact ⟨oid, hoid, hnone, hfails.mpr hnone⟩
  · obtain ⟨hid, htag⟩ := hdeclared "Σ\u212A" "k"
    obtain ⟨oid, hoid, -, -, -, hnamed, -⟩ := naming_fails_iff hid htag .get "/items" []
    have hk : idOf (namedDeclaration "Σ\u212A" "k") .get (.text "/items") = .ok "k" := by
      decide +kernel
    obtain rfl := Except.ok.inj (hk.symm.trans hoid)
    exact ⟨"k", hoid, rfl, hnamed (by decide)⟩

/-- Naming fails for an id in Japanese. -/
theorem not_always_named : ¬ ∀ (declaration : Value) (id tag path : String) (method : HttpMethod)
    (reserved : List String), declaration.get "operationId" = .ok (.text id) →
    declaration.get "tags" = .ok (.sequence [.text tag]) →
    ∃ oid name, idOf declaration method (.text path) = .ok oid ∧ oid ≠ "" ∧
      functionName reserved oid (snakeCase tag) = .ok name ∧ name ≠ "" := by
  intro h
  obtain ⟨oid, _, hoid, hne, -⟩ :=
    h (namedDeclaration "日本" "t") "日本" "t" "/items" .get [] rfl rfl
  have hnone : idOf (namedDeclaration "日本" "t") .get (.text "/items") = .ok "" := by decide +kernel
  exact hne (Except.ok.inj (hoid.symm.trans hnone))

end Operation

end OpenApiClient
