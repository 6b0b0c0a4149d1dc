import OpenApiClient.Proofs.EscapedNames
import OpenApiClient.Proofs.MethodHygiene
import OpenApiClient.Proofs.SharedIdentifiers

/-! # Arguments that hide what a body needs

The body of a method binds names of its own, reads imported modules and turns values into texts by `str`.
All of these names are reserved by default but the last. So a parameter whose snake case is `str`
takes it as its identifier, and then it is the parameter that the body calls. No other parameter takes a
name that the body needs. -/
namespace OpenApiClient

namespace Naming

variable {reserved : List String} {word : String}

/-- An identifier is a word that needs no guard and no escape exactly where its name is made of that
word, and the word is not reserved. -/
theorem identifier_eq_iff (hends : Text.trim (· == '_') word.toList = word.toList)
    (hguard : guardDigit isPlainDigit word = word) (name : String) :
    identifier reserved name = word ↔ shownWords name = word ∧ word ∉ reserved := by
  constructor
  · intro h
    have hshown : shownWords name = word := by
      refine String.toList_injective ?_
      rw [← trim_identifier reserved name, h, hends]
    refine ⟨hshown, fun hmem => ?_⟩
    have hescaped : identifier reserved name = word ++ "_" := by
      rw [identifier_eq_shownWords, hshown, hguard, escapeReserved, if_pos hmem]
    exact absurd (congrArg String.toList (hescaped.symm.trans h)) (by simp)
  · rintro ⟨hshown, hfree⟩
    rw [identifier_eq_shownWords, hshown, hguard, escapeReserved, if_neg hfree]

theorem identifier_eq_str_iff (reserved : List String) (name : String) :
    identifier reserved name = "str" ↔ snakeCase name = "str" ∧ "str" ∉ reserved := by
  have hshown : shownWords name = "str" ↔ snakeCase name = "str" := by
    unfold shownWords
    split
    · rename_i hnil
      simp [hnil]
    · exact Iff.rfl
  rw [identifier_eq_iff (by decide) (by decide), hshown]

end Naming

namespace ClientMethod

open Operation Schema Schema.RegistryM Naming

variable {document : Value} {shared : Members} {settings : Settings} {o : ListedOperation}
  {m : ClientMethod} {r t : Registry}

/-- The names that the body of a method looks up outside, or binds itself. -/
def bodyNames : List String :=
  ["str", "json", "urllib", "self", "url", "query", "query_args", "headers", "body"]

/-- Of the names that a body needs, `str` alone is not reserved by default. -/
theorem mem_bodyNames_iff {name : String} (h : name ∉ Settings.defaultReservedWords) :
    name ∈ bodyNames ↔ name = "str" := by
  have hreserved : ∀ name ∈ bodyNames, name = "str" ∨ name ∈ Settings.defaultReservedWords := by
    decide
  exact ⟨fun hmem => (hreserved _ hmem).resolve_right h, fun hstr => hstr ▸ by decide⟩

theorem identifier_mem_bodyNames_iff
    (hreserved : ∀ w ∈ Settings.defaultReservedWords, w ∈ settings.reservedWords)
    (h : outcome (build document shared settings o) r = (.ok m, t)) {p : Parameter}
    (hp : p ∈ m.parameters) :
    p.identifier ∈ bodyNames ↔ snakeCase p.name = "str" ∧
      settings.modelsModule ≠ .text "str" ∧ "str" ∉ settings.reservedWords := by
  obtain ⟨-, declared, s, s', hparameters⟩ := build_ok h
  have hclassified := (classifyAll_ok hparameters).1 p hp
  obtain ⟨reserved, hsettings, hident⟩ := hclassified.identifier
  rw [mem_bodyNames_iff (hclassified.isPlainName hreserved).2, hident, identifier_eq_str_iff,
    mem_reserved_iff hsettings, not_or]

/-- When the words that are reserved by default are reserved, an argument hides a name that the body
needs exactly where its parameter has the snake case `str`, and that is neither the models module nor
reserved. By default it is not, so there the snake case alone decides. -/
theorem captured_iff
    (hreserved : ∀ w ∈ Settings.defaultReservedWords, w ∈ settings.reservedWords)
    (h : outcome (build document shared settings o) r = (.ok m, t)) :
    (∀ p ∈ m.parameters, p.identifier ∈ bodyNames ↔ snakeCase p.name = "str" ∧
      settings.modelsModule ≠ .text "str" ∧ "str" ∉ settings.reservedWords) ∧
    (settings = .default →
      ∀ p ∈ m.parameters, p.identifier ∈ bodyNames ↔ snakeCase p.name = "str") := by
  refine ⟨fun p hp => identifier_mem_bodyNames_iff hreserved h hp, ?_⟩
  rintro rfl p hp
  rw [identifier_mem_bodyNames_iff hreserved h hp]
  exact and_iff_left (by decide)

def pairOperation (inPath inHeader : String) : ListedOperation where
  path := .text ("/items/\x7b" ++ inPath ++ "\x7d")
  method := .get
  declaration := .mapping [(.text "tags", .sequence [.text "items"]),
    (.text "parameters", .sequence
      [namedParameter "path" inPath "string", namedParameter "header" inHeader "string"]),
    (.text "responses", .mapping [(.text "204", .mapping [])])]

def pairRun (inPath inHeader : String) : Except Fault ClientMethod × Registry :=
  outcome (build .empty [] .default (pairOperation inPath inHeader)) {}

theorem captured_str : ∃ m, (pairRun "Str" "url").1 = .ok m ∧
    m.parameters.map Parameter.identifier = ["str", "url_"] ∧
    m.urlCode = "url = f\"/items/\x7burllib.parse.quote(str(str), safe='')\x7d\"" ∧
    ∀ p ∈ m.parameters, p.identifier ∈ bodyNames ↔ snakeCase p.name = "str" := by
  have hread : (pairRun "Str" "url").1.map
      (fun m => (m.parameters.map Parameter.identifier, m.urlCode)) =
      .ok (["str", "url_"], "url = f\"/items/\x7burllib.parse.quote(str(str), safe='')\x7d\"") := by
    decide +kernel
  cases hrun : pairRun "Str" "url" with
  | mk x r =>
    rw [hrun] at hread
    obtain ⟨m, rfl, hm⟩ := except_map_ok_iff.mp hread
    obtain ⟨hidents, hurl⟩ := Prod.mk.inj hm
    exact ⟨m, rfl, hidents, hurl, (captured_iff (fun _ => id) hrun).2 rfl⟩

/-- A parameter with the name `str` keeps it, and the body calls the parameter. -/
theorem not_free_of_bodyNames : ¬ ∀ (o : ListedOperation) (m : ClientMethod) (r : Registry),
    outcome (build .empty [] .default o) {} = (.ok m, r) →
    ∀ p ∈ m.parameters, p.identifier ∉ bodyNames := by
  intro h
  have hread : (pairRun "str" "url").1.map (fun m => m.parameters.map Parameter.identifier) =
      .ok ["str", "url_"] := by decide +kernel
  cases hrun : pairRun "str" "url" with
  | mk x r =>
    rw [hrun] at hread
    obtain ⟨m, rfl, hidents⟩ := except_map_ok_iff.mp hread
    have hmem : "str" ∈ m.parameters.map Parameter.identifier := hidents ▸ List.mem_cons_self
    obtain ⟨p, hp, hident⟩ := List.mem_map.mp hmem
    exact h _ m r hrun p hp (hident ▸ by decide)

end ClientMethod

end OpenApiClient
