import OpenApiClient.Proofs.MethodHygiene
import OpenApiClient.Proofs.PackageModules

/-! # Escaped names

An identifier is the free identifier of its name, the one that is made where no word is reserved, with
an underscore at its end if that is reserved. It is always made of small letters, digits and underscores
and starts with no digit. But the escape is made once: whether the escaped name is reserved in its turn
is looked at nowhere, so a reserved name is made of a reserved word whose escape is reserved as well. Of
the words reserved by default none ends with an underscore, and then only the models module can be such a
name. -/
namespace OpenApiClient.Naming

variable {reserved : List String}

/-- The form of identifiers: a small Latin letter or an underscore, and then such letters, underscores
and digits. -/
structure IdentifierForm (cs : List Char) : Prop where
  first : ∃ c rest, cs = c :: rest ∧ (isSmall c ∨ c = '_')
  letters : ∀ c ∈ cs, isNameLetter c

private theorem startsPlain_first {cs : List Char} (h : startsPlain cs) :
    ∃ c rest, cs = c :: rest ∧ (isSmall c ∨ c = '_') := by
  match cs with
  | [] => cases h
  | c :: rest =>
    by_cases hc : c = '_'
    · exact ⟨c, rest, rfl, .inr hc⟩
    · exact ⟨c, rest, rfl, .inl (by cases rest <;> simpa [startsPlain, hc] using h)⟩

private theorem letters_escapeReserved {name : String} (h : ∀ c ∈ name.toList, isNameLetter c) :
    ∀ c ∈ (escapeReserved reserved name).toList, isNameLetter c := by
  unfold escapeReserved
  split
  · intro c hc
    rw [String.toList_append] at hc
    rcases List.mem_append.mp hc with hc | hc
    · exact h c hc
    · rw [List.mem_singleton.mp hc]
      rfl
  · exact h

theorem identifierForm_identifier (reserved : List String) (name : String) :
    IdentifierForm (identifier reserved name).toList where
  first := startsPlain_first (startsPlain_identifier reserved name)
  letters := by
    obtain ⟨hsnake, hne⟩ := isSnake_or_param name
    exact letters_escapeReserved (guardDigit_starts hsnake hne fun _ _ => rfl).2

theorem isWord_identifier (reserved : List String) (name : String) :
    Code.IsWord (identifier reserved name) := by
  obtain ⟨⟨first, rest, hname, -⟩, hletters⟩ := identifierForm_identifier reserved name
  exact Operation.isWord_of_letters (by simp [hname]) hletters

/-- An escaped name is reserved exactly when it was before and is after. -/
theorem escapeReserved_mem_iff {name : String} :
    escapeReserved reserved name ∈ reserved ↔ name ∈ reserved ∧ name ++ "_" ∈ reserved := by
  unfold escapeReserved
  split <;> simp_all

private theorem ne_append_underscore (name : String) : name ≠ name ++ "_" := by
  intro h
  have hlength := congrArg String.length h
  simp at hlength

/-- A text is reserved exactly when it is the models module or one of the reserved words. -/
theorem mem_reserved_iff {settings : Settings} (h : settings.reserved = .ok reserved) (word : String) :
    word ∈ reserved ↔ settings.modelsModule = .text word ∨ word ∈ settings.reservedWords := by
  unfold Settings.reserved at h
  split at h
  · rename_i name hname
    rw [← Except.ok.inj h, List.mem_cons, hname, Value.scalar.injEq, Scalar.text.injEq]
    exact or_congr_left eq_comm
  · rename_i s hnot hscalar
    have hno : settings.modelsModule ≠ .text word := fun heq =>
      hnot word (Value.scalar.inj (hscalar.symm.trans heq))
    simp [← Except.ok.inj h, hno]
  · cases h

/-- Every identifier has the form of one. It is reserved exactly when its free identifier is reserved
with and without an underscore at the end; with the words reserved by default, when the free identifier
is one of them and the models module is that word with an underscore. -/
theorem identifier_reserved_iff (reserved : List String) (name : String) :
    IdentifierForm (identifier reserved name).toList ∧
      (identifier reserved name ∈ reserved ↔
        identifier [] name ∈ reserved ∧ identifier [] name ++ "_" ∈ reserved) ∧
      ∀ settings : Settings, settings.reservedWords = Settings.defaultReservedWords →
        settings.reserved = .ok reserved →
        (identifier reserved name ∈ reserved ↔
          identifier [] name ∈ Settings.defaultReservedWords ∧
            settings.modelsModule = .text (identifier [] name ++ "_")) := by
  have hiff : identifier reserved name ∈ reserved ↔
      identifier [] name ∈ reserved ∧ identifier [] name ++ "_" ∈ reserved := by
    rw [identifier_eq_escapeReserved]
    exact escapeReserved_mem_iff
  refine ⟨identifierForm_identifier reserved name, hiff, fun settings hwords hreserved => ?_⟩
  rw [hiff, mem_reserved_iff hreserved, mem_reserved_iff hreserved, hwords,
    or_iff_left (Operation.append_underscore_not_mem_default _)]
  refine and_congr_left fun hescaped => or_iff_right fun hplain => ?_
  have heq : Value.text (identifier [] name) = .text (identifier [] name ++ "_") :=
    hplain.symm.trans hescaped
  exact ne_append_underscore _ (by simpa using heq)

/-- The name `type` is escaped to the models module `type_`. -/
theorem identifier_reserved_of_models : identifier ("type_" :: Settings.defaultReservedWords) "type" ∈
    "type_" :: Settings.defaultReservedWords :=
  ((identifier_reserved_iff _ "type").2.2 (Package.withModels "type_") rfl rfl).mpr
    (by decide)

/-- With `type` and `type_` reserved, the name `type` is given the second of them; so it is where the
models module is called `type_`. -/
theorem not_identifier_free :
    (¬ ∀ (reserved : List String) (name : String), identifier reserved name ∉ reserved) ∧
      ¬ ∀ (settings : Settings) (reserved : List String) (name : String),
        settings.reserved = .ok reserved → identifier reserved name ∉ reserved := by
  refine ⟨fun h => h ["type", "type_"] "type" (by decide), fun h => ?_⟩
  exact h (Package.withModels "type_") _ "type" rfl (by decide)

end OpenApiClient.Naming
