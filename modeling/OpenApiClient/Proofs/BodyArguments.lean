import OpenApiClient.Proofs.EscapedNames
import OpenApiClient.Proofs.MethodHygiene
import OpenApiClient.Proofs.SentParameters

/-! # Bodies as arguments

A method has an argument for the body where its operation has one, and the call of the client reads it,
unless the call is a `GET`, which has no place for a body. Where the word is not reserved a parameter can
take the name too. -/
namespace OpenApiClient

namespace Naming

private theorem identifier_ne_of_reserved {reserved : List String} {word : String} (h : word ∈ reserved)
    (hlast : word.toList.getLast? ≠ some '_') (name : String) : identifier reserved name ≠ word := by
  rw [identifier_eq_escapeReserved]
  unfold escapeReserved
  split
  · intro heq
    apply hlast
    rw [← heq]
    simp
  · rename_i hnew
    intro heq
    exact hnew (heq ▸ h)

end Naming

namespace ClientMethod

open Operation Schema Schema.RegistryM Naming Code

variable {document : Value} {shared : Members} {settings : Settings} {o : ListedOperation}
  {m : ClientMethod} {r t : Registry}

def CallReads (m : ClientMethod) (name : String) : Prop := ∃ e ∈ m.call.body, name ∈ readNames e

theorem body_mem_readNames_iff (body : Option RequestBody) :
    "body" ∈ readNames (bodyExpression body) ↔ body.isSome := by
  obtain ⟨hnone, hjson, hraw⟩ : "body" ∉ readNames "None" ∧
      "body" ∈ readNames "json.dumps(body).encode()" ∧ "body" ∈ readNames "body" := by
    decide
  cases body with
  | none => simp [bodyExpression, hnone]
  | some body =>
    cases hencoding : body.encoding <;> simp [bodyExpression, hencoding, hjson, hraw]

theorem callReads_body_iff (h : outcome (build document shared settings o) r = (.ok m, t)) :
    m.CallReads "body" ↔ m.body.isSome ∧ m.method ≠ .get := by
  obtain ⟨hbuilds, -⟩ := build_ok h
  obtain ⟨s, s', hcall⟩ := hbuilds.call
  rw [CallReads, (clientCall_ok hcall).2]
  by_cases hget : m.method = .get
  · simp [hget]
  · simp [hget, body_mem_readNames_iff]

theorem body_mem_argumentNames_iff (h : outcome (build document shared settings o) r = (.ok m, t)) :
    "body" ∈ m.argumentNames ↔ m.body.isSome ∨ ∃ p ∈ m.parameters, p.identifier = "body" := by
  obtain ⟨-, declared, s, s', hparameters⟩ := build_ok h
  obtain ⟨hclassified, -⟩ := classifyAll_ok hparameters
  have hletters : ∀ p ∈ m.parameters, ∀ c ∈ p.identifier.toList, isNameLetter c := by
    intro p hp
    obtain ⟨reserved, -, heq⟩ := (hclassified p hp).identifier
    rw [heq]
    exact (identifierForm_identifier reserved p.name).letters
  rw [argumentNames_eq hletters, List.mem_append, or_comm]
  refine or_congr ?_ List.mem_map
  cases m.body <;> simp

private theorem identifier_ne_body (h : outcome (build document shared settings o) r = (.ok m, t))
    (hreserved : "body" ∈ settings.reservedWords) : ∀ p ∈ m.parameters, p.identifier ≠ "body" := by
  obtain ⟨-, declared, s, s', hparameters⟩ := build_ok h
  intro p hp
  obtain ⟨reserved, hsettings, heq⟩ := ((classifyAll_ok hparameters).1 p hp).identifier
  rw [heq]
  apply identifier_ne_of_reserved (Settings.reservedWords_subset hsettings hreserved)
  decide

/-- A method has an argument `body` where its operation has a body or a parameter takes the name, and
its call reads it where there is a body and the method is not `GET`. Where the word is reserved no
parameter takes it, and the two agree unless the method is `GET` and has a body. -/
theorem body_agreement (h : outcome (build document shared settings o) r = (.ok m, t)) :
    ("body" ∈ m.argumentNames ↔ m.body.isSome ∨ ∃ p ∈ m.parameters, p.identifier = "body") ∧
      (m.CallReads "body" ↔ m.body.isSome ∧ m.method ≠ .get) ∧
      ("body" ∈ settings.reservedWords →
        (("body" ∈ m.argumentNames ↔ m.CallReads "body") ↔ ¬ (m.method = .get ∧ m.body.isSome))) := by
  have harguments := body_mem_argumentNames_iff h
  have hcall := callReads_body_iff h
  refine ⟨harguments, hcall, fun hreserved => ?_⟩
  have hnone : ¬ ∃ p ∈ m.parameters, p.identifier = "body" := by
    rintro ⟨p, hp, heq⟩
    exact identifier_ne_body h hreserved p hp heq
  rw [harguments, hcall, or_iff_left hnone]
  tauto

def noteOperation (method : HttpMethod) : ListedOperation where
  path := .text "/notes"
  method := method
  declaration := .mapping [(.text "tags", .sequence [.text "notes"]),
    (.text "requestBody", .mapping [(.text "content", .mapping [(.text "application/json",
      .mapping [(.text "schema", .mapping [(.text "type", .text "string")])])])]),
    (.text "responses", .mapping [(.text "204", .mapping [])])]

theorem body_agreement_note : ∃ m t,
    outcome (build .empty [] .default (noteOperation .post)) {} = (.ok m, t) ∧
      "body" ∈ m.argumentNames ∧ m.CallReads "body" := by
  have hread : (outcome (build .empty [] .default (noteOperation .post)) {}).1.map
      (fun m => (m.method, m.body.isSome)) = .ok (.post, true) := by decide +kernel
  cases hrun : outcome (build .empty [] .default (noteOperation .post)) {} with
  | mk x t =>
    rw [hrun] at hread
    obtain ⟨m, rfl, hm⟩ := except_map_ok_iff.mp hread
    obtain ⟨hmethod, hbody⟩ := Prod.mk.inj hm
    obtain ⟨hargument, hcall, -⟩ := body_agreement hrun
    exact ⟨m, t, rfl, hargument.mpr (.inl hbody), hcall.mpr ⟨hbody, by simp [hmethod]⟩⟩

def bodyParameterOperation : ListedOperation where
  path := .text "/notes"
  method := .post
  declaration := .mapping [(.text "tags", .sequence [.text "notes"]),
    (.text "parameters", .sequence [namedParameter "query" "body" "string"]),
    (.text "responses", .mapping [(.text "204", .mapping [])])]

/-- The body of a `GET` is taken and not passed on, and where no word is reserved a parameter takes the
name. -/
theorem not_always_agreed :
    (¬ ∀ (o : ListedOperation) (m : ClientMethod) (t : Registry),
      outcome (build .empty [] .default o) {} = (.ok m, t) →
        ("body" ∈ m.argumentNames ↔ m.CallReads "body")) ∧
    ¬ ∀ (settings : Settings) (o : ListedOperation) (m : ClientMethod) (t : Registry),
      outcome (build .empty [] settings o) {} = (.ok m, t) → m.method ≠ .get →
        ("body" ∈ m.argumentNames ↔ m.CallReads "body") := by
  constructor
  · intro h
    have hread : (outcome (build .empty [] .default (noteOperation .get)) {}).1.map
        (fun m => (m.argumentNames, m.call.body)) = .ok (["body"], none) := by decide +kernel
    cases hrun : outcome (build .empty [] .default (noteOperation .get)) {} with
    | mk x t =>
      rw [hrun] at hread
      obtain ⟨m, rfl, hm⟩ := except_map_ok_iff.mp hread
      obtain ⟨hnames, hcall⟩ := Prod.mk.inj hm
      have hagree := h _ m t hrun
      rw [hnames, CallReads, hcall] at hagree
      simp at hagree
  · intro h
    let settings : Settings := { Settings.default with reservedWords := [] }
    have hread : (outcome (build .empty [] settings bodyParameterOperation) {}).1.map
        (fun m => (m.method, m.argumentNames, m.call.body)) =
          .ok (.post, ["body"], some "None") := by decide +kernel
    cases hrun : outcome (build .empty [] settings bodyParameterOperation) {} with
    | mk x t =>
      rw [hrun] at hread
      obtain ⟨m, rfl, hm⟩ := except_map_ok_iff.mp hread
      obtain ⟨hmethod, hm⟩ := Prod.mk.inj hm
      obtain ⟨hnames, hcall⟩ := Prod.mk.inj hm
      have hagree := h _ _ m t hrun (by simp [hmethod])
      have hnone : "body" ∉ readNames "None" := mt (body_mem_readNames_iff none).mp nofun
      rw [hnames, CallReads, hcall] at hagree
      simp [hnone] at hagree

end ClientMethod

end OpenApiClient
