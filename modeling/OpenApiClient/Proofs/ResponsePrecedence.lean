import OpenApiClient.Operation.Body
import OpenApiClient.Proofs.Looks
import OpenApiClient.Proofs.RegistryRuns

/-! # Precedence among the contents of a response

An operation has the type that its first response gives it. In the content of this response JSON is
looked up by its name and comes first wherever it stands; of all others the first one alone counts. So
two entries decide, and neither the rest of the content nor a later response is looked at: contents
that agree in both entries give one type and leave one registry. -/
namespace OpenApiClient.Operation

open Schema Schema.RegistryM

variable {document declaration media encoding schema : Value} {content other : Members}

/-- Whether the first response that an operation declares has a content, the references to the response
followed. A response without content has an empty one. -/
structure HasContent (document declaration : Value) (content : Members) : Prop where
  found : ∃ status first later response written,
    declaration.get "responses" = .ok (.mapping ((status, first) :: later)) ∧
      follow document first = .ok response ∧ response.get "content" = .ok written ∧
        written.orEmpty = .mapping content

/-- The type of a response is the one that its content gives it. -/
theorem HasContent.responseType_eq (h : HasContent document declaration content)
    (operation : String) :
    responseType document declaration operation = contentType document content operation := by
  obtain ⟨status, first, later, response, written, hresponses, hfollow, hwritten, hcontent⟩ := h.found
  rw [responseType, hresponses]
  -- There is a first response to follow, and its content is a mapping.
  change (liftM (follow document first) : RegistryM Value) >>= _ = _
  rw [hfollow, lift_ok_bind, hwritten, lift_ok_bind, hcontent]
  cases content <;> rfl

/-- The entry for JSON and the first entry decide about the type of a content. -/
theorem contentType_congr (hjson : Members.get? content jsonContent = Members.get? other jsonContent)
    (hfirst : content.head? = other.head?) (operation : String) :
    contentType document content operation = contentType document other operation := by
  unfold contentType
  rw [hjson]
  cases content with
  | nil =>
    obtain rfl : other = [] := List.head?_eq_none_iff.mp hfirst.symm
    rfl
  | cons first rest =>
    cases other with
    | nil => cases hfirst
    | cons next more =>
      obtain rfl : first = next := Option.some.inj hfirst
      rfl

private theorem checkEncoding_ok {contentType : String}
    (hencoding : media.get "encoding" = .ok encoding)
    (hplain : encoding.isTruthy = false) : checkEncoding media contentType = .ok () := by
  rw [checkEncoding, hencoding]
  simp [bind, Except.bind, hplain, pure, Except.pure]

/-- JSON with a schema has the type of its schema, under the name of the response. -/
theorem contentType_json (hmedia : Members.get? content jsonContent = some media)
    (hencoding : media.get "encoding" = .ok encoding) (hplain : encoding.isTruthy = false)
    (hschema : media.get "schema" = .ok schema) (htruthy : schema.isTruthy) (operation : String) :
    contentType document content operation = (do
      let type ← Schema.resolve document (some (Naming.spacedWords operation ++ " response")) schema
        false ""
      return some type) := by
  have hne : media ≠ .null := by
    rintro rfl
    cases hschema
  unfold contentType
  simp only [hmedia, Option.getD_some, ne_eq, hne, not_false_eq_true, if_true,
    checkEncoding_ok hencoding hplain, hschema, lift_ok_bind, htruthy]

/-- The response type of an operation depends on two entries of a content alone, that of its first
response: on the one for JSON and on the first one. Operations that agree in these get the same type or
the same failure, and leave the same registry. JSON with a schema and without an encoding decides alone,
wherever it stands: the type is that of the schema, under the name of the response. -/
theorem responseType_precedence (document : Value) (operation : String) (r : Registry) :
    (∀ declaration declaration' content content', HasContent document declaration content →
      HasContent document declaration' content' →
      Members.get? content jsonContent = Members.get? content' jsonContent →
      content.head? = content'.head? →
      outcome (responseType document declaration operation) r =
        outcome (responseType document declaration' operation) r) ∧
    ∀ declaration content media encoding schema, HasContent document declaration content →
      Members.get? content jsonContent = some media →
      media.get "encoding" = .ok encoding → encoding.isTruthy = false →
      media.get "schema" = .ok schema → schema.isTruthy →
      let named := outcome (Schema.resolve document
        (some (Naming.spacedWords operation ++ " response")) schema false "") r
      outcome (responseType document declaration operation) r = (named.1.map some, named.2) := by
  refine ⟨fun declaration declaration' content content' h h' hjson hfirst => ?_,
    fun declaration content media encoding schema h hmedia hencoding hplain hschema htruthy => ?_⟩
  · rw [h.responseType_eq, h'.responseType_eq, contentType_congr hjson hfirst]
  · rw [h.responseType_eq, contentType_json hmedia hencoding hplain hschema htruthy, outcome_bind]
    dsimp only
    cases outcome (Schema.resolve document (some (Naming.spacedWords operation ++ " response"))
      schema false "") r with
    | mk answer t => cases answer <;> rfl

def answering (content later : Members) : Value :=
  .mapping [(.text "responses",
    .mapping ((.text "200", .mapping [(.text "content", .mapping content)]) :: later))]

private theorem hasContent_answering (document : Value) (content later : Members) :
    HasContent document (answering content later) content :=
  ⟨_, _, _, _, _, rfl, rfl, rfl, by cases content <;> rfl⟩

def textAndJson (more : Members) : Members :=
  (.text "text/plain", .mapping [(.text "schema", .mapping [(.text "type", .text "integer")])]) ::
    (.text "application/json",
      .mapping [(.text "schema", .mapping [(.text "type", .text "string")])]) :: more

/-- What stands behind JSON, and a further response, changes neither the type nor the registry. -/
theorem responseType_precedence_textAndJson :
    let alone := answering (textAndJson []) []
    let more := answering (textAndJson [(.text "text/html", .null)]) [(.text "404", .null)]
    outcome (responseType .empty alone "list_items") {} =
        outcome (responseType .empty more "list_items") {} ∧
      (outcome (responseType .empty more "list_items") {}).1 = .ok (some 0) ∧
      (outcome (responseType .empty more "list_items") {}).2.entries =
        #[{ body := .primitive .string, name := some "ListItemsResponse" }] := by
  intro alone more
  obtain ⟨hagree, hjson⟩ := responseType_precedence .empty "list_items" {}
  have htyped := hjson more _ _ .null _ (hasContent_answering _ _ _) rfl rfl rfl rfl rfl
  refine ⟨hagree _ _ _ _ (hasContent_answering _ _ _) (hasContent_answering _ _ _) rfl rfl, ?_, ?_⟩
  · rw [htyped]
    rfl
  · rw [htyped]
    decide

end OpenApiClient.Operation
