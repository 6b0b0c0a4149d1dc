import OpenApiClient.Document.Value

/-! # The sample document

A small service that has something of everything. A run for which no document is named reads it. -/
namespace OpenApiClient.Document.Sample

/-- The mapping of members with text keys. -/
def of (members : List (String × Value)) : Value :=
  .mapping (members.map fun m => (.text m.1, m.2))

/-- The declaration of `GET /items`. -/
def listItems : Value :=
  of [
    ("tags", .sequence [.text "items"]),
    ("operationId", .text "items/list-items"),
    ("summary", .text "List items"),
    ("description", .text "Items are returned newest first."),
    ("externalDocs", of [("url", .text "https://docs.example.com/items#list")]),
    ("parameters", .sequence [
      of [("$ref", .text "#/components/parameters/per-page")],
      of [
        ("name", .text "type"),
        ("in", .text "query"),
        ("description", .text "Only items of this type."),
        ("schema", of [("type", .text "string")])],
      of [("$ref", .text "#/components/parameters/sort")],
      of [
        ("name", .text "labels"),
        ("in", .text "query"),
        ("description", .text "Only items carrying every one of these labels."),
        ("schema", of [("type", .text "array"), ("items", of [("type", .text "string")])])],
      of [
        ("name", .text "since"),
        ("in", .text "query"),
        ("description", .text "Only items created after this <code>timestamp</code>."),
        ("schema", of [("type", .text "string"), ("format", .text "date-time")])],
      of [
        ("name", .text "archived"),
        ("in", .text "query"),
        ("schema", of [
          ("type", .text "boolean"),
          ("description", .text "Include archived items")])]]),
    ("responses", of [
      ("200", of [
        ("description", .text "OK"),
        ("content", of [
          ("application/json", of [
            ("schema", of [
              ("type", .text "array"),
              ("items", of [("$ref", .text "#/components/schemas/Item")])])])])])])]

/-- The declaration of `POST /items`. -/
def createItem : Value :=
  of [
    ("tags", .sequence [.text "items"]),
    ("operationId", .text "items/create-item"),
    ("summary", .text "Create an item"),
    ("requestBody", of [
      ("required", .bool true),
      ("content", of [
        ("application/json", of [
          ("schema", of [
            ("type", .text "object"),
            ("required", .sequence [.text "name"]),
            ("properties", of [
              ("name", of [("type", .text "string"), ("description", .text "Display name.")]),
              ("type", of [
                ("type", .text "string"),
                ("enum", .sequence [.text "tool", .text "part"])]),
              ("labels", of [
                ("type", .text "array"),
                ("items", of [("type", .text "string")])])])])])])]),
    ("responses", of [
      ("201", of [
        ("description", .text "Created"),
        ("content", of [
          ("application/json", of [
            ("schema", of [("$ref", .text "#/components/schemas/Item")])])])])])]

/-- The declaration of `GET /items/{itemId}`. -/
def getItem : Value :=
  of [
    ("tags", .sequence [.text "items"]),
    ("operationId", .text "items/get-item"),
    ("summary", .text "Get an item"),
    ("responses", of [
      ("200", of [
        ("description", .text "OK"),
        ("content", of [
          ("application/json", of [
            ("schema", of [("$ref", .text "#/components/schemas/Item")])])])])])]

/-- The declaration of `PUT /items/{itemId}`. -/
def updateItem : Value :=
  of [
    ("tags", .sequence [.text "items"]),
    ("operationId", .text "items/update-item"),
    ("summary", .text "Replace an item"),
    ("requestBody", of [("$ref", .text "#/components/requestBodies/item-update")]),
    ("responses", of [
      ("200", of [
        ("description", .text "OK"),
        ("content", of [
          ("application/json", of [
            ("schema", of [("$ref", .text "#/components/schemas/Item")])])])])])]

/-- The declaration of `DELETE /items/{itemId}`. -/
def deleteItem : Value :=
  of [
    ("tags", .sequence [.text "items"]),
    ("operationId", .text "items/delete-item"),
    ("summary", .text "Delete an item"),
    ("responses", of [("204", of [("description", .text "No Content")])])]

/-- The declaration of `GET /items/{itemId}/raw`. -/
def getRaw : Value :=
  of [
    ("tags", .sequence [.text "items"]),
    ("operationId", .text "items/get-raw"),
    ("summary", .text "Get the raw item export"),
    ("parameters", .sequence [
      of [
        ("name", .text "itemId"),
        ("in", .text "path"),
        ("required", .bool true),
        ("schema", of [("type", .text "integer")])],
      of [
        ("name", .text "X-Request-Id"),
        ("in", .text "header"),
        ("description", .text "Correlation id echoed in the logs."),
        ("schema", of [("type", .text "string")])]]),
    ("responses", of [
      ("200", of [
        ("description", .text "OK"),
        ("content", of [("text/plain", of [("schema", of [("type", .text "string")])])])])])]

/-- The declaration of `PUT /items/{itemId}/attachment`. -/
def uploadAttachment : Value :=
  of [
    ("tags", .sequence [.text "items"]),
    ("operationId", .text "items/upload-attachment"),
    ("summary", .text "Upload an attachment"),
    ("parameters", .sequence [
      of [
        ("name", .text "itemId"),
        ("in", .text "path"),
        ("required", .bool true),
        ("schema", of [("type", .text "integer")])]]),
    ("requestBody", of [
      ("content", of [
        ("application/octet-stream", of [
          ("schema", of [("type", .text "string"), ("format", .text "binary")])])])]),
    ("responses", of [("204", of [("description", .text "No Content")])])]

/-- The declaration of `GET /users/{username}`. -/
def getByUsername : Value :=
  of [
    ("tags", .sequence [.text "users"]),
    ("operationId", .text "users/get-by-username"),
    ("summary", .text "Get a user"),
    ("parameters", .sequence [
      of [
        ("name", .text "username"),
        ("in", .text "path"),
        ("required", .bool true),
        ("schema", of [("type", .text "string")])]]),
    ("responses", of [
      ("200", of [
        ("description", .text "OK"),
        ("content", of [
          ("application/json", of [
            ("schema", of [("$ref", .text "#/components/schemas/User")])])])])])]

/-- The declaration of `POST /app/installations/{installation_id}/access_tokens`. -/
def createInstallationAccessToken : Value :=
  of [
    ("tags", .sequence [.text "apps"]),
    ("operationId", .text "apps/create-installation-access-token"),
    ("summary", .text "Create an installation access token"),
    ("parameters", .sequence [
      of [
        ("name", .text "installation_id"),
        ("in", .text "path"),
        ("required", .bool true),
        ("schema", of [("type", .text "integer")])]]),
    ("requestBody", of [
      ("content", of [
        ("application/json", of [
          ("schema", of [
            ("type", .text "object"),
            ("properties", of [
              ("repositories", of [
                ("type", .text "array"),
                ("items", of [("type", .text "string")])])])])])])]),
    ("responses", of [
      ("201", of [
        ("description", .text "Created"),
        ("content", of [
          ("application/json", of [
            ("schema", of [("$ref", .text "#/components/schemas/InstallationToken")])])])])])]

/-- The shared schemas. -/
def sharedSchemas : Value :=
  of [
    ("Item", of [
      ("type", .text "object"),
      ("description", .text "Something kept in stock."),
      ("required", .sequence [.text "id", .text "name"]),
      ("properties", of [
        ("id", of [("type", .text "integer")]),
        ("name", of [("type", .text "string")]),
        ("type", of [("type", .text "string"), ("enum", .sequence [.text "tool", .text "part"])]),
        ("labels", of [("type", .text "array"), ("items", of [("type", .text "string")])]),
        ("created_at", of [("type", .text "string"), ("format", .text "date-time")]),
        ("owner", of [("$ref", .text "#/components/schemas/User")])])]),
    ("User", of [
      ("type", .text "object"),
      ("required", .sequence [.text "login"]),
      ("properties", of [
        ("login", of [("type", .text "string")]),
        ("manager", of [("$ref", .text "#/components/schemas/User")]),
        ("items", of [
          ("type", .text "array"),
          ("items", of [("$ref", .text "#/components/schemas/Item")])])])]),
    ("InstallationToken", of [
      ("type", .text "object"),
      ("required", .sequence [.text "token"]),
      ("properties", of [
        ("token", of [("type", .text "string")]),
        ("expires-at", of [("type", .text "string"), ("format", .text "date-time")])])])]

/-- The shared parameters. -/
def sharedParameters : Value :=
  of [
    ("per-page", of [
      ("name", .text "per_page"),
      ("in", .text "query"),
      ("description", .text "Results per page (max 100)."),
      ("schema", of [("type", .text "integer")])]),
    ("sort", of [
      ("name", .text "sortBy"),
      ("in", .text "query"),
      ("description", .text "The field to sort by."),
      ("schema", of [
        ("type", .text "string"),
        ("enum", .sequence [.text "created", .text "updated"])])])]

/-- The shared bodies. -/
def sharedRequestBodies : Value :=
  of [
    ("item-update", of [
      ("required", .bool true),
      ("content", of [
        ("application/json", of [
          ("schema", of [
            ("type", .text "object"),
            ("required", .sequence [.text "name"]),
            ("properties", of [
              ("name", of [("type", .text "string")]),
              ("type", of [
                ("type", .text "string"),
                ("enum", .sequence [.text "tool", .text "part"])]),
              ("labels", of [
                ("type", .text "array"),
                ("items", of [("type", .text "string")])])])])])])])]

/-- All paths. -/
def paths : Value :=
  of [
    ("/items", of [("get", listItems), ("post", createItem)]),
    ("/items/\x7bitemId\x7d", of [
      ("parameters", .sequence [
        of [
          ("name", .text "itemId"),
          ("in", .text "path"),
          ("required", .bool true),
          ("description", .text "The item identifier."),
          ("schema", of [("type", .text "integer")])]]),
      ("get", getItem),
      ("put", updateItem),
      ("delete", deleteItem)]),
    ("/items/\x7bitemId\x7d/raw", of [("get", getRaw)]),
    ("/items/\x7bitemId\x7d/attachment", of [("put", uploadAttachment)]),
    ("/users/\x7busername\x7d", of [("get", getByUsername)]),
    ("/app/installations/\x7binstallation_id\x7d/access_tokens", of [
      ("post", createInstallationAccessToken)])]

/-- The sample document. -/
def document : Value :=
  of [
    ("openapi", .text "3.0.3"),
    ("info", of [
      ("title", .text "Inventory API"),
      ("version", .text "1.2.0"),
      ("description", .text "Sample inventory service used to exercise the generator.")]),
    ("paths", paths),
    ("components", of [
      ("schemas", sharedSchemas),
      ("parameters", sharedParameters),
      ("requestBodies", sharedRequestBodies)])]

end OpenApiClient.Document.Sample
