import OpenApiClient.Proofs.Looks
import OpenApiClient.Proofs.TextParts
import OpenApiClient.Proofs.ValueNodes
import OpenApiClient.Schema.Flatten
import OpenApiClient.Schema.Shape

/-! # Documents with blank descriptions

Documents that differ in the texts of descriptions alone are the same once these are blank. A text
under `description` is a description unless the key is the name of a property or of a schema. Every
look into a value, other than at a description, commutes with blanking. -/
namespace OpenApiClient

namespace Value

def isText : Value → Bool
  | .text _ => true
  | _ => false

mutual

/-- The value with blank descriptions. Where the keys are names none of them is a description. -/
def blankedIn (names : Bool) : Value → Value
  | .scalar s => .scalar s
  | .sequence items => .sequence (blankedItems items)
  | .mapping ms => .mapping (blankedMembers names ms)

def blankedItems : List Value → List Value
  | [] => []
  | v :: rest => blankedIn false v :: blankedItems rest

def blankedMembers (names : Bool) : List (Scalar × Value) → List (Scalar × Value)
  | [] => []
  | (k, v) :: rest =>
    (k, if !names && k == .text "description" && v.isText then .text ""
      else blankedIn (!names && k == .text "properties") v) :: blankedMembers names rest

end

def blanked (v : Value) : Value := v.blankedIn false

def blankedMember (names : Bool) (key : Scalar) (v : Value) : Value :=
  if !names && key == .text "description" && v.isText then .text ""
  else blankedIn (!names && key == .text "properties") v

/-- The components of a document, with blank descriptions. The keys of `schemas` are names. -/
def blankedComponents : Value → Value
  | .mapping ms => .mapping (ms.map fun m => (m.1, m.2.blankedIn (m.1 == .text "schemas")))
  | v => v.blanked

def blankedDocument : Value → Value
  | .mapping ms => .mapping (ms.map fun m =>
      (m.1, if m.1 = .text "components" then m.2.blankedComponents else m.2.blanked))
  | v => v.blanked

end Value

def Members.blanked (names : Bool) (ms : Members) : Members :=
  ms.map fun m => (m.1, m.2.blankedMember names m.1)

namespace Value

variable {v w : Value} {names : Bool} {key : String} {ms : Members}

theorem exists_text_of_isText (h : v.isText = true) : ∃ text, v = .text text := by
  unfold isText at h
  split at h
  · exact ⟨_, rfl⟩
  · cases h

@[simp] theorem blankedIn_scalar (names : Bool) (s : Scalar) :
    (Value.scalar s).blankedIn names = .scalar s := by
  rw [blankedIn]

@[simp] theorem blankedIn_sequence (names : Bool) (items : List Value) :
    (Value.sequence items).blankedIn names = .sequence (items.map blanked) := by
  have hitems : blankedItems items = items.map blanked := by
    induction items with
    | nil => rw [blankedItems, List.map_nil]
    | cons v rest ih => rw [blankedItems, ih, List.map_cons, blanked]
  rw [blankedIn, hitems]

@[simp] theorem blankedIn_mapping (names : Bool) (ms : Members) :
    (Value.mapping ms).blankedIn names = .mapping (ms.blanked names) := by
  have hmembers : blankedMembers names ms = ms.blanked names := by
    induction ms with
    | nil => rw [blankedMembers, Members.blanked, List.map_nil]
    | cons m rest ih =>
      obtain ⟨k, v⟩ := m
      rw [blankedMembers, ih]
      rfl
  rw [blankedIn, hmembers]

@[simp] theorem blanked_scalar (s : Scalar) : (Value.scalar s).blanked = .scalar s :=
  blankedIn_scalar false s

@[simp] theorem blanked_mapping (ms : Members) :
    (Value.mapping ms).blanked = .mapping (ms.blanked false) :=
  blankedIn_mapping false ms

/-- Where the keys are names, all members are schemas. -/
@[simp] theorem blankedMember_true (key : Scalar) (v : Value) :
    v.blankedMember true key = v.blanked := rfl

@[simp] theorem blankedMember_null (names : Bool) (key : Scalar) :
    Value.null.blankedMember names key = .null := by
  simp [blankedMember, isText]

theorem blankedMember_properties (v : Value) :
    v.blankedMember false (.text "properties") = v.blankedIn true := by
  simp [blankedMember]

theorem blankedMember_of_ne (hdescription : key ≠ "description") (hproperties : key ≠ "properties")
    (v : Value) : v.blankedMember false (.text key) = v.blanked := by
  have hother : (Scalar.text key == .text "properties") = false := by simpa using hproperties
  simp [blankedMember, blanked, hdescription, hother]

@[simp] theorem blankedIn_eq_scalar_iff {s : Scalar} :
    v.blankedIn names = .scalar s ↔ v = .scalar s := by
  cases v <;> simp

@[simp] theorem isTruthy_blankedIn (names : Bool) (v : Value) :
    (v.blankedIn names).isTruthy = v.isTruthy := by
  cases v with
  | scalar s => simp
  | sequence items => cases items <;> simp [isTruthy]
  | mapping ms => cases ms <;> simp [isTruthy, Members.blanked]

@[simp] theorem orEmpty_blankedIn (names : Bool) (v : Value) :
    (v.blankedIn names).orEmpty = v.orEmpty.blankedIn names := by
  rw [orEmpty, orEmpty, isTruthy_blankedIn]
  split
  · rfl
  · simp [Members.blanked]

@[simp] theorem orNone_blankedIn (names : Bool) (v : Value) :
    (v.blankedIn names).orNone = v.orNone.blankedIn names := by
  rw [orNone, orNone, isTruthy_blankedIn]
  split
  · rfl
  · simp

@[simp] theorem members_blankedIn (names : Bool) (v : Value) :
    (v.blankedIn names).members = v.members.map (Members.blanked names) := by
  cases v <;> simp [members, Except.map]

@[simp] theorem asText_blankedIn (names : Bool) (v : Value) :
    (v.blankedIn names).asText = v.asText := by
  cases v <;> simp [asText]

@[simp] theorem asScalar_blankedIn (names : Bool) (v : Value) :
    (v.blankedIn names).asScalar = v.asScalar := by
  cases v <;> simp [asScalar]

end Value

namespace Members

variable {names : Bool} {key : String}

@[simp] theorem blanked_cons (names : Bool) (m : Scalar × Value) (rest : Members) :
    blanked names (m :: rest) = (m.1, m.2.blankedMember names m.1) :: blanked names rest := rfl

theorem get?_map (f : Scalar → Value → Value) (ms : Members) (key : String) :
    get? (ms.map fun m => (m.1, f m.1 m.2)) key = (get? ms key).map (f (.text key)) := by
  induction ms with
  | nil => rfl
  | cons m rest ih =>
    obtain ⟨k, v⟩ := m
    rw [List.map_cons, get?_cons, get?_cons]
    split
    · rename_i hkey
      rw [hkey, Option.map_some]
    · exact ih

theorem get?_blanked (names : Bool) (ms : Members) (key : String) :
    get? (ms.blanked names) key = (get? ms key).map (Value.blankedMember names (.text key)) :=
  get?_map (fun k v => v.blankedMember names k) ms key

@[simp] theorem has_blanked (names : Bool) (ms : Members) (key : String) :
    has (ms.blanked names) key = has ms key := by
  rw [has, get?_blanked, Option.isSome_map, has]

theorem erase_blanked (names : Bool) (ms : Members) (key : String) :
    erase (ms.blanked names) key = (erase ms key).blanked names := by
  rw [erase, blanked, List.filter_map, blanked, erase]
  rfl

/-- Setting a member commutes with blanking where this treats both keys alike. -/
theorem set_blanked {k : Scalar} {v : Value} (ms : Members)
    (h : ∀ m ∈ ms, m.1.sameKey k → v.blankedMember names m.1 = v.blankedMember names k) :
    set (ms.blanked names) k (v.blankedMember names k) = (set ms k v).blanked names := by
  have hany : (ms.blanked names).any (fun m => m.1.sameKey k) = ms.any fun m => m.1.sameKey k := by
    rw [blanked, List.any_map]
    rfl
  rw [set, hany, set]
  split
  · rw [blanked, List.map_map, blanked, List.map_map]
    refine List.map_congr_left fun m hm => ?_
    simp only [Function.comp_apply]
    split
    · rename_i hkey
      rw [h m hm hkey]
    · rfl
  · simp [blanked]

theorem set_text_blanked (names : Bool) (ms : Members) (key : String) (v : Value) :
    set (ms.blanked names) (.text key) (v.blankedMember names (.text key)) =
      (set ms (.text key) v).blanked names :=
  set_blanked ms fun _ _ hkey => by rw [Scalar.sameKey_text_iff.mp hkey]

theorem setAll_blanked (ms more : Members) :
    setAll (ms.blanked true) (more.blanked true) = (setAll ms more).blanked true := by
  induction more generalizing ms with
  | nil => rfl
  | cons m rest ih =>
    have hset : set (ms.blanked true) m.1 (m.2.blankedMember true m.1) =
        (set ms m.1 m.2).blanked true :=
      set_blanked ms fun _ _ _ => rfl
    rw [blanked_cons, setAll, List.foldl_cons, hset, setAll, List.foldl_cons]
    exact ih _

end Members

namespace Value

variable {names : Bool} {key : String} {ms : Members}

@[simp] theorem contains_scalar_blanked (items : List Value) (s : Scalar) :
    (items.map blanked).contains (.scalar s) = items.contains (.scalar s) := by
  rw [Bool.eq_iff_iff]
  simp [blanked]

@[simp] theorem mentions_blankedIn (names : Bool) (v : Value) (key : String) :
    (v.blankedIn names).mentions key = v.mentions key := by
  cases v with
  | scalar s => rw [blankedIn_scalar]
  | sequence items =>
    rw [blankedIn_sequence, mentions, contains_scalar_blanked, mentions]
  | mapping ms => simp

@[simp] theorem elements_blankedIn (names : Bool) (v : Value) :
    (v.blankedIn names).elements = v.elements.map (List.map blanked) := by
  cases v with
  | scalar s => cases s <;> simp [elements, Except.map]
  | sequence items => simp [elements, Except.map]
  | mapping ms => simp [elements, Except.map, Members.blanked]

theorem get?_blanked (v : Value) (key : String) :
    v.blanked.get? key = (v.get? key).map (Option.map (blankedMember false (.text key))) := by
  rw [get?, blanked, members_blankedIn, get?]
  cases v.members with
  | error fault => rfl
  | ok ms => exact congrArg Except.ok (Members.get?_blanked false ms key)

theorem get_blanked (v : Value) (key : String) :
    v.blanked.get key = (v.get key).map (blankedMember false (.text key)) := by
  rw [get, get?_blanked, get]
  cases v.get? key with
  | error fault => rfl
  | ok found => cases found <;> simp [Except.map]

theorem require_blanked (v : Value) (key : String) :
    v.blanked.require key = (v.require key).map (blankedMember false (.text key)) := by
  rw [require, get?_blanked, require]
  cases v.get? key with
  | error fault => rfl
  | ok found => cases found <;> rfl

private theorem asPair_blanked (v : Value) :
    v.blanked.asPair = v.asPair.map fun m => (m.1, m.2.blanked) := by
  rw [asPair, blanked, elements_blankedIn, asPair]
  rcases v.elements with fault | (_ | ⟨x, _ | ⟨y, _ | ⟨z, rest⟩⟩⟩)
  · rfl
  · rfl
  · rfl
  · have hkey : x.blanked.asScalar = x.asScalar := asScalar_blankedIn false x
    simp only [Except.map, bind, Except.bind, List.map_cons, List.map_nil, hkey]
    cases x.asScalar <;> rfl
  · rfl

theorem entries_blankedIn (v : Value) :
    (v.blankedIn true).entries = v.entries.map (Members.blanked true) := by
  have hpairs : ((v.blankedIn true).elements >>= fun parts => parts.mapM asPair) =
      (v.elements >>= fun parts => parts.mapM asPair).map (Members.blanked true) := by
    rw [elements_blankedIn]
    exact bind_map fun parts _ => mapM_map fun part _ => asPair_blanked part
  cases v with
  | mapping ms => simp [entries, Except.map]
  | scalar s => simpa [entries] using hpairs
  | sequence items => simpa [entries] using hpairs

theorem weightMembers_map {f : Scalar → Value → Value}
    (h : ∀ m ∈ ms, (f m.1 m.2).weight = m.2.weight) :
    weightMembers (ms.map fun m => (m.1, f m.1 m.2)) = weightMembers ms := by
  induction ms with
  | nil => rfl
  | cons m rest ih =>
    obtain ⟨hm, hrest⟩ := List.forall_mem_cons.mp h
    rw [List.map_cons, weightMembers, weightMembers, hm, ih hrest]

theorem weight_blankedIn (names : Bool) (v : Value) : (v.blankedIn names).weight = v.weight := by
  induction v generalizing names with
  | scalar s => simp
  | sequence items ih =>
    have hitems : weightItems (items.map blanked) = weightItems items := by
      clear * - ih
      induction items with
      | nil => rfl
      | cons v rest hrest =>
        obtain ⟨hv, ih⟩ := List.forall_mem_cons.mp ih
        rw [List.map_cons, weightItems, weightItems, hrest ih, blanked, hv]
    rw [blankedIn_sequence, weight, weight, hitems]
  | mapping ms ih =>
    rw [blankedIn_mapping, weight, Members.blanked, weightMembers_map fun m hm => ?_, weight]
    rw [blankedMember]
    split
    · rename_i htext
      simp only [Bool.and_eq_true] at htext
      cases hvalue : m.2 with
      | scalar s => simp [weight]
      | sequence items => simp [hvalue, isText] at htext
      | mapping ms => simp [hvalue, isText] at htext
    · exact ih m hm _

theorem weight_blankedDocument (v : Value) : v.blankedDocument.weight = v.weight := by
  have hcomponents : ∀ w : Value, w.blankedComponents.weight = w.weight := by
    intro w
    cases w with
    | scalar s => exact weight_blankedIn false _
    | sequence items => exact weight_blankedIn false _
    | mapping ms =>
      rw [blankedComponents, weight, weight,
        weightMembers_map (f := fun k v => v.blankedIn (k == .text "schemas")) fun m _ =>
          weight_blankedIn _ m.2]
  cases v with
  | scalar s => exact weight_blankedIn false _
  | sequence items => exact weight_blankedIn false _
  | mapping ms =>
    rw [blankedDocument, weight, weight, weightMembers_map
      (f := fun k v => if k = .text "components" then v.blankedComponents else v.blanked)
      fun m _ => ?_]
    split
    · exact hcomponents m.2
    · exact weight_blankedIn false m.2

end Value

namespace Schema

private theorem namesModel_blanked (names : Bool) (ms : Members) :
    namesModel (ms.blanked names) = namesModel ms := by
  have htype : Members.get? (ms.blanked names) "type" = some (.text "object") ↔
      Members.get? ms "type" = some (.text "object") := by
    rw [Members.get?_blanked]
    cases names with
    | true => simp [Value.blanked]
    | false => simp [Value.blankedMember_of_ne, Value.blanked]
  rw [namesModel, Members.has_blanked, Members.has_blanked, namesModel, decide_eq_decide.mpr htype]

/-- Descriptions do not occur in the shape of a schema. -/
theorem shapeIn_blankedIn (names : Bool) (v : Value) :
    shapeIn names (v.blankedIn names) = shapeIn names v := by
  induction v generalizing names with
  | scalar s => simp
  | sequence items ih =>
    have hitems : shapeItems (items.map Value.blanked) = shapeItems items := by
      induction items with
      | nil => rfl
      | cons v rest hrest =>
        obtain ⟨hv, ih⟩ := List.forall_mem_cons.mp ih
        rw [List.map_cons, shapeItems, shapeItems, hrest ih, Value.blanked, hv]
    rw [Value.blankedIn_sequence, shapeIn, shapeIn, hitems]
  | mapping ms ih =>
    have hmembers : ∀ named, shapeMembers names named (Members.blanked names ms) =
        shapeMembers names named ms := by
      intro named
      induction ms with
      | nil => rfl
      | cons m rest hrest =>
        obtain ⟨k, v⟩ := m
        obtain ⟨hv, ih⟩ := List.forall_mem_cons.mp ih
        rw [Members.blanked_cons, shapeMembers, shapeMembers, hrest ih]
        split
        · rfl
        · rename_i hkept
          congr 2
          rw [Value.blankedMember]
          split
          · rename_i htext
            simp only [Bool.and_eq_true, Bool.not_eq_true', beq_iff_eq] at htext
            obtain ⟨⟨rfl, rfl⟩, -⟩ := htext
            exact absurd (by cases named <;> rfl) hkept
          · rw [Bool.and_comm]
            exact hv _
    rw [Value.blankedIn_mapping, shapeIn, shapeIn, namesModel_blanked, hmembers]

def schemaPrefix : String := "#/components/schemas/"

/-- Whether a reference names a schema of the document, and nothing within it. -/
def NamesSchema (reference : String) : Prop :=
  ∃ name : String, '/' ∉ name.toList ∧ reference = schemaPrefix ++ name

theorem steps?_schemaPrefix {name : String} (h : '/' ∉ name.toList) :
    Pointer.steps? (schemaPrefix ++ name) =
      some ["components", "schemas", String.ofList (Pointer.decodeStep name.toList)] := by
  have hname : ∀ c ∈ name.toList, (c == '/') = false := by
    intro c hc
    simpa using fun hslash : c = '/' => h (hslash ▸ hc)
  have htext : (schemaPrefix ++ name).toList =
      '#' :: '/' :: ("components".toList ++ '/' :: ("schemas".toList ++ '/' :: name.toList)) := by
    rw [String.toList_append]
    rfl
  have hfields : Text.fields (· == '/')
      ("components".toList ++ '/' :: ("schemas".toList ++ '/' :: name.toList)) =
      ["components".toList, "schemas".toList, name.toList] := by
    rw [Text.fields_append _ _ (by simp) rfl, Text.fields_append _ _ (by simp) rfl,
      Text.fields_eq_singleton hname]
  rw [Pointer.steps?, htext]
  simp only [hfields, List.map_cons, List.map_nil]
  rfl

/-- A step into a mapping whose values are mapped leads to what the value is mapped to. -/
theorem step_map (f : Scalar → Value → Value) (ms : Members) (part : String) :
    Pointer.step (.mapping (ms.map fun m => (m.1, f m.1 m.2))) part =
      (Pointer.step (.mapping ms) part).map (f (.text part)) := by
  rw [Pointer.step, Members.get?_map, Pointer.step]
  cases Members.get? ms part <;> rfl

private theorem step_blankedDocument (v : Value) :
    Pointer.step v.blankedDocument "components" =
      (Pointer.step v "components").map Value.blankedComponents := by
  cases v with
  | scalar s => rfl
  | sequence items => rfl
  | mapping ms =>
    exact step_map (fun k v => if k = .text "components" then v.blankedComponents else v.blanked)
      ms "components"

private theorem step_blankedComponents (v : Value) :
    Pointer.step v.blankedComponents "schemas" =
      (Pointer.step v "schemas").map (Value.blankedIn true) := by
  cases v with
  | scalar s => rfl
  | sequence items => rfl
  | mapping ms => exact step_map (fun k v => v.blankedIn (k == .text "schemas")) ms "schemas"

private theorem step_blankedIn (v : Value) (part : String) :
    Pointer.step (v.blankedIn true) part = (Pointer.step v part).map Value.blanked := by
  cases v with
  | scalar s => simp [Pointer.step, Except.map]
  | sequence items =>
    rw [Value.blankedIn_sequence, Pointer.step, Pointer.step]
    split
    · rfl
    · split
      · rfl
      · rename_i index _
        rw [List.getElem?_map]
        cases items[index]? <;> rfl
  | mapping ms =>
    rw [Value.blankedIn_mapping]
    exact step_map _ ms part

/-- A schema of the document is found with its descriptions blank in the document with blank
descriptions. -/
theorem lookup_blankedDocument {reference : String} (h : NamesSchema reference)
    (document : Value) :
    lookup document.blankedDocument reference = (lookup document reference).map Value.blanked := by
  obtain ⟨name, hname, rfl⟩ := h
  have hresolve : document.blankedDocument.resolve (schemaPrefix ++ name) =
      (document.resolve (schemaPrefix ++ name)).map Value.blanked := by
    simp only [Value.resolve, steps?_schemaPrefix hname, List.foldlM_cons, List.foldlM_nil,
      step_blankedDocument]
    refine bind_map fun components _ => ?_
    rw [step_blankedComponents]
    refine bind_map fun schemas _ => ?_
    rw [step_blankedIn]
    exact bind_map fun _ _ => rfl
  rw [lookup, hresolve, lookup]
  rcases document.resolve (schemaPrefix ++ name) with fault | ⟨s | items | ms⟩
  · cases fault <;> rfl
  · simp [Except.map]
  · simp [Except.map, Value.blanked]
  · simp [Except.map]

end Schema

end OpenApiClient
