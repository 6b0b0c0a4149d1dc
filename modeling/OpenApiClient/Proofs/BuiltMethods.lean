import OpenApiClient.Operation.Group
import OpenApiClient.Proofs.Looks
import OpenApiClient.Proofs.RegistryRuns

/-! # What a method is built of

An operation of which a method is built has an id, one tag and a path that is a text; the name of the
method comes of the id and the tag, and its address of the path and its parameters. What the registry
holds at the time has no part in any of these but the parameters. -/
namespace OpenApiClient.Operation

open Schema Schema.RegistryM

variable {document : Value} {shared : Members} {settings : Settings} {o : ListedOperation}
  {m : ClientMethod} {r t : Registry}

/-- What the parts of a method come of, but for those that the registry has a part in. -/
structure Builds (settings : Settings) (o : ListedOperation) (m : ClientMethod) : Prop where
  operation : idOf o.declaration o.method o.path = .ok m.operation
  tag : tagOf o.declaration m.operation = .ok m.tag
  path : o.path = .text m.path
  method : o.method = m.method
  address : urlCode m.path m.parameters = .ok m.urlCode
  name : ∃ reserved, settings.reserved = .ok reserved ∧
    Naming.functionName reserved m.operation m.tag = .ok m.name
  call : ∃ s s', outcome (clientCall settings m.operation m.method m.body
    (m.parameters.any (·.place == .header))) s = (.ok m.call, s')

/-- A method that is built has its parts, its parameters are classified from a registry that comes on
the way, and it is documented with them. -/
theorem build_parts (h : outcome (build document shared settings o) r = (.ok m, t)) :
    Builds settings o m ∧ (∃ declared s s',
      outcome (classifyAll document shared settings declared) s = (.ok m.parameters, s')) ∧
      docsOf o.declaration m.method m.path m.parameters = .ok m.docs := by
  obtain ⟨path, method, declaration⟩ := o
  rw [build] at h
  obtain ⟨operation, hoperation, h⟩ := lift_bind_ok_iff.mp h
  obtain ⟨tag, htag, h⟩ := lift_bind_ok_iff.mp h
  obtain ⟨body, _, -, h⟩ := bind_ok_iff.mp h
  obtain ⟨_, -, h⟩ := lift_bind_ok_iff.mp h
  obtain ⟨declared, -, h⟩ := lift_bind_ok_iff.mp h
  obtain ⟨parameters, _, hparameters, h⟩ := bind_ok_iff.mp h
  obtain ⟨response, _, -, h⟩ := bind_ok_iff.mp h
  obtain ⟨text, htext, h⟩ := lift_bind_ok_iff.mp h
  obtain ⟨code, hcode, h⟩ := lift_bind_ok_iff.mp h
  obtain ⟨call, _, hcall, h⟩ := bind_ok_iff.mp h
  obtain ⟨reserved, hreserved, h⟩ := lift_bind_ok_iff.mp h
  obtain ⟨name, hname, hm⟩ := lift_bind_ok_iff.mp h
  -- The text of the answer is written differently where there is none, and in both cases it is last.
  have hm : ∃ responseText docs, docsOf declaration method text parameters = .ok docs ∧ m =
      { operation, method, path := text, tag, name, parameters, body, response, responseText, docs,
        urlCode := code, call } := by
    cases response with
    | none =>
      obtain ⟨_, _, -, hm⟩ := bind_ok_iff.mp hm
      obtain ⟨docs, hdocs, hm⟩ := lift_bind_ok_iff.mp hm
      obtain ⟨rfl, -⟩ := pure_ok_iff.mp hm
      exact ⟨_, docs, hdocs, rfl⟩
    | some type =>
      obtain ⟨_, _, -, hm⟩ := bind_ok_iff.mp hm
      obtain ⟨_, _, -, hm⟩ := bind_ok_iff.mp hm
      obtain ⟨docs, hdocs, hm⟩ := lift_bind_ok_iff.mp hm
      obtain ⟨rfl, -⟩ := pure_ok_iff.mp hm
      exact ⟨_, docs, hdocs, rfl⟩
  obtain ⟨responseText, docs, hdocs, rfl⟩ := hm
  have hpath : Value.scalar path = .text text := asText_ok_iff.mp htext
  exact ⟨⟨hoperation, htag, Value.scalar.inj hpath, rfl, hcode, ⟨reserved, hreserved, hname⟩, _, _,
    hcall⟩, ⟨declared, _, _, hparameters⟩, hdocs⟩

theorem build_ok (h : outcome (build document shared settings o) r = (.ok m, t)) :
    Builds settings o m ∧ ∃ declared s s',
      outcome (classifyAll document shared settings declared) s = (.ok m.parameters, s') := by
  obtain ⟨hbuilds, hparameters, -⟩ := build_parts h
  exact ⟨hbuilds, hparameters⟩

theorem buildLocated_ok (h : outcome (buildLocated document shared settings o) r = (.ok m, t)) :
    outcome (build document shared settings o) r = (.ok m, t) := by
  rw [buildLocated] at h
  exact adapt_ok_iff.mp h

end OpenApiClient.Operation
