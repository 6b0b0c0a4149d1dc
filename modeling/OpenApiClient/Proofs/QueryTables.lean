import OpenApiClient.Proofs.MethodHygiene
import OpenApiClient.Proofs.ParameterFaults
import OpenApiClient.Proofs.TableKeys

/-! # Query tables keep what is sent

The parameters of an operation are classified one after the other, and the first one whose identifier
is taken ends that. The query table goes by names instead. Since the identifier comes of the name,
parameters with different identifiers have different names, so that the table holds all of them. -/
namespace OpenApiClient.Operation

open Schema Schema.RegistryM

variable {document : Value} {shared : Members} {settings : Settings} {r t : Registry}
  {parameter : Value} {parameters : List Value} {classified ps qs : List Parameter}

/-- What is told of two parameters that share an identifier. -/
def sharedIdentifier (first p : Parameter) : Failure :=
  { cause := .duplicateParameter (.text p.identifier) (.text first.name) (.text p.name) }

def classifyNext (document : Value) (shared : Members) (settings : Settings)
    (classified : List Parameter) (parameter : Value) : RegistryM (List Parameter) := do
  let p ← classify document shared settings parameter
  match classified.find? (·.identifier == p.identifier) with
  | some first => throw (.failure (sharedIdentifier first p))
  | none => return classified ++ [p]

theorem classifyAll_eq : classifyAll document shared settings parameters =
    parameters.foldlM (classifyNext document shared settings) [] := rfl

private theorem of_find?_identifier {first p : Parameter}
    (h : classified.find? (·.identifier == p.identifier) = some first) :
    first ∈ classified ∧ first.identifier = p.identifier :=
  ⟨List.mem_of_find?_eq_some h, by simpa using List.find?_some h⟩

theorem find?_identifier_eq_none_iff {p : Parameter} :
    classified.find? (·.identifier == p.identifier) = none ↔
      p.identifier ∉ classified.map Parameter.identifier := by
  simp [List.find?_eq_none]

theorem classifyNext_ok_iff :
    outcome (classifyNext document shared settings classified parameter) r = (.ok ps, t) ↔
      ∃ p, outcome (classify document shared settings parameter) r = (.ok p, t) ∧
        p.identifier ∉ classified.map Parameter.identifier ∧ ps = classified ++ [p] := by
  simp only [classifyNext, bind_ok_iff]
  constructor
  · rintro ⟨p, s, hp, h⟩
    split at h
    · simp at h
    · rename_i hnone
      obtain ⟨rfl, rfl⟩ := pure_ok_iff.mp h
      exact ⟨p, hp, find?_identifier_eq_none_iff.mp hnone, rfl⟩
  · rintro ⟨p, hp, hnew, rfl⟩
    refine ⟨p, t, hp, ?_⟩
    rw [find?_identifier_eq_none_iff.mpr hnew]
    rfl

/-- One parameter more fails by itself, or because its identifier is taken. -/
theorem classifyNext_error_iff {fault : Fault} :
    outcome (classifyNext document shared settings classified parameter) r = (.error fault, t) ↔
      outcome (classify document shared settings parameter) r = (.error fault, t) ∨
        ∃ p first, outcome (classify document shared settings parameter) r = (.ok p, t) ∧
          classified.find? (·.identifier == p.identifier) = some first ∧
          fault = .failure (sharedIdentifier first p) := by
  simp only [classifyNext, bind_error_iff]
  refine or_congr_right ⟨?_, ?_⟩
  · rintro ⟨p, s, hp, h⟩
    split at h
    · rename_i first hfirst
      simp only [outcome_throw, Prod.mk.injEq, Except.error.injEq] at h
      obtain ⟨rfl, rfl⟩ := h
      exact ⟨p, first, hp, hfirst, rfl⟩
    · simp at h
  · rintro ⟨p, first, hp, hfirst, rfl⟩
    refine ⟨p, t, hp, ?_⟩
    rw [hfirst]
    rfl

/-- Parameters are added to those that are classified when each of them is classified and all
identifiers are different. -/
theorem foldlM_classifyNext_ok_iff (hclassified : (classified.map Parameter.identifier).Nodup) :
    outcome (parameters.foldlM (classifyNext document shared settings) classified) r =
        (.ok ps, t) ↔
      ∃ qs, outcome (parameters.mapM (classify document shared settings)) r = (.ok qs, t) ∧
        ps = classified ++ qs ∧ (ps.map Parameter.identifier).Nodup := by
  induction parameters generalizing classified r with
  | nil =>
    simp only [List.foldlM_nil, outcome_pure, mapM_nil_outcome, Prod.mk.injEq, Except.ok.injEq]
    constructor
    · rintro ⟨rfl, rfl⟩
      exact ⟨[], ⟨rfl, rfl⟩, by simp, hclassified⟩
    · rintro ⟨_, ⟨rfl, rfl⟩, rfl, -⟩
      exact ⟨by simp, rfl⟩
  | cons parameter parameters ih =>
    simp only [List.foldlM_cons, bind_ok_iff, classifyNext_ok_iff, mapM_cons_ok_iff]
    constructor
    · rintro ⟨_, s, ⟨p, hp, hnew, rfl⟩, hrest⟩
      have hnext : ((classified ++ [p]).map Parameter.identifier).Nodup := by
        rw [List.map_append, List.map_singleton, ← List.concat_eq_append]
        exact hclassified.concat hnew
      obtain ⟨qs, hqs, rfl, hnodup⟩ := (ih hnext).mp hrest
      exact ⟨p :: qs, ⟨p, s, qs, hp, hqs, rfl⟩, by simp, hnodup⟩
    · rintro ⟨_, ⟨p, s, qs, hp, hqs, rfl⟩, rfl, hnodup⟩
      have happend : classified ++ p :: qs = (classified ++ [p]) ++ qs := by simp
      rw [happend, List.map_append] at hnodup
      have hnext := (List.nodup_append.mp hnodup).1
      have hnew : p.identifier ∉ classified.map Parameter.identifier := by
        rw [List.map_append, List.map_singleton] at hnext
        exact fun hmem => (List.nodup_append.mp hnext).2.2 _ hmem _ (by simp) rfl
      refine ⟨_, s, ⟨p, hp, hnew, rfl⟩, (ih hnext).mpr ⟨qs, hqs, happend, ?_⟩⟩
      rw [happend, List.map_append]
      exact hnodup

/-- All parameters are classified when each of them is, in their order, and their identifiers are
different. -/
theorem classifyAll_ok_iff :
    outcome (classifyAll document shared settings parameters) r = (.ok ps, t) ↔
      outcome (parameters.mapM (classify document shared settings)) r = (.ok ps, t) ∧
        (ps.map Parameter.identifier).Nodup := by
  have hnone : (([] : List Parameter).map Parameter.identifier).Nodup := .nil
  rw [classifyAll_eq, foldlM_classifyNext_ok_iff hnone]
  simp

/-- That an identifier is shared is told exactly of the first parameter that takes one again, when it
and all before it are classified. -/
theorem classifyAll_shared_iff {f : Failure} (hkind : f.cause.kind = .duplicateParameter) :
    outcome (classifyAll document shared settings parameters) r = (.error (.failure f), t) ↔
      ∃ before parameter after ps p first, parameters = before ++ parameter :: after ∧
        outcome ((before ++ [parameter]).mapM (classify document shared settings)) r =
          (.ok (ps ++ [p]), t) ∧
        (ps.map Parameter.identifier).Nodup ∧ first ∈ ps ∧ first.identifier = p.identifier ∧
        f = sharedIdentifier first p := by
  rw [classifyAll_eq, foldlM_fault_iff]
  simp only [classifyNext_error_iff, mapM_append_ok_iff, mapM_cons_ok_iff, mapM_nil_outcome,
    Prod.mk.injEq, Except.ok.injEq]
  constructor
  · rintro ⟨before, parameter, after, ps, s, rfl, hbefore, herror | ⟨p, first, hp, hfirst, hf⟩⟩
    · exact absurd hkind (classify_classifies _ _ _ _ _ _ _ herror).kind_ne
    · obtain ⟨hps, hnodup⟩ := classifyAll_ok_iff.mp hbefore
      obtain ⟨hmem, hsame⟩ := of_find?_identifier hfirst
      refine ⟨before, parameter, after, ps, p, first, rfl, ?_, hnodup, hmem, hsame,
        Fault.failure.inj hf⟩
      exact ⟨ps, s, [p], hps, ⟨p, t, [], hp, ⟨rfl, rfl⟩, rfl⟩, rfl⟩
  · rintro ⟨before, parameter, after, ps, p, first, rfl,
      ⟨_, s, _, hps, ⟨_, _, _, hp, ⟨rfl, rfl⟩, rfl⟩, happend⟩, hnodup, hfirst, hsame, rfl⟩
    obtain ⟨rfl, hlast⟩ := List.append_inj' happend rfl
    obtain rfl := List.singleton_inj.mp hlast
    refine ⟨before, parameter, after, ps, s, rfl, classifyAll_ok_iff.mpr ⟨hps, hnodup⟩,
      .inr ⟨p, first, hp, ?_, rfl⟩⟩
    -- No other of them has the identifier, so that the first one found is this.
    cases hfound : ps.find? (·.identifier == p.identifier) with
    | none =>
      have hnew := find?_identifier_eq_none_iff.mp hfound
      exact absurd (List.mem_map.mpr ⟨first, hfirst, hsame⟩) hnew
    | some found =>
      obtain ⟨hmem, hidentifier⟩ := of_find?_identifier hfound
      rw [List.inj_on_of_nodup_map hnodup hmem hfirst (hidentifier.trans hsame.symm)]

/-! ## The table -/

def bindingOf (p : Parameter) : String × Url.Binding :=
  (p.name, ⟨p.expression, p.condition⟩)

theorem nodup_names (h : ∀ p ∈ ps, Classified settings p)
    (hnodup : (ps.map Parameter.identifier).Nodup) : (ps.map Parameter.name).Nodup := by
  cases hreserved : settings.reserved with
  | error fault =>
    cases ps with
    | nil => exact .nil
    | cons p rest =>
      obtain ⟨reserved, hok, -⟩ := (h p List.mem_cons_self).identifier
      cases hreserved.symm.trans hok
  | ok reserved =>
    have hidentifiers : ps.map Parameter.identifier =
        (ps.map Parameter.name).map (Naming.identifier reserved) := by
      rw [List.map_map]
      refine List.map_congr_left fun p hp => ?_
      obtain ⟨words, hok, hidentifier⟩ := (h p hp).identifier
      rw [hidentifier, Except.ok.inj (hreserved.symm.trans hok)]
      rfl
    exact .of_map _ (hidentifiers ▸ hnodup)

theorem nodup_bindings (h : (ps.map Parameter.name).Nodup) :
    (((ps.filter Parameter.inQueryTable).map bindingOf).map Prod.fst).Nodup := by
  rw [List.map_map]
  exact h.sublist (List.filter_sublist.map _)

/-- Parameters of different names stand in the query table as they are, sorted by name. -/
theorem queryTable_eq (h : (ps.map Parameter.name).Nodup) :
    queryTable ps = Table.sorted ((ps.filter Parameter.inQueryTable).map bindingOf) :=
  congrArg Table.sorted (Table.ofList_eq_self (nodup_bindings h))

/-- Parameters that are classified together are what each of them is classified as, in their order.
Their identifiers and their names are different. The query table binds the name of each parameter that
is sent in it to what that parameter says, and nothing else; its names strictly increase, and it does
not depend on the order of the parameters. That two parameters share an identifier is told exactly where
one takes an identifier again, and it and those before it are classified: with the names of both. -/
theorem queries_of_classified (document : Value) (shared : Members) (settings : Settings)
    (parameters : List Value) (r : Registry) :
    (∀ ps t, outcome (classifyAll document shared settings parameters) r = (.ok ps, t) →
      outcome (parameters.mapM (classify document shared settings)) r = (.ok ps, t) ∧
      ps.length = parameters.length ∧
      (ps.map Parameter.identifier).Nodup ∧ (ps.map Parameter.name).Nodup ∧
      (queryTable ps).Perm ((ps.filter Parameter.inQueryTable).map bindingOf) ∧
      ((queryTable ps).map Prod.fst).Pairwise (· < ·) ∧
      ∀ qs, ps.Perm qs → queryTable qs = queryTable ps) ∧
    ∀ f t, f.cause.kind = .duplicateParameter →
      (outcome (classifyAll document shared settings parameters) r = (.error (.failure f), t) ↔
        ∃ before parameter after ps p first, parameters = before ++ parameter :: after ∧
          outcome ((before ++ [parameter]).mapM (classify document shared settings)) r =
            (.ok (ps ++ [p]), t) ∧
          (ps.map Parameter.identifier).Nodup ∧ first ∈ ps ∧ first.identifier = p.identifier ∧
          f = { cause := .duplicateParameter (.text p.identifier) (.text first.name)
                  (.text p.name) }) := by
  refine ⟨fun ps t h => ?_, fun f t hkind => classifyAll_shared_iff hkind⟩
  obtain ⟨hmapM, hidentifiers⟩ := classifyAll_ok_iff.mp h
  have hnames := nodup_names (classifyAll_ok h).1 hidentifiers
  have hkeys := nodup_bindings hnames
  refine ⟨hmapM, length_of_mapM_ok hmapM, hidentifiers, hnames, ?_, ?_, fun qs hperm => ?_⟩
  · rw [queryTable_eq hnames]
    exact List.mergeSort_perm _ _
  · rw [queryTable_eq hnames]
    exact strict_mergeSort_key hkeys
  · have hsame : ((qs.filter Parameter.inQueryTable).map bindingOf).Perm
        ((ps.filter Parameter.inQueryTable).map bindingOf) := (hperm.symm.filter _).map _
    rw [queryTable_eq hnames, queryTable_eq ((hperm.map _).nodup_iff.mp hnames)]
    exact mergeSort_key_eq_of_perm ((hsame.map _).nodup_iff.mpr hkeys) hsame

def queryNamed (name : String) : Value :=
  .mapping [(.text "in", .text "query"), (.text "name", .text name),
    (.text "schema", .mapping [(.text "type", .text "string")])]

def queriesOf (names : List String) : Except Fault (List Parameter) × Registry :=
  outcome (classifyAll .empty [] .default (names.map queryNamed)) {}

/-- Two parameters are sorted into their table, and a third one takes an identifier again. -/
theorem queries_of_names :
    (∃ ps, (queriesOf ["q", "per-page"]).1 = .ok ps ∧ ps.length = 2 ∧
      (ps.map Parameter.name).Nodup ∧ (queryTable ps).Perm (ps.map bindingOf) ∧
      ((queryTable ps).map Prod.fst).Pairwise (· < ·) ∧ queryTable ps.reverse = queryTable ps) ∧
    ∃ before parameter after, ["per-page", "q", "per_page"].map queryNamed =
      before ++ parameter :: after ∧
      ∃ (ps : List Parameter) (p first : Parameter), first ∈ ps ∧ first.identifier = p.identifier ∧
        sharedIdentifier first p =
          { cause := .duplicateParameter (.text "per_page") (.text "per-page") (.text "per_page") } := by
  constructor
  · have hread : (queriesOf ["q", "per-page"]).1.map (List.map Parameter.inQueryTable) =
        .ok [true, true] := by decide +kernel
    cases hrun : queriesOf ["q", "per-page"] with
    | mk x r =>
      rw [hrun] at hread
      obtain ⟨ps, rfl, hsent⟩ := except_map_ok_iff.mp hread
      obtain ⟨-, hlength, -, hnames, hbindings, hsorted, hperm⟩ :=
        (queries_of_classified _ _ _ _ _).1 ps r hrun
      have hall : ps.filter Parameter.inQueryTable = ps := by
        refine List.filter_eq_self.mpr fun p hp => ?_
        have hmem : p.inQueryTable ∈ ps.map Parameter.inQueryTable := List.mem_map_of_mem hp
        simpa [hsent] using hmem
      rw [hall] at hbindings
      exact ⟨ps, rfl, hlength, hnames, hbindings, hsorted, hperm _ (List.reverse_perm ps).symm⟩
  · have hread : (queriesOf ["per-page", "q", "per_page"]).1.map (fun _ => ()) =
        .error (.of (.duplicateParameter (.text "per_page") (.text "per-page") (.text "per_page"))) := by
      decide +kernel
    cases hrun : queriesOf ["per-page", "q", "per_page"] with
    | mk x r =>
      rw [hrun] at hread
      cases x with
      | ok ps => cases hread
      | error fault =>
        obtain rfl := Except.error.inj hread
        obtain ⟨before, parameter, after, ps, p, first, hsplit, -, -, hfirst, hsame, hf⟩ :=
          ((queries_of_classified _ _ _ _ _).2 _ r rfl).mp hrun
        exact ⟨before, parameter, after, hsplit, ps, p, first, hfirst, hsame, hf.symm⟩

end OpenApiClient.Operation
