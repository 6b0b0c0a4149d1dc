import OpenApiClient.Package.Files
import OpenApiClient.Proofs.ClassNames
import OpenApiClient.Proofs.PlainNames

/-! # The modules of a package

The module of a group is named by a tag, the module of the models by the settings, and one more brings
them together. The models module is reserved, so that no tag gives its name as it is. But a reserved
word gets an underscore at its end, and nothing looks at the name that this makes. So a group takes the
name of the models module exactly when its tag is a reserved word and the models module is named like
this word with an underscore. -/
namespace OpenApiClient

namespace Naming

theorem identifier_eq_escapeReserved (reserved : List String) (name : String) :
    identifier reserved name = escapeReserved reserved (identifier [] name) := by
  simp [identifier, escapeReserved]

/-- A reserved name is given to a word exactly when the word is reserved too, and with an underscore it
is that name. -/
theorem escapeReserved_eq_iff {word name : String} {words : List String} :
    escapeReserved (name :: words) word = name ↔ word ∈ words ∧ word ++ "_" = name := by
  have hlonger : word ++ "_" = name → word ≠ name := by
    rintro rfl h
    have hlength := congrArg String.length h
    simp at hlength
  unfold escapeReserved
  split
  · rename_i hmem
    refine ⟨fun h => ⟨?_, h⟩, fun h => h.2⟩
    exact (List.mem_cons.mp hmem).resolve_left (hlonger h)
  · rename_i hmem
    refine ⟨fun h => absurd (h ▸ List.mem_cons_self) hmem, fun h => ?_⟩
    exact absurd (List.mem_cons_of_mem _ h.1) hmem

end Naming

namespace Operation

open Schema Schema.RegistryM

variable {document : Value} {settings : Settings} {o : ListedOperation} {r t : Registry}
  {built : List TagGroup}

/-- The module that an operation would belong to if no word were reserved. -/
def plainModule? (o : ListedOperation) : Option String := (tag? o).map (Naming.identifier [])

theorem moduleName?_eq {reserved : List String} (h : settings.reserved = .ok reserved) :
    moduleName? settings o = (plainModule? o).map (Naming.escapeReserved reserved) := by
  rw [moduleName?, plainModule?, tag?, h]
  cases idOf o.declaration o.method o.path with
  | error fault => rfl
  | ok operation =>
    dsimp only [bind, Except.bind]
    cases tagOf o.declaration operation with
    | error fault => rfl
    | ok tag => exact congrArg some (Naming.identifier_eq_escapeReserved reserved tag)

/-- An operation belongs to the models module exactly when its module would be a reserved word that
differs from the models module by an underscore. -/
theorem moduleName?_eq_models_iff {models : String} (h : settings.modelsModule = .text models) :
    moduleName? settings o = some models ↔
      ∃ word ∈ settings.reservedWords, plainModule? o = some word ∧ word ++ "_" = models := by
  rw [moduleName?_eq (Settings.reserved_of_modelsModule h), Option.map_eq_some_iff]
  constructor
  · rintro ⟨word, hword, heq⟩
    obtain ⟨hmem, hmodels⟩ := Naming.escapeReserved_eq_iff.mp heq
    exact ⟨word, hmem, hword, hmodels⟩
  · rintro ⟨word, hmem, hword, hmodels⟩
    exact ⟨word, hword, Naming.escapeReserved_eq_iff.mpr ⟨hmem, hmodels⟩⟩

/-- The modules of the groups are those of the operations of the document, each of them once. -/
theorem groups_modules (h : outcome (groups document settings) r = (.ok built, t)) :
    ∃ listed : List ListedOperation, listing document = listed.map .ok ∧
      (built.map TagGroup.name).Nodup ∧
      ∀ name, name ∈ built.map TagGroup.name ↔
        ∃ o ∈ listed, moduleName? settings o = some name := by
  obtain ⟨listed, hlisted, hnodup, hmodules, htags⟩ := groups_className h
  refine ⟨listed, hlisted, hnodup, fun name => ⟨fun hname => ?_, ?_⟩⟩
  · obtain ⟨g, hg, rfl⟩ := List.mem_map.mp hname
    obtain ⟨tag, htag, -⟩ := htags g hg
    obtain ⟨o, ho, -⟩ := Option.bind_eq_some_iff.mp htag
    exact ⟨o, List.mem_of_find?_eq_some ho, by simpa using List.find?_some ho⟩
  · rintro ⟨o, ho, hname⟩
    obtain ⟨g, hg, hmodule⟩ := hmodules o ho
    obtain rfl := Option.some.inj (hmodule.symm.trans hname)
    exact List.mem_map_of_mem hg

end Operation

namespace Package

open Operation Schema Schema.RegistryM Naming

variable {document : Value} {settings : Settings} {r t : Registry} {built : List TagGroup}
  {modules : Table Scalar String} {models : String}

def moduleNames (models : String) (groups : List TagGroup) : List String :=
  groups.map TagGroup.name ++ [models, packageModule]

/-- The modules of a package are made of the groups of the document, its title, and the models that are
registered when the groups are made. -/
theorem files_parts (h : outcome (files document settings) r = (.ok modules, t)) :
    ∃ built title texts name, outcome (groups document settings) r = (.ok built, t) ∧
      Package.title document = .ok title ∧ t.models = .ok texts ∧
      settings.modelsModule.asScalar = .ok name ∧
      modules = Table.ofList (built.map (fun g =>
          (.text g.name, groupModule title settings.modelsModule g)) ++
        [(name, modelsText title texts),
          (.text packageModule, packageText title settings.modelsModule built)]) := by
  rw [files] at h
  obtain ⟨built, s, hbuilt, h⟩ := bind_ok_iff.mp h
  obtain ⟨title, htitle, h⟩ := lift_bind_ok_iff.mp h
  rw [outcome_bind_of_ok (outcome_get s)] at h
  obtain ⟨texts, htexts, h⟩ := lift_bind_ok_iff.mp h
  obtain ⟨name, hname, h⟩ := lift_bind_ok_iff.mp h
  obtain ⟨hmodules, rfl⟩ := Prod.mk.inj h
  exact ⟨built, title, texts, name, hbuilt, htitle, htexts, hname, (Except.ok.inj hmodules).symm⟩

/-- There is one module for each of the names, in their order. -/
theorem files_ok (h : outcome (files document settings) r = (.ok modules, t)) :
    ∃ built s, outcome (groups document settings) r = (.ok built, s) ∧
      ∃ entries : List (Scalar × String), modules = Table.ofList entries ∧
        ∀ models, settings.modelsModule = .text models →
          entries.map Prod.fst = (moduleNames models built).map .text := by
  obtain ⟨built, title, texts, models, hbuilt, -, -, hmodels, rfl⟩ := files_parts h
  refine ⟨built, t, hbuilt, _, rfl, fun name hname => ?_⟩
  rw [hname] at hmodels
  obtain rfl : .text name = models := Except.ok.inj hmodels
  simp [moduleNames]

private theorem not_startsPlain_packageModule : startsPlain packageModule.toList = false := by decide

/-- The package module is no module of a group, and the models module is one exactly when the tag of an
operation is a reserved word that differs from it by an underscore. -/
theorem moduleNames_nodup_iff (hmodels : settings.modelsModule = .text models)
    (hpackage : models ≠ packageModule) {listed : List ListedOperation}
    (hnodup : (built.map TagGroup.name).Nodup)
    (hnames : ∀ name, name ∈ built.map TagGroup.name ↔
      ∃ o ∈ listed, moduleName? settings o = some name) :
    (moduleNames models built).Nodup ↔ ∀ o ∈ listed, ∀ word ∈ settings.reservedWords,
      plainModule? o = some word → word ++ "_" ≠ models := by
  have hfree : packageModule ∉ built.map TagGroup.name := by
    intro hmem
    obtain ⟨o, -, hname⟩ := (hnames _).mp hmem
    rw [moduleName?_eq (Settings.reserved_of_modelsModule hmodels), Option.map_eq_some_iff] at hname
    obtain ⟨word, hword, heq⟩ := hname
    obtain ⟨tag, -, rfl⟩ := Option.map_eq_some_iff.mp hword
    have hplain := startsPlain_identifier (models :: settings.reservedWords) tag
    rw [identifier_eq_escapeReserved, heq, not_startsPlain_packageModule] at hplain
    cases hplain
  have hmodule : models ∈ built.map TagGroup.name ↔ ∃ o ∈ listed,
      ∃ word ∈ settings.reservedWords, plainModule? o = some word ∧ word ++ "_" = models :=
    (hnames models).trans (exists_congr fun o => and_congr_right fun _ =>
      moduleName?_eq_models_iff hmodels)
  calc (moduleNames models built).Nodup
    _ ↔ models ∉ built.map TagGroup.name := by
      refine ⟨fun h hmem => (List.nodup_append'.mp h).2.2 hmem List.mem_cons_self, fun hnew => ?_⟩
      refine List.nodup_append'.mpr ⟨hnodup, by simp [hpackage], fun name hmem hlast => ?_⟩
      rcases List.mem_pair.mp hlast with rfl | rfl
      · exact hnew hmem
      · exact hfree hmem
    _ ↔ _ := by
      rw [hmodule]
      push Not
      rfl

/-- The modules of a package have different names exactly when no operation has for its tag a reserved
word that the models module is named like but for an underscore at the end. Then there is a module for
each group, one for the models and one for the package; and if two names are the same, a module is
missing. -/
theorem modules_kept_iff (hmodels : settings.modelsModule = .text models)
    (hpackage : models ≠ packageModule)
    (h : outcome (groups document settings) r = (.ok built, t)) :
    ∃ listed : List ListedOperation, listing document = listed.map .ok ∧
      ((moduleNames models built).Nodup ↔ ∀ o ∈ listed, ∀ word ∈ settings.reservedWords,
        plainModule? o = some word → word ++ "_" ≠ models) ∧
      ∀ modules t', outcome (files document settings) r = (.ok modules, t') →
        ((moduleNames models built).Nodup → modules.keys = (moduleNames models built).map .text) ∧
        (modules.length = built.length + 2 ↔ (moduleNames models built).Nodup) := by
  obtain ⟨listed, hlisted, hnodup, hnames⟩ := groups_modules h
  refine ⟨listed, hlisted, moduleNames_nodup_iff hmodels hpackage hnodup hnames, ?_⟩
  intro modules t' hfiles
  obtain ⟨built', s, hbuilt, entries, rfl, hentries⟩ := files_ok hfiles
  obtain rfl : built = built' := Except.ok.inj (Prod.mk.inj (h.symm.trans hbuilt)).1
  have hkeys := hentries models hmodels
  have hdistinct : (entries.map Prod.fst).Nodup ↔ (moduleNames models built).Nodup := by
    rw [hkeys]
    exact List.nodup_map_iff fun _ _ heq => Scalar.text.inj heq
  have hlength : built.length + 2 = entries.length := by
    simpa [moduleNames] using (congrArg List.length hkeys).symm
  refine ⟨fun hn => ?_, ?_⟩
  · rw [Table.ofList_eq_self (hdistinct.mpr hn)]
    exact hkeys
  · rw [hlength, Table.length_ofList_eq_iff]
    exact hdistinct

def reservedTag (tag : String) : Value := taggedDocument [("/a", "list", tag)]

theorem modules_kept_of_class_tag : ∃ built t modules t',
    outcome (groups (reservedTag "class") .default) {} = (.ok built, t) ∧
      outcome (files (reservedTag "class") .default) {} = (.ok modules, t') ∧
      built.map TagGroup.name = ["class_"] ∧ modules.length = built.length + 2 := by
  have hnames : (outcome (groups (reservedTag "class") .default) {}).1.map
      (List.map TagGroup.name) = .ok ["class_"] := by decide +kernel
  have hmade : (outcome (files (reservedTag "class") .default) {}).1.isOk := by decide +kernel
  cases hrun : outcome (groups (reservedTag "class") .default) {} with
  | mk x t =>
    rw [hrun] at hnames
    obtain ⟨built, rfl, hbuilt⟩ := except_map_ok_iff.mp hnames
    cases hfiles : outcome (files (reservedTag "class") .default) {} with
    | mk y t' =>
      rw [hfiles] at hmade
      cases y with
      | error fault => cases hmade
      | ok modules =>
        obtain ⟨_, -, -, hkept⟩ := modules_kept_iff rfl (by decide) hrun
        refine ⟨built, t, modules, t', rfl, rfl, hbuilt, (hkept _ _ hfiles).2.mpr ?_⟩
        rw [moduleNames, hbuilt]
        decide

def withModels (models : String) : Settings := { Settings.default with modelsModule := .text models }

/-- The tag `models` is reserved, and its group takes the name of the models module `models_`. -/
theorem not_nodup_moduleNames : ¬ ∀ (document : Value) (settings : Settings) (models : String)
    (built : List TagGroup) (t : Registry), settings.modelsModule = .text models →
      Text.isIdentifier models → models ≠ packageModule →
      outcome (groups document settings) {} = (.ok built, t) →
      (moduleNames models built).Nodup := by
  intro h
  have hnames : (outcome (groups (reservedTag "models") (withModels "models_")) {}).1.map
      (List.map TagGroup.name) = .ok ["models_"] := by decide +kernel
  cases hrun : outcome (groups (reservedTag "models") (withModels "models_")) {} with
  | mk x t =>
    rw [hrun] at hnames
    obtain ⟨built, rfl, hbuilt⟩ := except_map_ok_iff.mp hnames
    have hnodup := h _ _ _ _ _ rfl (by decide) (by decide) hrun
    rw [moduleNames, hbuilt] at hnodup
    exact absurd hnodup (by decide)

end Package

end OpenApiClient
