import OpenApiClient.CommandLine.Run
import OpenApiClient.Proofs.FileRuns

/-! # What a failed run leaves behind

All modules are made before the first of them is written, and the failures that have an exit code arise
while they are made. So such a failure leaves the files as they were. Only the files themselves and a text
that no bytes encode can stop the writing of a package: then there may be new directories on the way to
the package, and modules of it that were written before. -/
namespace OpenApiClient

namespace Package

variable {directory : PathName} {modules written more : List (Scalar × String)} {t u v : FileTree}
  {fault : Fault} {steps : List String} {place : FileTree.Place} {α β : Type}

/-- What may have become of a place when modules are written to a directory. -/
inductive PlaceAfter (directory : PathName) (written : List (Scalar × String)) (t u : FileTree)
    (place : FileTree.Place) : Prop
  | kept (h : u.node? place = t.node? place)
  /-- A directory was made where nothing stood, on the way to the package. -/
  | directory {steps : List String} (hold : t.node? place = none)
      (hnew : u.node? place = some .directory) (hsteps : steps <+: directory.steps)
      (hplace : u.find ⟨directory.root, steps⟩ = .ok place)
  /-- A module was written where no directory stood. Its file is empty if no bytes encode its text. -/
  | module {m : Scalar × String} (hold : t.node? place ≠ some .directory) (hm : m ∈ written)
      (hnew : u.node? place = some (.file ((Text.bytes? m.2).getD .empty)))
      (hplace : u.find (fileOf directory m.1) = .ok place)

/-- The files of a tree after some modules were written to a directory, and of none but these. -/
structure PartlyWritten (directory : PathName) (written : List (Scalar × String)) (t u : FileTree) :
    Prop where
  workingDirectory : u.workingDirectory = t.workingDirectory
  place (place : FileTree.Place) : PlaceAfter directory written t u place

namespace PartlyWritten

theorem refl (directory : PathName) (written : List (Scalar × String)) (t : FileTree) :
    PartlyWritten directory written t t :=
  ⟨rfl, fun _ => .kept rfl⟩

theorem mono (h : PartlyWritten directory written t u) (hsub : written ⊆ more) :
    PartlyWritten directory more t u where
  workingDirectory := h.workingDirectory
  place place := by
    cases h.place place with
    | kept h => exact .kept h
    | directory hold hnew hsteps hplace => exact .directory hold hnew hsteps hplace
    | module hold hm hnew hplace => exact .module hold (hsub hm) hnew hplace

private theorem keepsDirectories (h : PartlyWritten directory written t u) : t.KeepsDirectories u where
  workingDirectory := h.workingDirectory
  directory {place} hdirectory := by
    cases h.place place with
    | kept h => exact h.trans hdirectory
    | directory _ hnew _ _ => exact hnew
    | module hold _ _ _ => exact absurd hdirectory hold

theorem trans (h : PartlyWritten directory written t u) (h' : PartlyWritten directory written u v) :
    PartlyWritten directory written t v where
  workingDirectory := h'.workingDirectory.trans h.workingDirectory
  place place := by
    have hkeeps := h'.keepsDirectories
    cases h'.place place with
    | kept hkept =>
      cases h.place place with
      | kept h => exact .kept (hkept.trans h)
      | directory hold hnew hsteps hplace =>
        exact .directory hold (hkept.trans hnew) hsteps (hkeeps.find hplace)
      | module hold hm hnew hplace => exact .module hold hm (hkept.trans hnew) (hkeeps.find hplace)
    | directory hold' hnew' hsteps hplace =>
      cases h.place place with
      | kept h => exact .directory (h ▸ hold') hnew' hsteps hplace
      | directory _ hnew _ _ => cases hold'.symm.trans hnew
      | module _ _ hnew _ => cases hold'.symm.trans hnew
    | module hold' hm hnew' hplace =>
      cases h.place place with
      | kept h => exact .module (h ▸ hold') hm hnew' hplace
      | directory _ hnew _ _ => exact absurd hnew hold'
      | module hold _ _ _ => exact .module hold hm hnew' hplace

theorem put {node : FileNode}
    (hplace : PlaceAfter directory written t (t.put place node) place) :
    PartlyWritten directory written t (t.put place node) where
  workingDirectory := rfl
  place other := by
    by_cases hother : other = place
    · exact hother ▸ hplace
    · exact .kept (t.node?_put_of_ne hother node)

end PartlyWritten

/-- A step that makes nothing but directories on the way to a package, and fails on the files alone. -/
def MakesWay (directory : PathName) (x : FileM α) : Prop :=
  ∀ t, PartlyWritten directory [] t (x.outcome t).2 ∧
    ∀ fault, (x.outcome t).1 = .error fault → fault.IsOfFiles

private theorem MakesWay.bind {x : FileM α} {f : α → FileM β} (hx : MakesWay directory x)
    (hf : ∀ a, MakesWay directory (f a)) : MakesWay directory (x >>= f) := by
  intro t
  obtain ⟨hfiles, hfault⟩ := hx t
  rw [FileM.outcome_bind]
  rcases hrun : x.outcome t with ⟨_ | a, u⟩
  · rw [hrun] at hfiles hfault
    exact ⟨hfiles, fun _ heq => hfault _ (congrArg _ (Except.error.inj heq))⟩
  · rw [hrun] at hfiles
    exact ⟨hfiles.trans (hf a u).1, (hf a u).2⟩

private theorem makesWay_addDirectory (hsteps : steps <+: directory.steps) :
    MakesWay directory (FileM.addDirectory ⟨directory.root, steps⟩) := by
  intro t
  rw [FileM.addDirectory, FileM.outcome_bind, FileM.outcome_get]
  dsimp only
  cases hadd : t.addDirectory ⟨directory.root, steps⟩ with
  | ok u =>
    obtain ⟨place, hfind, hnone, rfl⟩ := FileTree.addDirectory_ok hadd
    have hfree : t.node? place ≠ some .directory := by simp [hnone]
    have hplace := (FileTree.KeepsDirectories.put hfree .directory).find hfind
    refine ⟨.put (.directory hnone (t.node?_put_self (FileTree.ne_root hfree) _) hsteps hplace), ?_⟩
    exact fun _ heq => by cases heq
  | error fault =>
    rw [FileM.outcome_bind, FileM.outcome_get]
    dsimp only
    split
    · exact ⟨.refl _ _ _, fun _ heq => Except.error.inj heq ▸ FileTree.addDirectory_error hadd⟩
    · exact ⟨.refl _ _ _, fun _ heq => by cases heq⟩

/-- The directories are made outermost first, so those before one that cannot be made stay. -/
theorem makesWay_addDirectories {inner : List String} (h : inner.reverse <+: directory.steps) :
    MakesWay directory (FileM.addDirectories directory.root inner) := by
  induction inner with
  | nil => exact makesWay_addDirectory List.nil_prefix
  | cons step outer ih =>
    have houter : outer.reverse <+: directory.steps := by
      rw [List.reverse_cons] at h
      exact (List.prefix_append _ _).trans h
    intro t
    rw [FileM.addDirectories, FileM.outcome_bind, FileM.outcome_get]
    dsimp only
    split
    · exact (ih houter).bind (fun _ => makesWay_addDirectory h) t
    · exact makesWay_addDirectory h t

/-- A module whose file can be made is there, with its text or empty. -/
theorem partlyWritten_of_write {m : Scalar × String}
    (h : t.write (fileOf directory m.1) ((Text.bytes? m.2).getD .empty) = .ok u) :
    PartlyWritten directory [m] t u := by
  obtain ⟨place, hfind, hfree, rfl⟩ := FileTree.write_ok h
  have hplace := (FileTree.KeepsDirectories.put hfree (.file ((Text.bytes? m.2).getD .empty))).find hfind
  refine .put (.module hfree List.mem_cons_self ?_ hplace)
  exact t.node?_put_self (FileTree.ne_root hfree) _

/-- A module is written, or the files are left because of its name, or its file is made in vain. -/
theorem writeModule_outcome (directory : PathName) (m : Scalar × String) (t : FileTree) :
    (∃ u, (writeModule directory m).outcome t = (.ok (), u) ∧ (Text.bytes? m.2).isSome ∧
        PartlyWritten directory [m] t u) ∨
      (∃ fault, (writeModule directory m).outcome t = (.error fault, t) ∧ fault.IsOfFiles) ∨
      ∃ u, (writeModule directory m).outcome t = (.error .badValue, u) ∧ Text.bytes? m.2 = none ∧
        PartlyWritten directory [m] t u := by
  rw [writeModule, FileM.outcome_bind, FileM.outcome_change]
  cases hwrite : t.write (fileOf directory m.1) ((Text.bytes? m.2).getD .empty) with
  | error fault => exact .inr (.inl ⟨fault, rfl, FileTree.write_error hwrite⟩)
  | ok u =>
    have hwritten := partlyWritten_of_write hwrite
    cases Text.bytes? m.2 with
    | some bytes => exact .inl ⟨u, rfl, rfl, hwritten⟩
    | none => exact .inr (.inr ⟨u, rfl, rfl, hwritten⟩)

def writeModules (directory : PathName) (modules : List (Scalar × String)) : FileM Unit := do
  for m in modules do
    writeModule directory m

theorem writeModules_cons (directory : PathName) (m : Scalar × String)
    (modules : List (Scalar × String)) : writeModules directory (m :: modules) =
      (writeModule directory m >>= fun _ => writeModules directory modules) := by
  simp [writeModules]

theorem write_eq (directory : PathName) (modules : Table Scalar String) : write directory modules =
    (FileM.addDirectories directory.root directory.steps.reverse >>= fun _ =>
      writeModules directory modules) := rfl

/-- How the writing of modules stops, and those whose files were made. -/
inductive Stops (modules : List (Scalar × String)) : List (Scalar × String) → Fault → Prop
  /-- The directory of the modules cannot be made. -/
  | directory {fault : Fault} (hfault : fault.IsOfFiles) : Stops modules [] fault
  /-- The file of a module cannot be made. -/
  | file {fault : Fault} {written rest : List (Scalar × String)} {failed : Scalar × String}
      (hmodules : modules = written ++ failed :: rest)
      (hwritten : ∀ m ∈ written, (Text.bytes? m.2).isSome) (hfault : fault.IsOfFiles) :
      Stops modules written fault
  /-- The file of a module was made, but no bytes encode its text. -/
  | text {written rest : List (Scalar × String)} {failed : Scalar × String}
      (hmodules : modules = written ++ failed :: rest)
      (hwritten : ∀ m ∈ written, (Text.bytes? m.2).isSome) (hfailed : Text.bytes? failed.2 = none) :
      Stops modules (written ++ [failed]) .badValue

/-- Where writing fails, the modules before the one that cannot be written are. -/
theorem writeModules_error (h : (writeModules directory modules).outcome t = (.error fault, u)) :
    ∃ written failed rest, modules = written ++ failed :: rest ∧
      (∀ m ∈ written, (Text.bytes? m.2).isSome) ∧
      (fault.IsOfFiles ∧ PartlyWritten directory written t u ∨
        fault = .badValue ∧ Text.bytes? failed.2 = none ∧
          PartlyWritten directory (written ++ [failed]) t u) := by
  induction modules generalizing t with
  | nil => cases h
  | cons m modules ih =>
    rw [writeModules_cons, FileM.outcome_bind] at h
    rcases writeModule_outcome directory m t with
      ⟨s, hs, hbytes, hm⟩ | ⟨early, hearly, hfault⟩ | ⟨s, hs, hnone, hm⟩
    · rw [hs] at h
      obtain ⟨written, failed, rest, rfl, hwritten, hstop⟩ := ih h
      refine ⟨m :: written, failed, rest, rfl, List.forall_mem_cons.mpr ⟨hbytes, hwritten⟩, ?_⟩
      refine hstop.imp (fun ⟨hfault, hrest⟩ => ⟨hfault, ?_⟩) fun ⟨hfault, hnone, hrest⟩ =>
        ⟨hfault, hnone, ?_⟩
      all_goals exact (hm.mono (by simp)).trans (hrest.mono (List.subset_cons_self _ _))
    · rw [hearly] at h
      cases h
      exact ⟨[], m, modules, rfl, nofun, .inl ⟨hfault, .refl _ _ _⟩⟩
    · rw [hs] at h
      cases h
      exact ⟨[], m, modules, rfl, nofun, .inr ⟨rfl, hnone, hm⟩⟩

/-- What is left of a package that is not written are directories on its way, and the modules whose
files were made. -/
theorem write_error {modules : Table Scalar String}
    (h : (write directory modules).outcome t = (.error fault, u)) :
    ∃ written, Stops modules written fault ∧ PartlyWritten directory written t u := by
  have hway : MakesWay directory (FileM.addDirectories directory.root directory.steps.reverse) :=
    makesWay_addDirectories (by simp)
  obtain ⟨hmade, hfault⟩ := hway t
  rw [write_eq, FileM.outcome_bind] at h
  rcases hrun : (FileM.addDirectories directory.root directory.steps.reverse).outcome t with ⟨_ | _, s⟩
  · rw [hrun] at h hmade hfault
    cases h
    exact ⟨[], .directory (hfault _ rfl), hmade⟩
  · rw [hrun] at h hmade
    obtain ⟨written, failed, rest, hmodules, hwritten, hstop⟩ := writeModules_error h
    rcases hstop with ⟨hfault, hrest⟩ | ⟨rfl, hnone, hrest⟩
    · exact ⟨_, .file hmodules hwritten hfault, (hmade.mono (List.nil_subset _)).trans hrest⟩
    · exact ⟨_, .text hmodules hwritten hnone, (hmade.mono (List.nil_subset _)).trans hrest⟩

end Package

namespace CommandLine

variable {sampleName : String} {environment : Environment} {arguments : List String}
  {files : FileTree} {host : Document.Host} {job : Job}

/-- The document of a job. -/
def Job.source (job : Job) (sampleName : String) (files : FileTree) (host : Document.Host) :
    Except Fault Document.Source :=
  match job.document with
  | none => Document.sourceOf sampleName Document.Sample.document
  | some path => Document.load files path host

end CommandLine

end OpenApiClient
