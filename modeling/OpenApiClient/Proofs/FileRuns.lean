import OpenApiClient.Files.Tree
import OpenApiClient.Proofs.Looks

/-! # What a step on files gives

A step ends with an answer or with a fault, and in both cases with a tree of files. Where a tree keeps
its directories, a name leads to the same place as before. -/
namespace OpenApiClient

/-- The faults that a tree of files gives: a problem with a file, or a name that is no name of one. -/
inductive Fault.IsOfFiles : Fault → Prop
  | problem (p : FileProblem) : IsOfFiles (.file p)
  | name : IsOfFiles .badValue

namespace FileTree

variable {t u v : FileTree} {p : PathName} {place found : Place} {steps : List String} {fault : Fault}
  {content : ByteArray}

/-- What stands in a tree as a directory is one in the other tree too, and names start at the same
place. -/
structure KeepsDirectories (t u : FileTree) : Prop where
  workingDirectory : u.workingDirectory = t.workingDirectory
  directory {place : Place} (h : t.node? place = some .directory) : u.node? place = some .directory

theorem KeepsDirectories.follow (h : t.KeepsDirectories u) (hfound : t.follow place steps = .ok found) :
    u.follow place steps = .ok found := by
  induction steps generalizing place with
  | nil => exact hfound
  | cons step rest ih =>
    simp only [FileTree.follow] at hfound ⊢
    split at hfound
    · cases hfound
    · cases hfound
    · rename_i hdirectory
      rw [h.directory hdirectory]
      dsimp only
      split
      · rename_i hup
        exact ih (by simpa [hup] using hfound)
      · rename_i hup
        rw [if_neg hup] at hfound
        split
        · rename_i hlong
          rw [if_pos hlong] at hfound
          cases hfound
        · rename_i hlong
          rw [if_neg hlong] at hfound
          exact ih hfound

theorem find_ok_iff : t.find p = .ok place ↔ '\x00' ∉ p.text.toList ∧
    p.text.utf8ByteSize ≤ nameLimit ∧
      t.follow (if p.isAbsolute then [] else t.workingDirectory) p.steps = .ok place := by
  unfold find
  dsimp only
  split
  · rename_i hzero
    simpa using fun hnone => absurd (by simpa using hzero) hnone
  · rename_i hzero
    have hnone : '\x00' ∉ p.text.toList := by simpa using hzero
    split
    · rename_i hlong
      simpa [hnone] using fun hshort => absurd hlong (Nat.not_lt.mpr hshort)
    · rename_i hshort
      cases t.follow (if p.isAbsolute then [] else t.workingDirectory) p.steps <;>
        simp [hnone, Nat.not_lt.mp hshort, Except.mapError]

theorem KeepsDirectories.find (h : t.KeepsDirectories u) (hfound : t.find p = .ok place) :
    u.find p = .ok place := by
  obtain ⟨hzero, hlong, hfollow⟩ := find_ok_iff.mp hfound
  rw [← h.workingDirectory] at hfollow
  exact find_ok_iff.mpr ⟨hzero, hlong, h.follow hfollow⟩

theorem ne_root (h : t.node? place ≠ some .directory) : place ≠ [] :=
  fun hroot => h (hroot ▸ t.node?_root)

theorem KeepsDirectories.put (hnode : t.node? place ≠ some .directory) (node : FileNode) :
    t.KeepsDirectories (t.put place node) where
  workingDirectory := rfl
  directory {other} h := by
    have hother : other ≠ place := fun heq => hnode (heq ▸ h)
    rw [t.node?_put_of_ne hother node]
    exact h

theorem find_error (h : t.find p = .error fault) : fault.IsOfFiles := by
  unfold find at h
  dsimp only at h
  split at h
  · cases h
    exact .name
  · split at h
    · cases h
      exact .problem _
    · cases hfollow : t.follow (if p.isAbsolute then [] else t.workingDirectory) p.steps with
      | ok place => rw [hfollow] at h; cases h
      | error problem =>
        rw [hfollow] at h
        cases h
        exact .problem _

theorem addDirectory_ok (h : t.addDirectory p = .ok u) :
    ∃ place, t.find p = .ok place ∧ t.node? place = none ∧ u = t.put place .directory := by
  obtain ⟨place, hfind, h⟩ := except_bind_ok_iff.mp h
  cases hnode : t.node? place with
  | none =>
    rw [hnode] at h
    cases h
    exact ⟨place, hfind, hnode, rfl⟩
  | some node =>
    rw [hnode] at h
    cases h

theorem addDirectory_error (h : t.addDirectory p = .error fault) : fault.IsOfFiles := by
  rcases except_bind_error_iff.mp h with hfind | ⟨place, -, h⟩
  · exact find_error hfind
  · split at h <;> cases h
    exact .problem _

theorem write_ok (h : t.write p content = .ok u) :
    ∃ place, t.find p = .ok place ∧ t.node? place ≠ some .directory ∧
      u = t.put place (.file content) := by
  obtain ⟨place, hfind, h⟩ := except_bind_ok_iff.mp h
  split at h
  · cases h
  · rename_i hnode
    cases h
    exact ⟨place, hfind, hnode, rfl⟩

theorem write_error (h : t.write p content = .error fault) : fault.IsOfFiles := by
  rcases except_bind_error_iff.mp h with hfind | ⟨place, -, h⟩
  · exact find_error hfind
  · split at h <;> cases h
    exact .problem _

end FileTree

namespace FileM

variable {α β : Type} {x : FileM α} {f : α → FileM β} {t u : FileTree} {fault : Fault}

def outcome (x : FileM α) (t : FileTree) : Except Fault α × FileTree := x.run t

@[simp] theorem outcome_pure (a : α) (t : FileTree) : outcome (pure a) t = (.ok a, t) := rfl

@[simp] theorem outcome_throw (fault : Fault) (t : FileTree) :
    outcome (throw fault : FileM α) t = (.error fault, t) := rfl

@[simp] theorem outcome_get (t : FileTree) : outcome get t = (.ok t, t) := rfl

@[simp] theorem outcome_set (t u : FileTree) : outcome (set u : FileM PUnit) t = (.ok ⟨⟩, u) := rfl

theorem outcome_bind (x : FileM α) (f : α → FileM β) (t : FileTree) :
    outcome (x >>= f) t =
      match outcome x t with
      | (.ok a, u) => outcome (f a) u
      | (.error fault, u) => (.error fault, u) := by
  simp only [outcome, bind, ExceptT.bind, ExceptT.run, ExceptT.mk, ExceptT.bindCont, StateT.bind]
  cases h : x t with
  | mk y u => cases y <;> rfl

theorem outcome_change (g : FileTree → Except Fault FileTree) (t : FileTree) :
    outcome (change g) t =
      match g t with
      | .ok u => (.ok (), u)
      | .error fault => (.error fault, t) := by
  rw [change, outcome_bind, outcome_get]
  dsimp only
  cases g t <;> rfl

end FileM

end OpenApiClient
