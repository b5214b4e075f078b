import BuildLog.Machine
import BuildLog.Proofs.Files.Places

/-! When a file can be opened, made or removed, and what the machine is afterwards: where the path
leads, and what is refused there. -/
namespace BuildLog.Machine

open Files (Access Cause FileError Location Refusal)

variable {machine made : Machine} {path : Text} {place location : Location} {access : Access}

theorem allow_eq_ok_iff :
    machine.allow access place = .ok () ↔ machine.refusal? access place = none := by
  unfold allow
  cases machine.refusal? access place <;> simp

theorem allow_of_none (h : machine.refusal? access place = none) :
    machine.allow access place = .ok () := allow_eq_ok_iff.mpr h

def without (machine : Machine) (place : Location) : Machine :=
  { machine with tree := machine.tree.erase place }

theorem openFile_eq_ok_iff : machine.openFile path = .ok place ↔
    machine.tree.locateFile machine.workingDirectory path = .ok place ∧
      machine.refusal? .read place = none := by
  unfold openFile
  rw [mapError_eq_ok_iff]
  constructor
  · intro h
    obtain ⟨found, hfound, h⟩ := exists_of_bind_eq_ok h
    obtain ⟨⟨⟩, hallow, hfile⟩ := exists_of_bind_eq_ok h
    rw [(Files.Tree.locateFile_eq_ok_iff.mp hfile).1] at hfound
    cases hfound
    exact ⟨hfile, allow_eq_ok_iff.mp hallow⟩
  · rintro ⟨hfile, hread⟩
    rw [(Files.Tree.locateFile_eq_ok_iff.mp hfile).1]
    simp only [bind, Except.bind, allow_of_none hread, hfile]

theorem openFile_of_refusal {refusal : Refusal}
    (hfile : machine.tree.locateFile machine.workingDirectory path = .ok place)
    (h : machine.refusal? .read place = some refusal) :
    machine.openFile path = .error ⟨.refused refusal, path⟩ := by
  unfold openFile allow
  rw [(Files.Tree.locateFile_eq_ok_iff.mp hfile).1]
  simp only [bind, Except.bind, h]
  rfl

theorem openFile_of_locateFile_error {cause : Cause}
    (h : machine.tree.locateFile machine.workingDirectory path = .error cause)
    (hread : ∀ place, machine.tree.locate machine.workingDirectory path = .ok place →
      machine.refusal? .read place = none) :
    machine.openFile path = .error ⟨cause, path⟩ := by
  unfold openFile
  cases hlocate : machine.tree.locate machine.workingDirectory path with
  | error other =>
    unfold Files.Tree.locateFile at h
    rw [hlocate] at h
    cases h
    rfl
  | ok place =>
    simp only [bind, Except.bind, allow_of_none (hread place hlocate), h]
    rfl

theorem createFile_eq_ok_iff : machine.createFile path = .ok (made, place) ↔
    machine.tree.locateTarget machine.workingDirectory path = .ok place ∧
      machine.refusal? (machine.writing place) place = none ∧ made = machine.emptied place := by
  unfold createFile
  rw [mapError_eq_ok_iff]
  constructor
  · intro h
    obtain ⟨found, hfound, h⟩ := exists_of_bind_eq_ok h
    obtain ⟨⟨⟩, hallow, h⟩ := exists_of_bind_eq_ok h
    cases h
    exact ⟨hfound, allow_eq_ok_iff.mp hallow, rfl⟩
  · rintro ⟨hplace, hwrite, rfl⟩
    rw [hplace]
    simp only [bind, Except.bind, allow_of_none hwrite]
    rfl

theorem removeFile_eq_ok_iff : machine.removeFile path = .ok made ↔
    ∃ place, machine.tree.locateFile machine.workingDirectory path = .ok place ∧
      machine.refusal? .remove place = none ∧ made = machine.without place := by
  unfold removeFile
  rw [mapError_eq_ok_iff]
  constructor
  · intro h
    obtain ⟨found, hfound, h⟩ := exists_of_bind_eq_ok h
    obtain ⟨⟨⟩, hallow, h⟩ := exists_of_bind_eq_ok h
    obtain ⟨tree, htree, h⟩ := exists_of_bind_eq_ok h
    obtain ⟨place, hfile, htree⟩ := exists_of_bind_eq_ok htree
    rw [(Files.Tree.locateFile_eq_ok_iff.mp hfile).1] at hfound
    cases hfound
    cases htree
    cases h
    exact ⟨_, hfile, allow_eq_ok_iff.mp hallow, rfl⟩
  · rintro ⟨place, hfile, hremove, rfl⟩
    unfold Files.Tree.remove
    rw [hfile, (Files.Tree.locateFile_eq_ok_iff.mp hfile).1]
    simp only [bind, Except.bind, allow_of_none hremove]
    rfl

theorem isFile_iff : machine.isFile path = true ↔
    ∃ place, machine.tree.locateFile machine.workingDirectory path = .ok place := by
  unfold isFile Files.Tree.isFile
  cases machine.tree.locateFile machine.workingDirectory path <;> simp [Except.toOption]

theorem contains_of_locateFile
    (h : machine.tree.locateFile machine.workingDirectory path = .ok place) :
    machine.contains path = true := by
  unfold contains
  exact Files.Tree.contains_iff.mpr ⟨place, (Files.Tree.locateFile_eq_ok_iff.mp h).1⟩

/-! What an operation leaves as it is. -/

@[simp] theorem emptied_tree (machine : Machine) (place : Location) :
    (machine.emptied place).tree = machine.tree.insert place (.file []) := by
  unfold emptied
  split <;> rfl

@[simp] theorem emptied_workingDirectory (machine : Machine) (place : Location) :
    (machine.emptied place).workingDirectory = machine.workingDirectory := by
  unfold emptied
  split <;> rfl

@[simp] theorem emptied_input (machine : Machine) (place : Location) :
    (machine.emptied place).input = machine.input := by
  unfold emptied
  split <;> rfl

/-- A file belongs to the one who has made it. -/
theorem refusal?_emptied (h : machine.tree.get? place = none) (access : Access) :
    (machine.emptied place).refusal? access place = none := by
  unfold emptied
  rw [h]
  exact if_pos rfl

theorem get?_write (h : location ≠ place) (content : List UInt8) :
    (machine.write place content).tree.get? location = machine.tree.get? location := by
  unfold write
  rw [Files.Tree.get?_insert, if_neg (Ne.symm h)]
  split
  next hroot => rw [hroot]; rfl
  next => rfl

theorem get?_emptied (h : location ≠ place) :
    (machine.emptied place).tree.get? location = machine.tree.get? location := by
  rw [emptied_tree]
  exact get?_write h []

theorem changesAt_without
    (h : machine.tree.locateFile machine.workingDirectory path = .ok place) :
    Files.Tree.ChangesAt place machine.tree (machine.without place).tree :=
  Files.Tree.changesAt_erase (Files.Tree.not_directory_of_locateFile h)

theorem get?_without (h : machine.tree.locateFile machine.workingDirectory path = .ok place) :
    (machine.without place).tree.get? place = none :=
  Files.Tree.get?_erase_self (Files.Tree.not_directory_of_locateFile h)

end BuildLog.Machine
