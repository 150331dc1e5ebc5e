import FleetControl.FileTree

/-!
# File trees only grow

Folders are made where nothing stands and files are only appended to.  So what
a path leads to stays there: `FileTree.Grows` is kept by everything that a
program does to its files, and a file that can be appended to once can be
appended to ever after.
-/

namespace FleetControl
namespace FileTree

variable {tree before after : FileTree} {location other : Location}
    {path : Text}

/-- All folders of the first tree are in the second one, and so are its files,
which may be longer there. -/
structure Grows (before after : FileTree) : Prop where
  home_eq : after.home = before.home
  folder : ∀ location, before.node? location = some .folder →
    after.node? location = some .folder
  file : ∀ location content, before.node? location = some (.file content) →
    ∃ more, after.node? location = some (.file (content ++ more))

namespace Grows

theorem refl (tree : FileTree) : Grows tree tree :=
  ⟨rfl, fun _ h => h, fun _ content h => ⟨[], by rwa [List.append_nil]⟩⟩

theorem trans {middle : FileTree} (h : Grows before middle)
    (h' : Grows middle after) :
    Grows before after where
  home_eq := h'.home_eq.trans h.home_eq
  folder :=
    fun location hfolder => h'.folder location (h.folder location hfolder)
  file := by
    intro location content hfile
    obtain ⟨first, hfirst⟩ := h.file location content hfile
    obtain ⟨later, hlater⟩ := h'.file location _ hfirst
    exact ⟨first ++ later, by rwa [← List.append_assoc]⟩

end Grows

/-! ## Putting things into a tree -/

theorem Grows.isFolder (h : Grows before after)
    (hfolder : before.isFolder location = true) :
    after.isFolder location = true := by
  rw [FileTree.isFolder, decide_eq_true_eq] at hfolder ⊢
  exact h.folder location hfolder

theorem Grows.walk? (h : Grows before after) {names : List Text}
    (hwalk : before.walk? location names = some other) :
    after.walk? location names = some other := by
  induction names generalizing location with
  | nil => exact hwalk
  | cons name rest ih =>
    rw [FileTree.walk?] at hwalk ⊢
    split at hwalk
    · next hfolder =>
      rw [if_pos (h.isFolder hfolder)]
      exact ih hwalk
    · cases hwalk

/-- A path leads to the same place in a tree that has grown. -/
theorem Grows.locate? (h : Grows before after)
    (hlocate : before.locate? path = some location) :
    after.locate? path = some location := by
  unfold FileTree.locate? at hlocate ⊢
  dsimp only at hlocate ⊢
  split at hlocate
  · cases hlocate
  · next hpath =>
    rw [if_neg hpath, start, h.home_eq]
    exact h.walk? hlocate

theorem file?_eq_some_iff {content : Text} :
    tree.file? path = some content ↔
      ∃ location, tree.locate? path = some location ∧
        tree.node? location = some (.file content) := by
  unfold file?
  constructor
  · intro h
    split at h
    · next found hfound =>
      cases h
      exact Option.bind_eq_some_iff.mp hfound
    · cases h
  · rintro ⟨location, hlocate, hnode⟩
    rw [hlocate, Option.bind_some, hnode]

/-- The file that a path leads to is still there in a tree that has grown. -/
theorem Grows.file? (h : Grows before after) {content : Text}
    (hfile : before.file? path = some content) :
    ∃ more, after.file? path = some (content ++ more) := by
  obtain ⟨location, hlocate, hnode⟩ := file?_eq_some_iff.mp hfile
  obtain ⟨more, hmore⟩ := h.file location content hnode
  exact ⟨more, file?_eq_some_iff.mpr ⟨location, h.locate? hlocate, hmore⟩⟩

end FileTree
end FleetControl
