import Stencil.Files.Tree
import Stencil.Value.Basic

/-!
# Finding component modules

The component modules of a folder are the files below it with one of some suffixes. A file counts only
if neither its name nor that of a folder on the way to it begins with a dot or with one of the
beginnings that are passed over. They come in the order of their locations, name by name.
-/

namespace Stencil.Build

/-- Which files of a folder are component modules. -/
structure Sources where
  /-- The suffixes of their names. -/
  suffixes : List String
  /-- The beginnings of names that are passed over. -/
  passedOver : List String

/-- Whether a name is passed over. -/
def Sources.skips (sources : Sources) (name : String) : Bool :=
  name.startsWith "." || sources.passedOver.any fun beginning => name.startsWith beginning

/-- Whether a route from the folder leads to a component module. -/
def Sources.accepts (sources : Sources) (route : Route) : Bool :=
  !route.any sources.skips && sources.suffixes.contains (Location.suffix ⟨false, route⟩)

/-- The component modules of a folder. -/
def Sources.find (sources : Sources) (tree : Tree) (folder : Location) :
    Except Failure (List Location) :=
  match tree.route? folder with
  | none => .error (.noDirectory folder.text)
  | some route =>
    if tree.isFolderAt route then
      .ok (((tree.filesBelow route).filter sources.accepts).map fun below =>
        folder.locate ⟨false, below⟩)
    else .error (.notADirectory folder.text)

/-- Every module that is found lies below the folder. -/
theorem Sources.below?_of_find {sources : Sources} {tree : Tree} {folder file : Location}
    {files : List Location} (h : sources.find tree folder = .ok files) (hf : file ∈ files) :
    ∃ below, folder.below? file = some below ∧ sources.accepts below = true := by
  unfold Sources.find at h
  split at h
  · simp at h
  · split at h
    · obtain rfl := Except.ok.inj h
      obtain ⟨below, hb, rfl⟩ := List.mem_map.1 hf
      refine ⟨below, ?_, (List.mem_filter.1 hb).2⟩
      simp [Location.locate, Location.below?]
    · simp at h

end Stencil.Build
