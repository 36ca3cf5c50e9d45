import EconomicLedger.Lib.Dict
import EconomicLedger.Lib.Fallible
import Mathlib.Data.List.Infix

/-!
# Paths and file trees

`PosixPath.parse` reads a path as `pathlib` does: empty and `.` components are dropped, `..` is kept. A
file tree has directories, of which only the deepest need be listed, and the texts of its files. A file
is saved below the directories on the way to it, which are made where they are missing; paths of which
none leads through another hold whatever was saved there last.
-/

namespace EconomicLedger

/-! ## Paths -/

structure PosixPath where
  root : String
  names : List String
deriving DecidableEq

namespace PosixPath

/-- Two slashes at the start are a root of their own, more are not. -/
def rootOf : List Char → String
  | '/' :: '/' :: '/' :: _ => "/"
  | '/' :: '/' :: _ => "//"
  | '/' :: _ => "/"
  | _ => ""

def parse (text : String) : PosixPath :=
  { root := rootOf text.toList
    names := ((text.toList.splitOn '/').filter fun name => name ≠ [] ∧ name ≠ ['.']).map String.ofList }

def text (path : PosixPath) : String :=
  if path.root = "" ∧ path.names = [] then "." else path.root ++ "/".intercalate path.names

def child (path : PosixPath) (name : String) : PosixPath := { path with names := path.names ++ [name] }

def parent (path : PosixPath) : PosixPath := { path with names := path.names.dropLast }

/-- The names from the root of the system down to the path. -/
def resolve (home : List String) (path : PosixPath) : List String :=
  if path.root = "" then home ++ path.names else path.names

theorem resolve_child (home : List String) (path : PosixPath) (name : String) :
    (path.child name).resolve home = path.resolve home ++ [name] := by
  unfold resolve child
  split_ifs <;> simp

theorem resolve_parent (home : List String) (path : PosixPath) (named : path.names ≠ []) :
    path.parent.resolve home = (path.resolve home).dropLast := by
  unfold resolve parent
  split_ifs
  · rw [List.dropLast_append_of_ne_nil named]
  · rfl

end PosixPath

/-! ## Trees -/

inductive FileError where
  | missing
  | isDirectory
  | notDirectory
  | occupied
deriving DecidableEq

structure FileTree where
  dirs : List (List String)
  files : Dict (List String) String

namespace FileTree

/-- A tree without files, below a working directory. -/
def bare (home : List String) : FileTree := { dirs := [home], files := Dict.empty }

def IsDir (tree : FileTree) (path : List String) : Prop := ∃ dir ∈ tree.dirs, path <+: dir

instance (tree : FileTree) (path : List String) : Decidable (tree.IsDir path) :=
  inferInstanceAs (Decidable (∃ dir ∈ tree.dirs, path <+: dir))

def absent (tree : FileTree) (path : List String) : FileError :=
  if ∃ file ∈ tree.files.keys, file <+: path then .notDirectory else .missing

def read (tree : FileTree) (path : List String) : Except FileError String :=
  match tree.files.get? path with
  | some text => .ok text
  | none => .error (if tree.IsDir path then .isDirectory else tree.absent path)

/-- `mkdir(parents=True, exist_ok=True)`. -/
def mkdir (tree : FileTree) (path : List String) : Except FileError FileTree :=
  if tree.IsDir path then .ok tree
  else if path ∈ tree.files.keys then .error .occupied
  else if ∃ file ∈ tree.files.keys, file <+: path then .error .notDirectory
  else .ok { tree with dirs := path :: tree.dirs }

def write (tree : FileTree) (path : List String) (text : String) : Except FileError FileTree :=
  if tree.IsDir path then .error .isDirectory
  else if tree.IsDir path.dropLast then .ok { tree with files := tree.files.set path text }
  else .error (tree.absent path)

/-! ## Paths beside each other -/

/-- None of the paths leads to the working directory or through another of them. -/
def Beside (home : List String) (paths : List (List String)) : Prop :=
  ∀ path ∈ paths, ¬ path <+: home ∧ ∀ other ∈ paths, path <+: other → path = other

instance (home : List String) (paths : List (List String)) : Decidable (Beside home paths) :=
  inferInstanceAs (Decidable (∀ path ∈ paths, _ ∧ ∀ other ∈ paths, _ → _))

/-- The files stand at some of the paths, and the directories are those on the way to them. -/
structure Within (home : List String) (paths : List (List String)) (tree : FileTree) : Prop where
  dirs : ∀ dir ∈ tree.dirs, dir = home ∨ ∃ path ∈ paths, dir = path.dropLast
  files : ∀ file ∈ tree.files.keys, file ∈ paths

variable {home : List String} {paths : List (List String)}

theorem bare_within : Within home paths (bare home) :=
  ⟨fun dir member => Or.inl (List.mem_singleton.mp member), by simp [bare]⟩

theorem Beside.ne_nil (beside : Beside home paths) {path : List String} (member : path ∈ paths) :
    path ≠ [] :=
  fun empty => (beside path member).1 (empty ▸ List.nil_prefix)

theorem Beside.not_above (beside : Beside home paths) {path other : List String} (member : path ∈ paths)
    (isOther : other ∈ paths) : ¬ path <+: other.dropLast := by
  intro above
  have same := (beside path member).2 other isOther (above.trans (List.dropLast_prefix other))
  have length := (same ▸ above).length_le
  have positive := List.length_pos_iff.mpr (beside.ne_nil isOther)
  rw [List.length_dropLast] at length
  omega

theorem Within.not_isDir {tree : FileTree} (within : Within home paths tree) (beside : Beside home paths)
    {path : List String} (member : path ∈ paths) : ¬ tree.IsDir path := by
  rintro ⟨dir, isDir, above⟩
  rcases within.dirs dir isDir with rfl | ⟨other, isOther, rfl⟩
  · exact (beside path member).1 above
  · exact beside.not_above member isOther above

theorem Within.read_eq {tree : FileTree} (within : Within home paths tree) (beside : Beside home paths)
    {path : List String} (member : path ∈ paths) :
    tree.read path = (tree.files.get? path).elim (.error .missing) .ok := by
  rw [read]
  cases found : tree.files.get? path with
  | some text => rfl
  | none =>
      have clear : ¬ ∃ file ∈ tree.files.keys, file <+: path := by
        rintro ⟨file, here, above⟩
        have same := (beside file (within.files file here)).2 path member above
        exact (Dict.get?_eq_none_iff _ _).mp found (same ▸ here)
      dsimp only
      rw [if_neg (within.not_isDir beside member), absent, if_neg clear]
      rfl

theorem Within.mkdir_ok {tree : FileTree} (within : Within home paths tree) (beside : Beside home paths)
    {path : List String} (member : path ∈ paths) :
    ∃ made, tree.mkdir path.dropLast = .ok made ∧ Within home paths made ∧ made.files = tree.files ∧
      made.IsDir path.dropLast := by
  by_cases isDir : tree.IsDir path.dropLast
  · exact ⟨tree, if_pos isDir, within, rfl, isDir⟩
  · have clear : ∀ file ∈ tree.files.keys, ¬ file <+: path.dropLast :=
      fun file here => beside.not_above (within.files file here) member
    have free : path.dropLast ∉ tree.files.keys := fun here => clear _ here List.prefix_rfl
    refine ⟨{ tree with dirs := path.dropLast :: tree.dirs }, ?_, ⟨?_, within.files⟩, rfl,
      path.dropLast, List.mem_cons_self, List.prefix_rfl⟩
    · rw [mkdir, if_neg isDir, if_neg free, if_neg fun ⟨file, here, above⟩ => clear file here above]
    · intro dir isDir
      rcases List.mem_cons.mp isDir with rfl | old
      · exact Or.inr ⟨path, member, rfl⟩
      · exact within.dirs dir old

theorem Within.write_ok {tree : FileTree} (within : Within home paths tree) (beside : Beside home paths)
    {path : List String} (member : path ∈ paths) (under : tree.IsDir path.dropLast) (text : String) :
    ∃ written, tree.write path text = .ok written ∧ Within home paths written ∧
      written.files = tree.files.set path text := by
  refine ⟨{ tree with files := tree.files.set path text }, ?_, ⟨within.dirs, ?_⟩, rfl⟩
  · rw [write, if_neg (within.not_isDir beside member), if_pos under]
  · intro file here
    rw [Dict.keys_set] at here
    split_ifs at here
    · exact within.files file here
    · rcases List.mem_append.mp here with old | new
      · exact within.files file old
      · exact List.mem_singleton.mp new ▸ member

/-- A run of saves to paths beside each other does not raise, and leaves under each path what was last
saved there. -/
theorem saved {β ε : Type} (save : FileTree → β → Except ε FileTree) (site : β → List String)
    (text : β → String)
    (one : ∀ tree b, Within home paths tree → site b ∈ paths →
      ∃ tree', save tree b = .ok tree' ∧ Within home paths tree' ∧
        tree'.files = tree.files.set (site b) (text b))
    (saves : List β) (sites : ∀ b ∈ saves, site b ∈ paths) :
    ∃ tree, saves.foldlM save (bare home) = .ok tree ∧ Within home paths tree ∧
      ∀ path, tree.files.get? path = ((saves.filter (site · = path)).getLast?).map text := by
  have run : ∀ tree, Within home paths tree → ∃ tree', saves.foldlM save tree = .ok tree' ∧
      Within home paths tree' ∧
        tree'.files = saves.foldl (fun files b => files.set (site b) (text b)) tree.files := by
    induction saves with
    | nil => exact fun tree within => ⟨tree, rfl, within, rfl⟩
    | cons b rest ih =>
        intro tree within
        obtain ⟨first, saved, kept, files⟩ := one tree b within (sites b List.mem_cons_self)
        obtain ⟨last, ran, kept', files'⟩ :=
          ih (fun b' later => sites b' (List.mem_cons_of_mem b later)) first kept
        refine ⟨last, ?_, kept', by rw [files', files, List.foldl_cons]⟩
        rw [List.foldlM_cons, saved, Fallible.ok_bind, ran]
  obtain ⟨tree, ran, within, files⟩ := run (bare home) bare_within
  refine ⟨tree, ran, within, fun path => ?_⟩
  have local_ := Dict.get?_foldl_local (fun files b => files.set (site b) (text b)) site
    (fun _ b => some (text b)) (fun files b path => by
      rw [Dict.get?_set]
      exact if_congr eq_comm rfl rfl) Dict.empty saves path
  rw [files]
  exact local_.trans (Dict.foldl_last _ _)

end FileTree
end EconomicLedger
