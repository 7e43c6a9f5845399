import ThreadIpc.ConvertUtf.RoundTrip
import ThreadIpc.ConvertUtf.Utf8
import ThreadIpc.File.Model
import ThreadIpc.Lib.Fields
import ThreadIpc.Lib.FileTree

/-!
# Creation of directories

`File::RecursivelyCreateDir` on POSIX, in a file system without symbolic links. The names of files
are bytes. What no system call of the function changes is the same for all of them: the current
directory, the length of a path that is too long, and where the process may search and create.
-/

namespace ThreadIpc.File

open Lib ConvertUtf

abbrev Name := List UInt8

structure Environment where
  cwd : List Name
  pathMax : Nat
  maySearch : List Name → Bool
  mayCreate : List Name → Bool
  asserts : Bool

def slash : UInt8 := 47

def component (field : Name) : Component Name :=
  if field = [46] then .self else if field = [46, 46] then .up else .name field

def Environment.start (env : Environment) (path : Name) : List Name :=
  if path.head? = some slash then [] else env.cwd

def Environment.fits (env : Environment) (path : Name) : Prop :=
  path ≠ [] ∧ path.length < env.pathMax

instance (env : Environment) (path : Name) : Decidable (env.fits path) :=
  inferInstanceAs (Decidable (_ ∧ _))

/-- A separator behind a file is an error, which makes no difference to the look for a directory. -/
def stat (env : Environment) (fs : FileTree Name) (path : Name) : Option FileKind :=
  if env.fits path then
    (fs.walk env.maySearch (env.start path) ((fields slash path).map component)).bind fs.kind
  else none

def mkdir (env : Environment) (fs : FileTree Name) (path : Name) : FileTree.Made Name :=
  if env.fits path then
    fs.mkdir env.maySearch env.mayCreate (env.start path) ((fields slash path).map component)
  else .refused

def DirectoryExists (env : Environment) (fs : FileTree Name) (path : String16) : Bool :=
  match string16ToUTF8 path with
  | none => false
  | some path => stat env fs path = some .directory

def Tokenize (str : String16) (delimiter : UInt16) : List String16 := fields delimiter str

def SplitPath (path : String16) : List String16 := Tokenize path kPathSeparator

/-- Nothing is returned if the assertion fails. -/
def createDirs (env : Environment) (fs : FileTree Name) (longPath : String16) :
    List String16 → Option Bool × FileTree Name
  | [] => (some true, fs)
  | it :: components =>
      if it = [] ∨ it = [46] ∨ it = [46, 46] then
        (if env.asserts then none else some false, fs)
      else
        let longPath := longPath ++ [kPathSeparator] ++ it
        match string16ToUTF8 longPath with
        | none => (some false, fs)
        | some path =>
            match mkdir env fs path with
            | .made fs => createDirs env fs longPath components
            | .exists_ =>
                if DirectoryExists env fs longPath then createDirs env fs longPath components
                else (some false, fs)
            | .refused => (some false, fs)

def RecursivelyCreateDir (env : Environment) (fs : FileTree Name) (fullDirpath : String16) :
    Option Bool × FileTree Name :=
  if DirectoryExists env fs fullDirpath then (some true, fs)
  else createDirs env fs [] (SplitPath fullDirpath)

/-!
# Deletion of directories

`File::DeleteRecursively` on POSIX, in a file system without symbolic links that nothing else changes
meanwhile. What `readdir` says of `.` and `..` is left out. `ReadDir` is given the path in UTF-16, and
converts it back.
-/

def Legal (name : Name) : Prop := name ≠ [] ∧ slash ∉ name ∧ name ≠ [46] ∧ name ≠ [46, 46]

instance (name : Name) : Decidable (Legal name) := inferInstanceAs (Decidable (_ ∧ _))

structure Disk extends FileTree Name where
  entries : List Name → List Name
  listed : ∀ name dir, name ∈ entries dir ↔ kind (name :: dir) ≠ none
  nodup : ∀ dir, (entries dir).Nodup
  legal : ∀ name dir, kind (name :: dir) ≠ none → Legal name

/-- `typed` is whether the file system fills in `d_type`. -/
structure DeleteEnvironment extends Environment where
  mayRead : List Name → Bool
  mayDelete : List Name → Bool
  typed : Bool

namespace Disk
variable (disk : Disk)

def without (loc : List Name) (proper : loc ≠ []) (empty : ∀ name, disk.kind (name :: loc) = none) : Disk where
  toFileTree := disk.remove loc proper empty
  entries dir := (disk.entries dir).filter fun name => name :: dir ≠ loc
  listed name dir := by
    rw [List.mem_filter, disk.listed]
    by_cases gone : name :: dir = loc
    · simp [FileTree.remove, gone]
    · simp [FileTree.remove, gone]
  nodup dir := (disk.nodup dir).filter _
  legal name dir exists_ := by
    by_cases gone : name :: dir = loc
    · exact absurd (if_pos gone) exists_
    · exact disk.legal name dir ((if_neg gone).symm.trans_ne exists_)

theorem nothing_below_file {loc : List Name} (file : disk.kind loc = some .file) (name : Name) :
    disk.kind (name :: loc) = none := by
  by_contra exists_
  cases file.symm.trans (disk.parent name loc exists_)

theorem nothing_below_empty {loc : List Name} (empty : disk.entries loc = []) (name : Name) :
    disk.kind (name :: loc) = none := by
  by_contra exists_
  have inside := (disk.listed name loc).mpr exists_
  rw [empty] at inside
  cases inside

theorem file_ne_root {loc : List Name} (file : disk.kind loc = some .file) : loc ≠ [] := by
  rintro rfl
  cases file.symm.trans disk.root

end Disk

section Calls
variable (env : DeleteEnvironment) (disk : Disk)

def resolve (path : Name) : Option (List Name) :=
  if env.fits path then
    disk.walk env.maySearch (env.start path) ((fields slash path).map component)
  else none

def unlink (path : Name) : Option Disk :=
  match resolve env disk path with
  | none => none
  | some loc =>
      if may : disk.kind loc = some .file ∧ env.mayDelete loc = true then
        some (disk.without loc (disk.file_ne_root may.1) (disk.nothing_below_file may.1))
      else none

/-- A path that ends in a dot is refused. -/
def endsInName (path : Name) : Bool :=
  match (fields slash path).getLast? with
  | none => false
  | some last => last ≠ [46] && last ≠ [46, 46]

def rmdir (path : Name) : Option Disk :=
  match resolve env disk path with
  | none => none
  | some loc =>
      if may : disk.kind loc = some .directory ∧ loc ≠ [] ∧ disk.entries loc = [] ∧
          env.mayDelete loc = true ∧ endsInName path = true then
        some (disk.without loc may.2.1 (disk.nothing_below_empty may.2.2.1))
      else none

def ReadDir (path : String16) : Option (List (Name × Bool)) :=
  match string16ToUTF8 path with
  | none => none
  | some path =>
      match resolve env disk path with
      | none => none
      | some loc =>
          if disk.kind loc = some .directory ∧ env.mayRead loc = true then
            some ((disk.entries loc).map fun name =>
              (name, env.typed && disk.kind (name :: loc) = some .directory))
          else none

end Calls

def deleteEntries (env : DeleteEnvironment) (recursively : Name → Disk → Option Bool × Disk) (delPath : Name) :
    List (Name × Bool) → Disk → Option Bool × Disk
  | [], disk => (some true, disk)
  | it :: rest, disk =>
      let path := delPath ++ slash :: it.1
      if it.2 then
        match recursively path disk with
        | (some true, disk) => deleteEntries env recursively delPath rest disk
        | stopped => stopped
      else
        match unlink env disk path with
        | none => (some false, disk)
        | some disk => deleteEntries env recursively delPath rest disk

/-- Nothing is returned when the calls are nested deeper than `depth`. -/
def DeleteRecursivelyImpl (env : DeleteEnvironment) : Nat → Name → Disk → Option Bool × Disk
  | 0, _, disk => (none, disk)
  | depth + 1, delPath, disk =>
      match utf8ToString16 delPath with
      | none => (some false, disk)
      | some delPath16 =>
          match ReadDir env disk delPath16 with
          | none => (some false, disk)
          | some contents =>
              match deleteEntries env (DeleteRecursivelyImpl env depth) delPath contents disk with
              | (some true, disk) =>
                  match rmdir env disk delPath with
                  | none => (some false, disk)
                  | some disk => (some true, disk)
              | stopped => stopped

def withoutTrailingSlash (path : Name) : Name :=
  if path.getLast? = some slash then path.dropLast else path

def DeleteRecursively (env : DeleteEnvironment) (depth : Nat) (disk : Disk) (fullDirpath : String16) :
    Option Bool × Disk :=
  match string16ToUTF8 fullDirpath with
  | none => (some false, disk)
  | some dirToDelete =>
      if DirectoryExists env.toEnvironment disk.toFileTree fullDirpath then
        DeleteRecursivelyImpl env depth (withoutTrailingSlash dirToDelete) disk
      else (some false, disk)

end ThreadIpc.File
