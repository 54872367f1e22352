/-!
# Log files

Log files live in a tree of directories, the `Volume`, whose top is always there. A path is a text
with components between slashes; empty components and `.` stand for nothing, and `..` goes one
step up. Opening a log file makes the directories it lies in, unless a file is in their way, and
then the file itself, unless a directory is in its way. A file that exists is appended to. Names
and paths are limited in length, and hold no NUL.
-/

namespace RollupEngine.Logging

/-- A place in the tree: the names that lead to it from the top. -/
abbrev Location := List String

/-- The components of a path that say where to go. -/
def pathSteps (path : String) : List String :=
  ((path.toList.splitOn '/').map String.ofList).filter fun s => s ≠ "" && s ≠ "."

/-- The place that steps lead to. There is nothing above the top. -/
def resolve (steps : List String) : Location :=
  steps.foldl (fun place step => if step = ".." then place.dropLast else place ++ [step]) []

/-- A place as a path from the top. -/
def Location.render (place : Location) : String :=
  "/".intercalate place

/-- Why a log file cannot be opened. -/
inductive VolumeError where
  /-- The directory to make is a file. -/
  | fileExists
  /-- The directory to make would lie in a file. -/
  | notADirectory
  /-- The file to open is a directory. -/
  | isADirectory
  /-- There is a NUL in the path. -/
  | nulInPath
  /-- The path, or a name in it, is too long. -/
  | tooLong
  deriving DecidableEq, Repr

/-- The most bytes a name may have. -/
def maxNameBytes : Nat := 255

/-- The most bytes a path may have from the top on. With the path of the top itself it may have
4095. -/
def maxPathBytes : Nat := 4070

/-- Whether a name is too long for a file or a directory. -/
def nameTooLong (name : String) : Bool :=
  maxNameBytes < name.utf8ByteSize

/-- Why steps are no path at all, whatever they lead to. -/
def pathFault? (steps : List String) : Option VolumeError :=
  if steps.any (·.toList.contains '\x00') then some .nulInPath
  else if maxPathBytes < ("/".intercalate steps).utf8ByteSize then some .tooLong
  else none

/-- A tree of directories and text files. -/
structure Volume where
  directories : List Location := []
  files : List (Location × String) := []
  deriving DecidableEq, Repr

namespace Volume

/-- The text of the file at a place. -/
def text? (v : Volume) (place : Location) : Option String :=
  (v.files.find? fun f => f.1 = place).map (·.2)

/-- Whether a place holds a directory. -/
def isDirectory (v : Volume) (place : Location) : Bool :=
  place.isEmpty || v.directories.contains place

/-- Make the directory at a place, unless it is there. -/
def makeDirectory (v : Volume) (place : Location) : Volume :=
  if v.isDirectory place then v else { v with directories := place :: v.directories }

/-- Go further steps from where `gone` led, and make every directory that is missing. As long as
none was missing (`made` is false) the place at the end is what is asked for, and a file before it
is a fault of the path; from the first missing one on, each directory is asked for by itself. -/
def makeDirectories (v : Volume) (gone : List String) (made : Bool) :
    List String → Except VolumeError Unit × Volume
  | [] => (.ok (), v)
  | step :: rest =>
    let place := resolve (gone ++ [step])
    if nameTooLong step then (.error .tooLong, v)
    else if (v.text? place).isSome then
      (.error (if made || rest.isEmpty then .fileExists else .notADirectory), v)
    else
      (v.makeDirectory place).makeDirectories (gone ++ [step]) (made || !v.isDirectory place) rest

/-- Make the directory that steps lead to, and those on the way. -/
def makePath (v : Volume) (steps : List String) : Except VolumeError Unit × Volume :=
  match pathFault? steps with
  | some e => (.error e, v)
  | none => v.makeDirectories [] false steps

/-- Open the file at a place whose directory is there, and make it if it is missing. -/
def openAt (v : Volume) (place : Location) : Except VolumeError Location × Volume :=
  match pathFault? place with
  | some e => (.error e, v)
  | none =>
    if place.any nameTooLong then (.error .tooLong, v)
    else if v.isDirectory place then (.error .isADirectory, v)
    else if (v.text? place).isSome then (.ok place, v)
    else (.ok place, { v with files := (place, "") :: v.files })

/-- Open the file that a path leads to, and make it and its directories where they are missing. -/
def openFile (v : Volume) (path : String) : Except VolumeError Location × Volume :=
  let steps := pathSteps path
  match v.makePath steps.dropLast with
  | (.error e, v) => (.error e, v)
  | (.ok (), v) => v.openAt (resolve steps)

/-- Add to the end of a file. -/
def append (v : Volume) (place : Location) (s : String) : Volume :=
  { v with files := v.files.map fun f => if f.1 = place then (f.1, f.2 ++ s) else f }

/-! ## Texts after writing -/

theorem text?_append (v : Volume) (place other : Location) (s : String) :
    (v.append place s).text? other =
      if other = place then (v.text? other).map (· ++ s) else v.text? other := by
  simp only [append, text?]
  induction v.files with
  | nil => simp
  | cons f files ih =>
    by_cases hf : f.1 = other <;> by_cases hp : f.1 = place
    · subst hf
      simp [hp]
    · subst hf
      simp [hp]
    · simp only [List.map_cons, List.find?_cons, hp, ite_true] at ih ⊢
      simpa [show (place = other) = False by simp [← hp, hf]] using ih
    · simp only [List.map_cons, List.find?_cons, hp, hf, ite_false] at ih ⊢
      simpa using ih

end Volume

end RollupEngine.Logging
