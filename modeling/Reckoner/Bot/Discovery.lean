import Reckoner.Text.Ranges

/-!
# Finding extensions

Every source file in the directory of the extensions is one, unless its name begins with an
underscore.  The names come in code point order, so that extensions are always loaded in the same
order.
-/

namespace Reckoner

/-- The end of the name of a source file. -/
def sourceSuffix : Text := ['.', 'p', 'y']

/-- The name of a source file without its end; other files and private ones have none. -/
def stem? (file : String) : Option Text :=
  let name := file.toList
  if sourceSuffix.isSuffixOf name && name.head? != some '_' then
    some (name.take (name.length - sourceSuffix.length))
  else none

/-- The names in code point order. -/
def sortNames (names : List String) : List String := names.mergeSort fun a b => a ≤ b

/-- The extensions among the files of a directory, as dotted names in a package. -/
def discover (package : String) (files : List String) : List String :=
  sortNames ((files.filterMap stem?).map fun stem => s!"{package}.{String.ofList stem}")

/-- The extensions in a directory, which may be missing. -/
def discoverIn (package : String) : Option (List String) → List String
  | none => []
  | some files => discover package files

end Reckoner
