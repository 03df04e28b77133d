/-! # Paths

A path is cut at its slashes into components. Empty components and single dots name nothing. The
file name of a path is its last component, and its last dot divides it into a stem and an
extension, unless the dot is its first character.
-/

namespace MiniC.Path

def cut : List Char → List (List Char)
  | [] => [[]]
  | c :: rest =>
    if c = '/' then [] :: cut rest
    else
      match cut rest with
      | [] => [[c]]
      | first :: others => (c :: first) :: others

/-- The components of a path that name something. -/
def components (path : String) : List String :=
  ((cut path.toList).filter fun part => part ≠ [] ∧ part ≠ ['.']).map String.ofList

/-- The last component; a path that ends by going up has no file name. -/
def fileName? (path : String) : Option String :=
  (components path).getLast?.filter (· ≠ "..")

/-- The text before the last dot and the text after it; none if there is no dot, or nothing
before the last one. -/
def divide? (name : String) : Option (String × String) :=
  let after := name.toList.reverse.takeWhile (· ≠ '.')
  match name.toList.reverse.dropWhile (· ≠ '.') with
  | _ :: before@(_ :: _) => some (String.ofList before.reverse, String.ofList after.reverse)
  | _ => none

def stem? (path : String) : Option String :=
  (fileName? path).map fun name => ((divide? name).map (·.1)).getD name

def extension? (path : String) : Option String :=
  (fileName? path).bind fun name => (divide? name).map (·.2)

end MiniC.Path
