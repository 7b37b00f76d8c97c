import UserStorage.Environment
import UserStorage.Settings.Layer

/-!
# Settings in the environment

Some environment variables assign to settings. Their names are taken in lower case; one that begins
with `sc__` assigns to the key that is left without this beginning, in which every two underscores
stand for a point. The values are taken as text, and an empty one counts.

## Main definitions

* `Environment.key?`: the key that a variable assigns to
* `Environment.assignments`: the assignments of an environment
-/

namespace UserStorage

namespace Environment

/-- A character in lower case, where that is an ASCII letter; besides `A` to `Z` the Kelvin sign has
one. All other characters stay, for no key of a setting holds them in either case. -/
def lowerCase (c : Char) : Char := if c = '\u212a' then 'k' else c.toLower

/-- Some characters with a point for every two underscores. -/
def pointed : List Char → List Char
  | '_' :: '_' :: cs => '.' :: pointed cs
  | c :: cs => c :: pointed cs
  | [] => []

/-- What the name of a variable that assigns to a setting begins with, in lower case. -/
def keyStart : List Char := ['s', 'c', '_', '_']

/-- The key that a variable assigns to, if it does. -/
def key? (variableName : String) : Option String :=
  let cs := variableName.toList.map lowerCase
  if keyStart.isPrefixOf cs then some (String.ofList (pointed (cs.drop keyStart.length))) else none

/-- The assignments of an environment, in its order. -/
def assignments (env : Environment) : List (String × Settings.Setting) :=
  env.filterMap fun (name, value) => (key? name).map fun key => (key, .scalar value)

end Environment

end UserStorage
