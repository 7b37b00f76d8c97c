import UserStorage.Path.Pieces

/-!
# Home settings

The two values from which the home root is composed: where the home directory is, and what the
application's directory in it is called. They are used as they are, blanks included.

## Main definitions

* `HomeSettings`, `HomeSettings.homeRoot`: the two values, and the home root they describe
-/

namespace UserStorage

/-- Where the home root is: the location and the name of the directory in it. -/
structure HomeSettings where
  location : String
  name : String
  deriving DecidableEq, Repr

/-- The home root that the settings describe. -/
def HomeSettings.homeRoot (s : HomeSettings) : String := Path.composeHome s.location s.name

end UserStorage
