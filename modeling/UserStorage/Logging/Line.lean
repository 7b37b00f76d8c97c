import UserStorage.Logging.Filter

/-!
# Log lines

How events are written to the log: the level and the target in brackets, then the text, whose
further lines are indented.

## Main definitions

* `Logging.lines`: the lines of an event
* `Filter.write`: what is written of some events
* `Filter.warnings`: what is said of the items that a filter ignores
-/

namespace UserStorage.Logging

/-- The name of a level, with blanks behind it up to the length of the longest. -/
def levelField (level : Level) : String :=
  level.name ++ String.ofList (List.replicate (5 - level.name.length) ' ')

/-- The lines of an event. -/
def lines (e : Event) : List String :=
  match e.message.splitOn "\n" with
  | [] => []
  | first :: more =>
    ("[" ++ levelField e.level ++ " " ++ e.target ++ "] " ++ first) :: more.map ("    " ++ ·)

namespace Filter

/-- The lines of those events that pass a filter. -/
def write (filter : Filter) (events : List Event) : List String :=
  (events.filter filter.passes).flatMap lines

/-- What is said of the items that a filter ignores. -/
def warnings (filter : Filter) : List String :=
  filter.ignored.map fun part => "warning: invalid logging spec '" ++ part ++ "', ignoring it"

end Filter

end UserStorage.Logging
