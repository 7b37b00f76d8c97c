/-!
# Environments

The variables that a process starts with. Their names and values are text: an environment in which
one of them is not Unicode is not described, and nothing is said of a process that is given one.

## Main definitions

* `Environment`, `Environment.get?`: the variables of a process, and the value of one
-/

namespace UserStorage

/-- The variables of a process with their values. -/
abbrev Environment := List (String × String)

/-- The value of a variable. -/
def Environment.get? (env : Environment) (name : String) : Option String := env.lookup name

end UserStorage
