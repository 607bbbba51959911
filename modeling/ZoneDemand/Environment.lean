/-!
# The environment

Variables of the process, looked up either under the names that belong to this
program, which share a beginning, or under names shared with other programs.
-/

namespace ZoneDemand

structure Environment where
  /-- The variable of this program with the given key. -/
  own? : String → Option String
  /-- The variable with the given full name. -/
  shared? : String → Option String

namespace Environment

def stem : String := "PICKUPS2DEEPAR_"

def fullName (key : String) : String := stem ++ key

def empty : Environment := ⟨fun _ => none, fun _ => none⟩

/-- The environment of a process whose variables are given by their full names. -/
def ofVariables (values : List (String × String)) : Environment where
  own? key := values.lookup (fullName key)
  shared? name := values.lookup name

/-- An environment in which the program's own variables are given by their keys, and
all others by their full names. -/
def ofKeys (own shared : List (String × String)) : Environment where
  own? key := own.lookup key
  shared? name := shared.lookup name

end Environment
end ZoneDemand
