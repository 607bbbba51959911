/-!
# Association lists

Files by location and objects by key are lists of pairs.  Setting the value of a key
replaces the first pair with that key, or adds one at the end.
-/

namespace ZoneDemand

def setValue {α β : Type} [DecidableEq α] (key : α) (value : β) : List (α × β) → List (α × β)
  | [] => [(key, value)]
  | (other, old) :: rest =>
      if other = key then (other, value) :: rest else (other, old) :: setValue key value rest

end ZoneDemand
