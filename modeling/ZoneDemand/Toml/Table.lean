import ZoneDemand.Toml

/-!
# Building TOML tables

Tables are built by following paths of keys.  A header passes through every table
that is not inline and makes the ones that are missing; an assignment to a dotted
key passes only through tables that no header names.  Either continues in the last
of the tables that a doubled header has begun.
-/

namespace ZoneDemand
namespace Toml

/-- A key that may be dotted: the keys of the tables to pass through and the last
key. -/
structure Key where
  parents : List String
  name : String
deriving DecidableEq, Repr

/-- Who follows a path of keys. -/
inductive Walker where
  | header
  | assignment (inline : Bool)
deriving DecidableEq, Repr

namespace Walker

/-- How a table comes about that is made on the way. -/
def makes : Walker → Origin
  | .header => .passage
  | .assignment inline => .dotted inline

def passes : Walker → Origin → Bool
  | .header, .braces => false
  | .header, _ => true
  | .assignment _, .passage => true
  | .assignment _, .dotted _ => true
  | .assignment _, _ => false

end Walker

namespace Entries

def replace (entries : Entries) (key : String) (value : Toml) : Entries :=
  entries.map fun (other, old) => if other = key then (other, value) else (other, old)

def remove (entries : Entries) (key : String) : Entries :=
  entries.filter fun (other, _) => other ≠ key

end Entries

/-- Changes the table that a path leads to, given how the table came about in which
the path begins. -/
def alterAt (walker : Walker) (change : Origin → Entries → Option Entries) (origin : Origin) :
    List String → Entries → Option Entries
  | [], entries => change origin entries
  | key :: keys, entries =>
      match entries.lookup key with
      | none =>
          (alterAt walker change walker.makes keys []).map fun made =>
            entries ++ [(key, .table walker.makes made)]
      | some (.table other inner) =>
          if walker.passes other then
            (alterAt walker change other keys inner).map fun changed =>
              Entries.replace entries key (.table other changed)
          else none
      | some (.tables items) =>
          match items.getLast? with
          | none => none
          | some last =>
              (alterAt walker change .header keys last).map fun changed =>
                Entries.replace entries key (.tables (items.dropLast ++ [changed]))
      | some _ => none

def Origin.isDotted : Origin → Bool
  | .dotted _ => true
  | _ => false

/-- Gives a value to a key that has none.  The last table on the way to it must have
come about by dotted keys. -/
def assign (inline : Bool) (entries : Entries) (key : Key) (value : Toml) : Option Entries :=
  let add (origin : Origin) (inner : Entries) : Option Entries :=
    if origin.isDotted = key.parents.isEmpty ∨ (inner.lookup key.name).isSome then none
    else some (inner ++ [(key.name, value)])
  alterAt (.assignment inline) add .header key.parents entries

/-- Gives several keys their values, one after another. -/
def assignAll (inline : Bool) (entries : Entries) (values : List (Key × Toml)) :
    Option Entries :=
  values.foldlM (fun entries (key, value) => assign inline entries key value) entries

end Toml
end ZoneDemand
