import ZoneDemand.Journal
import ZoneDemand.Store

/-!
# The world of a run

A run works on a local file tree and an object store and keeps a journal.  An
action changes the world and either answers or fails; what it did before it failed
stays done.
-/

namespace ZoneDemand

structure World where
  files : FileTree
  store : ObjectStore
  journal : Journal

namespace World

/-- A bare file tree, an empty store in memory and an empty journal. -/
def initial : World := ⟨.bare, .memory .empty, []⟩

def report (world : World) (entries : Journal) : World :=
  { world with journal := world.journal ++ entries }

end World

abbrev Action (ε : Type) := ExceptT ε (StateM World)

namespace Action

variable {ε ε' α : Type}

def report (entries : Journal) : Action ε Unit := modify (·.report entries)

/-- Answers or fails as a computation that does not touch the world has done. -/
def ofExcept (outcome : Except ε α) : Action ε α := ExceptT.mk (pure outcome)

/-- Applies a change of the file tree that answers or fails. -/
def onFiles (change : FileTree → FileTree × Except ε α) : Action ε α := do
  let (files, outcome) := change (← get).files
  modify fun world => { world with files := files }
  ofExcept outcome

def mapFailure (f : ε → ε') (action : Action ε α) : Action ε' α :=
  ExceptT.adapt f action

end Action
end ZoneDemand
