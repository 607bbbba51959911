/-!
# TOML values

A TOML document is a table, whose entries keep the order in which they were begun.
How a table came about decides what may still be added to it.  Fractions and dates
are told apart from other values, but not kept.
-/

namespace ZoneDemand

namespace Toml

inductive Origin where
  /-- A header names it. -/
  | header
  /-- A longer header passes through it. -/
  | passage
  /-- An assignment to a dotted key passes through it, in an inline table or not. -/
  | dotted (inline : Bool)
  /-- It is an inline table. -/
  | braces
deriving DecidableEq, Repr

end Toml

inductive Toml where
  | string (s : String)
  | integer (n : Int)
  | fraction
  | boolean (b : Bool)
  | date
  | list (items : List Toml)
  | table (origin : Toml.Origin) (entries : List (String × Toml))
  /-- The tables that a doubled header has begun. -/
  | tables (items : List (List (String × Toml)))
deriving Repr

namespace Toml

abbrev Entries := List (String × Toml)

/-- What a reader takes off a text and what it leaves. -/
abbrev Read (α : Type) := Option (α × List Char)

def Read.prepend {α : Type} (a : α) : Read (List α) → Read (List α)
  | none => none
  | some (others, rest) => some (a :: others, rest)

theorem Read.of_prepend {α : Type} {a : α} {r : Read (List α)} {taken : List α}
    {rest : List Char} (h : Read.prepend a r = some (taken, rest)) :
    ∃ others, r = some (others, rest) ∧ taken = a :: others := by
  cases r with
  | none => simp [prepend] at h
  | some p =>
      obtain ⟨others, left⟩ := p
      simp_all [prepend]

end Toml
end ZoneDemand
