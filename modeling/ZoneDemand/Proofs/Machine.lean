import Mathlib.Data.List.Basic
import ZoneDemand.DataError
import ZoneDemand.Proofs.Outcomes
import ZoneDemand.Text.Unsigned

/-!
# Machine arithmetic

Numbers of a machine have 64 bits, with a sign or without.  The operations here stop with a
fault where a machine would wrap around, divide by zero or leave a list.  Each comes with the
condition under which it answers.
-/

namespace ZoneDemand.Machine

inductive Fault where
  | overflow
  | divisionByZero
  | negativeIndex
  | outOfBounds
deriving DecidableEq, Repr

/-- A computation is stopped by a fault of the machine, or reports an error of the data. -/
inductive Halt where
  | fault (cause : Fault)
  | failed (cause : DataError)
deriving DecidableEq, Repr

/-- The larger end of the signed numbers. -/
def maxSigned : Int := 9223372036854775807

/-- The whole seconds of the longest duration. -/
def longest : Int := 9223372036854775

def signed? (n : Int) : Option Int :=
  if -maxSigned - 1 ≤ n ∧ n ≤ maxSigned then some n else none

def signed (n : Int) : Except Halt Int :=
  match signed? n with
  | some n => .ok n
  | none => .error (.fault .overflow)

def unsigned (n : Nat) : Except Halt Nat :=
  if n ≤ maxCount then .ok n else .error (.fault .overflow)

def minus (a b : Nat) : Except Halt Nat :=
  if b ≤ a then .ok (a - b) else .error (.fault .overflow)

/-- The quotient rounded towards zero.  That of the least number by `-1` has no 64 bits. -/
def quotient (a b : Int) : Except Halt Int :=
  if b = 0 then .error (.fault .divisionByZero) else signed (a.tdiv b)

/-- What the quotient leaves; it fails where the quotient fails. -/
def remainder (a b : Int) : Except Halt Int := (quotient a b).map fun _ => a.tmod b

/-- A signed number as an unsigned one. -/
def index (n : Int) : Except Halt Nat :=
  if n < 0 then .error (.fault .negativeIndex) else unsigned n.toNat

section Lists

variable {α : Type}

def update (l : List α) (k : Nat) (f : α → Except Halt α) : Except Halt (List α) :=
  match l[k]? with
  | some a => (f a).map (l.set k)
  | none => .error (.fault .outOfBounds)

/-- The first `n` members of a list that has as many. -/
def slice (l : List α) (n : Nat) : Except Halt (List α) :=
  if n ≤ l.length then .ok (l.take n) else .error (.fault .outOfBounds)

end Lists

/-! ## When the operations answer -/

theorem signed?_of_bounds {n : Int} (hlow : -maxSigned - 1 ≤ n) (hhigh : n ≤ maxSigned) :
    signed? n = some n :=
  if_pos ⟨hlow, hhigh⟩

theorem signed?_cases (n : Int) : signed? n = some n ∨ signed? n = none := by
  unfold signed?
  split <;> simp

theorem unsigned_of_le {n : Nat} (hn : n ≤ maxCount) : unsigned n = .ok n := if_pos hn

theorem minus_of_le {a b : Nat} (hle : b ≤ a) : minus a b = .ok (a - b) := if_pos hle

section Division

variable {a b : Int} (hb : 1 ≤ b) (ha : 0 ≤ a)
include hb ha

theorem tdiv_bounds : 0 ≤ a.tdiv b ∧ a.tdiv b ≤ a := by
  rw [Int.tdiv_eq_ediv_of_nonneg ha]
  exact ⟨Int.ediv_nonneg ha (by omega), Int.ediv_le_self b ha⟩

theorem quotient_of_nonneg (hbound : a ≤ maxSigned) : quotient a b = .ok (a.tdiv b) := by
  obtain ⟨hnonneg, hle⟩ := tdiv_bounds hb ha
  have hlow : -maxSigned - 1 ≤ a.tdiv b := Int.le_trans (by decide) hnonneg
  unfold quotient signed
  rw [if_neg (by omega), signed?_of_bounds hlow (Int.le_trans hle hbound)]

theorem remainder_of_nonneg (hbound : a ≤ maxSigned) : remainder a b = .ok (a.tmod b) := by
  rw [remainder, quotient_of_nonneg hb ha hbound, map_ok]

/-- A remainder fails with its quotient, although it would have 64 bits. -/
example : remainder (-maxSigned - 1) (-1) = .error (.fault .overflow) := rfl

theorem index_tdiv (hbound : a ≤ maxSigned) : index (a.tdiv b) = .ok (a.tdiv b).toNat := by
  obtain ⟨hnonneg, hle⟩ := tdiv_bounds hb ha
  unfold maxSigned at hbound
  rw [index, if_neg (by omega)]
  exact unsigned_of_le (by unfold maxCount; omega)

end Division

section Lists

variable {α : Type} {l : List α}

theorem update_of_lt {k : Nat} (hk : k < l.length) {f : α → Except Halt α} {g : α → α}
    (hf : ∀ a, f a = .ok (g a)) : update l k f = .ok (l.modify k g) := by
  rw [update, List.getElem?_eq_getElem hk]
  simp only [hf, map_ok]
  rw [List.modify_eq_set_get g hk, List.get_eq_getElem]

theorem slice_of_le {n : Nat} (hn : n ≤ l.length) : slice l n = .ok (l.take n) := if_pos hn

end Lists

end ZoneDemand.Machine
