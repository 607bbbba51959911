import ZoneDemand.Store.Fault
import ZoneDemand.Text.Utf8

/-!
# Transports to a bucket

The objects of a bucket are reached through a transport, which is no part of this
library.  Every call on a transport may fail.  A call that answers tells the truth
about the objects, but a read may answer with fewer octets than it was asked for.
-/

namespace ZoneDemand

structure Transport where
  object? : String → Option Bytes
  list : String → Except StoreFault (List String)
  size : String → Except StoreFault Nat
  read : String → Nat → Nat → Except StoreFault Bytes
  /-- The transport after an object has been created or replaced. -/
  write : String → Bytes → Except StoreFault Transport
  size_eq : ∀ {key n}, size key = .ok n → ∃ data, object? key = some data ∧ n = data.length
  read_eq : ∀ {key start finish bytes}, read key start finish = .ok bytes →
    ∃ data, object? key = some data ∧ bytes <+: (data.drop start).take (finish - start)

namespace Transport

def none : Transport where
  object? _ := .none
  list _ := .error .unexpected
  size _ := .error .unexpected
  read _ _ _ := .error .unexpected
  write _ _ := .error .unexpected
  size_eq h := by simp at h
  read_eq h := by simp at h

end Transport
end ZoneDemand
