import ZoneDemand.Association
import ZoneDemand.Store.Fault
import ZoneDemand.Store.Key
import ZoneDemand.Text.Utf8

/-!
# The store in memory

Objects by key, together with the outages that a rehearsal has armed: calls that
fail on one key, and objects that break off early when they are read while their
size stays what it was.
-/

namespace ZoneDemand

inductive StoreCall where
  | stat
  | read
  | write
  | list
deriving DecidableEq, Repr

structure Outage where
  call : StoreCall
  key : String
  fault : StoreFault
deriving DecidableEq, Repr

structure MemoryStore where
  objects : List (String × Bytes)
  outages : List Outage
  cuts : List (String × Nat)
deriving DecidableEq, Repr

namespace MemoryStore

def empty : MemoryStore := ⟨[], [], []⟩

/-- The fault armed first for a call on a key. -/
def outage? (store : MemoryStore) (call : StoreCall) (key : String) : Option StoreFault :=
  (store.outages.find? fun o => o.call = call ∧ o.key = key).map Outage.fault

def object? (store : MemoryStore) (key : String) : Option Bytes := store.objects.lookup key

def list (store : MemoryStore) (stem : String) : Except StoreFault (List String) :=
  match store.outage? .list stem with
  | some fault => .error fault
  | none => .ok ((store.objects.map Prod.fst).filter (Key.hasStem stem))

/-- The size of an object.  A directory has size 0 and exists if an object lies
below it. -/
def size (store : MemoryStore) (key : String) : Except StoreFault Nat :=
  if key = Key.root then .ok 0
  else match store.outage? .stat key with
    | some fault => .error fault
    | none =>
        if Key.isDirectory key then
          if (store.objects.map Prod.fst).any (Key.hasStem key) then .ok 0
          else .error .notFound
        else match store.object? key with
          | some data => .ok data.length
          | none => .error .notFound

/-- The octets of an object from `start` up to `finish`, as far as reading gets. -/
def read (store : MemoryStore) (key : String) (start finish : Nat) :
    Except StoreFault Bytes :=
  if Key.isDirectory key then .error .isDirectory
  else match store.outage? .read key with
    | some fault => .error fault
    | none =>
        match store.object? key with
        | none => .error .notFound
        | some data =>
            let readable := match store.cuts.lookup key with
              | some limit => data.take limit
              | none => data
            .ok ((readable.drop start).take (finish - start))

def write (store : MemoryStore) (key : String) (data : Bytes) :
    Except StoreFault MemoryStore :=
  if Key.isDirectory key then .error .isDirectory
  else match store.outage? .write key with
    | some fault => .error fault
    | none => .ok { store with objects := setValue key data store.objects }

/-- Arms an outage after those already armed. -/
def arm (store : MemoryStore) (outage : Outage) : MemoryStore :=
  { store with outages := store.outages ++ [{ outage with key := Key.normalize outage.key }] }

/-- Lets an object break off after `limit` octets. -/
def cut (store : MemoryStore) (key : String) (limit : Nat) : MemoryStore :=
  { store with cuts := store.cuts ++ [(Key.normalize key, limit)] }

def disarm (store : MemoryStore) : MemoryStore := { store with outages := [], cuts := [] }

end MemoryStore
end ZoneDemand
