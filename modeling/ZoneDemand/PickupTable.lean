import ZoneDemand.Pickup

/-!
# The table of pickups

A table holds pickups sorted by time and geohash.  The sort is stable, so pickups
with equal time and geohash stay in file order.
-/

namespace ZoneDemand

structure PickupTable where
  rows : List Pickup
  sorted : rows.Pairwise fun a b => a.le b = true

namespace PickupTable

def ofList (pickups : List Pickup) : PickupTable where
  rows := pickups.mergeSort Pickup.le
  sorted := List.pairwise_mergeSort Pickup.le_trans Pickup.le_total pickups

theorem rows_ofList_perm (pickups : List Pickup) : (ofList pickups).rows.Perm pickups :=
  List.mergeSort_perm pickups Pickup.le

def ofBytes (content : Bytes) : Except DataError PickupTable :=
  (Pickup.ofBytes content).map ofList

def size (table : PickupTable) : Nat := table.rows.length

def isEmpty (table : PickupTable) : Bool := table.rows.isEmpty

end PickupTable
end ZoneDemand
