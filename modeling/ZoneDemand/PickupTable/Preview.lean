import ZoneDemand.Journal
import ZoneDemand.PickupTable

/-!
# Previews of pickups

The journal shows the first pickups of a table in columns, once as read and once
as sorted.
-/

namespace ZoneDemand

def alignRight (width : Nat) (text : String) : String :=
  String.ofList (List.replicate (width - text.length) ' ' ++ text.toList)

def alignLeft (width : Nat) (text : String) : String :=
  String.ofList (text.toList ++ List.replicate (width - text.length) ' ')

namespace Pickup

def previewRow (number : Nat) (p : Pickup) : String :=
  alignRight 4 (toString number) ++ "  " ++ p.time.format ++ "  " ++
    alignLeft 12 p.geohash ++ " " ++ alignRight 5 (toString p.count) ++ "  " ++ p.location

/-- At most ten rows are shown. -/
def preview (stage : String) (pickups : List Pickup) : Journal :=
  .debug s!"---- {stage} ({pickups.length} rows) ----" [] ::
    (pickups.take 10).mapIdx fun i p => .debug (previewRow i p) []

end Pickup
end ZoneDemand
