/-!
# Paths as text

Operations on paths that never look at a file tree.  A path is a list of segments
between slashes; empty segments and `.` segments other than a leading one are no
components.  `parent?` and `fileName?` take the last component away or look at it,
and keep the spelling of everything before it.
-/

namespace ZoneDemand
namespace Path

abbrev Segment := List Char

/-- The segments between slashes, at least one. -/
def split : List Char → List Segment
  | [] => [[]]
  | c :: rest =>
      if c = '/' then [] :: split rest
      else match split rest with
        | [] => [[c]]
        | segment :: others => (c :: segment) :: others

def join : List Segment → List Char := List.intercalate ['/']

/-- Whether the path starts at the root, and the segments after that slash. -/
def segments : List Char → Bool × List Segment
  | '/' :: rest => (true, split rest)
  | text => (false, split text)

def render (absolute : Bool) (segments : List Segment) : String :=
  String.ofList ((if absolute then ['/'] else []) ++ join segments)

/-- Drops what is no component from the end of a path, given last segment first. -/
def dropIdle (absolute : Bool) : List Segment → List Segment
  | [] => []
  | segment :: before =>
      if segment = [] ∨ (segment = ['.'] ∧ (absolute ∨ before ≠ [])) then
        dropIdle absolute before
      else segment :: before

def parent? (path : String) : Option String :=
  let (absolute, segs) := segments path.toList
  match dropIdle absolute segs.reverse with
  | [] => none
  | _ :: before => some (render absolute (dropIdle absolute before).reverse)

/-- The last component, if it is an ordinary name. -/
def fileName? (path : String) : Option String :=
  let (absolute, segs) := segments path.toList
  match dropIdle absolute segs.reverse with
  | [] => none
  | segment :: _ =>
      if segment = ['.'] ∨ segment = ['.', '.'] then none else some (String.ofList segment)

/-- The path `child` seen from the directory `base`. -/
def append (base child : String) : String :=
  match child.toList with
  | '/' :: _ => child
  | _ =>
      match base.toList.getLast? with
      | none => child
      | some '/' => base ++ child
      | some _ => base ++ "/" ++ child

/-- Replaces the last component if it is an ordinary name, else appends. -/
def withFileName (path name : String) : String :=
  match fileName? path, parent? path with
  | some _, some parent => append parent name
  | _, _ => append path name

/-- The path next to `path` whose name ends in `suffix` as well. -/
def sibling (path suffix : String) : String :=
  withFileName path ((fileName? path).getD "" ++ suffix)

/-- The directory that has to exist before the path can be created. -/
def ancestor? (path : String) : Option String :=
  (parent? path).filter fun parent => parent ≠ ""

end Path
end ZoneDemand
