import ZoneDemand.Toml.Value

/-!
# TOML documents

A document is read in two stages: first its statements, then the table that they
build.  A header and the assignments after it form a section, and the sections are
added one after another.
-/

namespace ZoneDemand
namespace Toml

inductive Statement where
  /-- A header that names a table. -/
  | table (key : Key)
  /-- A doubled header that begins another table under the same key. -/
  | item (key : Key)
  | assign (key : Key) (value : Toml)
deriving Repr

/-- A header, after its first bracket. -/
def readHeader : List Char → Read Statement
  | '[' :: rest =>
      match readKey rest with
      | some (key, ']' :: ']' :: after) => some (.item key, after)
      | _ => none
  | text =>
      match readKey text with
      | some (key, ']' :: after) => some (.table key, after)
      | _ => none

theorem length_readHeader_lt {text rest : List Char} {s : Statement}
    (h : readHeader text = some (s, rest)) : rest.length < text.length := by
  unfold readHeader at h
  grind [→ length_readKey_lt]

def readStatement (text : List Char) : Read Statement :=
  match text with
  | '[' :: rest => readHeader rest
  | _ =>
      match readAssignment value text with
      | some ((key, v), after) => some (.assign key v, after)
      | none => none

theorem length_readStatement_lt {text rest : List Char} {s : Statement}
    (h : readStatement text = some (s, rest)) : rest.length < text.length := by
  unfold readStatement at h
  grind [→ length_readHeader_lt, → length_readAssignment_lt]

/-- The text after a line that holds no more than blanks and a comment begins
further on. -/
theorem length_afterLine_lt {text rest : List Char} (hne : text ≠ [])
    (h : afterLine? text = some rest) : rest.length < text.length := by
  have h1 := length_skipComment_le (skipBlanks text)
  have h2 := length_skipBlanks_le text
  have h3 := List.length_pos_iff.mpr hne
  unfold afterLine? at h
  split at h
  · simp at h
    rw [h]
    simpa using h3
  · next heq =>
    have h4 := length_afterNewline_lt h
    rw [heq] at h1
    omega

theorem length_afterStatement_lt {text after left : List Char} {statement : Statement}
    (hs : readStatement (skipBlanks text) = some (statement, after))
    (hl : afterLine? after = some left) : left.length < text.length := by
  have h1 := length_readStatement_lt hs
  have h2 := length_afterLine_le hl
  have h3 := length_skipBlanks_le text
  omega

/-- The statements of a document.  Each ends its line, except for a comment. -/
def readStatements (text : List Char) : Option (List Statement) :=
  match text with
  | [] => some []
  | c :: rest =>
      match h : afterLine? (c :: rest) with
      | some after =>
          have := length_afterLine_lt (by simp) h
          readStatements after
      | none =>
          match hs : readStatement (skipBlanks (c :: rest)) with
          | none => none
          | some (statement, after) =>
              match hl : afterLine? after with
              | none => none
              | some left =>
                  have := length_afterStatement_lt hs hl
                  (readStatements left).map (statement :: ·)
termination_by text.length
decreasing_by all_goals assumption

/-! ### Sections -/

inductive Header where
  | root
  | table (key : Key)
  | item (key : Key)
deriving Repr

structure Block where
  header : Header
  assignments : List (Key × Toml)
deriving Repr

namespace Block

/-- Divides statements at the headers, given the block that is open. -/
def ofStatements (header : Header) (taken : List (Key × Toml)) : List Statement → List Block
  | [] => [⟨header, taken⟩]
  | .assign key v :: rest => ofStatements header (taken ++ [(key, v)]) rest
  | .table key :: rest => ⟨header, taken⟩ :: ofStatements (.table key) [] rest
  | .item key :: rest => ⟨header, taken⟩ :: ofStatements (.item key) [] rest

/-- Adds the table of a block under a key.  A table may be there already if no more
than longer headers have passed through it; it then moves to the end. -/
def addTable (name : String) (assignments : List (Key × Toml)) (entries : Entries) :
    Option Entries :=
  match entries.lookup name with
  | none =>
      (assignAll false [] assignments).map fun filled =>
        entries ++ [(name, .table .header filled)]
  | some (.table .passage inner) =>
      (assignAll false inner assignments).map fun filled =>
        entries.remove name ++ [(name, .table .header filled)]
  | some _ => none

/-- Adds the table of a block to those under a key. -/
def addItem (name : String) (assignments : List (Key × Toml)) (entries : Entries) :
    Option Entries :=
  match entries.lookup name with
  | none =>
      (assignAll false [] assignments).map fun filled => entries ++ [(name, .tables [filled])]
  | some (.tables items) =>
      (assignAll false [] assignments).map fun filled =>
        Entries.replace entries name (.tables (items ++ [filled]))
  | some _ => none

def addTo (root : Entries) (block : Block) : Option Entries :=
  match block.header with
  | .root => assignAll false root block.assignments
  | .table key =>
      alterAt .header (fun _ => addTable key.name block.assignments) .header key.parents root
  | .item key =>
      alterAt .header (fun _ => addItem key.name block.assignments) .header key.parents root

end Block

/-- A mark that may begin a document and means nothing. -/
def byteOrderMark : Char := '\ufeff'

def withoutMark : List Char → List Char
  | [] => []
  | c :: rest => if c = byteOrderMark then rest else c :: rest

def parse (document : String) : Option Entries := do
  let statements ← readStatements (withoutMark document.toList)
  (Block.ofStatements .root [] statements).foldlM Block.addTo []

end Toml
end ZoneDemand
