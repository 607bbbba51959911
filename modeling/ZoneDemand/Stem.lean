import ZoneDemand.Text.Blank

/-!
# Prefixes of keys

The shapes of the prefix under which raw records are listed and of the one under
which datasets are stored.
-/

namespace ZoneDemand

/-- The prefix of a source names a directory: it starts with no slash and, unless
it is empty, ends in one. -/
def sourceStem (text : String) : String :=
  let trimmed := text.toList.dropWhile (· = '/')
  String.ofList <|
    if trimmed = [] ∨ trimmed.getLast? = some '/' then trimmed else trimmed ++ ['/']

/-- The prefix of a dataset neither starts nor ends with a slash. -/
def datasetStem (text : String) : String :=
  String.ofList (stripBoth (· = '/') text.toList)

end ZoneDemand
