import ZoneDemand.Settings

/-!
# Names of choices

A choice among a few settings is made by name.  In the environment the case of
letters does not matter and some choices have a second name; every choice has one
name by which it is written.
-/

namespace ZoneDemand

/-- A text that names no choice, by the kind of choice that it should name. -/
inductive NameFault where
  | policy (text : String)
  | backend (text : String)
  | format (text : String)
deriving DecidableEq, Repr

def NameFault.message : NameFault → String
  | .policy text => s!"Unsupported resample policy: {text}. Supported: exact, bucket"
  | .backend text => s!"Unsupported storage backend: {text}. Supported: fs, s3"
  | .format text => s!"Unsupported log format: {text}. Supported: text, json"

/-- The small form of a letter, as far as it is an ASCII letter: the capital
letters of ASCII and the Kelvin sign have one. -/
def smallLetter (c : Char) : Char := if c = '\u212a' then 'k' else c.toLower

/-- The text names something regardless of the case of its letters. -/
def namesLoosely (text name : String) : Bool := text.toList.map smallLetter = name.toList

def ResamplePolicy.name : ResamplePolicy → String
  | .exact => "exact"
  | .bucketed => "bucket"

def ResamplePolicy.parse (text : String) : Except NameFault ResamplePolicy :=
  if namesLoosely text "exact" ∨ namesLoosely text "reindex" then .ok .exact
  else if namesLoosely text "bucket" ∨ namesLoosely text "bucketed" then .ok .bucketed
  else .error (.policy text)

def Backend.name : Backend → String
  | .directory => "fs"
  | .bucket => "s3"

def Backend.parse (text : String) : Except NameFault Backend :=
  if namesLoosely text "fs" ∨ namesLoosely text "filesystem" then .ok .directory
  else if namesLoosely text "s3" ∨ namesLoosely text "aws" then .ok .bucket
  else .error (.backend text)

def LogFormat.name : LogFormat → String
  | .text => "text"
  | .json => "json"

def LogFormat.parse (text : String) : Except NameFault LogFormat :=
  if namesLoosely text "text" then .ok .text
  else if namesLoosely text "json" then .ok .json
  else .error (.format text)

end ZoneDemand
