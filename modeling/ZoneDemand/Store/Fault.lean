import ZoneDemand.FileTree.Fault

/-!
# Faults and errors of the object store

A store reports only the kind of a fault.  A caller wraps it with the operation
that failed; every operation has a code of its own.
-/

namespace ZoneDemand

inductive StoreFault where
  | unexpected
  | unsupported
  | configInvalid
  | notFound
  | permissionDenied
  | isDirectory
  | notDirectory
  | alreadyExists
  | rateLimited
  | sameFile
  | conditionNotMet
  | rangeNotSatisfied
deriving DecidableEq, Repr

def StoreFault.name : StoreFault → String
  | .unexpected => "Unexpected"
  | .unsupported => "Unsupported"
  | .configInvalid => "ConfigInvalid"
  | .notFound => "NotFound"
  | .permissionDenied => "PermissionDenied"
  | .isDirectory => "IsADirectory"
  | .notDirectory => "NotADirectory"
  | .alreadyExists => "AlreadyExists"
  | .rateLimited => "RateLimited"
  | .sameFile => "IsSameFile"
  | .conditionNotMet => "ConditionNotMatch"
  | .rangeNotSatisfied => "RangeNotSatisfied"

inductive StoreSetupFault where
  | noDirectorySection
  | noBucketSection
  | directory (fault : StoreFault)
  | bucket (fault : StoreFault)
  | other (text : String)
deriving DecidableEq, Repr

def StoreSetupFault.message : StoreSetupFault → String
  | .noDirectorySection => "fs config required for filesystem backend"
  | .noBucketSection => "s3 config required for S3 backend"
  | .directory fault => s!"Failed to create filesystem operator: {fault.name}"
  | .bucket fault => s!"Failed to create S3 operator: {fault.name}"
  | .other text => text

inductive TransferFault where
  | store (fault : StoreFault)
  | nothingListed
  | endedEarly (offset size : Nat)
  | other (text : String)
deriving DecidableEq, Repr

def TransferFault.message : TransferFault → String
  | .store fault => fault.name
  | .nothingListed => "no objects found under prefix"
  | .endedEarly offset size => s!"object ended at byte {offset} of {size}"
  | .other text => text

inductive StorageError where
  | setup (fault : StoreSetupFault)
  | fetch (key : String) (fault : TransferFault)
  | upload (key : String) (fault : TransferFault)
  | localFile (path : String) (fault : FileFault)
deriving DecidableEq, Repr

namespace StorageError

def code : StorageError → String
  | .setup _ => "E001"
  | .fetch .. => "E002"
  | .upload .. => "E003"
  | .localFile .. => "E004"

def message (e : StorageError) : String :=
  s!"[{e.code}] " ++
    match e with
    | .setup fault => s!"Invalid storage configuration: {fault.message}"
    | .fetch key fault => s!"Fetch failed for '{key}': {fault.message}"
    | .upload key fault => s!"Upload failed for '{key}': {fault.message}"
    | .localFile path fault => s!"Local file error at '{path}': {fault.message}"

end StorageError
end ZoneDemand
